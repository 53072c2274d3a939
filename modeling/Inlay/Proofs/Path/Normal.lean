import Inlay.Path.Reference
import Inlay.Path.Spelling
import Mathlib.Data.List.Induction
import Mathlib.Tactic.Use

/-!
# Walked segments and resolved references

What walking the segments of a path leaves: below a root no double dot, and the last segment, unless
it is a double dot.  So a reference that is resolved in a rooted project gives a rooted path without
double dots that ends in the name that the reference ends with.
-/

namespace Inlay

/-! ### Walking -/

namespace Path

theorem up_not_mem_walkStep {walked : List Segment} (h : Segment.up ∉ walked) (s : Segment) :
  Segment.up ∉ walkStep true walked s
  := by
  unfold walkStep
  split
  · cases walked with
    | nil => simp
    | cons last before =>
      simp only [List.mem_cons, not_or] at h
      simp [Ne.symm h.1, h.2]
  · rename_i hs
    simp [h, Ne.symm hs]

theorem up_not_mem_foldl_walkStep
    {walked : List Segment} (h : Segment.up ∉ walked) (segments : List Segment) :
  Segment.up ∉ segments.foldl (walkStep true) walked
  := by
  induction segments generalizing walked with
  | nil => exact h
  | cons s segments ih => apply ih (up_not_mem_walkStep h s)

/-- Below a root no double dot remains. -/
theorem up_not_mem_normalSegments (segments : List Segment) :
  Segment.up ∉ normalSegments true segments
  := by
  rw [normalSegments, List.mem_reverse]
  apply up_not_mem_foldl_walkStep
  simp

/-- A last segment that is not a double dot stays. -/
theorem normalSegments_concat
    {s : Segment} (h : s ≠ Segment.up) (absolute : Bool) (segments : List Segment) :
  normalSegments absolute (segments ++ [s]) = normalSegments absolute segments ++ [s]
  := by
  simp [normalSegments, walkStep, h]

/-- Walking segments without double dots changes nothing. -/
theorem normalSegments_of_not_mem
    {segments : List Segment} (h : Segment.up ∉ segments) (absolute : Bool) :
  normalSegments absolute segments = segments
  := by
  induction segments using List.reverseRecOn with
  | nil => rfl
  | append_singleton segments s ih =>
    rw [List.mem_append, List.mem_singleton, not_or] at h
    rw [normalSegments_concat (Ne.symm h.2), ih h.1]

end Path

/-! ### Endings -/

namespace Text

/-- An ending without separators is an ending of the last piece. -/
theorem exists_splitAt_eq_concat
    {separator : Char} {t tail : Text} (htail : tail <:+ t) (hne : tail ≠ [])
    (hseparator : separator ∉ tail) :
  ∃ pieces piece, splitAt separator t = pieces ++ [piece] ∧ tail <:+ piece
  := by
  induction t with
  | nil => exact absurd (List.suffix_nil.1 htail) hne
  | cons c cs ih =>
    rcases List.suffix_cons_iff.1 htail with rfl | htail
    · rw [splitAt_of_not_mem hseparator]
      use [], c :: cs
      constructor
      · rfl
      · apply List.suffix_refl
    · obtain ⟨pieces, piece, hsplit, hpiece⟩ := ih htail
      rw [splitAt]
      split
      · rw [hsplit]
        use [] :: pieces, piece, rfl
      · rw [hsplit]
        cases pieces with
        | nil =>
          use [], c :: piece, rfl
          apply hpiece.trans (List.suffix_cons c piece)
        | cons first pieces =>
          use (c :: first) :: pieces, piece, rfl

end Text

namespace Path

/-- The last segment of a text has the ending of the text, if that ending is a name's. -/
theorem exists_segmentsOf_eq_concat
    {t tail : Text} (htail : tail <:+ t) (hslash : '/' ∉ tail) (hlong : 2 < tail.length) :
  ∃ segments s, segmentsOf t = segments ++ [s] ∧ tail <:+ s.text ∧ s ≠ Segment.up
  := by
  have hne : tail ≠ [] := by
    rintro rfl
    simp at hlong
  obtain ⟨pieces, piece, hsplit, hpiece⟩ := Text.exists_splitAt_eq_concat htail hne hslash
  have hlength : 2 < piece.length := Nat.lt_of_lt_of_le hlong hpiece.length_le
  have hsegment : piece ≠ [] ∧ piece ≠ ['.'] ∧ '/' ∉ piece := by
    refine ⟨?_, ?_, ?_⟩
    · rintro rfl
      simp at hlength
    · rintro rfl
      simp at hlength
    · apply Text.not_mem_of_mem_splitAt (t := t)
      simp [hsplit]
  use pieces.filterMap Segment.ofText?, ⟨piece, hsegment.1, hsegment.2.1, hsegment.2.2⟩
  refine ⟨?_, hpiece, ?_⟩
  · simp [segmentsOf, hsplit, Segment.ofText?, hsegment]
  · rw [Ne, Segment.ext_iff]
    rintro hup
    rw [show piece = Segment.up.text from hup] at hlength
    exact absurd hlength (by decide)

/-! ### Resolved references -/

/-- A resolved reference starts where the directory of the document and the root of the project
start. -/
theorem anchor_resolve
    {reference : Text} {base root : Path} (h : base.anchor = root.anchor) :
  (resolve reference base root).anchor = root.anchor
  := by
  rw [resolve]
  split
  · exact h
  · rfl

/-- A resolved reference in a rooted project has no double dots. -/
theorem up_not_mem_resolve
    {reference : Text} {base root : Path} (h : base.anchor = root.anchor) (habs : root.isAbsolute) :
  Segment.up ∉ (resolve reference base root).segments
  := by
  have hroot : root.anchor ≠ .here := by simpa [isAbsolute] using habs
  rw [resolve]
  split
  · simp only [normalize, isAbsolute, h, hroot, ne_eq, not_false_eq_true, decide_true]
    apply up_not_mem_normalSegments
  · simp only [normalize, isAbsolute, hroot, ne_eq, not_false_eq_true, decide_true]
    apply up_not_mem_normalSegments

/-- A resolved reference ends in the name that the reference ends with. -/
theorem exists_resolve_eq_concat
    {reference tail : Text} (htail : tail <:+ reference) (hslash : '/' ∉ tail)
    (hlong : 2 < tail.length) (base root : Path) :
  ∃ s : Segment, (resolve reference base root).segments.getLast? = some s ∧ tail <:+ s.text
  := by
  obtain ⟨segments, s, hsegments, hs, hup⟩ := exists_segmentsOf_eq_concat htail hslash hlong
  use s
  rw [resolve]
  split <;>
    simp [normalize, hsegments, normalSegments_concat hup, ← List.append_assoc, hs]

/-- An empty reference denotes the directory of the document. -/
theorem resolve_nil {base : Path} (h : Segment.up ∉ base.segments) (root : Path) :
  resolve [] base root = base
  := by
  have hempty : resolve [] base root = normalize ⟨base.anchor, base.segments ++ []⟩ := rfl
  rw [hempty, List.append_nil, normalize, normalSegments_of_not_mem h]

end Path

end Inlay
