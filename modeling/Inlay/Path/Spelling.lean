import Inlay.Path.Basic

/-!
# Spelling of paths

Reading the spelling of a path gives the path back, so that the spelling determines the path.
-/

namespace Inlay

namespace Text

/-- A text without separators is one piece. -/
theorem splitAt_of_not_mem {separator : Char} {t : Text} (h : separator ∉ t) :
  splitAt separator t = [t]
  := by
  induction t with
  | nil => rfl
  | cons c cs ih =>
    simp only [List.mem_cons, not_or] at h
    simp [splitAt, Ne.symm h.1, ih h.2]

/-- A text without separators is the first piece of a text that goes on with a separator. -/
theorem splitAt_append {separator : Char} {t : Text} (h : separator ∉ t) (rest : Text) :
  splitAt separator (t ++ separator :: rest) = t :: splitAt separator rest
  := by
  induction t with
  | nil => simp [splitAt]
  | cons c cs ih =>
    simp only [List.mem_cons, not_or] at h
    simp [splitAt, Ne.symm h.1, ih h.2]

/-- Splitting undoes joining. -/
theorem splitAt_join
    {separator : Char} {pieces : List Text} (hne : pieces ≠ [])
    (h : ∀ piece ∈ pieces, separator ∉ piece) :
  splitAt separator (join [separator] pieces) = pieces
  := by
  induction pieces with
  | nil => exact absurd rfl hne
  | cons piece pieces ih =>
    cases pieces with
    | nil => exact splitAt_of_not_mem (h piece (by simp))
    | cons next rest =>
      have hrest := ih (by simp) fun q hq => h q (List.mem_cons_of_mem _ hq)
      simp only [join, List.append_assoc, List.singleton_append]
      rw [splitAt_append (h piece (by simp)), hrest]

end Text

namespace Path

theorem segmentsOf_slash (t : Text) :
  segmentsOf ('/' :: t) = segmentsOf t
  := by
  simp [segmentsOf, Text.splitAt, Segment.ofText?]

theorem segmentsOf_joined (segments : List Segment) :
  segmentsOf (joined segments) = segments
  := by
  cases segments with
  | nil => rfl
  | cons s rest =>
    unfold segmentsOf joined
    rw [Text.splitAt_join (by simp)]
    · rw [List.filterMap_map]
      have : Segment.ofText? ∘ Segment.text = some := by
        funext s
        exact s.ofText?_text
      rw [this, List.filterMap_some]
    · intro piece hpiece
      obtain ⟨s, -, rfl⟩ := List.mem_map.1 hpiece
      exact s.slash_not_mem

/-- The joined segments do not start with a slash. -/
theorem joined_head_ne_slash (segments : List Segment) (t : Text) :
  joined segments ≠ '/' :: t
  := by
  intro h
  cases segments with
  | nil => simp [joined, Text.join] at h
  | cons s rest =>
    have hslash : '/' ∉ s.text := s.slash_not_mem
    cases hs : s.text with
    | nil => exact s.text_ne_nil hs
    | cons c cs =>
      have hc : c = '/' := by
        cases rest with
        | nil =>
          simp only [joined, List.map, Text.join, hs] at h
          exact (List.cons.inj h).1
        | cons next rest =>
          simp only [joined, List.map, Text.join, hs, List.cons_append] at h
          exact (List.cons.inj h).1
      rw [hs, hc] at hslash
      simp at hslash

theorem anchorOf_append_joined (anchor : Anchor) (segments : List Segment) :
  anchorOf (anchor.text ++ joined segments) = anchor
  := by
  cases h : joined segments with
  | nil => cases anchor <;> rfl
  | cons c cs =>
    have hc : c ≠ '/' := by
      rintro rfl
      exact joined_head_ne_slash segments cs h
    cases anchor <;> simp [Anchor.text, anchorOf, hc]

/-- Reading the spelling of a path gives the path. -/
theorem ofText_toText (p : Path) :
  ofText p.toText = p
  := by
  obtain ⟨anchor, segments⟩ := p
  unfold toText
  split
  case h_1 hanchor hsegments =>
    simp only at hanchor hsegments
    subst hanchor hsegments
    rfl
  case h_2 =>
    have hsegs : segmentsOf (anchor.text ++ joined segments) = segments := by
      cases anchor <;> simp [Anchor.text, segmentsOf_slash, segmentsOf_joined]
    simp [ofText, anchorOf_append_joined, hsegs]

/-- The segments of a spelling are those of the path. -/
theorem segmentsOf_toText (p : Path) :
  segmentsOf p.toText = p.segments
  := congrArg Path.segments (ofText_toText p)

/-- A spelling starts where the path does. -/
theorem anchorOf_toText (p : Path) :
  anchorOf p.toText = p.anchor
  := congrArg Path.anchor (ofText_toText p)

end Path

end Inlay
