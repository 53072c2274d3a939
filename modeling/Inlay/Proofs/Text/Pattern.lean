import Inlay.Text.Blank
import Inlay.Text.Pattern
import Mathlib.Data.List.TakeWhile
import Mathlib.Tactic.Use

/-!
# Tokens of a text

Every token among the pieces of a text is recognised somewhere in the text.  A run of characters
ends at the first one that does not belong to it.  Trimming a text keeps an ending without blanks,
and leaves nothing exactly of what is blank.
-/

namespace Inlay

namespace Pattern

variable {τ : Type} (P : Pattern τ)

theorem exists_match?_of_mem_piecesOnto
    {done : List (Piece τ)} {gap t : Text} {x : τ} (h : .token x ∈ P.piecesOnto done gap t) :
  .token x ∈ done ∨ ∃ u rest, P.match? u = some (x, rest)
  := by
  fun_induction P.piecesOnto done gap t with
  | case1 done gap =>
    simp only [closeGap, List.mem_reverse, List.mem_cons, reduceCtorEq, false_or] at h
    exact .inl h
  | case2 done gap c cs y rest hmatch ih =>
    rcases ih h with hmem | hmatch'
    · simp only [closeGap, List.mem_cons, Piece.token.injEq, reduceCtorEq, false_or] at hmem
      rcases hmem with rfl | hmem
      · exact .inr ⟨_, _, hmatch⟩
      · exact .inl hmem
    · exact .inr hmatch'
  | case3 done gap c cs hmatch ih => exact ih h

/-- A token among the pieces is recognised somewhere. -/
theorem exists_match?_of_mem_pieces {t : Text} {x : τ} (h : .token x ∈ P.pieces t) :
  ∃ u rest, P.match? u = some (x, rest)
  := by
  rcases P.exists_match?_of_mem_piecesOnto h with hmem | hmatch
  · simp at hmem
  · exact hmatch

end Pattern

namespace Text

/-- A run of characters ends where the first one does not belong to it. -/
theorem takeWhile_and_dropWhile
    {p : Char → Bool} {run : Text} {c : Char} (hrun : ∀ a ∈ run, p a = true) (hc : p c = false)
    (rest : Text) :
  (run ++ c :: rest).takeWhile p = run ∧ (run ++ c :: rest).dropWhile p = c :: rest
  := by
  have hstop : ¬ p c = true := by simp [hc]
  rw [List.takeWhile_append_of_pos hrun, List.dropWhile_append_of_pos hrun,
    List.takeWhile_cons_of_neg hstop, List.dropWhile_cons_of_neg hstop, List.append_nil]
  exact ⟨rfl, rfl⟩

/-- What does not hold a character lies before it. -/
theorem exists_of_append_eq
    {start rest before after : Text} {c : Char} (h : start ++ rest = before ++ c :: after)
    (hc : c ∉ start) :
  ∃ between, before = start ++ between ∧ rest = between ++ c :: after
  := by
  rcases List.append_eq_append_iff.1 h with ⟨between, rfl, rfl⟩ | ⟨more, rfl, hmore⟩
  · exact ⟨between, rfl, rfl⟩
  · cases more with
    | nil => exact ⟨[], by simp, hmore.symm⟩
    | cons c' more =>
      obtain ⟨rfl, -⟩ := List.cons.inj hmore
      simp at hc

/-- What does not hold a character and ends a text lies behind it. -/
theorem exists_of_append_cons_eq
    {before after front tail : Text} {c : Char} (h : before ++ c :: after = front ++ tail)
    (hc : c ∉ tail) :
  ∃ between, front = before ++ c :: between ∧ after = between ++ tail
  := by
  rcases List.append_eq_append_iff.1 h with ⟨between, rfl, hbetween⟩ | ⟨more, rfl, rfl⟩
  · cases between with
    | nil =>
      rw [List.nil_append] at hbetween
      rw [← hbetween] at hc
      simp at hc
    | cons c' between =>
      obtain ⟨rfl, rfl⟩ := List.cons.inj hbetween
      exact ⟨between, rfl, rfl⟩
  · simp at hc

/-- A text is cut in one way at the first of a character. -/
theorem append_cons_inj
    {before after before' after' : Text} {c : Char}
    (h : before ++ c :: after = before' ++ c :: after') (hc : c ∉ before) (hc' : c ∉ before') :
  before = before' ∧ after = after'
  := by
  obtain ⟨between, rfl, hrest⟩ := exists_of_append_eq h hc
  cases between with
  | nil =>
    rw [List.append_nil]
    exact ⟨rfl, (List.cons.inj hrest).2⟩
  | cons c' between =>
    obtain ⟨rfl, -⟩ := List.cons.inj hrest
    simp at hc'

/-- Dropping from the front stops before an ending whose first character stays. -/
theorem isSuffix_dropWhile {p : Char → Bool} {t tail : Text} (h : tail <:+ t) (hp : ∀ c ∈ tail, ¬ p c) :
  tail <:+ t.dropWhile p
  := by
  induction t with
  | nil => simpa using h
  | cons c cs ih =>
    rcases List.suffix_cons_iff.1 h with rfl | h
    · have hkept : (c :: cs).dropWhile p = c :: cs := List.dropWhile_cons_of_neg (hp c (by simp))
      exact hkept.symm ▸ List.suffix_refl _
    · rw [List.dropWhile_cons]
      split
      · apply ih h
      · apply h.trans (List.suffix_cons c cs)

/-- Dropping from the end stops at an ending whose characters stay. -/
theorem isSuffix_dropEndWhile
    {p : Char → Bool} {t tail : Text} (h : tail <:+ t) (hne : tail ≠ []) (hp : ∀ c ∈ tail, ¬ p c) :
  tail <:+ dropEndWhile p t
  := by
  obtain ⟨front, rfl⟩ := h
  obtain ⟨above, last, rfl⟩ : ∃ above last, tail = above ++ [last] := by
    rcases List.eq_nil_or_concat tail with rfl | ⟨above, last, rfl⟩
    · exact absurd rfl hne
    · exact ⟨above, last, by simp⟩
  have hlast := hp last (by simp)
  use front
  simp [dropEndWhile, hlast]

/-- Trimming keeps an ending without blanks. -/
theorem isSuffix_trim
    {t tail : Text} (h : tail <:+ t) (hne : tail ≠ []) (hp : ∀ c ∈ tail, ¬ isBlank c) :
  tail <:+ trim t
  := isSuffix_dropEndWhile (isSuffix_dropWhile h hp) hne hp

/-- Trimming a text adds nothing to it. -/
theorem mem_of_mem_trim {t : Text} {c : Char} (h : c ∈ trim t) :
  c ∈ t
  := by
  rw [trim, dropEndWhile, List.mem_reverse] at h
  have hmem := (List.dropWhile_suffix _).subset h
  exact (List.dropWhile_suffix _).subset (List.mem_reverse.1 hmem)

theorem mem_dropWhile {p : Char → Bool} {t : Text} {c : Char} (h : c ∈ t) (hc : p c = false) :
  c ∈ t.dropWhile p
  := by
  rw [← List.takeWhile_append_dropWhile (p := p) (l := t), List.mem_append] at h
  rcases h with h | h
  · rw [List.mem_takeWhile_imp h] at hc
    cases hc
  · exact h

/-- A character that is not blank is not trimmed away. -/
theorem mem_trim {t : Text} {c : Char} (h : c ∈ t) (hc : isBlank c = false) :
  c ∈ trim t
  := by
  rw [trim, dropEndWhile, List.mem_reverse]
  apply mem_dropWhile _ hc
  rw [List.mem_reverse]
  exact mem_dropWhile h hc

/-- Nothing is left of a text by trimming exactly if all of it is blank. -/
theorem trim_eq_nil_iff {t : Text} :
  trim t = [] ↔ ∀ c ∈ t, isBlank c = true
  := by
  have htrim : trim t = [] ↔ ∀ c ∈ t.dropWhile isBlank, isBlank c = true := by
    rw [trim, dropEndWhile, List.reverse_eq_nil_iff, List.dropWhile_eq_nil_iff]
    simp only [List.mem_reverse]
  rw [htrim]
  constructor
  · intro h c hc
    rw [← List.takeWhile_append_dropWhile (p := isBlank) (l := t), List.mem_append] at hc
    rcases hc with hc | hc
    · exact List.mem_takeWhile_imp hc
    · exact h c hc
  · intro h c hc
    apply h c
    exact (List.dropWhile_suffix _).subset hc

end Text

end Inlay
