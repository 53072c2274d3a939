import Inlay.Text.Blank
import Inlay.Text.Folded
import Mathlib.Data.List.Basic

/-!
# Starts without regard to case

A start is cut off a text exactly if its letters, folded, are those of the lead
(`cutFolded?_eq_some_iff`).  Folding only leads to small letters: a character that folds to any other
is that character itself.
-/

namespace Inlay.Text

variable {c l : Char} {lead t start rest : Text}

/-- Whether a character is a small letter of ASCII. -/
def isSmall (c : Char) : Bool :=
  'a' ≤ c && c ≤ 'z'

/-- The small letter of a capital is small. -/
theorem isSmall_of_capital (h : 'A' ≤ c ∧ c ≤ 'Z') :
  isSmall (Char.ofNat (c.toNat + 32)) = true
  := by
  have hletters : ∀ n ≤ 'Z'.toNat, 'A'.toNat ≤ n → isSmall (Char.ofNat (n + 32)) = true := by
    decide
  exact hletters c.toNat h.2 h.1

/-- What folds to a character that is no small letter is that character. -/
theorem eq_of_foldLetter (h : foldLetter c = l) (hl : isSmall l = false) :
  c = l
  := by
  rw [foldLetter] at h
  split at h
  case isTrue hc =>
    rw [← h, isSmall_of_capital hc] at hl
    cases hl
  case isFalse =>
    split at h
    · rw [← h] at hl
      exact absurd hl (by decide)
    · split at h
      · rw [← h] at hl
        exact absurd hl (by decide)
      · exact h

/-- A blank character folds to itself. -/
theorem foldLetter_of_isBlank (h : isBlank c = true) :
  foldLetter c = c
  := by
  rw [foldLetter]
  split
  case isTrue hc =>
    have hletters : ∀ n ≤ 'Z'.toNat, 'A'.toNat ≤ n → blankRanges.holds n = false := by decide
    rw [isBlank, hletters c.toNat hc.2 hc.1] at h
    cases h
  case isFalse =>
    split
    case isTrue hc =>
      rcases hc with rfl | rfl <;> exact absurd h (by decide)
    case isFalse =>
      split
      case isTrue hc =>
        subst hc
        exact absurd h (by decide)
      case isFalse => rfl

/-- What folds to a character that is not blank is not blank either. -/
theorem isBlank_eq_false_of_foldLetter (h : foldLetter c = l) (hl : isBlank l = false) :
  isBlank c = false
  := by
  cases hc : isBlank c with
  | false => rfl
  | true =>
    rw [foldLetter_of_isBlank hc] at h
    rw [← hc, h, hl]

/-- What folds to a small letter is not blank. -/
theorem isBlank_eq_false_of_isSmall (h : isSmall (foldLetter c) = true) :
  isBlank c = false
  := by
  have hletters : ∀ n ≤ 'z'.toNat, 'a'.toNat ≤ n → blankRanges.holds n = false := by decide
  apply isBlank_eq_false_of_foldLetter rfl
  rw [isSmall, Bool.and_eq_true, decide_eq_true_eq, decide_eq_true_eq] at h
  exact hletters _ h.2 h.1

/-- A character that does not fold to any in the lead does not stand in the start. -/
theorem not_mem_of_map_foldLetter (h : start.map foldLetter = lead) (hc : foldLetter c ∉ lead) :
  c ∉ start
  := by
  intro hmem
  rw [← h] at hc
  exact hc (List.mem_map_of_mem hmem)

/-- The start that is cut off is the lead without regard to case. -/
theorem map_foldLetter_of_cutFolded? (h : cutFolded? lead t = some (start, rest)) :
  start.map foldLetter = lead
  := by
  fun_induction cutFolded? lead t generalizing start rest with
  | case1 =>
    cases h
    rfl
  | case2 => cases h
  | case3 ls c cs ih =>
    simp only [Option.map_eq_some_iff, Prod.exists, Prod.mk.injEq] at h
    obtain ⟨start', rest', hcut, rfl, rfl⟩ := h
    rw [List.map_cons, ih hcut]
  | case4 => cases h

/-- What folds to the lead is cut off. -/
theorem cutFolded?_append (start rest : Text) :
  cutFolded? (start.map foldLetter) (start ++ rest) = some (start, rest)
  := by
  induction start with
  | nil => rfl
  | cons c cs ih => simp [cutFolded?, ih]

/-- A start is cut off exactly if it is the lead without regard to case. -/
theorem cutFolded?_eq_some_iff :
  cutFolded? lead t = some (start, rest) ↔ t = start ++ rest ∧ start.map foldLetter = lead
  := by
  constructor
  · intro h
    exact ⟨eq_of_cutFolded? h, map_foldLetter_of_cutFolded? h⟩
  · rintro ⟨rfl, rfl⟩
    apply cutFolded?_append

end Inlay.Text
