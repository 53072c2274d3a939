import Inlay.Text.Basic

/-!
# Letters without regard to case

Two letters are taken for the same when they differ only in case.  Besides the ASCII letters this
concerns the capital i with a dot, the small i without one, and the long s.
-/

namespace Inlay.Text

/-- The small ASCII letter that a character is taken for, or the character itself. -/
def foldLetter (c : Char) : Char :=
  if 'A' ≤ c ∧ c ≤ 'Z' then Char.ofNat (c.toNat + 32)
  else if c = '\u0130' ∨ c = '\u0131' then 'i'
  else if c = '\u017F' then 's'
  else c

/-- Cuts off the start of a text that is `lead` without regard to case. -/
def cutFolded? (lead t : Text) : Option (Text × Text) :=
  match lead, t with
  | [], t => some ([], t)
  | _ :: _, [] => none
  | l :: ls, c :: cs =>
    if foldLetter c = l then (cutFolded? ls cs).map fun (start, rest) => (c :: start, rest)
    else none

/-- The two parts of a cut make up the text. -/
theorem eq_of_cutFolded? {lead t start rest : Text} (h : cutFolded? lead t = some (start, rest)) :
  t = start ++ rest
  := by
  fun_induction cutFolded? lead t generalizing start rest with
  | case1 => cases h; rfl
  | case2 => cases h
  | case3 ls c cs ih =>
    simp only [Option.map_eq_some_iff, Prod.exists, Prod.mk.injEq] at h
    obtain ⟨start', rest', hcut, rfl, rfl⟩ := h
    rw [ih hcut, List.cons_append]
  | case4 => cases h

end Inlay.Text
