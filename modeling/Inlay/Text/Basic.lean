/-!
# Text

A text is a list of characters.  This module holds the cuts of a text that the rest of the
library shares: splitting at a separator, joining with one, dropping an end, and counting; and the
comparison of names, which is done often enough that it has a function of its own.
-/

namespace Inlay

/-- A text is a list of characters. -/
abbrev Text := List Char

namespace Text

/-- The pieces of a text between the occurrences of a separator; there is always at least one. -/
def splitAt (separator : Char) : Text → List Text
  | [] => [[]]
  | c :: cs =>
    if c = separator then
      [] :: splitAt separator cs
    else
      match splitAt separator cs with
      | [] => [[c]]
      | piece :: pieces => (c :: piece) :: pieces

/-- The texts one after another, with a separator between neighbours. -/
def join (separator : Text) : List Text → Text
  | [] => []
  | [t] => t
  | t :: u :: rest => t ++ separator ++ join separator (u :: rest)

/-- A text without its longest end of characters that satisfy `p`. -/
def dropEndWhile (p : Char → Bool) (t : Text) : Text :=
  (t.reverse.dropWhile p).reverse

/-- The decimal numeral of a number. -/
def ofNat (n : Nat) : Text :=
  Nat.toDigits 10 n

/-- Whether two texts have the same characters. -/
def same : Text → Text → Bool
  | [], [] => true
  | c :: cs, d :: ds => c == d && same cs ds
  | _, _ => false

theorem same_iff {t u : Text} :
  same t u = true ↔ t = u
  := by
  induction t generalizing u with
  | nil => cases u <;> simp [same]
  | cons c cs ih => cases u <;> simp [same, ih]

/-- What follows a start that was found follows it in the text. -/
theorem eq_of_isPrefixOf? {lead t rest : Text} (h : lead.isPrefixOf? t = some rest) :
  t = lead ++ rest
  := by
  induction lead generalizing t with
  | nil => exact Option.some.inj h
  | cons c cs ih =>
    cases t with
    | nil => cases h
    | cons d ds =>
      have hhead : (if c == d then cs.isPrefixOf? ds else none) = some rest := h
      split at hhead
      case isTrue heq =>
        rw [ih hhead, beq_iff_eq.1 heq, List.cons_append]
      case isFalse => cases hhead

theorem splitAt_ne_nil (separator : Char) (t : Text) :
  splitAt separator t ≠ []
  := by
  cases t with
  | nil => simp [splitAt]
  | cons c cs =>
    unfold splitAt
    split
    · simp
    · split <;> simp

/-- No piece holds the separator. -/
theorem not_mem_of_mem_splitAt
    {separator : Char} {t piece : Text} (h : piece ∈ splitAt separator t) :
  separator ∉ piece
  := by
  induction t generalizing piece with
  | nil => simp [splitAt] at h; simp [h]
  | cons c cs ih =>
    unfold splitAt at h
    split at h
    case isTrue =>
      rcases List.mem_cons.1 h with rfl | h
      · simp
      · exact ih h
    case isFalse hc =>
      cases hs : splitAt separator cs with
      | nil => exact absurd hs (splitAt_ne_nil separator cs)
      | cons first pieces =>
        rw [hs] at h ih
        rcases List.mem_cons.1 h with rfl | h
        · have := ih (List.mem_cons_self ..)
          simp [this, Ne.symm hc]
        · exact ih (List.mem_cons_of_mem _ h)

end Text

end Inlay
