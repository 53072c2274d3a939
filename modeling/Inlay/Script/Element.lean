import Inlay.Text.Blank
import Inlay.Text.Pattern

/-!
# Script elements

A script element is recognised when `src` is its only attribute and it is closed at once, as in
`<script src="app.js"></script>`.  The value of `src` has at least one character and goes, within
its line, up to the nearest closing.
-/

namespace Inlay.Script

/-- What a script element starts with. -/
def opening : Text :=
  "<script".toList

/-- The attribute, up to the quote before its value. -/
def sourceName : Text :=
  "src=\"".toList

/-- What stands after the value. -/
def closing : Text :=
  "\"></script>".toList

/-- A script element: the blanks before its attribute, and the value of the attribute. -/
structure Element where
  blanks : Text
  source : Text
deriving DecidableEq

/-- The reference of a script element, without the blanks around it. -/
def Element.reference (x : Element) : Text :=
  Text.trim x.source

/-- The text of a script element. -/
def Element.text (x : Element) : Text :=
  opening ++ x.blanks ++ sourceName ++ x.source ++ closing

/-- The rest of a value up to the nearest closing on the line, and what follows the closing;
`value` are the characters of the value so far, the last one first. -/
def valueFrom? (value : Text) (t : Text) : Option (Text × Text) :=
  match closing.isPrefixOf? t with
  | some rest => some (value.reverse, rest)
  | none =>
    match t with
    | [] => none
    | c :: cs => if c = '\n' then none else valueFrom? (c :: value) cs

/-- The value at the head of a text, which is not empty, and what follows its closing. -/
def value? : Text → Option (Text × Text)
  | [] => none
  | c :: cs => if c = '\n' then none else valueFrom? [c] cs

/-- The script element at the head of a text and what follows it. -/
def Element.match? (t : Text) : Option (Element × Text) :=
  match opening.isPrefixOf? t with
  | none => none
  | some afterOpening =>
    let blanks := afterOpening.takeWhile Text.isBlank
    if blanks = [] then none
    else
      match sourceName.isPrefixOf? (afterOpening.dropWhile Text.isBlank) with
      | none => none
      | some afterName =>
        match value? afterName with
        | none => none
        | some (source, rest) => some (⟨blanks, source⟩, rest)

theorem eq_of_valueFrom? {value t found rest : Text} (h : valueFrom? value t = some (found, rest)) :
  value.reverse ++ t = found ++ closing ++ rest
  := by
  fun_induction valueFrom? value t with
  | case1 value t after hclosing =>
    cases h
    rw [Text.eq_of_isPrefixOf? hclosing, List.append_assoc]
  | case2 => cases h
  | case3 => cases h
  | case4 value c cs hclosing hc ih => simpa using ih h

theorem eq_of_value? {t found rest : Text} (h : value? t = some (found, rest)) :
  t = found ++ closing ++ rest
  := by
  cases t with
  | nil => cases h
  | cons c cs =>
    simp only [value?] at h
    split at h
    · cases h
    · simpa using eq_of_valueFrom? h

/-- The pattern of script elements. -/
def pattern : Pattern Element where
  match? := Element.match?
  text := Element.text
  text_ne_nil := by
    intro x h
    simp only [Element.text, List.append_eq_nil_iff, List.append_assoc] at h
    exact absurd h.1 (by decide)
  eq_of_match? := by
    intro t x rest h
    unfold Element.match? at h
    split at h
    · cases h
    case h_2 afterOpening hopening =>
      simp only at h
      split at h
      · cases h
      · split at h
        · cases h
        case h_2 afterName hname =>
          split at h
          · cases h
          case h_2 source rest' hvalue =>
            cases h
            have hsplit : afterOpening.takeWhile Text.isBlank
                ++ afterOpening.dropWhile Text.isBlank = afterOpening :=
              List.takeWhile_append_dropWhile
            rw [Text.eq_of_isPrefixOf? hname, eq_of_value? hvalue] at hsplit
            rw [Text.eq_of_isPrefixOf? hopening]
            simpa [Element.text] using hsplit.symm

/-- The script elements of a text and the gaps between them. -/
def pieces (t : Text) : List (Piece Element) :=
  pattern.pieces t

end Inlay.Script
