import Inlay.Text.Blank
import Inlay.Text.Word
import Inlay.Text.Pattern

/-!
# Component tokens

A component is asked for by its path between brackets, such as `[ui/card.comp]`.  Between the
brackets stand word characters, slashes, dots, hyphens and blanks, and the last of them are
`.comp`, with something before it.  Neither bracket can stand in between, so a token is found
wherever its opening bracket is, and tokens never overlap.
-/

namespace Inlay.Component

/-- Whether a character may stand between the brackets. -/
def isReferenceChar (c : Char) : Bool :=
  Text.isWord c || c = '/' || c = '.' || c = '-' || Text.isBlank c

/-- The ending of a component's name. -/
def ending : Text :=
  ".comp".toList

/-- Whether a text ends in `.comp` and has something before it. -/
def namesComponent (inner : Text) : Bool :=
  ending.isSuffixOf inner && ending.length < inner.length

/-- A component token: what stands between its brackets. -/
structure Token where
  inner : Text
deriving DecidableEq

/-- The reference of a token, without the blanks around it. -/
def Token.reference (x : Token) : Text :=
  Text.trim x.inner

/-- The token at the head of a text and what follows it. -/
def Token.match? : Text → Option (Token × Text)
  | '[' :: t =>
    match t.dropWhile isReferenceChar with
    | ']' :: rest =>
      let inner := t.takeWhile isReferenceChar
      if namesComponent inner then some (⟨inner⟩, rest) else none
    | _ => none
  | _ => none

/-- The pattern of component tokens. -/
def pattern : Pattern Token where
  match? := Token.match?
  text x := '[' :: (x.inner ++ [']'])
  text_ne_nil := by simp
  eq_of_match? := by
    intro t x rest h
    unfold Token.match? at h
    split at h
    case h_1 t =>
      split at h
      case h_1 rest' hdrop =>
        simp only at h
        split at h
        · cases h
          simp [← hdrop]
        · cases h
      · cases h
    · cases h

/-- The tokens of a text and the gaps between them. -/
def pieces (t : Text) : List (Piece Token) :=
  pattern.pieces t

end Inlay.Component
