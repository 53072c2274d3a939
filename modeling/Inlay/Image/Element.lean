import Inlay.Text.Blank
import Inlay.Text.Folded
import Inlay.Text.Pattern

/-!
# Image elements

An image element is recognised by a `src` whose quoted value ends in the extension of an image,
with something before it.  Letters are compared without regard to case.  Where the opening part of
the element holds several such attributes, the last one counts; the element ends at the first `>`
after its value.
-/

namespace Inlay.Image

/-- The extensions of images. -/
def extensions : List Text :=
  ["png".toList, "jpg".toList, "jpeg".toList, "gif".toList, "svg".toList]

/-- Whether a value ends in a dot and an extension, and has something before them. -/
def endsInExtension (value : Text) : Bool :=
  let backwards := value.reverse
  extensions.any fun extension =>
    match Text.cutFolded? ('.' :: extension).reverse backwards with
    | some (_, rest) => rest ≠ []
    | none => false

/-- An image element: its text up to the value of its source, the value, and its text between the
quote that closes the value and the end of the element. -/
structure Element where
  head : Text
  source : Text
  tail : Text
deriving DecidableEq

/-- The reference of an image element, without the blanks around it. -/
def Element.reference (x : Element) : Text :=
  Text.trim x.source

/-- The text of an image element. -/
def Element.text (x : Element) : Text :=
  x.head ++ x.source ++ '"' :: (x.tail ++ ['>'])

/-- The element whose `src` stands at the head of a text, and what follows the element; `before` is
the text of the element so far, given from its end. -/
def sourceAt? (before t : Text) : Option (Element × Text) :=
  match Text.cutFolded? "src=\"".toList t with
  | none => none
  | some (name, afterName) =>
    match afterName.dropWhile (· ≠ '"') with
    | '"' :: afterValue =>
      let value := afterName.takeWhile (· ≠ '"')
      if endsInExtension value then
        match afterValue.dropWhile (· ≠ '>') with
        | '>' :: rest =>
          some (⟨before.reverse ++ name, value, afterValue.takeWhile (· ≠ '>')⟩, rest)
        | _ => none
      else
        none
    | _ => none

/-- The element whose `src` is the last one that starts before the first `>`, or else `found`. -/
def lastSource? (found : Option (Element × Text)) (before : Text) : Text → Option (Element × Text)
  | [] => found
  | c :: cs =>
    if c = '>' then found
    else lastSource? ((sourceAt? before (c :: cs)).or found) (c :: before) cs

/-- The image element at the head of a text and what follows it. -/
def Element.match? (t : Text) : Option (Element × Text) :=
  match Text.cutFolded? "<img".toList t with
  | none => none
  | some (opening, afterOpening) =>
    let blanks := afterOpening.takeWhile Text.isBlank
    if blanks = [] then none
    else lastSource? none (blanks.reverse ++ opening.reverse) (afterOpening.dropWhile Text.isBlank)

theorem eq_of_sourceAt?
    {before t rest : Text} {x : Element} (h : sourceAt? before t = some (x, rest)) :
  before.reverse ++ t = x.text ++ rest
  := by
  unfold sourceAt? at h
  split at h
  · cases h
  case h_2 name afterName hname =>
    split at h
    case h_1 afterValue hvalue =>
      simp only at h
      split at h
      · split at h
        case h_1 rest' htail =>
          cases h
          have h₁ : afterName.takeWhile (· ≠ '"') ++ afterName.dropWhile (· ≠ '"') = afterName :=
            List.takeWhile_append_dropWhile
          have h₂ : afterValue.takeWhile (· ≠ '>') ++ afterValue.dropWhile (· ≠ '>') = afterValue :=
            List.takeWhile_append_dropWhile
          rw [hvalue, ← h₂, htail] at h₁
          rw [Text.eq_of_cutFolded? hname]
          simpa [Element.text] using h₁.symm
        · cases h
      · cases h
    · cases h

theorem eq_of_lastSource?
    {found : Option (Element × Text)} {before t rest : Text} {x : Element}
    (hfound : ∀ y r, found = some (y, r) → before.reverse ++ t = y.text ++ r)
    (h : lastSource? found before t = some (x, rest)) :
  before.reverse ++ t = x.text ++ rest
  := by
  fun_induction lastSource? found before t with
  | case1 => exact hfound x rest h
  | case2 => exact hfound x rest h
  | case3 found before c cs hc ih =>
    have heq : (c :: before).reverse ++ cs = before.reverse ++ c :: cs := by simp
    rw [← heq]
    apply ih _ h
    intro y r hy
    rw [heq]
    rcases Option.or_eq_some_iff.1 hy with hy | ⟨-, hy⟩
    · exact eq_of_sourceAt? hy
    · exact hfound y r hy

theorem eq_of_match? {t rest : Text} {x : Element} (h : Element.match? t = some (x, rest)) :
  t = x.text ++ rest
  := by
  unfold Element.match? at h
  split at h
  · cases h
  case h_2 opening afterOpening hopening =>
    simp only at h
    split at h
    · cases h
    · have := eq_of_lastSource? (by intro y r hy; cases hy) h
      rw [Text.eq_of_cutFolded? hopening]
      simpa using this

/-- The pattern of image elements. -/
def pattern : Pattern Element where
  match? := Element.match?
  text := Element.text
  text_ne_nil := by simp [Element.text]
  eq_of_match? := eq_of_match?

/-- The image elements of a text and the gaps between them. -/
def pieces (t : Text) : List (Piece Element) :=
  pattern.pieces t

end Inlay.Image
