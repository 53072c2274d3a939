import Inlay.Json.Lexer

/-!
# Reading JSON

A text is read by going through its tokens with a stack of the containers that are open.  The first
token that does not fit where it stands decides the error, which tells what was expected there and
where.  When a key comes again, its last value counts, in its first place.  Containers may be open
within one another up to a limit.
-/

namespace Inlay.Json

/-- A container that is open: an array with its items so far, the last one first, or an object with
its members so far and the key whose value is being read. -/
inductive Open where
  | array (items : List Json)
  | object (members : Members) (key : Text)

/-- What is expected next, and within which open containers, innermost first. -/
inductive Expecting where
  | value (stack : List Open)
  /-- An item of an array just opened, or its end. -/
  | item (stack : List Open)
  /-- A key of an object, or its end if it has just been opened. -/
  | key (members : Members) (justOpened : Bool) (stack : List Open)
  | colon (members : Members) (key : Text) (stack : List Open)
  /-- A comma after an item, or the end of the array. -/
  | afterItem (items : List Json) (stack : List Open)
  /-- A comma after a member, or the end of the object. -/
  | afterMember (members : Members) (stack : List Open)
  /-- Nothing. -/
  | done (v : Json)

/-- The kinds of containers. -/
inductive Container where
  | array
  | object
deriving DecidableEq, Repr

/-- Why a text could not be read. -/
inductive ReadError where
  /-- A flaw at a position of a line and a column. -/
  | flaw (flaw : Flaw) (line column position : Nat)
  /-- An integer has too many digits. -/
  | longInteger (digits : Nat)
  /-- A container is opened within too many others. -/
  | tooDeep (container : Container)
deriving DecidableEq, Repr

/-- Why a token does not fit. -/
inductive Misfit where
  | flaw (flaw : Flaw) (position : Nat)
  | longInteger (digits : Nat)
  | tooDeep (container : Container)

/-- What is expected after a value. -/
def complete (v : Json) : List Open → Expecting
  | [] => .done v
  | .array items :: stack => .afterItem (v :: items) stack
  | .object members key :: stack => .afterMember (members.put key v) stack

/-- Opens a container, unless as many are open as may be. -/
def openContainer (maxDepth : Nat) (container : Container) (stack : List Open) :
    Except Misfit Expecting :=
  if maxDepth ≤ stack.length then .error (.tooDeep container)
  else
    match container with
    | .array => .ok (.item stack)
    | .object => .ok (.key [] true stack)

/-- Reads the first token of a value. -/
def beginValue (maxDepth : Nat) (stack : List Open) (t : PlacedToken) : Except Misfit Expecting :=
  match t.token with
  | .openArray => openContainer maxDepth .array stack
  | .openObject => openContainer maxDepth .object stack
  | .scalar v => .ok (complete v stack)
  | .string s => .ok (complete (.str s) stack)
  | .brokenString flaw position => .error (.flaw flaw position)
  | .longInteger n => .error (.longInteger n)
  | _ => .error (.flaw .expectedValue t.position)

/-- Reads a token. -/
def Expecting.step (maxDepth : Nat) : Expecting → PlacedToken → Except Misfit Expecting
  | .value stack, t => beginValue maxDepth stack t
  | .item stack, t =>
    match t.token with
    | .closeArray => .ok (complete (.arr []) stack)
    | _ => beginValue maxDepth (.array [] :: stack) t
  | .key members justOpened stack, t =>
    match t.token with
    | .string s => .ok (.colon members s stack)
    | .brokenString flaw position => .error (.flaw flaw position)
    | .closeObject =>
      if justOpened then .ok (complete (.obj []) stack)
      else .error (.flaw .expectedKey t.position)
    | _ => .error (.flaw .expectedKey t.position)
  | .colon members name stack, t =>
    match t.token with
    | .colon => .ok (.value (.object members name :: stack))
    | _ => .error (.flaw .expectedColon t.position)
  | .afterItem items stack, t =>
    match t.token with
    | .comma => .ok (.value (.array items :: stack))
    | .closeArray => .ok (complete (.arr items.reverse) stack)
    | _ => .error (.flaw .expectedComma t.position)
  | .afterMember members stack, t =>
    match t.token with
    | .comma => .ok (.key members false stack)
    | .closeObject => .ok (complete (.obj members) stack)
    | _ => .error (.flaw .expectedComma t.position)
  | .done _, t => .error (.flaw .extraData t.position)

/-- The value that was read when the text ends at a position. -/
def Expecting.finish (position : Nat) : Expecting → Except Misfit Json
  | .done v => .ok v
  | .value _ => .error (.flaw .expectedValue position)
  | .item _ => .error (.flaw .expectedValue position)
  | .key .. => .error (.flaw .expectedKey position)
  | .colon .. => .error (.flaw .expectedColon position)
  | .afterItem .. => .error (.flaw .expectedComma position)
  | .afterMember .. => .error (.flaw .expectedComma position)

/-- Reads tokens up to the end of the text at a position. -/
def parse (maxDepth length : Nat) : Expecting → List PlacedToken → Except Misfit Json
  | e, [] => e.finish length
  | e, t :: ts =>
    match e.step maxDepth t with
    | .error misfit => .error misfit
    | .ok next => parse maxDepth length next ts

/-- The error of a token of a text that does not fit, with its line and column. -/
def Misfit.locate (t : Text) : Misfit → ReadError
  | .longInteger n => .longInteger n
  | .tooDeep container => .tooDeep container
  | .flaw why position =>
    let before := t.take position
    .flaw why (before.count '\n' + 1) ((before.reverse.takeWhile (· ≠ '\n')).length + 1) position

/-- The value that a text spells, with at most a number of containers open within one another. -/
def read (maxDepth : Nat) (t : Text) : Except ReadError Json :=
  if t.head? = some '\uFEFF' then
    .error (.flaw .byteOrderMark 1 1 0)
  else
    match parse maxDepth t.length (.value []) (tokens t) with
    | .ok v => .ok v
    | .error misfit => .error (misfit.locate t)

/-! ### Wording -/

/-- The words for a flaw. -/
def Flaw.message : Flaw → Text
  | .expectedValue => "Expecting value".toList
  | .expectedKey => "Expecting property name enclosed in double quotes".toList
  | .expectedColon => "Expecting ':' delimiter".toList
  | .expectedComma => "Expecting ',' delimiter".toList
  | .extraData => "Extra data".toList
  | .unterminatedString => "Unterminated string starting at".toList
  | .controlCharacter => "Invalid control character at".toList
  | .invalidEscape => "Invalid \\escape".toList
  | .invalidUnicodeEscape => "Invalid \\uXXXX escape".toList
  | .byteOrderMark => "Unexpected UTF-8 BOM (decode using utf-8-sig)".toList

/-- The word for a kind of container. -/
def Container.word : Container → Text
  | .array => "array".toList
  | .object => "object".toList

/-- The words for an error. -/
def ReadError.message : ReadError → Text
  | .flaw why line column position =>
    why.message ++ ": line ".toList ++ Text.ofNat line ++ " column ".toList ++ Text.ofNat column
      ++ " (char ".toList ++ Text.ofNat position ++ ")".toList
  | .longInteger n =>
    "Exceeds the limit (".toList ++ Text.ofNat maxDigits
      ++ " digits) for integer string conversion: value has ".toList ++ Text.ofNat n
      ++ " digits; use sys.set_int_max_str_digits() to increase the limit".toList
  | .tooDeep container =>
    "maximum recursion depth exceeded while decoding a JSON ".toList ++ container.word
      ++ " from a unicode string".toList

end Inlay.Json
