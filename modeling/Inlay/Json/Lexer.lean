import Inlay.Json.Basic

/-!
# JSON tokens

A text is cut into tokens, each with the position at which it starts.  Strings and numbers that are
broken are tokens too, since it depends on the place whether they are what is wrong; nothing is read
beyond a broken token or a character that begins none.
-/

namespace Inlay.Json

/-- What is wrong with a text that is not JSON. -/
inductive Flaw where
  | expectedValue
  | expectedKey
  | expectedColon
  | expectedComma
  | extraData
  | unterminatedString
  | controlCharacter
  | invalidEscape
  | invalidUnicodeEscape
  | byteOrderMark
deriving DecidableEq, Repr

/-- A part of a text. -/
inductive Token where
  | openArray
  | closeArray
  | openObject
  | closeObject
  | comma
  | colon
  | scalar (v : Json)
  | string (t : Text)
  /-- A string that is broken by a flaw at a position. -/
  | brokenString (flaw : Flaw) (position : Nat)
  /-- An integer of too many digits. -/
  | longInteger (digits : Nat)
  /-- A character that begins no token. -/
  | unknown

/-- A token at the position at which it starts. -/
structure PlacedToken where
  position : Nat
  token : Token

/-- The most digits that an integer may have. -/
def maxDigits : Nat := 4300

/-! ### Strings -/

/-- The value of a hexadecimal digit. -/
def hexValue? (c : Char) : Option Nat :=
  if '0' ≤ c ∧ c ≤ '9' then some (c.toNat - '0'.toNat)
  else if 'a' ≤ c ∧ c ≤ 'f' then some (c.toNat - 'a'.toNat + 10)
  else if 'A' ≤ c ∧ c ≤ 'F' then some (c.toNat - 'A'.toNat + 10)
  else none

/-- The value of the four hexadecimal digits at the head of a text. -/
def hexFour? : Text → Option Nat
  | a :: b :: c :: d :: _ => do
    return (((← hexValue? a) * 16 + (← hexValue? b)) * 16 + (← hexValue? c)) * 16 + (← hexValue? d)
  | _ => none

/-- The character that a letter after a backslash stands for. -/
def simpleEscape? (c : Char) : Option Char :=
  match c with
  | '"' => some '"'
  | '\\' => some '\\'
  | '/' => some '/'
  | 'b' => some '\x08'
  | 'f' => some '\x0C'
  | 'n' => some '\n'
  | 'r' => some '\r'
  | 't' => some '\t'
  | _ => none

/-- The character of a code point; half of a pair has none and is replaced. -/
def charOfCode (code : Nat) : Char :=
  if 0xD800 ≤ code ∧ code < 0xE000 then '\uFFFD' else Char.ofNat code

/-- The character that an escape by four digits stands for, and the number of characters after the
`u`.  The escape stands at the position of its backslash, and `t` follows the `u`.  The string goes
on after the digits, at least by its quote. -/
def unicodeEscape (position : Nat) (t : Text) : Except (Flaw × Nat) (Char × Nat) :=
  match (if (t.drop 4).isEmpty then none else hexFour? t) with
  | none => .error (.invalidUnicodeEscape, position + 1)
  | some high =>
    let after := t.drop 4
    if 0xD800 ≤ high ∧ high < 0xDC00 ∧ after.take 2 = ['\\', 'u'] ∧ !(after.drop 6).isEmpty then
      match hexFour? (after.drop 2) with
      | none => .error (.invalidUnicodeEscape, position + 7)
      | some low =>
        if 0xDC00 ≤ low ∧ low < 0xE000 then
          .ok (Char.ofNat (0x10000 + (high - 0xD800) * 0x400 + (low - 0xDC00)), 10)
        else
          .ok (charOfCode high, 4)
    else
      .ok (charOfCode high, 4)

/-- The character that an escape stands for, and the number of characters after the backslash.  The
string starts at `start`, the backslash stands at `position`, and `t` follows it. -/
def escape (start position : Nat) (t : Text) : Except (Flaw × Nat) (Char × Nat) :=
  match t with
  | [] => .error (.unterminatedString, start)
  | 'u' :: rest => (unicodeEscape position rest).map fun (c, n) => (c, n + 1)
  | c :: _ =>
    match simpleEscape? c with
    | some d => .ok (d, 1)
    | none => .error (.invalidEscape, position)

/-- The rest of a string that starts at `start`, from a position on, and the position after its
closing quote; `done` are its characters so far, the last one first. -/
def scanString (start position : Nat) (done : Text) (t : Text) : Except (Flaw × Nat) (Text × Nat) :=
  match t with
  | [] => .error (.unterminatedString, start)
  | c :: cs =>
    if c = '"' then .ok (done.reverse, position + 1)
    else if c = '\\' then
      match escape start position cs with
      | .error flaw => .error flaw
      | .ok (d, n) => scanString start (position + 1 + n) (d :: done) (cs.drop n)
    else if c.toNat < 0x20 then .error (.controlCharacter, position)
    else scanString start (position + 1) (c :: done) cs
termination_by t.length
decreasing_by
  · simp only [List.length_drop, List.length_cons]
    omega
  · simp

/-! ### Numbers -/

/-- The digits at the head of a text. -/
def digits (t : Text) : Text :=
  t.takeWhile Char.isDigit

/-- The number that digits denote. -/
def natOfDigits (t : Text) : Nat :=
  t.foldl (fun n c => n * 10 + (c.toNat - '0'.toNat)) 0

/-- The whole part of a number; a zero at the front stands alone. -/
def wholePart : Text → Text
  | '0' :: _ => ['0']
  | t => digits t

/-- The fraction at the head of a text, which has a digit. -/
def fraction : Text → Text
  | '.' :: t => if digits t = [] then [] else '.' :: digits t
  | _ => []

/-- The exponent at the head of a text, which has a digit. -/
def exponent : Text → Text
  | e :: t =>
    if e = 'e' ∨ e = 'E' then
      let sign := match t with
        | '+' :: _ => ['+']
        | '-' :: _ => ['-']
        | _ => []
      let power := digits (t.drop sign.length)
      if power = [] then [] else e :: (sign ++ power)
    else []
  | [] => []

/-- The number at the head of a text and the number of its characters. -/
def scanNumber? (t : Text) : Option (Token × Nat) :=
  let sign := if t.head? = some '-' then ['-'] else []
  let body := t.drop sign.length
  let whole := wholePart body
  if whole = [] then none
  else
    let frac := fraction (body.drop whole.length)
    let exp := exponent (body.drop (whole.length + frac.length))
    let spelling := sign ++ whole ++ frac ++ exp
    if frac = [] ∧ exp = [] then
      if maxDigits < whole.length then
        some (.longInteger whole.length, spelling.length)
      else
        let n : Int := natOfDigits whole
        some (.scalar (.int (if sign = [] then n else -n)), spelling.length)
    else
      some (.scalar (.real spelling), spelling.length)

/-! ### Tokens -/

/-- The values that are spelled by a word. -/
def words : List (Text × Json) :=
  [("null".toList, .null), ("true".toList, .bool true), ("false".toList, .bool false),
   ("NaN".toList, .real "NaN".toList), ("Infinity".toList, .real "Infinity".toList),
   ("-Infinity".toList, .real "-Infinity".toList)]

/-- The token that begins with a character at a position, and the number of its characters after
that one. -/
def tokenAt (position : Nat) (c : Char) (cs : Text) : Token × Nat :=
  match c with
  | '[' => (.openArray, 0)
  | ']' => (.closeArray, 0)
  | '\x7b' => (.openObject, 0)
  | '\x7d' => (.closeObject, 0)
  | ',' => (.comma, 0)
  | ':' => (.colon, 0)
  | '"' =>
    match scanString position (position + 1) [] cs with
    | .ok (t, after) => (.string t, after - (position + 1))
    | .error (flaw, place) => (.brokenString flaw place, 0)
  | _ =>
    match words.find? (·.1.isPrefixOf (c :: cs)) with
    | some (word, v) => (.scalar v, word.length - 1)
    | none =>
      match scanNumber? (c :: cs) with
      | some (token, n) => (token, n - 1)
      | none => (.unknown, 0)

/-- Whether nothing is read beyond a token. -/
def Token.isLast : Token → Bool
  | .brokenString .. => true
  | .longInteger _ => true
  | .unknown => true
  | _ => false

/-- Whether a character may stand between tokens. -/
def isSpace (c : Char) : Bool :=
  c = ' ' || c = '\t' || c = '\n' || c = '\r'

/-- Adds the tokens of a text from a position on to `done`, the last one first. -/
def tokensOnto (done : List PlacedToken) (position : Nat) (t : Text) : List PlacedToken :=
  match t with
  | [] => done.reverse
  | c :: cs =>
    if isSpace c then tokensOnto done (position + 1) cs
    else
      let found := tokenAt position c cs
      if found.1.isLast then (⟨position, found.1⟩ :: done).reverse
      else
        tokensOnto (⟨position, found.1⟩ :: done) (position + 1 + found.2) (cs.drop found.2)
termination_by t.length
decreasing_by
  · simp
  · simp only [List.length_drop, List.length_cons]
    omega

/-- The tokens of a text. -/
def tokens (t : Text) : List PlacedToken :=
  tokensOnto [] 0 t

end Inlay.Json
