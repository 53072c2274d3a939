import Inlay.Bytes
import Inlay.Json.Basic

/-!
# Printing JSON

The stable layout of a value: members in the order of their keys, each item and each member on a
line of its own, indented by two blanks for every container around it, and nothing escaped that
need not be.  A value is sorted first and then laid out as it stands, so the order in which the
members came has no influence.
-/

namespace Inlay.Json

/-- Whether a key comes before another or is the same, by code points from the left. -/
def keyLe : Text → Text → Bool
  | [], _ => true
  | _ :: _, [] => false
  | c :: cs, d :: ds => c < d || (c = d && keyLe cs ds)

/-- A character within quotes. -/
def escapeChar (c : Char) : Text :=
  if c = '"' then ['\\', '"']
  else if c = '\\' then ['\\', '\\']
  else if c = '\n' then ['\\', 'n']
  else if c = '\r' then ['\\', 'r']
  else if c = '\t' then ['\\', 't']
  else if c = '\x0C' then ['\\', 'f']
  else if c = '\x08' then ['\\', 'b']
  else if c.toNat < 0x20 then
    ['\\', 'u', '0', '0', Bytes.hexDigit (c.toNat / 16), Bytes.hexDigit (c.toNat % 16)]
  else [c]

/-- A text within quotes. -/
def quote (t : Text) : Text :=
  '"' :: (t.flatMap escapeChar ++ ['"'])

/-- The numeral of an integer. -/
def ofInt (n : Int) : Text :=
  match n with
  | .ofNat n => Text.ofNat n
  | .negSucc n => '-' :: Text.ofNat (n + 1)

/-- The start of a line at a depth. -/
def lineStart (depth : Nat) : Text :=
  '\n' :: List.replicate (2 * depth) ' '

mutual

/-- A value whose members are in the order of their keys, in all objects within it. -/
def sorted : Json → Json
  | .null => .null
  | .bool b => .bool b
  | .int n => .int n
  | .real spelling => .real spelling
  | .str t => .str t
  | .arr items => .arr (sortedItems items)
  | .obj members => .obj ((sortedMembers members).mergeSort fun m n => keyLe m.1 n.1)

/-- The items of an array, each of them sorted. -/
def sortedItems : List Json → List Json
  | [] => []
  | v :: items => sorted v :: sortedItems items

/-- The members of an object as they stand, with their values sorted. -/
def sortedMembers : List (Text × Json) → List (Text × Json)
  | [] => []
  | (key, v) :: members => (key, sorted v) :: sortedMembers members

end

mutual

/-- The layout of a value at a depth, followed by `rest`. -/
def layout (depth : Nat) (rest : Text) : Json → Text
  | .null => "null".toList ++ rest
  | .bool b => (if b then "true".toList else "false".toList) ++ rest
  | .int n => ofInt n ++ rest
  | .real spelling => spelling ++ rest
  | .str t => quote t ++ rest
  | .arr items => '[' :: layoutItems depth true rest items
  | .obj members => '\x7b' :: layoutMembers depth true rest members

/-- The layout of the items of an array at a depth and of its end, followed by `rest`; there is no
comma before the first item. -/
def layoutItems (depth : Nat) (first : Bool) (rest : Text) : List Json → Text
  | [] => (if first then [] else lineStart depth) ++ ']' :: rest
  | v :: items =>
    (if first then [] else [','])
      ++ lineStart (depth + 1)
      ++ layout (depth + 1) (layoutItems depth false rest items) v

/-- The layout of the members of an object at a depth and of its end, followed by `rest`; there is
no comma before the first member. -/
def layoutMembers (depth : Nat) (first : Bool) (rest : Text) : List (Text × Json) → Text
  | [] => (if first then [] else lineStart depth) ++ '\x7d' :: rest
  | (key, v) :: members =>
    (if first then [] else [','])
      ++ lineStart (depth + 1) ++ quote key ++ ": ".toList
      ++ layout (depth + 1) (layoutMembers depth false rest members) v

end

/-- A value in the stable layout, ended by a line feed. -/
def print (v : Json) : Text :=
  layout 0 ['\n'] v.sorted

end Inlay.Json
