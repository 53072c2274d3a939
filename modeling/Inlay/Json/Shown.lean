import Inlay.Json.Printer
import Inlay.Text.Quoted

/-!
# Values within messages

How a value is shown within a message: on one line, with its texts quoted.
-/

namespace Inlay.Json

mutual

/-- A value on one line. -/
def shown : Json → Text
  | .null => "None".toList
  | .bool b => if b then "True".toList else "False".toList
  | .int n => ofInt n
  | .real spelling => spelling
  | .str t => Text.quoted t
  | .arr items => '[' :: (Text.join ", ".toList (shownItems items) ++ [']'])
  | .obj members => '\x7b' :: (Text.join ", ".toList (shownMembers members) ++ ['\x7d'])

/-- The items of an array, each on one line. -/
def shownItems : List Json → List Text
  | [] => []
  | v :: items => shown v :: shownItems items

/-- The members of an object, each on one line. -/
def shownMembers : List (Text × Json) → List Text
  | [] => []
  | (key, v) :: members => (Text.quoted key ++ ": ".toList ++ shown v) :: shownMembers members

end

end Inlay.Json
