import Inlay.Text.Basic

/-!
# JSON values

A JSON value is built from scalars by arrays and objects.  The members of an object stand in the
order in which their keys came first; a number with a fraction or an exponent is kept as it is
spelled.
-/

namespace Inlay

/-- A JSON value. -/
inductive Json where
  | null
  | bool (b : Bool)
  | int (n : Int)
  /-- A number with a fraction or an exponent, or one that is not finite, as it is spelled. -/
  | real (spelling : Text)
  | str (t : Text)
  | arr (items : List Json)
  | obj (members : List (Text × Json))

namespace Json

/-- The members of an object. -/
abbrev Members := List (Text × Json)

/-- Gives a key a value: in its place if the key is there, else at the end. -/
def Members.put (members : Members) (key : Text) (value : Json) : Members :=
  match members with
  | [] => [(key, value)]
  | (k, v) :: rest => if Text.same k key then (k, value) :: rest else (k, v) :: put rest key value

/-- The value of a key. -/
def Members.get? (members : Members) (key : Text) : Option Json :=
  List.lookup key members

/-- The value of a key of an object. -/
def get? (v : Json) (key : Text) : Option Json :=
  match v with
  | .obj members => Members.get? members key
  | _ => none

/-- The text of a string. -/
def text? : Json → Option Text
  | .str t => some t
  | _ => none

end Json

end Inlay
