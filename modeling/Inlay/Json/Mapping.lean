import Inlay.Json.Printer

/-!
# Values as mappings

A value is taken for a mapping if it is an object, or if it is a sequence of pairs of a key and a
value.  A pair is a sequence of two; a text is the sequence of its characters, and an object that of
its keys.  A key that is no text is spelled out.
-/

namespace Inlay.Json

/-- Why a value is no mapping. -/
inductive MappingError where
  /-- The value is no sequence. -/
  | notSequence (v : Json)
  /-- An item is no sequence. -/
  | itemNotSequence (index : Nat)
  /-- An item is a sequence, but not a pair. -/
  | itemNotPair (index length : Nat)
  /-- An array cannot be a key. -/
  | arrayKey
  /-- An object cannot be a key. -/
  | objectKey

/-- The items of a value that is a sequence. -/
def sequence? : Json → Option (List Json)
  | .str t => some (t.map fun c => .str [c])
  | .arr items => some items
  | .obj members => some (members.map fun m => .str m.1)
  | _ => none

/-- The text of a key. -/
def keyText (v : Json) : Except MappingError Text :=
  match v with
  | .str t => .ok t
  | .arr _ => .error .arrayKey
  | .obj _ => .error .objectKey
  | v => .ok (layout 0 [] v)

/-- Gives the pairs from an index on to a mapping, one after another. -/
def putPairs (members : Members) (index : Nat) : List Json → Except MappingError Members
  | [] => .ok members
  | item :: items =>
    match item.sequence? with
    | none => .error (.itemNotSequence index)
    | some [key, v] =>
      match keyText key with
      | .ok t => putPairs (members.put t v) (index + 1) items
      | .error e => .error e
    | some other => .error (.itemNotPair index other.length)

/-- The mapping that a value is taken for. -/
def mapping (v : Json) : Except MappingError Members :=
  match v with
  | .obj members => .ok members
  | v =>
    match v.sequence? with
    | none => .error (.notSequence v)
    | some items => putPairs [] 0 items

/-- The name of the type of a value. -/
def typeName : Json → Text
  | .null => "NoneType".toList
  | .bool _ => "bool".toList
  | .int _ => "int".toList
  | .real _ => "float".toList
  | .str _ => "str".toList
  | .arr _ => "list".toList
  | .obj _ => "dict".toList

/-- The words for a value that is no mapping. -/
def MappingError.message : MappingError → Text
  | .notSequence v => Text.join [] ["'".toList, v.typeName, "' object is not iterable".toList]
  | .itemNotSequence i =>
    "cannot convert dictionary update sequence element #".toList ++ Text.ofNat i
      ++ " to a sequence".toList
  | .itemNotPair i n =>
    "dictionary update sequence element #".toList ++ Text.ofNat i ++ " has length ".toList
      ++ Text.ofNat n ++ "; 2 is required".toList
  | .arrayKey => "unhashable type: 'list'".toList
  | .objectKey => "unhashable type: 'dict'".toList

end Inlay.Json
