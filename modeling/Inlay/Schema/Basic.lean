import Inlay.Json.Basic

/-!
# Schemas

A schema is a list of keywords, in the order in which they are checked.  A keyword that speaks of
one kind of value holds of every value of another kind.  A schema can be written out as a JSON
document; a reference stands there by the name of its target and is followed here.
-/

namespace Inlay

/-- The kinds of JSON values that a schema tells apart. -/
inductive ValueKind where
  | null
  | string
  | array
  | object
deriving DecidableEq, Repr

/-- The name of a kind. -/
def ValueKind.word : ValueKind → Text
  | .null => "null".toList
  | .string => "string".toList
  | .array => "array".toList
  | .object => "object".toList

/-- Whether a value is of a kind. -/
def ValueKind.holds : ValueKind → Json → Bool
  | .null, .null => true
  | .string, .str _ => true
  | .array, .arr _ => true
  | .object, .obj _ => true
  | _, _ => false

/-- A keyword of a schema.  Schemas within a keyword are lists of keywords in turn. -/
inductive Keyword where
  /-- The value is of one of the kinds. -/
  | type (kinds : List ValueKind)
  /-- The value is a text. -/
  | const (t : Text)
  /-- The value is one of the texts. -/
  | enum (texts : List Text)
  /-- A text has at least a number of characters. -/
  | minLength (n : Nat)
  /-- A text is a number of lower case hexadecimal digits; one line feed may follow. -/
  | hexPattern (digits : Nat)
  /-- An object has only members for which the schema has a property. -/
  | noAdditional
  /-- An object has members of the names. -/
  | required (names : List Text)
  /-- A member of the name, if an object has it, satisfies the schema. -/
  | properties (schemas : List (Text × List Keyword))
  /-- Every item of an array satisfies the schema. -/
  | items (schema : List Keyword)
  /-- Exactly one of the schemas is satisfied. -/
  | oneOf (schemas : List (List Keyword))
  /-- If the first schema is satisfied, then so is the second. -/
  | ifThen (condition consequence : List Keyword)
  /-- The schema of a name is satisfied. -/
  | ref (name : Text) (target : List Keyword)
  /-- A remark, which is satisfied by all values. -/
  | remark (name : Text) (text : Text)
  /-- Schemas with names, which are not checked here. -/
  | definitions (schemas : List (Text × List Keyword))

/-- A list of keywords, which are checked in order. -/
abbrev Schema := List Keyword

/-- The names of the properties of which a schema speaks. -/
def Schema.propertyNames (s : Schema) : List Text :=
  s.flatMap fun
    | .properties schemas => schemas.map Prod.fst
    | _ => []

/-- The name of a keyword. -/
def Keyword.word : Keyword → Text
  | .type _ => "type".toList
  | .const _ => "const".toList
  | .enum _ => "enum".toList
  | .minLength _ => "minLength".toList
  | .hexPattern _ => "pattern".toList
  | .noAdditional => "additionalProperties".toList
  | .required _ => "required".toList
  | .properties _ => "properties".toList
  | .items _ => "items".toList
  | .oneOf _ => "oneOf".toList
  | .ifThen .. => "if".toList
  | .ref .. => "$ref".toList
  | .remark name _ => name
  | .definitions _ => "$defs".toList

/-! ### Schemas as documents -/

/-- The pattern of a number of lower case hexadecimal digits. -/
def hexPatternText (digits : Nat) : Text :=
  "^[0-9a-f]\x7b".toList ++ Text.ofNat digits ++ "\x7d$".toList

/-- The kinds of a type: one by its name, several as an array. -/
def kindsDocument : List ValueKind → Json
  | [kind] => .str kind.word
  | kinds => .arr (kinds.map fun kind => .str kind.word)

mutual

/-- The members that a keyword is in a document. -/
def Keyword.document : Keyword → Json.Members
  | .type kinds => [("type".toList, kindsDocument kinds)]
  | .const t => [("const".toList, .str t)]
  | .enum texts => [("enum".toList, .arr (texts.map Json.str))]
  | .minLength n => [("minLength".toList, .int n)]
  | .hexPattern digits => [("pattern".toList, .str (hexPatternText digits))]
  | .noAdditional => [("additionalProperties".toList, .bool false)]
  | .required names => [("required".toList, .arr (names.map Json.str))]
  | .properties schemas => [("properties".toList, .obj (namedDocuments schemas))]
  | .items schema => [("items".toList, .obj (membersOf schema))]
  | .oneOf schemas => [("oneOf".toList, .arr (documents schemas))]
  | .ifThen condition consequence =>
    [("if".toList, .obj (membersOf condition)), ("then".toList, .obj (membersOf consequence))]
  | .ref name _ => [("$ref".toList, .str ("#/$defs/".toList ++ name))]
  | .remark name text => [(name, .str text)]
  | .definitions schemas => [("$defs".toList, .obj (namedDocuments schemas))]

/-- The members that a schema is in a document. -/
def membersOf : List Keyword → Json.Members
  | [] => []
  | k :: ks => k.document ++ membersOf ks

/-- The documents of schemas. -/
def documents : List (List Keyword) → List Json
  | [] => []
  | s :: ss => .obj (membersOf s) :: documents ss

/-- The documents of schemas with names. -/
def namedDocuments : List (Text × List Keyword) → Json.Members
  | [] => []
  | (name, s) :: ss => (name, .obj (membersOf s)) :: namedDocuments ss

end

/-- The document of a schema. -/
def Schema.document (s : Schema) : Json :=
  .obj (membersOf s)

end Inlay
