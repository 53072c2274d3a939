import Inlay.Json.Shown
import Inlay.Schema.Basic

/-!
# Checking a value against a schema

`Schema.check` gives the first violation of a schema in a value, in the order of the schema: the
keyword that is violated, and the place of the part that violates it.
-/

namespace Inlay

/-- A step into a value: to a member of an object or to an item of an array. -/
inductive Step where
  | key (name : Text)
  | index (n : Nat)
deriving DecidableEq, Repr

/-- A keyword that a part of a value violates. -/
structure Violation where
  keyword : Keyword
  /-- The schema in which the keyword stands. -/
  schema : Schema
  /-- The part that violates it. -/
  value : Json
  /-- The way from the whole value to the part. -/
  path : List Step
  /-- The way from the whole schema to the schema in which the keyword stands. -/
  schemaPath : List Step

namespace Violation

/-- The violation as it is seen from one step further out in the value. -/
def within (v : Violation) (step : Step) : Violation :=
  { v with path := step :: v.path }

/-- The violation as it is seen from further out in the schema. -/
def below (v : Violation) (steps : List Step) : Violation :=
  { v with schemaPath := steps ++ v.schemaPath }

end Violation

/-- Whether a character is a lower case hexadecimal digit. -/
def isLowerHex (c : Char) : Bool :=
  c.isDigit || ('a' ≤ c && c ≤ 'f')

/-- Whether a text is a number of lower case hexadecimal digits, but for a line feed at the end. -/
def matchesHex (digits : Nat) (t : Text) : Bool :=
  let (front, back) := (t.take digits, t.drop digits)
  front.length = digits && front.all isLowerHex && (back = [] || back = ['\n'])

/-- Whether a member's name has no property in a schema. -/
def isAdditional (s : Schema) (member : Text × Json) : Bool :=
  !s.propertyNames.contains member.1

/-- Whether a keyword that holds no schemas is satisfied.  It may depend on the schema in which the
keyword stands. -/
def Keyword.holdsPlainly (within : Schema) (v : Json) : Keyword → Bool
  | .type kinds => kinds.any (·.holds v)
  | .const t => v.text? = some t
  | .enum texts =>
    match v with
    | .str t => texts.contains t
    | _ => false
  | .minLength n =>
    match v with
    | .str t => n ≤ t.length
    | _ => true
  | .hexPattern digits =>
    match v with
    | .str t => matchesHex digits t
    | _ => true
  | .noAdditional =>
    match v with
    | .obj members => !members.any (isAdditional within)
    | _ => true
  | .required names =>
    match v with
    | .obj members => names.all fun name => (Json.Members.get? members name).isSome
    | _ => true
  | _ => true

mutual

/-- The first violation of a keyword that stands in a schema. -/
def Keyword.check (within : Schema) (v : Json) : Keyword → Option Violation
  | .properties schemas =>
    match v with
    | .obj members => checkProperties members schemas
    | _ => none
  | .items schema =>
    match v with
    | .arr items =>
      items.zipIdx.findSome? fun (item, n) =>
        (checkKeywords schema item schema).map fun (violation : Violation) =>
          (violation.within (.index n)).below [.key "items".toList]
    | _ => none
  | .oneOf schemas =>
    if countSatisfied v schemas = 1 then none
    else some ⟨.oneOf schemas, within, v, [], []⟩
  | .ifThen condition consequence =>
    if (checkKeywords condition v condition).isSome then none
    else (checkKeywords consequence v consequence).map (·.below [.key "then".toList])
  | .ref _ target => checkKeywords target v target
  | .remark .. => none
  | .definitions _ => none
  | keyword => if keyword.holdsPlainly within v then none else some ⟨keyword, within, v, [], []⟩

/-- The first violation of some of the keywords of a schema. -/
def checkKeywords (within : Schema) (v : Json) : List Keyword → Option Violation
  | [] => none
  | k :: ks => (k.check within v).or (checkKeywords within v ks)

/-- The first violation of a property by the members of an object. -/
def checkProperties (members : Json.Members) : List (Text × List Keyword) → Option Violation
  | [] => none
  | (name, schema) :: rest =>
    let first :=
      match Json.Members.get? members name with
      | none => none
      | some v =>
        (checkKeywords schema v schema).map fun (violation : Violation) =>
          (violation.within (.key name)).below [.key "properties".toList, .key name]
    first.or (checkProperties members rest)

/-- The number of schemas that a value satisfies. -/
def countSatisfied (v : Json) : List (List Keyword) → Nat
  | [] => 0
  | schema :: rest =>
    (if (checkKeywords schema v schema).isNone then 1 else 0) + countSatisfied v rest

end

/-- The first violation of a schema in a value. -/
def Schema.check (s : Schema) (v : Json) : Option Violation :=
  checkKeywords s v s

/-! ### Wording -/

/-- A step between brackets. -/
def Step.shown : Step → Text
  | .key name => '[' :: (Text.quoted name ++ [']'])
  | .index n => '[' :: (Text.ofNat n ++ [']'])

/-- What is wrong with a value that violates a keyword of a schema. -/
def Keyword.complaint (within : Schema) (v : Json) : Keyword → Text
  | .type kinds =>
    v.shown ++ " is not of type ".toList
      ++ Text.join ", ".toList (kinds.map fun kind => Text.quoted kind.word)
  | .const t => Text.quoted t ++ " was expected".toList
  | .enum texts => v.shown ++ " is not one of ".toList ++ (Json.arr (texts.map Json.str)).shown
  | .minLength n =>
    v.shown ++ (if n = 1 then " should be non-empty".toList else " is too short".toList)
  | .hexPattern digits =>
    v.shown ++ " does not match ".toList ++ Text.quoted (hexPatternText digits)
  | .noAdditional =>
    let names := match v with
      | .obj members => (members.filter (isAdditional within)).map Prod.fst
      | _ => []
    "Additional properties are not allowed (".toList
      ++ Text.join ", ".toList ((names.mergeSort Json.keyLe).map Text.quoted)
      ++ (if names.length = 1 then " was".toList else " were".toList) ++ " unexpected)".toList
  | .required names =>
    let missing := names.find? fun name => (v.get? name).isNone
    Text.quoted (missing.getD []) ++ " is a required property".toList
  | _ => v.shown ++ " is not valid under any of the given schemas".toList

/-- The words for a violation: what is wrong, the keyword with its schema, and the part. -/
def Violation.message (v : Violation) : Text :=
  v.keyword.complaint v.schema v.value
    ++ "\n\nFailed validating ".toList ++ Text.quoted v.keyword.word ++ " in schema".toList
    ++ v.schemaPath.flatMap Step.shown ++ ":\n    ".toList ++ v.schema.document.shown
    ++ "\n\nOn instance".toList ++ v.path.flatMap Step.shown ++ ":\n    ".toList ++ v.value.shown

end Inlay
