import Inlay.Text.Digit
import Inlay.Text.Quoted

/-!
# Words of a command line

Each word after the command is an argument, an option, or the separator.  Options start with two
hyphens; an option may be cut short as long as it is clear which one is meant, and a value may be
tied to it by an equals sign.  After the first separator every word is an argument.
-/

namespace Inlay.CommandLine

/-- The options. -/
inductive OptionName where
  /-- Asks for a manifest and takes its path. -/
  | manifest
  /-- Asks for failure when a reference could not be inlined. -/
  | failOnMissing
deriving DecidableEq, Repr

/-- The options in order. -/
def OptionName.all : List OptionName :=
  [.manifest, .failOnMissing]

/-- The word for an option. -/
def OptionName.word : OptionName → Text
  | .manifest => "--manifest".toList
  | .failOnMissing => "--fail-on-missing".toList

/-- What a word is. -/
inductive Role where
  | argument
  /-- The first word that is two hyphens. -/
  | separator
  /-- An option, and the value that is tied to it. -/
  | option (name : OptionName) (value : Option Text)
  /-- A word that looks like an option and is none. -/
  | unknown
deriving DecidableEq, Repr

/-- A word and what it is. -/
structure Word where
  text : Text
  role : Role
deriving DecidableEq, Repr

/-- Why words cannot be understood. -/
inductive UsageError where
  /-- A word is short for several options. -/
  | ambiguous (word : Text) (names : List OptionName)
  /-- An option that takes a value has none. -/
  | missingValue (name : OptionName)
  /-- An option that takes no value has one. -/
  | unwantedValue (name : OptionName) (value : Text)
  /-- Words are left over. -/
  | unrecognized (words : List Text)
deriving DecidableEq, Repr

/-- The words for a usage error. -/
def UsageError.message : UsageError → Text
  | .ambiguous word names =>
    "ambiguous option: ".toList ++ word ++ " could match ".toList
      ++ Text.join ", ".toList (names.map OptionName.word)
  | .missingValue name =>
    "argument ".toList ++ name.word ++ ": expected one argument".toList
  | .unwantedValue name value =>
    "argument ".toList ++ name.word ++ ": ignored explicit argument ".toList ++ Text.quoted value
  | .unrecognized words => "unrecognized arguments: ".toList ++ Text.join [' '] words

/-- The separator. -/
def separator : Text :=
  ['-', '-']

/-- A word up to its first equals sign, and what follows the sign. -/
def splitValue (word : Text) : Text × Option Text :=
  match word.dropWhile (· ≠ '=') with
  | [] => (word, none)
  | _ :: value => (word.takeWhile (· ≠ '='), some value)

/-- Whether a text is a negative number, which may be followed by a line feed. -/
def isNegativeNumber : Text → Bool
  | '-' :: t =>
    let t := if t.getLast? = some '\n' then t.dropLast else t
    let whole := t.takeWhile Text.isDecimalDigit
    match t.dropWhile Text.isDecimalDigit with
    | [] => whole ≠ []
    | '.' :: fraction => fraction ≠ [] && fraction.all Text.isDecimalDigit
    | _ => false
  | _ => false

/-- The options that a word may be short for. -/
def abbreviated (word : Text) : List OptionName :=
  if separator.isPrefixOf word then
    OptionName.all.filter fun name => (splitValue word).1.isPrefixOf name.word
  else
    []

/-- What a word is before the separator. -/
def roleOf (word : Text) : Except UsageError Role :=
  if word.head? ≠ some '-' then .ok .argument
  else
    match OptionName.all.find? (·.word = word) with
    | some name => .ok (.option name none)
    | none =>
      if word.length = 1 then .ok .argument
      else
        match OptionName.all.find? (·.word = (splitValue word).1) with
        | some name => .ok (.option name (splitValue word).2)
        | none =>
          match abbreviated word with
          | [name] => .ok (.option name (splitValue word).2)
          | [] =>
            if isNegativeNumber word || word.contains ' ' then .ok .argument else .ok .unknown
          | names => .error (.ambiguous word names)

/-- The words with what they are. -/
def classify : List Text → Except UsageError (List Word)
  | [] => .ok []
  | t :: ts =>
    if t = separator then
      .ok (⟨t, .separator⟩ :: ts.map fun t => ⟨t, .argument⟩)
    else do
      let role ← roleOf t
      return ⟨t, role⟩ :: (← classify ts)

end Inlay.CommandLine
