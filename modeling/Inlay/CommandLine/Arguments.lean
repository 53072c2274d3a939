import Inlay.CommandLine.Word

/-!
# Arguments of a build

The first run of words that are no options is shared out to three slots: the input, the output, and
the rest, which is ignored.  The first word of a slot that is two hyphens is dropped from it.  Words
of a later run have no slot and are left over, as are words that look like options and are none.
-/

namespace Inlay.CommandLine

/-- A value that was given to an option. -/
inductive Value where
  | text (t : Text)
  /-- Two hyphens tied to the option, which are dropped and leave no value. -/
  | dropped
deriving DecidableEq, Repr

/-- The value that a text gives to an option. -/
def Value.ofText (t : Text) : Value :=
  if t = separator then .dropped else .text t

/-- What the words say: the input and the output as far as they are given, the options, whether the
slots are taken, and the words that are left over. -/
structure Arguments where
  input : Option Text
  output : Option Text
  manifest : Option Value
  failOnMissing : Bool
  slotsTaken : Bool
  leftOver : List Text
deriving DecidableEq, Repr

/-- Before the first word. -/
def Arguments.empty : Arguments :=
  ⟨none, none, none, false, false, []⟩

/-- The words of the first slot of a run, an argument with the separators around it, and the rest of
the run. -/
def takeSlot (run : List Word) : List Word × List Word :=
  let isSeparator (w : Word) : Bool := w.role = .separator
  let before := run.takeWhile isSeparator
  let rest := run.dropWhile isSeparator
  match rest with
  | [] => (before, [])
  | w :: rest => (before ++ w :: rest.takeWhile isSeparator, rest.dropWhile isSeparator)

/-- The text of a slot. -/
def slotText (slot : List Word) : Option Text :=
  ((slot.map Word.text).erase separator).head?

/-- Shares a run out to the slots, if they are not taken yet. -/
def Arguments.takeRun (a : Arguments) (run : List Word) : Arguments :=
  if a.slotsTaken then
    { a with leftOver := a.leftOver ++ run.map Word.text }
  else
    let (first, rest) := takeSlot run
    let (second, _) := takeSlot rest
    { a with input := slotText first, output := slotText second, slotsTaken := true }

/-- Ends a run, whose words are given from the last one. -/
def Arguments.endRun (a : Arguments) (run : List Word) : Arguments :=
  if run.isEmpty then a else a.takeRun run.reverse

/-- Takes words in order; `run` are the words since the last option, the last one first. -/
def Arguments.take (a : Arguments) (run : List Word) : List Word → Except UsageError Arguments
  | [] => .ok (a.endRun run)
  | w :: ws =>
    match w.role with
    | .argument => a.take (w :: run) ws
    | .separator => a.take (w :: run) ws
    | .unknown =>
      let a := a.endRun run
      { a with leftOver := a.leftOver ++ [w.text] }.take [] ws
    | .option .failOnMissing none => { a.endRun run with failOnMissing := true }.take [] ws
    | .option .failOnMissing (some value) => .error (.unwantedValue .failOnMissing value)
    | .option .manifest (some value) =>
      { a.endRun run with manifest := some (Value.ofText value) }.take [] ws
    | .option .manifest none =>
      match ws with
      | ⟨value, .argument⟩ :: ws =>
        { a.endRun run with manifest := some (Value.ofText value) }.take [] ws
      | _ => .error (.missingValue .manifest)

/-- The arguments that the words of a command line give. -/
def parse (words : List Text) : Except UsageError Arguments := do
  let arguments ← Arguments.empty.take [] (← classify words)
  if arguments.leftOver = [] then return arguments
  else throw (.unrecognized arguments.leftOver)

end Inlay.CommandLine
