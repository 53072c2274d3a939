import Inlay.Build
import Inlay.CommandLine.Arguments

/-!
# Running a command line

The answer to a command line: what is printed, the exit code, and the disk afterwards.  A command
line that asks for help is answered whatever else it says.
-/

namespace Inlay.CommandLine

/-- What is answered to a command line. -/
structure Reply where
  code : Nat
  out : Text
  err : Text
  /-- Whether the trace of the failure is wanted after `err`. -/
  trace : Bool
deriving DecidableEq, Repr

/-- The help text. -/
def help : Text :=
  ("\nHybrid HTML Compiler\n"
    ++ "\nUsage:\n"
    ++ "  hybrid compile <input> <output>     Compile a hybrid HTML file\n"
    ++ "  hybrid --help                       Show this help message\n"
    ++ "  hybrid --version                    Show version\n"
    ++ "\nExamples:\n"
    ++ "  hybrid compile index.hybrid.html dist.html\n"
    ++ "  hybrid compile src/app.hybrid.html build/app.html\n"
    ++ "\nOptions:\n"
    ++ "  <input>              Path to the input .hybrid.html file\n"
    ++ "  <output>             Path to the output compiled .html file\n"
    ++ "  --manifest PATH      Also write a JSON build manifest to PATH\n"
    ++ "  --fail-on-missing    Exit 3 if any reference was missing or circular\n"
    ++ "  --                   End of options; use before an input path starting with \"-\"\n").toList

/-- A text on a line of its own. -/
def line (t : Text) : Text :=
  t ++ ['\n']

/-- The answer to words that cannot be understood. -/
def usageReply (e : UsageError) : Reply :=
  ⟨1,
    line "\nUsage: hybrid compile <input> <output> [--manifest PATH] [--fail-on-missing]".toList,
    line ("ERROR: ".toList ++ e.message), false⟩

/-- The answer when the input or the output is not given. -/
def missingPathReply : Reply :=
  ⟨1,
    line "\nUsage: hybrid compile <input> <output>".toList
      ++ line "Example: hybrid compile index.hybrid.html dist.html".toList,
    line "ERROR: Both input and output files are required.".toList, false⟩

/-- The answer to a build that failed. -/
def failureReply (debug : Bool) (e : Build.Error) : Reply :=
  ⟨1, [], line ("ERROR: Compilation failed: ".toList ++ e.message), debug⟩

/-- The answer to a build that succeeded. -/
def successReply (a : Arguments) (r : Build.Result) : Reply :=
  let problems := r.missing.length + r.circular.length
  let fails := a.failOnMissing && problems != 0
  let manifestLine := match a.manifest with
    | some (.text []) => []
    | some (.text t) => line ("Manifest: ".toList ++ t)
    | _ => []
  ⟨if fails then 3 else 0,
    line ("Compiled to: ".toList ++ r.output.toText)
      ++ line ("Project root used: ".toList ++ r.root.toText) ++ manifestLine,
    if fails then
      line ("ERROR: ".toList ++ Text.ofNat problems ++ " reference(s) could not be inlined".toList)
    else [],
    false⟩

/-- Where the arguments ask for a manifest. -/
def Arguments.target (a : Arguments) : Manifest.Target :=
  match a.manifest with
  | none => .none
  | some (.text t) => .file (Path.ofText t)
  | some .dropped => .pathless

/-- Runs a build from the words after the command. -/
def runBuild (host : Host) (d : Disk) (debug : Bool) (words : List Text) : Disk × Reply :=
  match parse words with
  | .error e => (d, usageReply e)
  | .ok a =>
    match a.input.getD [], a.output.getD [] with
    | [], _ => (d, missingPathReply)
    | _, [] => (d, missingPathReply)
    | input, output =>
      match Build.run host d ⟨Path.ofText input, Path.ofText output, a.target⟩ with
      | (after, .ok result) => (after, successReply a result)
      | (after, .error e) => (after, failureReply debug e)

/-- The answer to a command that there is not. -/
def unknownCommandReply (command : Text) : Reply :=
  ⟨1, line "Run \"hybrid --help\" for usage information.".toList,
    line ("ERROR: Unknown command: ".toList ++ command), false⟩

/-- The answer that only prints a text. -/
def printReply (t : Text) : Reply :=
  ⟨0, line t, [], false⟩

/-- Runs a command line.  `debug` asks for a trace of failures. -/
def run (host : Host) (d : Disk) (debug : Bool) (words : List Text) : Disk × Reply :=
  match words with
  | [] => (d, printReply help)
  | command :: rest =>
    if "--help".toList ∈ words ∨ "-h".toList ∈ words then
      (d, printReply help)
    else if "--version".toList ∈ words ∨ "-v".toList ∈ words then
      (d, printReply ("hybrid-html-compiler v".toList ++ Manifest.toolVersion))
    else if command = "compile".toList then
      runBuild host d debug rest
    else
      (d, unknownCommandReply command)

/-- Whether an environment asks for a trace of failures: one of its variables `HYBRID_DEBUG` and
`DEBUG` is not empty. -/
def asksForTrace (environment : List (Text × Text)) : Bool :=
  environment.any fun (name, value) =>
    (name = "HYBRID_DEBUG".toList || name = "DEBUG".toList) && value ≠ []

end Inlay.CommandLine
