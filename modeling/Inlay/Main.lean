import Inlay.CommandLine.Run
import Inlay.Disk.Changes

/-!
# The program

The program answers a command line on a copy of what it needs of the file system, and then carries
the changes over.  The copy starts with the document and with what lies above the paths to be
written.  Which other files are needed is known from the events of the document: they name every
path that was looked at.  So the files among them are copied until the events name no new one.
-/

namespace Inlay.Main

/-- The host of the program.  The limits are those of a stack of a thousand calls, less the calls
that are open when a document is read or a directory is made. -/
def host : Host :=
  Manifest.hostOf 989 985 (by decide)

/-- What lies at a path of the file system. -/
def probe (p : Path) : IO (Option Entry) := do
  match ← (IO.FS.readBinFile (String.ofList p.toText)).toBaseIO with
  | .ok bytes => return some (.file bytes.toList)
  | .error (.inappropriateType ..) => return some .directory
  | .error _ => return none

/-- Copies what lies at a path of the file system. -/
def copy (d : Disk) (p : Path) : IO Disk := do
  match ← probe p with
  | some entry => return d.add p entry
  | none => return d

/-- Copies what lies at a path and above it, from the outside. -/
def copyAbove (d : Disk) (p : Path) : IO Disk :=
  (List.range (p.segments.length + 1)).foldlM (fun d n => copy d ⟨p.anchor, p.segments.take n⟩) d

/-- The paths that the references of a document denote. -/
def referencedPaths (d : Disk) (input : Path) : List Path :=
  match d.readText .strict input with
  | .error _ => []
  | .ok document => (assemble d input.parent document).events.filterMap Event.path

/-- Copies the files that a document refers to, until there are no new ones. -/
partial def copyReferenced (d : Disk) (input : Path) (seen : List Path) : IO Disk := do
  let fresh := ((referencedPaths d input).filter (· ∉ seen)).eraseDups
  if fresh.isEmpty then return d
  else copyReferenced (← fresh.foldlM copy d) input (fresh ++ seen)

/-- Copies what a command line needs. -/
def copyFor (d : Disk) (words : List Text) : IO Disk := do
  match CommandLine.parse (words.drop 1) with
  | .ok { input := some input, output := some output, manifest, .. } =>
    let input := Build.inputPath d (Path.ofText input)
    let d ← copyAbove d (d.currentPath.append (Path.ofText output))
    let d ← match manifest with
      | some (.text t) => copyAbove d (d.currentPath.append (Path.ofText t))
      | _ => pure d
    copyReferenced (← copyAbove d input) input []
  | _ => return d

/-- Carries changes over to the file system. -/
def carryOver (changes : List (Location × Disk.Content)) : IO Unit := do
  for (location, content) in changes do
    if content matches .directory then IO.FS.createDirAll (String.ofList (Disk.spell location))
  for (location, content) in changes do
    if let .file bytes := content then
      IO.FS.writeBinFile (String.ofList (Disk.spell location)) ⟨bytes.toArray⟩

end Inlay.Main

/-- Answers the command line. -/
def main (arguments : List String) : IO UInt32 := do
  let words := arguments.map String.toList
  let current := Inlay.Path.ofText (← IO.currentDir).toString.toList
  let environment ← ["HYBRID_DEBUG", "DEBUG"].mapM fun name => do
    return (name.toList, ((← IO.getEnv name).getD "").toList)
  let before ← Inlay.Main.copyFor (Inlay.Disk.empty current.segments) words
  let debug := Inlay.CommandLine.asksForTrace environment
  let (after, reply) := Inlay.CommandLine.run Inlay.Main.host before debug words
  Inlay.Main.carryOver (before.changes after)
  IO.print (String.ofList reply.out)
  IO.eprint (String.ofList reply.err)
  return reply.code.toUInt32
