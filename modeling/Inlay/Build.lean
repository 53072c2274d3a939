import Inlay.Component.Expansion
import Inlay.Manifest.Write

/-!
# Building a page

A build reads a document, puts its components, scripts and images in place, and writes the page.
The directory of the document is the root of the project.  Nothing is written before the page is
complete, and the manifest, if one is asked for, is written last.
-/

namespace Inlay

/-- The components, then the scripts, then the images of a document put in place. -/
def assemble (d : Disk) (root : Path) (document : Text) : Recorded Text := do
  let expanded ← (Component.expand d root root [] document).recorded
  Component.embedAssets d root root expanded

namespace Build

/-- What is to be built: the document, where the page goes, and where the manifest goes. -/
structure Request where
  input : Path
  output : Path
  manifest : Manifest.Target

/-- What was built: the paths and the events. -/
structure Result where
  input : Path
  output : Path
  root : Path
  events : List Event

/-- The events of references of which no file came. -/
def Result.missing (r : Result) : List Event :=
  r.events.filter fun e => e.status = .missing

/-- The events of components that would have been expanded within themselves. -/
def Result.circular (r : Result) : List Event :=
  r.events.filter fun e => e.status = .circular

/-- What the manifest records of a build. -/
def Result.record (r : Result) : Manifest.BuildRecord :=
  ⟨r.input, r.output, r.root,
    r.events.map fun e => ⟨e.kind.word, e.reference, e.path, e.status.word⟩⟩

/-- Why a build failed. -/
inductive Error where
  | text (e : TextError)
  | manifest (e : Manifest.WriteError)

/-- The words for a build that failed. -/
def Error.message : Error → Text
  | .text e => e.message
  | .manifest e => e.message

/-- The absolute path of a document. -/
def inputPath (d : Disk) (input : Path) : Path :=
  (d.currentPath.append input).normalize

/-- The page of a document and the events on the way: all that is done before anything is written. -/
def compose (d : Disk) (input : Path) : Except TextError (Text × List Event) :=
  match d.readText .strict (inputPath d input) with
  | .error e => .error e
  | .ok document =>
    match assemble d (inputPath d input).parent document with
    | ⟨_, .error e⟩ => .error (.file e)
    | ⟨events, .ok page⟩ => .ok (page, events)

/-- Builds a page. -/
def run (host : Host) (d : Disk) (request : Request) : Disk × Except Error Result :=
  let input := inputPath d request.input
  match compose d request.input with
  | .error e => (d, .error (.text e))
  | .ok (page, events) =>
    match d.writeText host.maxMissing request.output page with
    | (written, .error e) => (written, .error (.text (.file e)))
    | (written, .ok ()) =>
      let result : Result := ⟨input, request.output, input.parent, events⟩
      match Manifest.write host written result.record request.manifest with
      | (finished, .ok ()) => (finished, .ok result)
      | (finished, .error e) => (finished, .error (.manifest e))

end Build

end Inlay
