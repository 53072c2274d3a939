import Inlay.Disk.Digest
import Inlay.Json.Basic
import Inlay.Path.Reference

/-!
# Manifests

A manifest records a build: the input and the output with their digests, and every reference with
what became of it.  The path of a reference is given from the root of the project when it lies under
it.  What was inlined has a digest.
-/

namespace Inlay.Manifest

/-- The version of the layout of manifests. -/
def schemaVersion : Text :=
  "v1".toList

/-- The version of this tool. -/
def toolVersion : Text :=
  "1.0.0".toList

/-- A reference of a build, with the words for its kind and its status. -/
structure ReferenceRecord where
  kind : Text
  reference : Text
  path : Option Path
  status : Text
deriving DecidableEq

/-- What a manifest records. -/
structure BuildRecord where
  input : Path
  output : Path
  root : Path
  references : List ReferenceRecord
deriving DecidableEq

/-- How a path is shown: from the root if it lies under it. -/
def displayPath (root p : Path) : Text :=
  match Path.relativeUnder root p with
  | .ok t => t
  | .error _ => p.toText

/-- The digest of a reference, if the file was inlined. -/
def ReferenceRecord.digest (d : Disk) (r : ReferenceRecord) : Except FileError Json :=
  match r.path with
  | some p =>
    if r.status = "inlined".toList then (d.digest p).map Json.str else .ok .null
  | none => .ok .null

/-- The entry of a reference. -/
def ReferenceRecord.entry (d : Disk) (root : Path) (r : ReferenceRecord) :
    Except FileError Json := do
  let path := match r.path with
    | some p => Json.str (displayPath root p)
    | none => .null
  return .obj [
    ("kind".toList, .str r.kind),
    ("reference".toList, .str r.reference),
    ("status".toList, .str r.status),
    ("resolved_path".toList, path),
    ("sha256".toList, ← r.digest d)]

/-- The entry of the input or the output, shown as a path. -/
def fileEntry (d : Disk) (shown p : Path) : Except FileError Json := do
  return .obj [
    ("path".toList, .str shown.toText),
    ("sha256".toList, .str (← d.digest p))]

/-- The entries of the references, in order. -/
def entries (d : Disk) (root : Path) : List ReferenceRecord → Except FileError (List Json)
  | [] => .ok []
  | r :: rs => do
    let entry ← r.entry d root
    return entry :: (← entries d root rs)

/-- The manifest of a build.  The files are read now: the references first, then the input and the
output. -/
def payload (d : Disk) (b : BuildRecord) : Except FileError Json := do
  let references ← entries d b.root b.references
  let input ← fileEntry d b.input b.input
  let output ← fileEntry d (d.currentPath.append b.output) b.output
  return .obj [
    ("schema_version".toList, .str schemaVersion),
    ("tool_version".toList, .str toolVersion),
    ("project_root".toList, .str b.root.toText),
    ("input".toList, input),
    ("output".toList, output),
    ("references".toList, .arr references)]

end Inlay.Manifest
