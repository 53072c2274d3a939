import Inlay.Manifest.Basic
import Inlay.Manifest.Check

/-!
# Writing manifests

A manifest is made, checked against its schema, and only then written.
-/

namespace Inlay.Manifest

/-- Where a manifest is to be written. -/
inductive Target where
  /-- Nowhere: no manifest is asked for. -/
  | none
  /-- To the file that a path leads to. -/
  | file (p : Path)
  /-- A manifest is asked for without a path, so that it is made and cannot be written. -/
  | pathless

/-- Why a manifest could not be written. -/
inductive WriteError where
  | file (e : FileError)
  | violation (v : Violation)
  | noPath

/-- The words for a manifest that could not be written. -/
def WriteError.message : WriteError → Text
  | .file e => e.message
  | .violation v => v.message
  | .noPath => "expected str, bytes or os.PathLike object, not list".toList

/-- Writes the manifest of a build to where it is to be written. -/
def write (host : Host) (d : Disk) (b : BuildRecord) (target : Target) :
    Disk × Except WriteError Unit :=
  match target with
  | .none => (d, .ok ())
  | _ =>
    match payload d b with
    | .error e => (d, .error (.file e))
    | .ok manifest =>
      match host.validate schema.document manifest with
      | some violation => (d, .error (.violation violation))
      | none =>
        match target with
        | .file p =>
          match d.writeJson host.maxMissing p manifest with
          | (written, .ok ()) => (written, .ok ())
          | (written, .error e) => (written, .error (.file e))
        | _ => (d, .error .noPath)

end Inlay.Manifest
