import Inlay.Disk.Document
import Inlay.Host
import Inlay.Json.Mapping
import Inlay.Manifest.Schema

/-!
# Checking manifests

A manifest is checked against the schema of manifests, or against a schema in a file, by the validator
of the host.  A value that is no object is first taken for a mapping, if it can be.
-/

namespace Inlay.Manifest

/-- Why a value is no manifest. -/
inductive CheckError where
  /-- A document could not be read. -/
  | document (e : DocumentError)
  /-- The value is no mapping. -/
  | mapping (e : Json.MappingError)
  /-- The value violates the schema. -/
  | violation (v : Violation)

/-- The words for a value that is no manifest. -/
def CheckError.message : CheckError → Text
  | .document e => e.message
  | .mapping e => e.message
  | .violation v => v.message

/-- The document of the schema in a file, or of that of manifests when no file is named. -/
def loadSchema (host : Host) (d : Disk) : Option Path → Except DocumentError Json
  | none => .ok schema.document
  | some p => d.readJson host.maxDepth p

/-- Checks a value that may be a manifest against the document of a schema. -/
def check (host : Host) (document v : Json) : Except CheckError Unit :=
  match v.mapping with
  | .error e => .error (.mapping e)
  | .ok members =>
    match host.validate document (.obj members) with
    | none => .ok ()
    | some violation => .error (.violation violation)

/-- Checks a value against the schema in a file, or against that of manifests when no file is
named.  The schema is read first. -/
def checkAgainst (host : Host) (d : Disk) (schemaPath : Option Path) (v : Json) :
    Except CheckError Unit :=
  match loadSchema host d schemaPath with
  | .error e => .error (.document e)
  | .ok document => check host document v

/-- The value of the document that a path leads to, which is a manifest. -/
def checkFile (host : Host) (d : Disk) (p : Path) : Except CheckError Json :=
  match d.readJson host.maxDepth p with
  | .error e => .error (.document e)
  | .ok v =>
    match checkAgainst host d none v with
    | .error e => .error e
    | .ok () => .ok v

/-- The host of some limits that goes through the schema of manifests, whatever the document is. -/
def hostOf (maxDepth maxMissing : Nat) (h : 3 ≤ maxDepth) : Host :=
  ⟨fun _ v => schema.check v, maxDepth, maxMissing, h⟩

end Inlay.Manifest
