import Inlay.Disk.Text
import Inlay.Json.Printer
import Inlay.Json.Reader

/-!
# JSON documents on a disk

A JSON document is a text file.  It is written in the stable layout.
-/

namespace Inlay

/-- Why a JSON document could not be read. -/
inductive DocumentError where
  | text (e : TextError)
  | json (e : Json.ReadError)

/-- The words for a document that could not be read. -/
def DocumentError.message : DocumentError → Text
  | .text e => e.message
  | .json e => e.message

namespace Disk

/-- The value of the document that a path leads to, in which a number of containers may be open. -/
def readJson (d : Disk) (maxDepth : Nat) (p : Path) : Except DocumentError Json :=
  match d.readText .strict p with
  | .error e => .error (.text e)
  | .ok t =>
    match Json.read maxDepth t with
    | .error e => .error (.json e)
    | .ok v => .ok v

/-- Writes a value as the document that a path leads to. -/
def writeJson (d : Disk) (maxMissing : Nat) (p : Path) (v : Json) : Disk × Except FileError Unit :=
  d.writeText maxMissing p v.print

end Disk

end Inlay
