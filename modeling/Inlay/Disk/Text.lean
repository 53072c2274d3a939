import Inlay.Disk.Write
import Inlay.Text.Newline

/-!
# Reading texts

A text file is UTF-8 with any kind of line end.
-/

namespace Inlay

/-- Why a text could not be read. -/
inductive TextError where
  | file (e : FileError)
  | decode (e : Utf8.DecodeError)

/-- The words for a text that could not be read. -/
def TextError.message : TextError → Text
  | .file e => e.message
  | .decode e => e.message

namespace Disk

/-- The text of the file that a path leads to. -/
def readText (d : Disk) (rule : Utf8.FaultRule) (p : Path) : Except TextError Text :=
  match d.read p with
  | .error e => .error (.file e)
  | .ok bytes =>
    match Utf8.decode rule bytes with
    | .error e => .error (.decode e)
    | .ok t => .ok (Text.unifyNewlines t)

/-- The text of the file that a path leads to, with the replacement character for what is no
character. -/
def readReplacing (d : Disk) (p : Path) : Except FileError Text :=
  (d.read p).map fun bytes => Text.unifyNewlines (Utf8.decodeReplacing bytes)

/-- What is a file can be read with replacements. -/
theorem exists_readReplacing_of_isFile {d : Disk} {p : Path} (h : d.isFile p = .ok true) :
  ∃ t, d.readReplacing p = .ok t
  := by
  obtain ⟨bytes, hread⟩ := exists_read_of_isFile h
  exact ⟨_, by rw [readReplacing, hread]; rfl⟩

/-- Writes a text to the file that a path leads to. -/
def writeText (d : Disk) (maxMissing : Nat) (p : Path) (t : Text) : Disk × Except FileError Unit :=
  d.write maxMissing p (Utf8.encode t)

end Disk

end Inlay
