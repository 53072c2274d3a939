import Inlay.Disk.Text
import Inlay.Path.Reference
import Inlay.Recorded
import Inlay.Script.Element

/-!
# Embedding scripts

A script element is replaced by a block that holds the script itself, or by a comment when there
is no such file.  The rest of the text stays as it is.
-/

namespace Inlay.Script

/-- The comment in the place of a script that is missing. -/
def missingComment (reference : Text) : Text :=
  "<!-- Missing script: ".toList ++ reference ++ " -->".toList

/-- The block that holds a script. -/
def block (content : Text) : Text :=
  "<script>\n".toList ++ content ++ "\n</script>".toList

/-- What is put in the place of a script element of a document in the directory `base`. -/
def embed (d : Disk) (base root : Path) (x : Element) : Recorded Text := do
  let reference := x.reference
  let path := Path.resolve reference base root
  if ← Recorded.lift (d.isFile path) then
    Recorded.record ⟨.script, reference, some path, .inlined⟩
    let content ← Recorded.lift (d.readReplacing path)
    return block content
  else
    Recorded.record ⟨.script, reference, some path, .missing⟩
    return missingComment reference

section

variable {d : Disk} {base root : Path} {x : Element}

theorem embed_of_error
    {e : FileError} (h : d.isFile (Path.resolve x.reference base root) = .error e) :
  embed d base root x = ⟨[], .error e⟩
  := by
  simp only [embed, h]
  rfl

/-- A script that is missing gives way to a comment. -/
theorem embed_of_missing (h : d.isFile (Path.resolve x.reference base root) = .ok false) :
  embed d base root x
    = ⟨[⟨.script, x.reference, some (Path.resolve x.reference base root), .missing⟩],
        .ok (missingComment x.reference)⟩
  := by
  simp only [embed, h]
  rfl

/-- A script that is a file is put in place in a block. -/
theorem embed_of_file
    {content : Text} (h : d.isFile (Path.resolve x.reference base root) = .ok true)
    (hcontent : d.readReplacing (Path.resolve x.reference base root) = .ok content) :
  embed d base root x
    = ⟨[⟨.script, x.reference, some (Path.resolve x.reference base root), .inlined⟩],
        .ok (block content)⟩
  := by
  simp only [embed, h, hcontent]
  rfl

end

/-- The text with its scripts embedded. -/
def embedAll (d : Disk) (base root : Path) (t : Text) : Recorded Text :=
  Recorded.substitute (embed d base root) (pieces t)

end Inlay.Script
