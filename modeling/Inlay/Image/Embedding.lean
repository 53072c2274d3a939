import Inlay.Base64
import Inlay.Disk.Walk
import Inlay.Image.Element
import Inlay.Image.MediaType
import Inlay.Path.Reference
import Inlay.Recorded

/-!
# Embedding images

The source of an image element is replaced by a data URI that holds the image itself, and the rest
of the element stays as it is.  A source on the network, or one that is a data URI already, is left
alone; an element whose file is missing gives way to a comment.
-/

namespace Inlay.Image

/-- The starts of references that are left alone. -/
def passedOver : List Text :=
  ["http://".toList, "https://".toList, "data:".toList]

/-- Whether a reference is left alone. -/
def isPassedOver (reference : Text) : Bool :=
  let lower := Text.lower reference
  passedOver.any (·.isPrefixOf lower)

/-- The comment in the place of an image that is missing. -/
def missingComment (reference : Text) : Text :=
  "<!-- Missing image: ".toList ++ reference ++ " -->".toList

/-- The data URI of an image. -/
def dataUri (mediaType : Text) (bytes : Bytes) : Text :=
  "data:".toList ++ mediaType ++ ";base64,".toList ++ Base64.encode bytes

/-- What is put in the place of an image element of a document in the directory `base`. -/
def embed (d : Disk) (base root : Path) (x : Element) : Recorded Text := do
  let reference := x.reference
  if isPassedOver reference then
    Recorded.record ⟨.image, reference, none, .skipped⟩
    return x.text
  else
    let path := Path.resolve reference base root
    if ← Recorded.lift (d.isFile path) then
      Recorded.record ⟨.image, reference, some path, .inlined⟩
      let bytes ← Recorded.lift (d.read path)
      return { x with source := dataUri (mediaType reference) bytes }.text
    else
      Recorded.record ⟨.image, reference, some path, .missing⟩
      return missingComment reference

section

variable {d : Disk} {base root : Path} {x : Element}

/-- An element whose source is passed over stays. -/
theorem embed_of_passedOver (h : isPassedOver x.reference = true) :
  embed d base root x = ⟨[⟨.image, x.reference, none, .skipped⟩], .ok x.text⟩
  := by
  simp only [embed, h, if_true]
  rfl

theorem embed_of_error
    {e : FileError} (hpass : isPassedOver x.reference = false)
    (h : d.isFile (Path.resolve x.reference base root) = .error e) :
  embed d base root x = ⟨[], .error e⟩
  := by
  simp only [embed, hpass, h]
  rfl

/-- An image that is missing gives way to a comment. -/
theorem embed_of_missing
    (hpass : isPassedOver x.reference = false)
    (h : d.isFile (Path.resolve x.reference base root) = .ok false) :
  embed d base root x
    = ⟨[⟨.image, x.reference, some (Path.resolve x.reference base root), .missing⟩],
        .ok (missingComment x.reference)⟩
  := by
  simp only [embed, hpass, h]
  rfl

/-- The source of an image that is a file becomes its data URI. -/
theorem embed_of_file
    {bytes : Bytes} (hpass : isPassedOver x.reference = false)
    (h : d.isFile (Path.resolve x.reference base root) = .ok true)
    (hread : d.read (Path.resolve x.reference base root) = .ok bytes) :
  embed d base root x
    = ⟨[⟨.image, x.reference, some (Path.resolve x.reference base root), .inlined⟩],
        .ok { x with source := dataUri (mediaType x.reference) bytes }.text⟩
  := by
  simp only [embed, hpass, h, hread]
  rfl

end

/-- The text with its images embedded. -/
def embedAll (d : Disk) (base root : Path) (t : Text) : Recorded Text :=
  Recorded.substitute (embed d base root) (pieces t)

end Inlay.Image
