import Inlay.Disk.Document
import Inlay.Proofs.Disk.Written
import Inlay.Proofs.Json.Canonical
import Inlay.Proofs.Text.Strict

/-!
# Documents

The document of a file is the value of its text (`readJson_eq_ok_iff`).  The path of a file that was
written leads to its bytes, so a text without carriage returns is read as it was written, and a
document as a value that is like the one that was written.  Documents have the same bytes exactly if
their values are alike (`documents_are_canonical_and_lossless`).
-/

namespace Inlay.Disk

variable {d d' : Disk} {maxDepth maxMissing : Nat} {p : Path}

/-! ### The document of a file -/

/-- The file that a path leads to holds the text of a value, with line ends of any kind, in which at
most `maxDepth` containers are open within one another. -/
def HasDocument (d : Disk) (maxDepth : Nat) (p : Path) (v : Json) : Prop :=
  ∃ t, d.read p = .ok (Utf8.encode t) ∧ Json.read maxDepth (Text.withLineFeeds t) = .ok v

/-- What is read is the document of the file. -/
theorem readJson_eq_ok_iff {v : Json} :
  d.readJson maxDepth p = .ok v ↔ d.HasDocument maxDepth p v
  := by
  constructor
  · intro h
    unfold readJson at h
    split at h
    case h_1 => cases h
    case h_2 t htext =>
      obtain ⟨t', hread, rfl⟩ := readText_strict_eq_ok_iff.1 htext
      split at h
      case h_1 => cases h
      case h_2 hvalue =>
        cases h
        exact ⟨t', hread, hvalue⟩
  · rintro ⟨t, hread, hvalue⟩
    rw [readJson, readText_encode hread]
    dsimp only
    rw [hvalue]

/-- A value in its stable layout is the document of the file, with its members in order. -/
theorem hasDocument_of_print
    {room : Nat} {v : Json} (hv : v.Readable room) (hroom : room ≤ maxDepth)
    (h : d.read p = .ok (Utf8.encode v.print)) :
  d.HasDocument maxDepth p v.sorted
  := by
  use v.print, h
  rw [Text.withLineFeeds_of_not_mem hv.return_not_mem_print, Json.read_print hv hroom]

/-! ### Reading what was written -/

theorem read_of_write {bytes : Bytes} (h : d.write maxMissing p bytes = (d', .ok ())) :
  d'.read p = .ok bytes
  := by
  obtain ⟨out, -, hlocate⟩ := of_write_eq_ok h
  exact read_of_locate hlocate

theorem readText_of_writeText
    {t : Text} (h : d.writeText maxMissing p t = (d', .ok ())) (ht : '\r' ∉ t)
    (rule : Utf8.FaultRule) :
  d'.readText rule p = .ok t
  := readText_of_read (read_of_write h) ht rule

/-- A document that was written is read back. -/
theorem readJson_of_writeJson
    {room : Nat} {v : Json} (hv : v.Readable room) (hroom : room ≤ maxDepth)
    (h : d.writeJson maxMissing p v = (d', .ok ())) :
  d'.readJson maxDepth p = .ok v.sorted
  := readJson_eq_ok_iff.2 (hasDocument_of_print hv hroom (read_of_write h))

/-- A document that was written is read as a value that differs from the one written at most in the
order of members.  Wherever another value is written, the bytes are the same if the two values are
alike, and different if they are not. -/
theorem documents_are_canonical_and_lossless
    {v : Json} (hv : v.Readable maxDepth) (h : d.writeJson maxMissing p v = (d', .ok ())) :
  (∃ w, d'.readJson maxDepth p = .ok w ∧ w.Alike v)
    ∧ ∃ bytes, d'.read p = .ok bytes
      ∧ ∀ (e e' : Disk) (most : Nat) (q : Path) (u : Json), u.Readable maxDepth →
        e.writeJson most q u = (e', .ok ()) → (e'.read q = .ok bytes ↔ u.Alike v)
  := by
  constructor
  · use v.sorted, readJson_of_writeJson hv (Nat.le_refl _) h
    exact hv.alike_sorted
  · use Utf8.encode v.print, read_of_write h
    intro e e' most q u hu hwrite
    rw [read_of_write hwrite, Except.ok.injEq, ← Json.print_eq_iff_alike hu hv]
    constructor
    · exact fun hbytes => Utf8.encode_injective hbytes
    · exact fun hprint => congrArg Utf8.encode hprint

/-! ### A document with a carriage return -/

/-- The members of a value with a text in it. -/
def noteMembers (t : Text) : Json.Members :=
  [("text".toList, .str t), ("at".toList, .arr [.int (-1), .obj []])]

/-- A value whose text ends in a carriage return. -/
def returnNote : Json :=
  .obj (noteMembers "\"\u2028\r".toList)

/-- The same value with its members the other way around. -/
def turnedNote : Json :=
  .obj (noteMembers "\"\u2028\r".toList).reverse

/-- A value whose text ends in a line feed. -/
def feedNote : Json :=
  .obj (noteMembers "\"\u2028\n".toList)

/-- The path of a document. -/
def notePath : Path :=
  Path.ofText "/note.json".toList

theorem readable_noteMembers (t : Text) :
  (Json.obj (noteMembers t)).Readable 3
  := by
  have hkeys : ["text".toList, "at".toList].Nodup := by decide
  have hnumber : Json.FitsDigits (-1) := by
    unfold Json.FitsDigits
    decide
  have harray : Json.Readable 2 (.arr [.int (-1), .obj []]) := by
    apply Json.Readable.arr
    simp only [List.forall_mem_cons, List.not_mem_nil, false_implies, implies_true, and_true]
    exact ⟨.int hnumber, .obj (by simp) (by simp)⟩
  refine Json.Readable.obj hkeys ?_
  simp only [noteMembers, List.forall_mem_cons, List.not_mem_nil, false_implies, implies_true,
    and_true]
  exact ⟨.str, harray⟩

theorem exists_writeJson_note (v : Json) :
  ∃ finished, (Disk.empty []).writeJson 1 notePath v = (finished, .ok ())
  := ⟨_, rfl⟩

theorem not_alike_feedNote :
  ¬ feedNote.Alike returnNote
  := by
  intro h
  have htext : feedNote.get? "text".toList = some (.str "\"\u2028\n".toList) := rfl
  obtain ⟨u, hu, hlike⟩ := h.get? htext
  rw [hlike.eq_str] at hu
  have hne : "\"\u2028\r".toList ≠ "\"\u2028\n".toList := by decide
  exact hne (Json.str.inj (Option.some.inj hu))

/-- The value is read back with its carriage return.  The bytes are the same if its members come the
other way around, but not with a line feed. -/
theorem note_is_read_back :
  ∃ d d' d'' w, (Disk.empty []).writeJson 1 notePath returnNote = (d, .ok ())
    ∧ (Disk.empty []).writeJson 1 notePath turnedNote = (d', .ok ())
    ∧ (Disk.empty []).writeJson 1 notePath feedNote = (d'', .ok ())
    ∧ d.readJson 3 notePath = .ok w ∧ w.Alike returnNote
    ∧ d'.read notePath = d.read notePath ∧ d''.read notePath ≠ d.read notePath
  := by
  obtain ⟨d, hd⟩ := exists_writeJson_note returnNote
  obtain ⟨d', hd'⟩ := exists_writeJson_note turnedNote
  obtain ⟨d'', hd''⟩ := exists_writeJson_note feedNote
  have hreturn : returnNote.Readable 3 := readable_noteMembers _
  have hfeed : feedNote.Readable 3 := readable_noteMembers _
  have hperm := (noteMembers "\"\u2028\r".toList).reverse_perm.symm
  have hturned : turnedNote.Readable 3 := hreturn.of_perm hperm
  obtain ⟨⟨w, hread, hlike⟩, bytes, hbytes, hcanonical⟩ :=
    documents_are_canonical_and_lossless hreturn hd
  refine ⟨d, d', d'', w, hd, hd', hd'', hread, hlike, ?_, ?_⟩
  · rw [hbytes, hcanonical _ _ _ _ _ hturned hd']
    exact (hreturn.alike_of_perm hperm).symm
  · rw [hbytes, Ne, hcanonical _ _ _ _ _ hfeed hd'']
    exact not_alike_feedNote

end Inlay.Disk
