import Inlay.Proofs.Disk.Document
import Inlay.Proofs.Manifest.Payload
import Inlay.Proofs.Reference.Met

/-!
# The manifest after the page

The manifest of a build is made when the page has been written.  All files that the page came of are
still there by then, so it can be made (`payload_resultOf`).  The one that the page was written to,
if it is among them, has the bytes of the page.  Unless a reference is empty, the build succeeds where
the manifest can be written (`exists_run_of_writable`).
-/

namespace Inlay

open Json

/-! ### Writing a manifest -/

namespace Manifest

variable {host : Host} {d finished : Disk} {b : BuildRecord} {manifest : Json}

/-- A manifest that is found to violate its schema is not written. -/
theorem write_of_violation
    {target : Target} {violation : Violation} (htarget : target ≠ .none)
    (hpayload : payload d b = .ok manifest)
    (hcheck : host.validate schema.document manifest = some violation) :
  write host d b target = (d, .error (.violation violation))
  := by
  cases target with
  | none => exact absurd rfl htarget
  | file p => simp only [write, hpayload, hcheck]
  | pathless => simp only [write, hpayload, hcheck]

/-- A manifest is written to a file exactly if the validator finds nothing and it can be written
there. -/
theorem write_file_eq_ok_iff {p : Path} (hpayload : payload d b = .ok manifest) :
  write host d b (.file p) = (finished, .ok ())
    ↔ host.validate schema.document manifest = none
      ∧ d.writeJson host.maxMissing p manifest = (finished, .ok ())
  := by
  simp only [write, hpayload]
  cases host.validate schema.document manifest with
  | some violation => simp
  | none =>
    cases d.writeJson host.maxMissing p manifest with
    | mk written outcome => cases outcome <;> simp

/-- A manifest that was written is read as a value that is like it. -/
theorem exists_readJson_of_written
    {written : Disk} {r : Build.Result} {input output : Bytes} {p : Path}
    (h : written.writeJson host.maxMissing p (manifestJson d r input output) = (finished, .ok ())) :
  ∃ v, finished.readJson host.maxDepth p = .ok v ∧ Alike (manifestJson d r input output) v
  := by
  have hreadable := readable_manifestJson d r input output
  use (manifestJson d r input output).sorted
  constructor
  · exact Disk.readJson_of_writeJson hreadable host.three_le_maxDepth h
  · exact hreadable.alike_sorted.symm

end Manifest

/-! ### The files of a page -/

/-- What was inlined is a file. -/
theorem Site.exists_locate_of_inlined
    {d : Disk} {root : Path} {s : Site} (h : s.status d root = .ok .inlined) :
  ∃ location bytes, d.locate (s.path root) = .ok (.file location bytes)
  := by
  rw [Site.status] at h
  split at h
  · cases h
  · split at h
    case h_1 => cases h
    case h_2 => cases h
    case h_3 hfile => exact Disk.isFile_eq_true_iff.1 hfile

namespace Build

variable {host : Host} {d written finished : Disk} {input output : Path} {page : Text}
  {events : List Event}

/-- A page comes of a document by the passes over it. -/
theorem exists_document_of_compose (h : compose d input = .ok (page, events)) :
  ∃ document, d.readText .strict (inputPath d input) = .ok document
    ∧ Pass.runAll d (inputPath d input).parent (Pass.ofBody (inputPath d input).parent []) document
      = ⟨events, .ok page⟩
  := by
  obtain ⟨document, hread, hassemble⟩ := compose_eq_ok_iff.1 h
  rw [Pass.assemble_eq_runAll] at hassemble
  exact ⟨document, hread, hassemble⟩

/-- The input of a page is a file. -/
theorem exists_locate_of_compose (h : compose d input = .ok (page, events)) :
  ∃ location bytes, d.locate (inputPath d input) = .ok (.file location bytes)
  := by
  obtain ⟨document, hread, -⟩ := exists_document_of_compose h
  rw [Disk.readText] at hread
  split at hread
  · cases hread
  · rename_i bytes hbytes
    obtain ⟨location, hlocate⟩ := Disk.exists_locate_of_read hbytes
    exact ⟨location, bytes, hlocate⟩

/-- What was inlined in a page is a file. -/
theorem exists_locate_of_inlined
    (h : compose d input = .ok (page, events)) {e : Event} (he : e ∈ events)
    (hstatus : e.status = .inlined) :
  ∃ p location bytes, e.path = some p ∧ d.locate p = .ok (.file location bytes)
  := by
  obtain ⟨document, -, hrun⟩ := exists_document_of_compose h
  have hfrom := from_runAll d (inputPath d input).parent
    (Pass.ofBody (inputPath d input).parent []) document
  rw [hrun] at hfrom
  obtain ⟨s, status, -, hs, rfl⟩ := hfrom.event e he
  obtain rfl : status = .inlined := hstatus
  obtain ⟨location, bytes, hlocate⟩ := Site.exists_locate_of_inlined hs
  exact ⟨_, location, bytes, rfl, hlocate⟩

/-! ### Making the manifest -/

variable {out : Location}

/-- What was inlined has bytes when the page has been written: those of the page if it was written
there. -/
theorem read_of_inlined
    (hcompose : compose d input = .ok (page, events)) (hk : d.Keeps {out} written)
    (hout : written.locate output = .ok (.file out (Utf8.encode page))) {e : Event} (he : e ∈ events)
    (hstatus : e.status = .inlined) :
  ∃ p location bytes, e.path = some p ∧ d.locate p = .ok (.file location bytes)
    ∧ written.read p = .ok (if location = out then Utf8.encode page else bytes)
  := by
  obtain ⟨p, location, bytes, hpath, hlocate⟩ := exists_locate_of_inlined hcompose he hstatus
  use p, location, bytes, hpath, hlocate
  exact Disk.read_of_locate (hk.locate_of_written hout hlocate)

theorem canBeRead_of_written
    (hcompose : compose d input = .ok (page, events)) (hk : d.Keeps {out} written)
    (hout : written.locate output = .ok (.file out (Utf8.encode page))) {e : Event} (he : e ∈ events) :
  Manifest.CanBeRead written e
  := by
  intro hstatus
  obtain ⟨p, location, bytes, hpath, -, hread⟩ := read_of_inlined hcompose hk hout he hstatus
  exact ⟨p, _, hpath, hread⟩

/-- When the page has been written, the manifest can be made. -/
theorem payload_resultOf
    (hcompose : compose d input = .ok (page, events)) (hk : d.Keeps {out} written)
    (hout : written.locate output = .ok (.file out (Utf8.encode page))) {location : Location}
    {bytes : Bytes} (hinput : d.locate (inputPath d input) = .ok (.file location bytes)) :
  Manifest.payload written (resultOf d input output events).record
    = .ok (Manifest.manifestJson written (resultOf d input output events)
        (if location = out then Utf8.encode page else bytes) (Utf8.encode page))
  := by
  apply Manifest.payload_eq_ok
  · intro e he
    exact canBeRead_of_written hcompose hk hout he
  · exact Disk.read_of_locate (hk.locate_of_written hout hinput)
  · exact Disk.read_of_locate hout

/-- If no reference is empty and the manifest can be written, the build succeeds on a lawful host, and
leaves the disk on which the manifest has been written. -/
theorem exists_run_of_writable
    (hlawful : host.IsLawful) {p : Path} (hcompose : compose d input = .ok (page, events))
    (hwritten : d.writeText host.maxMissing output page = (written, .ok ()))
    (hreferences : ∀ e ∈ events, e.reference ≠ [])
    (hwritable : ∀ bytes, ∃ finished, written.write host.maxMissing p bytes = (finished, .ok ())) :
  ∃ finished manifest, written.writeJson host.maxMissing p manifest = (finished, .ok ())
    ∧ run host d ⟨input, output, .file p⟩ = (finished, .ok (resultOf d input output events))
  := by
  obtain ⟨out, hk, hout⟩ := Disk.of_write_eq_ok hwritten
  obtain ⟨location, bytes, hinput⟩ := exists_locate_of_compose hcompose
  have hpayload := payload_resultOf hcompose hk hout hinput
  obtain ⟨finished, hjson⟩ := hwritable (Utf8.encode (Json.print _))
  have hmanifest := (Manifest.write_file_eq_ok_iff hpayload).2 ⟨?_, hjson⟩
  · refine ⟨finished, _, hjson, ?_⟩
    rw [run_of_written hcompose hwritten, hmanifest]
  · apply hlawful.validate_eq_none_iff.2
    apply (Manifest.accepts_manifestJson_iff _).2 hreferences
    intro e he
    exact canBeRead_of_written hcompose hk hout he

end Build

end Inlay
