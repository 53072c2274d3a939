import Inlay.Proofs.Component.Open
import Inlay.Proofs.Manifest.Accepted
import Inlay.Proofs.Manifest.Digests
import Inlay.Proofs.Reference.Empty

/-!
# What is written is accepted

A manifest that a build makes on a lawful host is refused exactly if there is a script whose source is
blank; then the build writes nothing more.  What it writes otherwise is accepted when it is read
back, and is the manifest that was made, up to the order of members
(`Build.manifest_is_accepted_iff`).
-/

namespace Inlay

open Json

namespace Manifest

/-- What is like an accepted manifest is accepted where it is read. -/
theorem checkFile_of_alike
    {host : Host} (hlawful : host.IsLawful) {d finished : Disk} {r : Build.Result}
    {input output : Bytes} {p : Path} {v : Json}
    (haccepts : schema.Accepts (manifestJson d r input output))
    (hread : finished.readJson host.maxDepth p = .ok v)
    (h : Alike (manifestJson d r input output) v) :
  checkFile host finished p = .ok v
  := by
  have hv : schema.Holds v := Schema.accepts_iff_holds.1 (haccepts.of_alike h)
  obtain ⟨members, rfl⟩ := exists_obj_of_holds hv
  exact checkFile_eq_ok_iff.2 ⟨hread, (check_eq_ok_iff hlawful).2 ⟨members, rfl, hv⟩⟩

end Manifest

namespace Build

open Manifest

variable {host : Host} {d written : Disk} {input output : Path} {page : Text} {events : List Event}

/-- The passes over a document are over one in the root of its project. -/
theorem isBase_of_compose (h : compose d input = .ok (page, events)) :
  ∀ pass ∈ Pass.ofBody (inputPath d input).parent [], d.IsBase (inputPath d input).parent pass.base
  := by
  have habs := Component.isAbsolute_inputPath_parent d input
  have hup : Segment.up ∉ (inputPath d input).segments := by
    have hinput : (d.currentPath.append input).isAbsolute = true := habs
    rw [inputPath, Path.normalize, hinput]
    apply Path.up_not_mem_normalSegments
  obtain ⟨location, bytes, hlocate⟩ := exists_locate_of_compose h
  have hbase : d.IsBase (inputPath d input).parent (inputPath d input).parent :=
    Disk.isBase_parent habs rfl hup hlocate
  intro pass hpass
  rw [Pass.base_of_mem_ofBody hpass]
  exact hbase

/-- When a build has written its page, the manifest can be made.  A lawful host refuses it exactly if
the reference of an event is empty, and these events are those of the scripts with a blank source,
which are missing.  The build then fails at what is reported, and the disk stays as the page has left
it; if the validator goes through the schema in order, it fails at the first of these events.
Otherwise the manifest is accepted; and if it can be written, the build succeeds, and what is read
back where it was written is accepted and like the manifest that was made. -/
theorem manifest_is_accepted_iff
    (hlawful : host.IsLawful) (hcompose : compose d input = .ok (page, events))
    (hwritten : d.writeText host.maxMissing output page = (written, .ok ())) :
  ∃ document manifest, d.readText .strict (inputPath d input) = .ok document
    ∧ payload written (resultOf d input output events).record = .ok manifest
    ∧ (host.validate schema.document manifest ≠ none ↔ ∃ e ∈ events, e.reference = [])
    ∧ (∀ e, e ∈ events ∧ e.reference = []
        ↔ ∃ s, Meets d (inputPath d input).parent
            (Pass.ofBody (inputPath d input).parent []) document s
          ∧ s.IsBlankScript ∧ e = s.event (inputPath d input).parent .missing)
    ∧ (∀ violation, host.validate schema.document manifest = some violation →
        ∀ target ≠ Target.none, run host d ⟨input, output, target⟩
          = (written, .error (.manifest (.violation violation))))
    ∧ (host.GoesInOrder → ∀ (n : Nat) e, events[n]? = some e → e.reference = [] →
        (∀ i < n, ∀ e', events[i]? = some e' → e'.reference ≠ []) →
        ∀ target ≠ Target.none, run host d ⟨input, output, target⟩
          = (written, .error (.manifest (.violation (emptyReferenceAt n)))))
    ∧ ((∀ e ∈ events, e.reference ≠ []) →
        host.validate schema.document manifest = none
          ∧ ∀ p finished, written.writeJson host.maxMissing p manifest = (finished, .ok ()) →
            run host d ⟨input, output, .file p⟩
                = (finished, .ok (resultOf d input output events))
              ∧ ∃ v, checkFile host finished p = .ok v ∧ Alike v manifest)
  := by
  obtain ⟨document, hread, hrun⟩ := exists_document_of_compose hcompose
  obtain ⟨out, hk, hout⟩ := Disk.of_write_eq_ok hwritten
  obtain ⟨location, bytes, hinput⟩ := exists_locate_of_compose hcompose
  have hpayload := payload_resultOf hcompose hk hout hinput
  generalize (if location = out then Utf8.encode page else bytes) = found at hpayload
  generalize hmanifest : manifestJson written (resultOf d input output events) found
    (Utf8.encode page) = manifest at hpayload
  have hevents : ∀ e ∈ events, CanBeRead written e := fun e he =>
    canBeRead_of_written hcompose hk hout he
  have haccepts : schema.Accepts manifest ↔ ∀ e ∈ events, e.reference ≠ [] := by
    rw [← hmanifest]
    exact accepts_manifestJson_iff hevents
  have hfails : ∀ violation, host.validate schema.document manifest = some violation →
      ∀ target ≠ Target.none, run host d ⟨input, output, target⟩
        = (written, .error (.manifest (.violation violation))) := by
    intro violation hcheck target htarget
    rw [run_of_written hcompose hwritten, write_of_violation htarget hpayload hcheck]
  refine ⟨document, manifest, hread, hpayload, ?_, ?_, hfails, ?_, ?_⟩
  · rw [Ne, hlawful.validate_eq_none_iff, haccepts]
    simp
  · intro e
    exact mem_events_and_empty_iff (Component.isAbsolute_inputPath_parent d input)
      (isBase_of_compose hcompose) hrun e
  · intro horder n e hn hreference hfirst
    apply hfails
    rw [horder, ← hmanifest]
    exact check_manifestJson_of_empty hevents hn hreference hfirst
  · intro hreferences
    have haccepted := haccepts.2 hreferences
    have hvalid := hlawful.validate_eq_none_iff.2 haccepted
    use hvalid
    intro p finished hjson
    constructor
    · rw [run_of_written hcompose hwritten, (write_file_eq_ok_iff hpayload).2 ⟨hvalid, hjson⟩]
    · subst hmanifest
      obtain ⟨v, hv, hlike⟩ := exists_readJson_of_written hjson
      exact ⟨v, checkFile_of_alike hlawful haccepted hv hlike, hlike.symm⟩

/-! ### A blank source -/

/-- A disk with a document that asks for a script by a blank. -/
def blank : Disk :=
  (Disk.empty []).add (Path.ofText "/index.html".toList)
    (.file (Utf8.encode "<script src=\" \"></script>".toList))

/-- The path of the document. -/
def blankInput : Path :=
  Path.ofText "index.html".toList

/-- The path of the page. -/
def blankOutput : Path :=
  Path.ofText "out".toList

/-- The page of the document. -/
def blankPage : Text :=
  "<!-- Missing script:  -->".toList

/-- The event of the script. -/
def blankEvent : Event :=
  ⟨.script, [], some ⟨.root, []⟩, .missing⟩

theorem compose_blank :
  compose blank blankInput = .ok (blankPage, [blankEvent])
  := by
  apply compose_eq_ok_iff.2
  use "<script src=\" \"></script>".toList, rfl
  have hcomponents : Component.pieces "<script src=\" \"></script>".toList
      = [.gap "<script src=\" \"></script>".toList] := by decide +kernel
  have hscripts : Script.pieces "<script src=\" \"></script>".toList
      = [.gap [], .token ⟨" ".toList, " ".toList⟩, .gap []] := by decide +kernel
  have himages : Image.pieces blankPage = [.gap blankPage] := by decide +kernel
  rw [assemble_of_pieces_eq_gap hcomponents]
  apply Component.embedAssets_of_pieces_eq_gap _ himages
  rw [Script.embedAll, hscripts]
  rfl

/-- The disk when the page has been written. -/
def blankWritten : Disk :=
  (blank.writeText Host.small.maxMissing blankOutput blankPage).1

theorem writeText_blank :
  blank.writeText Host.small.maxMissing blankOutput blankPage = (blankWritten, .ok ())
  := rfl

/-- A script with a blank source is what the manifest of its page fails at; a page without references
has a manifest that is accepted. -/
theorem blank_is_refused_and_crlf_accepted :
  run .small blank ⟨blankInput, blankOutput, .file crlfManifestPath⟩
      = (blankWritten, .error (.manifest (.violation (emptyReferenceAt 0))))
    ∧ ∃ finished v,
      run .small crlf ⟨crlfPath, crlfPath, .file crlfManifestPath⟩ = (finished, .ok crlfResult)
      ∧ checkFile .small finished crlfManifestPath = .ok v
  := by
  have horder := Host.goesInOrder_small
  obtain ⟨_, _, -, -, -, -, -, hfirst, -⟩ :=
    manifest_is_accepted_iff horder.isLawful compose_blank writeText_blank
  obtain ⟨_, manifest, -, -, -, -, -, -, haccepted⟩ :=
    manifest_is_accepted_iff horder.isLawful compose_crlf writeText_crlf
  obtain ⟨-, hchecked⟩ := haccepted (by simp)
  obtain ⟨finished, hwrite⟩ := exists_write_crlf (Utf8.encode manifest.print)
  obtain ⟨hrun, v, hv, -⟩ := hchecked crlfManifestPath finished hwrite
  constructor
  · apply hfirst horder 0 blankEvent rfl rfl
    · intro i hi
      omega
    · simp
  · exact ⟨finished, v, hrun, hv⟩

end Build

end Inlay
