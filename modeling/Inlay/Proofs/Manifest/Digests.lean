import Inlay.Proofs.Manifest.Made
import Inlay.Proofs.Page

/-!
# Digests in manifests

The digests in a manifest are those of the files as they are when the page has been written and the
manifest has not.  They are those of the files that the page came of, and of the page that is found
in the end, unless the page is written to one of the former or the manifest over the page
(`Build.digests_are_taken_after_page`).  So the manifest of a page that is written over its document
has the digest of the page in the place of that of the document
(`Build.overwritten_input_has_digest_of_page`).
-/

namespace Inlay

open Json

namespace Manifest

/-- The digest that an entry of a manifest has. -/
def recordedDigest? (entry : Json) : Option Json :=
  entry.get? "sha256".toList

/-- How a manifest has the digest of a file with the given bytes. -/
def digestOf (bytes : Bytes) : Json :=
  .str (Bytes.toHex (Sha256.digest bytes))

theorem digestOf_eq (bytes : Bytes) :
  digestOf bytes = .str (Sha256.hexDigest bytes)
  := by
  rw [digestOf, Sha256.hexDigest_eq]

variable {d : Disk} {r : Build.Result} {input output : Bytes} {v entry : Json}

/-- What is like the entry of a file has its digest. -/
theorem recordedDigest?_of_alike_fileJson
    {shown : Path} {bytes : Bytes} (h : Alike (fileJson shown bytes) entry) :
  recordedDigest? entry = some (digestOf bytes)
  := by
  have hdigest : (fileJson shown bytes).get? "sha256".toList
      = some (.str (Sha256.hexDigest bytes)) := rfl
  obtain ⟨digest, hget, hlike⟩ := h.get? hdigest
  rw [recordedDigest?, hget, hlike.eq_str, digestOf_eq]

/-- What is like the entry of an event has its digest. -/
theorem recordedDigest?_of_alike_entryJson
    {root : Path} {e : Event} (h : Alike (entryJson root e (digestJson d e)) entry) :
  recordedDigest? entry = some (digestJson d e)
  := by
  have hdigest : (entryJson root e (digestJson d e)).get? "sha256".toList
      = some (digestJson d e) := rfl
  obtain ⟨digest, hget, hlike⟩ := h.get? hdigest
  rw [recordedDigest?, hget]
  rw [digestJson] at hlike ⊢
  split at hlike
  case h_1 => rw [hlike.eq_str]
  case h_2 => rw [hlike.eq_null]

/-- What is like a manifest has the digest of the input. -/
theorem recordedDigest?_input (h : Alike (manifestJson d r input output) v) :
  (v.get? "input".toList).bind recordedDigest? = some (digestOf input)
  := by
  have hentry : (manifestJson d r input output).get? "input".toList
      = some (fileJson r.input input) := rfl
  obtain ⟨entry, hget, hlike⟩ := h.get? hentry
  rw [hget]
  exact recordedDigest?_of_alike_fileJson hlike

/-- What is like a manifest has the digest of the output. -/
theorem recordedDigest?_output (h : Alike (manifestJson d r input output) v) :
  (v.get? "output".toList).bind recordedDigest? = some (digestOf output)
  := by
  have hentry : (manifestJson d r input output).get? "output".toList
      = some (fileJson (d.currentPath.append r.output) output) := rfl
  obtain ⟨entry, hget, hlike⟩ := h.get? hentry
  rw [hget]
  exact recordedDigest?_of_alike_fileJson hlike

/-- What is like a manifest has an entry that is like that of each event, in order. -/
theorem exists_references_of_alike (h : Alike (manifestJson d r input output) v) :
  ∃ entries, v.get? "references".toList = some (.arr entries)
    ∧ entries.length = r.events.length
    ∧ ∀ (n : Nat) e entry, r.events[n]? = some e → entries[n]? = some entry →
        Alike (entryJson r.root e (digestJson d e)) entry
  := by
  have hreferences : (manifestJson d r input output).get? "references".toList
      = some (.arr (entriesJson d r)) := rfl
  obtain ⟨references, hget, hlike⟩ := h.get? hreferences
  obtain ⟨entries, rfl, hlength, hentries⟩ := hlike.exists_eq_arr
  use entries, hget
  constructor
  · rw [← hlength, entriesJson, List.length_map]
  · intro n e entry he hentry
    have hn : (entriesJson d r)[n]? = some (entryJson r.root e (digestJson d e)) := by
      rw [entriesJson, List.getElem?_map, he]
      rfl
    exact hentries n _ entry hn hentry

/-- What is like a manifest has an entry with the digest of each event, in order. -/
theorem recordedDigest?_references (h : Alike (manifestJson d r input output) v) :
  ∃ entries, v.get? "references".toList = some (.arr entries)
    ∧ entries.length = r.events.length
    ∧ ∀ (n : Nat) e entry, r.events[n]? = some e → entries[n]? = some entry →
        recordedDigest? entry = some (digestJson d e)
  := by
  obtain ⟨entries, hget, hlength, hentries⟩ := exists_references_of_alike h
  use entries, hget, hlength
  intro n e entry he hentry
  exact recordedDigest?_of_alike_entryJson (hentries n e entry he hentry)

end Manifest

namespace Build

open Manifest

/-- In the manifest of any build, the digests are those of the bytes that the files have when the
page has been written.  The document has those with which it was read, unless the page was written
to it; so has every file that was inlined, and what was not inlined has no digest.  The output has
the digest of the page, whose bytes are found there in the end, unless the manifest was written
there. -/
theorem digests_are_taken_after_page
    {host : Host} {d finished : Disk} {input output p : Path} {result : Result}
    (hrun : run host d ⟨input, output, .file p⟩ = (finished, .ok result)) :
  ∃ page document manifest inputAt outputAt manifestAt v entries,
    compose d input = .ok (page, result.events)
    ∧ d.locate result.input = .ok (.file inputAt document)
    ∧ finished.locate p = .ok (.file manifestAt manifest)
    ∧ finished.locate output
      = .ok (.file outputAt (if outputAt = manifestAt then manifest else Utf8.encode page))
    ∧ finished.readJson host.maxDepth p = .ok v
    ∧ (v.get? "input".toList).bind recordedDigest?
      = some (digestOf (if inputAt = outputAt then Utf8.encode page else document))
    ∧ (v.get? "output".toList).bind recordedDigest? = some (digestOf (Utf8.encode page))
    ∧ v.get? "references".toList = some (.arr entries) ∧ entries.length = result.events.length
    ∧ ∀ (n : Nat) e entry, result.events[n]? = some e → entries[n]? = some entry →
        (e.status ≠ .inlined → recordedDigest? entry = some .null)
          ∧ (e.status = .inlined → ∃ file location bytes, e.path = some file
              ∧ d.locate file = .ok (.file location bytes)
              ∧ recordedDigest? entry
                = some (digestOf (if location = outputAt then Utf8.encode page else bytes)))
  := by
  obtain ⟨page, events, written, hcompose, hpage, rfl, hmanifest⟩ := exists_of_run_eq_ok hrun
  obtain ⟨outputAt, hk, houtput⟩ := Disk.of_write_eq_ok hpage
  obtain ⟨inputAt, document, hinput⟩ := exists_locate_of_compose hcompose
  have hpayload := payload_resultOf hcompose hk houtput hinput
  obtain ⟨-, hjson⟩ := (write_file_eq_ok_iff hpayload).1 hmanifest
  obtain ⟨manifestAt, hk', hp⟩ := Disk.of_write_eq_ok hjson
  obtain ⟨v, hread, hlike⟩ := exists_readJson_of_written hjson
  obtain ⟨entries, hreferences, hlength, hentries⟩ := recordedDigest?_references hlike
  refine ⟨page, document, _, inputAt, outputAt, manifestAt, v, entries, hcompose, hinput, hp,
    hk'.locate_of_written hp houtput, hread, recordedDigest?_input hlike,
    recordedDigest?_output hlike, hreferences, hlength, ?_⟩
  intro n e entry he hentry
  rw [hentries n e entry he hentry]
  constructor
  · intro hstatus
    rw [digestJson_of_not_inlined hstatus]
  · intro hstatus
    obtain ⟨file, location, bytes, hpath, hlocate, hbytes⟩ :=
      read_of_inlined hcompose hk houtput (List.mem_of_getElem? he) hstatus
    use file, location, bytes, hpath, hlocate
    rw [digestJson_of_inlined hstatus hpath hbytes, digestOf_eq]

/-! ### A page over one of its scripts -/

/-- A document that asks for three scripts. -/
def scriptsDocument : Text :=
  ("<script src=\"a.js\"></script><script src=\"b.js\"></script>"
    ++ "<script src=\"c.js\"></script>").toList

/-- A disk with the document and the first two scripts. -/
def scripts : Disk :=
  (((Disk.empty []).add (Path.ofText "/index.html".toList) (.file (Utf8.encode scriptsDocument))).add
    (Path.ofText "/a.js".toList) (.file (Utf8.encode "a".toList))).add
    (Path.ofText "/b.js".toList) (.file (Utf8.encode "b".toList))

/-- The path of the document. -/
def scriptsInput : Path :=
  Path.ofText "index.html".toList

/-- The path of the page, which is that of the first script. -/
def scriptsOutput : Path :=
  Path.ofText "a.js".toList

/-- The path of the manifest. -/
def scriptsManifestPath : Path :=
  Path.ofText "m.json".toList

/-- The page of the document. -/
def scriptsPage : Text :=
  "<script>\na\n</script><script>\nb\n</script><!-- Missing script: c.js -->".toList

/-- The events of the scripts. -/
def scriptsEvents : List Event := [
  ⟨.script, "a.js".toList, some (Path.ofText "/a.js".toList), .inlined⟩,
  ⟨.script, "b.js".toList, some (Path.ofText "/b.js".toList), .inlined⟩,
  ⟨.script, "c.js".toList, some (Path.ofText "/c.js".toList), .missing⟩]

theorem compose_scripts :
  compose scripts scriptsInput = .ok (scriptsPage, scriptsEvents)
  := by
  apply compose_eq_ok_iff.2
  use scriptsDocument, rfl
  have hcomponents : Component.pieces scriptsDocument = [.gap scriptsDocument] := by decide +kernel
  have hscripts : Script.pieces scriptsDocument
      = [.gap [], .token ⟨" ".toList, "a.js".toList⟩, .gap [],
        .token ⟨" ".toList, "b.js".toList⟩, .gap [], .token ⟨" ".toList, "c.js".toList⟩,
        .gap []] := by decide +kernel
  have himages : Image.pieces scriptsPage = [.gap scriptsPage] := by decide +kernel
  rw [assemble_of_pieces_eq_gap hcomponents]
  apply Component.embedAssets_of_pieces_eq_gap _ himages
  rw [Script.embedAll, hscripts]
  rfl

/-- The disk when the page has been written. -/
def scriptsWritten : Disk :=
  (scripts.writeText Host.small.maxMissing scriptsOutput scriptsPage).1

theorem writeText_scripts :
  scripts.writeText Host.small.maxMissing scriptsOutput scriptsPage = (scriptsWritten, .ok ())
  := rfl

/-- Any manifest can be written there, beside the page. -/
theorem exists_write_scripts (bytes : Bytes) :
  ∃ finished, scriptsWritten.write Host.small.maxMissing scriptsManifestPath bytes = (finished, .ok ())
    ∧ finished.locate scriptsOutput = .ok (.file scriptsOutput.segments (Utf8.encode scriptsPage))
  := ⟨_, rfl, rfl⟩

/-- The build succeeds, and the page is found where the first script was. -/
theorem exists_run_scripts :
  ∃ finished, run .small scripts ⟨scriptsInput, scriptsOutput, .file scriptsManifestPath⟩
      = (finished, .ok (resultOf scripts scriptsInput scriptsOutput scriptsEvents))
    ∧ finished.locate scriptsOutput = .ok (.file scriptsOutput.segments (Utf8.encode scriptsPage))
  := by
  have hwritable : ∀ bytes, ∃ finished,
      scriptsWritten.write Host.small.maxMissing scriptsManifestPath bytes = (finished, .ok ()) := by
    intro bytes
    obtain ⟨finished, hwrite, -⟩ := exists_write_scripts bytes
    exact ⟨finished, hwrite⟩
  obtain ⟨finished, manifest, hjson, hrun⟩ := exists_run_of_writable
    Host.goesInOrder_small.isLawful compose_scripts writeText_scripts (by decide) hwritable
  obtain ⟨_, hwrite, hlocate⟩ := exists_write_scripts (Utf8.encode manifest.print)
  cases hwrite.symm.trans hjson
  exact ⟨finished, hrun, hlocate⟩

/-- The page was written over the first script, whose digest is that of the page.  The document and the
second script have those of the bytes that were read, and the script that is missing has none. -/
theorem scripts_have_digests_after_page :
  ∃ finished v entry entry' entry'',
    run .small scripts ⟨scriptsInput, scriptsOutput, .file scriptsManifestPath⟩
      = (finished, .ok (resultOf scripts scriptsInput scriptsOutput scriptsEvents))
    ∧ finished.readJson Host.small.maxDepth scriptsManifestPath = .ok v
    ∧ (v.get? "input".toList).bind recordedDigest?
      = some (digestOf (Utf8.encode scriptsDocument))
    ∧ (v.get? "output".toList).bind recordedDigest? = some (digestOf (Utf8.encode scriptsPage))
    ∧ v.get? "references".toList = some (.arr [entry, entry', entry''])
    ∧ recordedDigest? entry = some (digestOf (Utf8.encode scriptsPage))
    ∧ recordedDigest? entry' = some (digestOf (Utf8.encode "b".toList))
    ∧ recordedDigest? entry'' = some .null
  := by
  obtain ⟨finished, hrun, hlocate⟩ := exists_run_scripts
  obtain ⟨page, document, manifest, inputAt, outputAt, manifestAt, v, entries, hcompose, hinput, -,
    hpage, hread, hdocument, houtput, hreferences, hlength, hentries⟩ :=
    digests_are_taken_after_page hrun
  rw [compose_scripts] at hcompose
  cases hcompose
  obtain ⟨entry, entry', entry'', rfl⟩ := List.length_eq_three.1 hlength
  obtain ⟨rfl, -⟩ := Place.file.inj (Except.ok.inj (hlocate.symm.trans hpage))
  have hindex : scripts.locate (inputPath scripts scriptsInput)
      = .ok (.file scriptsInput.segments (Utf8.encode scriptsDocument)) := rfl
  obtain ⟨rfl, rfl⟩ := Place.file.inj (Except.ok.inj (hindex.symm.trans hinput))
  obtain ⟨-, hfirst⟩ := hentries 0 _ entry rfl rfl
  obtain ⟨-, hsecond⟩ := hentries 1 _ entry' rfl rfl
  obtain ⟨hthird, -⟩ := hentries 2 _ entry'' rfl rfl
  obtain ⟨_, location, bytes, ⟨⟩, ha, hdigest⟩ := hfirst rfl
  obtain ⟨_, location', bytes', ⟨⟩, hb, hdigest'⟩ := hsecond rfl
  cases ha
  cases hb
  exact ⟨finished, v, entry, entry', entry'', hrun, hread, hdocument, houtput, hreferences, hdigest,
    hdigest', hthird (by decide)⟩

/-! ### A page over its document -/

/-- A disk with a document whose line ends in a carriage return and a line feed. -/
def crlf : Disk :=
  (Disk.empty []).add (Path.ofText "/index.html".toList) (.file (Utf8.encode "<b>\r\n".toList))

/-- The path of the document and of the page. -/
def crlfPath : Path :=
  Path.ofText "index.html".toList

/-- The path of the manifest. -/
def crlfManifestPath : Path :=
  Path.ofText "m.json".toList

/-- The page of the document: a text is read with line feeds alone. -/
def crlfPage : Text :=
  "<b>\n".toList

theorem compose_crlf :
  compose crlf crlfPath = .ok (crlfPage, [])
  := by
  apply compose_eq_ok_iff.2
  use crlfPage, rfl
  have hcomponents : Component.pieces crlfPage = [.gap crlfPage] := by decide +kernel
  have hscripts : Script.pieces crlfPage = [.gap crlfPage] := by decide +kernel
  have himages : Image.pieces crlfPage = [.gap crlfPage] := by decide +kernel
  rw [assemble_of_pieces_eq_gap hcomponents]
  apply Component.embedAssets_of_pieces_eq_gap _ himages
  rw [Script.embedAll, hscripts]
  rfl

/-- The disk when the page has been written. -/
def crlfWritten : Disk :=
  (crlf.writeText Host.small.maxMissing crlfPath crlfPage).1

theorem writeText_crlf :
  crlf.writeText Host.small.maxMissing crlfPath crlfPage = (crlfWritten, .ok ())
  := rfl

/-- Any manifest can be written there. -/
theorem exists_write_crlf (bytes : Bytes) :
  ∃ finished, crlfWritten.write Host.small.maxMissing crlfManifestPath bytes = (finished, .ok ())
  := ⟨_, rfl⟩

/-- The result of the build. -/
def crlfResult : Result :=
  resultOf crlf crlfPath crlfPath []

/-- The manifest of the build. -/
def crlfManifest : Json :=
  manifestJson crlfWritten crlfResult (Utf8.encode crlfPage) (Utf8.encode crlfPage)

/-- The build succeeds and writes that manifest. -/
theorem exists_run_crlf :
  ∃ finished,
    run .small crlf ⟨crlfPath, crlfPath, .file crlfManifestPath⟩ = (finished, .ok crlfResult)
    ∧ crlfWritten.writeJson Host.small.maxMissing crlfManifestPath crlfManifest
      = (finished, .ok ())
  := by
  have hpayload : payload crlfWritten crlfResult.record = .ok crlfManifest := by
    apply payload_eq_ok
    · intro e he
      cases he
    · rfl
    · rfl
  have haccepts : Host.small.validate schema.document crlfManifest = none := by
    apply (accepts_manifestJson_iff _).2
    · intro e he
      cases he
    · intro e he
      cases he
  obtain ⟨finished, hwrite⟩ := exists_write_crlf (Utf8.encode crlfManifest.print)
  have hjson : crlfWritten.writeJson Host.small.maxMissing crlfManifestPath crlfManifest
      = (finished, .ok ()) := hwrite
  have hmanifest := (write_file_eq_ok_iff hpayload).2 ⟨haccepts, hjson⟩
  use finished
  constructor
  · rw [run_of_written compose_crlf writeText_crlf]
    rw [show (resultOf crlf crlfPath crlfPath []).record = crlfResult.record from rfl, hmanifest]
    rfl
  · exact hjson

/-- The document was read with a carriage return, and its digest in the manifest is not that of what
was read. -/
theorem overwritten_input_has_digest_of_page :
  ∃ finished v,
    run .small crlf ⟨crlfPath, crlfPath, .file crlfManifestPath⟩ = (finished, .ok crlfResult)
    ∧ crlf.read crlfResult.input = .ok (Utf8.encode "<b>\r\n".toList)
    ∧ finished.readJson Host.small.maxDepth crlfManifestPath = .ok v
    ∧ (v.get? "input".toList).bind recordedDigest? = some (digestOf (Utf8.encode "<b>\n".toList))
    ∧ digestOf (Utf8.encode "<b>\n".toList) ≠ digestOf (Utf8.encode "<b>\r\n".toList)
  := by
  obtain ⟨finished, hrun, hwrite⟩ := exists_run_crlf
  obtain ⟨v, hread, hlike⟩ := exists_readJson_of_written hwrite
  refine ⟨finished, v, hrun, rfl, hread, recordedDigest?_input hlike, ?_⟩
  have hdigests : Bytes.toHex (Sha256.digest (Utf8.encode "<b>\n".toList))
      ≠ Bytes.toHex (Sha256.digest (Utf8.encode "<b>\r\n".toList)) := by decide +kernel
  intro heq
  exact hdigests (Json.str.inj heq)

end Build

end Inlay
