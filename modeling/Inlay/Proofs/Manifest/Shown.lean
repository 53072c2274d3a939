import Inlay.Proofs.Manifest.Agreement
import Inlay.Proofs.Path.Under

/-!
# Paths in manifests

A manifest shows the path of a reference from the root of the project where it lies under it, and in
full otherwise.  A full path starts with a slash and the other one does not, so that what is shown
leads back to the path (`shows_displayPath`): nothing is lost where the paths of a build are recorded
(`Build.recorded_paths_are_lossless`).
-/

namespace Inlay

open Json

namespace Path

/-- A path lies under a root by its segments alone. -/
def LiesUnder (root p : Path) : Prop :=
  p.anchor = root.anchor ∧ root.segments <+: p.segments

instance (root p : Path) : Decidable (LiesUnder root p) :=
  inferInstanceAs (Decidable (_ ∧ _))

/-- A text that shows a path of a project: the path itself, if it does not lie under the root, or
else what leads to it from the root. -/
structure Shows (root : Path) (shown : Text) (p : Path) : Prop where
  slash_iff : shown.head? = some '/' ↔ ¬ LiesUnder root p
  full : shown.head? = some '/' → ofText shown = p
  under : shown.head? ≠ some '/' → ∀ base, resolve ('/' :: shown) base root = p

variable {root p q : Path} {shown : Text} {names : List Segment}

/-- What is shown leads back to one path. -/
theorem Shows.eq (hp : Shows root shown p) (hq : Shows root shown q) :
  p = q
  := by
  by_cases hslash : shown.head? = some '/'
  · rw [← hp.full hslash, hq.full hslash]
  · rw [← hp.under hslash root, hq.under hslash root]

theorem head?_toText_of_isAbsolute (h : p.isAbsolute = true) :
  p.toText.head? = some '/'
  := by
  obtain ⟨anchor, segments⟩ := p
  cases anchor with
  | here => cases h
  | root => rfl
  | doubleRoot => rfl

theorem head?_toText_here (segments : List Segment) :
  (toText ⟨.here, segments⟩).head? ≠ some '/'
  := by
  apply anchorOf_eq_here_iff.1
  exact anchorOf_toText ⟨.here, segments⟩

/-- Walking a path without double dots changes nothing. -/
theorem normalize_of_not_mem (h : Segment.up ∉ p.segments) :
  p.normalize = p
  := congrArg (Path.mk p.anchor) (normalSegments_of_not_mem h p.isAbsolute)

/-- What is spelled from a root by names is found there again. -/
theorem resolve_slash_toText
    (hroot : Segment.up ∉ root.segments) (hnames : Segment.up ∉ names) (base : Path) :
  resolve ('/' :: toText ⟨.here, names⟩) base root = ⟨root.anchor, root.segments ++ names⟩
  := by
  have hsegments : segmentsOf ('/' :: toText ⟨.here, names⟩) = names := by
    rw [segmentsOf_slash, segmentsOf_toText]
  rw [resolve_slash, hsegments, ← normalSegments_true_eq_descend,
    normalSegments_of_not_mem hnames]
  apply normalize_of_not_mem
  rw [List.mem_append, not_or]
  exact ⟨hroot, hnames⟩

end Path

/-! ### What is shown -/

namespace Manifest

open Inlay.Path

variable {root p : Path}

/-- A path that follows the root by names is shown by these names. -/
theorem displayPath_of_names
    {names : List Segment} (hroot : Segment.up ∉ root.segments) (hnames : Segment.up ∉ names) :
  displayPath root ⟨root.anchor, root.segments ++ names⟩ = toText ⟨.here, names⟩
  := by
  have hfound := segmentsUnder?_of_names hnames root
  rw [normalize_of_not_mem (by simp [hroot, hnames])] at hfound
  rw [displayPath, relativeUnder, relativeUnder?, hfound]
  rfl

/-- A path that does not lie under the root is shown in full. -/
theorem displayPath_of_not_liesUnder
    (hroot : Segment.up ∉ root.segments) (hp : Segment.up ∉ p.segments) (h : ¬ LiesUnder root p) :
  displayPath root p = p.toText
  := by
  have hnone : segmentsUnder? root p = none := by
    rw [Option.eq_none_iff_forall_ne_some]
    intro segments hsegments
    rw [segmentsUnder?_eq_some_iff, normalize_of_not_mem hroot, normalize_of_not_mem hp,
      append_relative] at hsegments
    apply h
    rw [← hsegments]
    exact ⟨rfl, List.prefix_append _ _⟩
  rw [displayPath, relativeUnder, relativeUnder?, hnone]
  rfl

/-- What is shown of a path below a root leads back to it, if neither has double dots. -/
theorem shows_displayPath
    (habs : p.isAbsolute = true) (hroot : Segment.up ∉ root.segments)
    (hp : Segment.up ∉ p.segments) :
  Shows root (displayPath root p) p
  := by
  by_cases hunder : LiesUnder root p
  · obtain ⟨anchor, segments⟩ := p
    obtain ⟨rfl, names, rfl⟩ := hunder
    have hnames : Segment.up ∉ names := fun hmem => hp (List.mem_append_right _ hmem)
    rw [displayPath_of_names hroot hnames]
    have hslash := head?_toText_here names
    constructor
    · exact iff_of_false hslash (not_not_intro ⟨rfl, List.prefix_append _ _⟩)
    · intro h
      exact absurd h hslash
    · intro _ base
      exact resolve_slash_toText hroot hnames base
  · rw [displayPath_of_not_liesUnder hroot hp hunder]
    have hslash := head?_toText_of_isAbsolute habs
    constructor
    · exact iff_of_true hslash hunder
    · intro _
      exact ofText_toText p
    · intro h
      exact absurd hslash h

/-! ### What is recorded -/

/-- How the path of a reference is recorded in its entry. -/
def recordedPath? (entry : Json) : Option Json :=
  entry.get? "resolved_path".toList

/-- What is like the entry of an event has its path. -/
theorem recordedPath?_of_alike_entryJson
    {e : Event} {digest entry : Json} (h : Alike (entryJson root e digest) entry) :
  recordedPath? entry = some (pathJson root e)
  := by
  have hpath : (entryJson root e digest).get? "resolved_path".toList = some (pathJson root e) := rfl
  obtain ⟨path, hget, hlike⟩ := h.get? hpath
  rw [recordedPath?, hget]
  rw [pathJson] at hlike ⊢
  split at hlike
  case h_1 => rw [hlike.eq_str]
  case h_2 => rw [hlike.eq_null]

end Manifest

namespace Build

open Manifest

variable {host : Host} {d written finished : Disk} {input output p : Path} {page : Text}
  {events : List Event}

/-- The path of an event starts where the root of the project does, and has no double dots. -/
theorem path_of_mem_events
    (hcompose : compose d input = .ok (page, events)) {e : Event} (he : e ∈ events) {file : Path}
    (hfile : e.path = some file) :
  file.anchor = (inputPath d input).parent.anchor ∧ Segment.up ∉ file.segments
  := by
  obtain ⟨document, -, hrun⟩ := exists_document_of_compose hcompose
  have habs := Component.isAbsolute_inputPath_parent d input
  have hfrom := from_runAll d (inputPath d input).parent
    (Pass.ofBody (inputPath d input).parent []) document
  rw [hrun] at hfrom
  obtain ⟨s, status, hmeets, -, rfl⟩ := hfrom.event e he
  have hbase := hmeets.isBase habs (isBase_of_compose hcompose)
  obtain ⟨-, hpath⟩ := Option.ite_none_left_eq_some.1 hfile
  obtain rfl := Option.some.inj hpath
  exact ⟨Path.anchor_resolve hbase.anchor_eq, Path.up_not_mem_resolve hbase.anchor_eq habs⟩

/-- What is shown of the path of an event leads back to it. -/
theorem shows_path_of_mem_events
    (hcompose : compose d input = .ok (page, events)) {e : Event} (he : e ∈ events) {file : Path}
    (hfile : e.path = some file) :
  Path.Shows (inputPath d input).parent (displayPath (inputPath d input).parent file) file
  := by
  obtain ⟨hanchor, hup⟩ := path_of_mem_events hcompose he hfile
  have habs := Component.isAbsolute_inputPath_parent d input
  have hroot : Segment.up ∉ (inputPath d input).parent.segments :=
    (isBase_of_compose hcompose (.scripts (inputPath d input).parent) (by simp [Pass.ofBody])).up_not_mem
  apply shows_displayPath _ hroot hup
  rw [Path.isAbsolute, hanchor]
  exact habs

/-- A build with a manifest leaves one in which the path of each event is recorded. -/
theorem exists_recordedPaths_of_run
    {result : Result} (hrun : run host d ⟨input, output, .file p⟩ = (finished, .ok result)) :
  ∃ page v entries, compose d input = .ok (page, result.events)
    ∧ result.root = (inputPath d input).parent
    ∧ finished.readJson host.maxDepth p = .ok v
    ∧ v.get? "references".toList = some (.arr entries) ∧ entries.length = result.events.length
    ∧ ∀ (n : Nat) e entry, result.events[n]? = some e → entries[n]? = some entry →
        recordedPath? entry = some (pathJson result.root e)
  := by
  obtain ⟨page, events, written, hcompose, hpage, rfl, hmanifest⟩ := exists_of_run_eq_ok hrun
  obtain ⟨outputAt, hk, houtput⟩ := Disk.of_write_eq_ok hpage
  obtain ⟨inputAt, document, hinput⟩ := exists_locate_of_compose hcompose
  have hpayload := payload_resultOf hcompose hk houtput hinput
  obtain ⟨-, hjson⟩ := (write_file_eq_ok_iff hpayload).1 hmanifest
  obtain ⟨v, hread, hlike⟩ := exists_readJson_of_written hjson
  obtain ⟨entries, hreferences, hlength, hentries⟩ := exists_references_of_alike hlike
  refine ⟨page, v, entries, hcompose, rfl, hread, hreferences, hlength, ?_⟩
  intro n e entry he hentry
  exact recordedPath?_of_alike_entryJson (hentries n e entry he hentry)

/-- In the manifest of any build, the path of each reference is shown without loss.  It starts with a
slash exactly if the path does not lie under the root of the project, and then it is the path; and
otherwise it denotes the path in any document of the project, as a reference with a slash ahead.  So
references of different paths, or one with a path and one without, are recorded differently. -/
theorem recorded_paths_are_lossless
    {result : Result} (hrun : run host d ⟨input, output, .file p⟩ = (finished, .ok result)) :
  ∃ v entries, finished.readJson host.maxDepth p = .ok v
    ∧ v.get? "references".toList = some (.arr entries) ∧ entries.length = result.events.length
    ∧ (∀ (n : Nat) e entry file, result.events[n]? = some e → entries[n]? = some entry →
        e.path = some file →
        ∃ shown, recordedPath? entry = some (.str shown) ∧ Path.Shows result.root shown file)
    ∧ ∀ (n n' : Nat) e e' entry entry',
        result.events[n]? = some e → entries[n]? = some entry →
        result.events[n']? = some e' → entries[n']? = some entry' →
        e.path ≠ e'.path → recordedPath? entry ≠ recordedPath? entry'
  := by
  obtain ⟨page, v, entries, hcompose, hroot, hread, hreferences, hlength, hpaths⟩ :=
    exists_recordedPaths_of_run hrun
  have hshows : ∀ e ∈ result.events, ∀ file, e.path = some file →
      Path.Shows result.root (displayPath result.root file) file := by
    intro e he file hfile
    rw [hroot]
    exact shows_path_of_mem_events hcompose he hfile
  refine ⟨v, entries, hread, hreferences, hlength, ?_, ?_⟩
  · intro n e entry file he hentry hfile
    use displayPath result.root file
    constructor
    · rw [hpaths n e entry he hentry, pathJson, hfile]
    · exact hshows e (List.mem_of_getElem? he) file hfile
  · intro n n' e e' entry entry' he hentry he' hentry' hne heq
    rw [hpaths n e entry he hentry, hpaths n' e' entry' he' hentry', Option.some_inj] at heq
    apply hne
    rw [pathJson, pathJson] at heq
    cases hfile : e.path with
    | none =>
      cases hfile' : e'.path with
      | none => rfl
      | some file' =>
        rw [hfile, hfile'] at heq
        cases heq
    | some file =>
      cases hfile' : e'.path with
      | none =>
        rw [hfile, hfile'] at heq
        cases heq
      | some file' =>
        rw [hfile, hfile'] at heq
        have hshown := hshows e (List.mem_of_getElem? he) file hfile
        rw [Json.str.inj heq] at hshown
        rw [hshown.eq (hshows e' (List.mem_of_getElem? he') file' hfile')]

/-! ### A reference out of the project -/

/-- A disk with a document in a directory, which asks for a script there and for one above. -/
def climbing : Disk :=
  (Disk.empty []).add (Path.ofText "/p/index.html".toList)
    (.file (Utf8.encode
      "<script src=\"a.js\"></script><script src=\"../b.js\"></script>".toList))

/-- The path of the document. -/
def climbingInput : Path :=
  Path.ofText "p/index.html".toList

/-- The page of the document. -/
def climbingPage : Text :=
  "<!-- Missing script: a.js --><!-- Missing script: ../b.js -->".toList

/-- The events of the scripts. -/
def climbingEvents : List Event := [
  ⟨.script, "a.js".toList, some (Path.ofText "/p/a.js".toList), .missing⟩,
  ⟨.script, "../b.js".toList, some (Path.ofText "/b.js".toList), .missing⟩]

theorem compose_climbing :
  compose climbing climbingInput = .ok (climbingPage, climbingEvents)
  := by
  apply compose_eq_ok_iff.2
  use "<script src=\"a.js\"></script><script src=\"../b.js\"></script>".toList, rfl
  have hcomponents : Component.pieces
      "<script src=\"a.js\"></script><script src=\"../b.js\"></script>".toList
      = [.gap "<script src=\"a.js\"></script><script src=\"../b.js\"></script>".toList] := by
    decide +kernel
  have hscripts : Script.pieces
      "<script src=\"a.js\"></script><script src=\"../b.js\"></script>".toList
      = [.gap [], .token ⟨" ".toList, "a.js".toList⟩, .gap [],
        .token ⟨" ".toList, "../b.js".toList⟩, .gap []] := by decide +kernel
  have himages : Image.pieces climbingPage = [.gap climbingPage] := by decide +kernel
  rw [assemble_of_pieces_eq_gap hcomponents]
  apply Component.embedAssets_of_pieces_eq_gap _ himages
  rw [Script.embedAll, hscripts]
  rfl

/-- The disk when the page has been written. -/
def climbingWritten : Disk :=
  (climbing.writeText Host.small.maxMissing blankOutput climbingPage).1

/-- The script below the root of the project and the one above it are recorded apart, the one from the
root and the other in full. -/
theorem climbing_paths_are_lossless :
  ∃ finished v entry entry' shown shown',
    run .small climbing ⟨climbingInput, blankOutput, .file crlfManifestPath⟩
      = (finished, .ok (resultOf climbing climbingInput blankOutput climbingEvents))
    ∧ finished.readJson Host.small.maxDepth crlfManifestPath = .ok v
    ∧ v.get? "references".toList = some (.arr [entry, entry'])
    ∧ recordedPath? entry = some (.str shown) ∧ shown.head? ≠ some '/'
    ∧ recordedPath? entry' = some (.str shown') ∧ Path.ofText shown' = Path.ofText "/b.js".toList
    ∧ recordedPath? entry ≠ recordedPath? entry'
  := by
  have hwritten : climbing.writeText Host.small.maxMissing blankOutput climbingPage
      = (climbingWritten, .ok ()) := rfl
  obtain ⟨finished, -, -, hrun⟩ := exists_run_of_writable (p := crlfManifestPath)
    Host.goesInOrder_small.isLawful compose_climbing hwritten (by decide) fun bytes => ⟨_, rfl⟩
  obtain ⟨v, entries, hread, hreferences, hlength, hshown, hapart⟩ := recorded_paths_are_lossless hrun
  obtain ⟨entry, entry', rfl⟩ := List.length_eq_two.1 hlength
  obtain ⟨shown, hpath, hshows⟩ := hshown 0 _ entry _ rfl rfl rfl
  obtain ⟨shown', hpath', hshows'⟩ := hshown 1 _ entry' _ rfl rfl rfl
  refine ⟨finished, v, entry, entry', shown, shown', hrun, hread, hreferences, hpath, ?_, hpath', ?_,
    ?_⟩
  · rw [Ne, hshows.slash_iff, not_not]
    decide +kernel
  · apply hshows'.full
    rw [hshows'.slash_iff]
    decide +kernel
  · exact hapart 0 1 _ _ entry entry' rfl rfl rfl rfl (by decide)

end Build

end Inlay
