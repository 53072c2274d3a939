import Inlay.Proofs.Image.Settled
import Inlay.Proofs.Page
import Inlay.Proofs.Script.Plain
import Mathlib.Algebra.GroupWithZero.Nat

/-!
# Images that are recorded repeatedly

An image that is left alone stays in the text, and each pass over a text around it meets it again.  So
the events that tell of it are as many as its occurrences in the texts that the image passes scan:
those of the components, at every depth, and that of the document
(`skipped_events_are_of_scanned_texts`).
-/

namespace Inlay

/-- The number of events that tell that a reference was left alone. -/
def skippedCount (reference : Text) (events : List Event) : Nat :=
  events.countP fun e => e.status = .skipped ∧ e.reference = reference

/-- The number of image elements of a text that have a reference and are left alone. -/
def Image.occurrences (reference t : Text) : Nat :=
  (pattern.tokens t).countP fun x => isPassedOver x.reference ∧ x.reference = reference

theorem skippedCount_append (reference : Text) (before after : List Event) :
  skippedCount reference (before ++ after)
    = skippedCount reference before + skippedCount reference after
  := List.countP_append

/-- The events of a substitution are counted by its tokens. -/
theorem skippedCount_of_substituted
    {τ : Type} {Gives : τ → List Event → Text → Prop} {pieces : List (Piece τ)} {events : List Event}
    {out reference : Text} {p : τ → Bool} (h : Substituted Gives pieces events out)
    (hown : ∀ x own new, Gives x own new → skippedCount reference own = if p x then 1 else 0) :
  skippedCount reference events = (pieces.filterMap Piece.token?).countP p
  := by
  induction h with
  | nil => rfl
  | gap t h ih => exact ih
  | @token x own new pieces events out hx h ih =>
    have htokens : (Piece.token x :: pieces).filterMap Piece.token?
        = x :: pieces.filterMap Piece.token? := rfl
    rw [skippedCount_append, hown x own new hx, ih, htokens, List.countP_cons]
    omega

/-! ### Passes -/

section

variable {d : Disk} {base root : Path} {t out : Text} {events : List Event}

/-- The image pass records each element that it leaves alone. -/
theorem skippedCount_of_embedImages
    (reference : Text) (h : Image.embedAll d base root t = ⟨events, .ok out⟩) :
  skippedCount reference events = Image.occurrences reference t
  := by
  apply skippedCount_of_substituted (Recorded.substitute_eq_ok_iff.1 h)
  intro x own new hx
  rcases Image.embed_cases hx with ⟨hpass, rfl, -⟩ | ⟨bytes, hbytes, rfl, -⟩ | ⟨hmissing, rfl, -⟩
  · simp [skippedCount, hpass, List.countP_cons]
  · simp [skippedCount, hbytes.1]
  · simp [skippedCount, hmissing.1]

/-- The script pass leaves no reference alone. -/
theorem skippedCount_of_embedScripts
    (reference : Text) (h : Script.embedAll d base root t = ⟨events, .ok out⟩) :
  skippedCount reference events = 0
  := by
  have hnone : ∀ x own new, Script.embed d base root x = ⟨own, .ok new⟩ →
      skippedCount reference own = if false then 1 else 0 := by
    intro x own new hx
    cases Script.gives_of_embed_eq_ok hx <;> simp [skippedCount]
  rw [skippedCount_of_substituted (Recorded.substitute_eq_ok_iff.1 h) hnone]
  simp

/-- Scripts and images together record what the image pass leaves alone in the text that the scripts
leave. -/
theorem exists_of_embedAssets
    (h : Component.embedAssets d base root t = ⟨events, .ok out⟩) :
  ∃ scanned, (Script.embedAll d base root t).outcome = .ok scanned
    ∧ (Image.embedAll d base root scanned).outcome = .ok out
    ∧ ∀ reference, skippedCount reference events = Image.occurrences reference scanned
  := by
  rw [Component.embedAssets_eq] at h
  obtain ⟨before, scanned, after, hscripts, himages, rfl⟩ := Recorded.bind_eq_ok_iff.1 h
  use scanned
  refine ⟨by rw [hscripts], by rw [himages], ?_⟩
  intro reference
  rw [skippedCount_append, skippedCount_of_embedScripts reference hscripts,
    skippedCount_of_embedImages reference himages, Nat.zero_add]

end

/-! ### Components -/

namespace Component

/-- The texts that the image passes of the components of some pieces scan, in order: those of the
components within a component, then its own, which its scripts leave. -/
inductive Scans (d : Disk) (root : Path) : Path → List Path → List (Piece Token) → List Text → Prop
  | nil {base visited} : Scans d root base visited [] []
  | gap {base visited t pending scanned} (h : Scans d root base visited pending scanned) :
    Scans d root base visited (.gap t :: pending) scanned
  | leave {base visited x pending status comment scanned}
    (hvisit : visit d visited x.reference (Path.resolve x.reference base root)
      = .ok (.leave status comment))
    (h : Scans d root base visited pending scanned) :
    Scans d root base visited (.token x :: pending) scanned
  | enter {base visited x pending body inner expanded own scanned}
    (hvisit : visit d visited x.reference (Path.resolve x.reference base root) = .ok (.enter body))
    (hinner : Scans d root (Path.resolve x.reference base root).parent
      (Path.resolve x.reference base root :: visited) (pieces body) inner)
    (hexpanded : (nested d root (Path.resolve x.reference base root).parent
      (Path.resolve x.reference base root :: visited) (pieces body)).outcome = .ok expanded)
    (hown : (Script.embedAll d (Path.resolve x.reference base root).parent root expanded).outcome
      = .ok own)
    (h : Scans d root base visited pending scanned) :
    Scans d root base visited (.token x :: pending) (inner ++ own :: scanned)

/-- No component's token is left alone: its event is counted for no reference. -/
theorem status_ne_skipped_of_visit
    {d : Disk} {visited : List Path} {reference comment : Text} {path : Path} {status : Status}
    (h : visit d visited reference path = .ok (.leave status comment)) :
  status ≠ .skipped
  := by
  cases hfile : d.isFile path with
  | error e =>
    rw [visit_of_error hfile] at h
    cases h
  | ok found =>
    cases found with
    | false =>
      rw [visit_of_missing hfile] at h
      cases h
      decide
    | true =>
      by_cases hopen : path ∈ visited
      · rw [visit_of_open hfile hopen] at h
        cases h
        decide
      · obtain ⟨body, hbody⟩ := Disk.exists_readReplacing_of_isFile hfile
        rw [visit_of_file hfile hopen hbody] at h
        cases h

/-- The events of components by which references are left alone are those of the texts that their
image passes scan. -/
theorem exists_scans
    {d : Disk} {root : Path} (base : Path) (visited : List Path) (pending : List (Piece Token)) :
  ∀ events out, nested d root base visited pending = ⟨events, .ok out⟩ →
    ∃ scanned, Scans d root base visited pending scanned
      ∧ ∀ reference, skippedCount reference events
        = (scanned.map (Image.occurrences reference)).sum
  := by
  induction base, visited, pending using nested.induct d root with
  | case1 base visited =>
    intro events out h
    rw [nested_nil] at h
    cases h
    exact ⟨[], .nil, fun _ => rfl⟩
  | case2 base visited t pending ih =>
    intro events out h
    rw [nested_gap] at h
    obtain ⟨before, rest, after, hrest, hdone, rfl⟩ := Recorded.bind_eq_ok_iff.1 h
    cases hdone
    obtain ⟨scanned, hscans, hcount⟩ := ih _ _ hrest
    rw [List.append_nil]
    exact ⟨scanned, .gap hscans, hcount⟩
  | case3 base visited x pending reference path ihBody ih =>
    intro events out h
    rw [nested_token, inPlace_eq_visit] at h
    obtain ⟨own, new, after, hplace, hafter, rfl⟩ := Recorded.bind_eq_ok_iff.1 h
    obtain ⟨later, rest, last, hrest, hdone, rfl⟩ := Recorded.bind_eq_ok_iff.1 hafter
    cases hdone
    obtain ⟨scanned, hscans, hcount⟩ := ih _ _ hrest
    rw [List.append_nil]
    cases hvisit : visit d visited x.reference (Path.resolve x.reference base root) with
    | error e =>
      rw [hvisit] at hplace
      cases hplace
    | ok called =>
      rw [hvisit] at hplace
      cases called with
      | leave status comment =>
        cases hplace
        refine ⟨scanned, .leave hvisit hscans, ?_⟩
        intro r
        rw [skippedCount_append, hcount]
        simp [skippedCount, status_ne_skipped_of_visit hvisit]
      | enter body =>
        obtain ⟨hfile, hnew⟩ := of_visit_eq_enter hvisit
        obtain ⟨opened, _, inside, hopened, hbody, rfl⟩ := Recorded.bind_eq_ok_iff.1 hplace
        cases hopened
        obtain ⟨innerEvents, expanded, ownEvents, hexpanded, hassets, rfl⟩ :=
          Recorded.bind_eq_ok_iff.1 hbody
        obtain ⟨inner, hinner, hinnerCount⟩ := ihBody hfile hnew body _ _ hexpanded
        obtain ⟨ownText, hown, -, hownCount⟩ := exists_of_embedAssets hassets
        refine ⟨inner ++ ownText :: scanned,
          .enter hvisit hinner (by rw [hexpanded]) hown hscans, ?_⟩
        intro r
        rw [skippedCount_append, skippedCount_append, skippedCount_append, hinnerCount, hownCount,
          hcount, List.map_append, List.sum_append, List.map_cons, List.sum_cons]
        simp [skippedCount]
        omega

end Component

/-! ### Pages -/

/-- In what embedding images leaves of a settled text occur the images that were left alone. -/
theorem occurrences_of_embedAll
    {d : Disk} {base root : Path} {t out : Text} (h : (Image.embedAll d base root t).outcome = .ok out)
    (hsettled : Image.IsSettled d base root (Image.pieces t)) (reference : Text) :
  Image.occurrences reference out = Image.occurrences reference t
  := by
  have hrun : Image.embedAll d base root t
      = ⟨(Image.embedAll d base root t).events, .ok out⟩ := by rw [← h]
  rw [Image.occurrences, Image.tokens_of_embedAll hrun hsettled, List.countP_filter, Image.occurrences]
  congr 1
  funext x
  by_cases hpassed : Image.isPassedOver x.reference = true <;> simp [hpassed]

namespace Build

/-- The events by which a build leaves a reference alone are as many as its occurrences in the text
whose images become those of the page, and in the texts of the components that were scanned before.
If the text is settled, these are the occurrences in the page, and the events are as many as those
exactly if the reference occurs in no text of a component. -/
theorem skipped_events_are_of_scanned_texts
    {host : Host} {d finished : Disk} {request : Request} {result : Result}
    (h : run host d request = (finished, .ok result)) :
  ∃ document expanded scanned t page written,
    d.readText .strict result.input = .ok document
    ∧ Component.Scans d result.root result.root [] (Component.pieces document) scanned
    ∧ (Component.nested d result.root result.root [] (Component.pieces document)).outcome
      = .ok expanded
    ∧ (Script.embedAll d result.root result.root expanded).outcome = .ok t
    ∧ (Image.embedAll d result.root result.root t).outcome = .ok page
    ∧ d.writeText host.maxMissing request.output page = (written, .ok ())
    ∧ ∀ reference,
      skippedCount reference result.events
        = (scanned.map (Image.occurrences reference)).sum + Image.occurrences reference t
      ∧ (Image.IsSettled d result.root result.root (Image.pieces t) →
        Image.occurrences reference page = Image.occurrences reference t
        ∧ (skippedCount reference result.events = Image.occurrences reference page
          ↔ ∀ u ∈ scanned, Image.occurrences reference u = 0))
  := by
  obtain ⟨input, output, target⟩ := request
  obtain ⟨page, events, written, hcompose, hwritten, rfl, -⟩ := exists_of_run_eq_ok h
  obtain ⟨document, hread, hassemble⟩ := compose_eq_ok_iff.1 hcompose
  rw [assemble_eq] at hassemble
  obtain ⟨before, expanded, after, hexpanded, hassets, rfl⟩ := Recorded.bind_eq_ok_iff.1 hassemble
  obtain ⟨scanned, hscans, hscanned⟩ := Component.exists_scans _ _ _ _ _ hexpanded
  obtain ⟨t, hscripts, himages, himageCount⟩ := exists_of_embedAssets hassets
  refine ⟨document, expanded, scanned, t, page, written, hread, hscans, by rw [resultOf, hexpanded],
    hscripts, himages, hwritten, ?_⟩
  intro reference
  have hcount : skippedCount reference (before ++ after)
      = (scanned.map (Image.occurrences reference)).sum + Image.occurrences reference t := by
    rw [skippedCount_append, hscanned, himageCount]
  refine ⟨hcount, ?_⟩
  intro hsettled
  have hpage := occurrences_of_embedAll himages hsettled reference
  refine ⟨hpage, ?_⟩
  have hsum : (scanned.map (Image.occurrences reference)).sum = 0
      ↔ ∀ u ∈ scanned, Image.occurrences reference u = 0 := by
    rw [List.sum_eq_zero_iff_forall_eq_nat, List.forall_mem_map]
  rw [← hsum, hpage, resultOf, hcount]
  omega

/-! ### A remote image in a component -/

/-- The reference of a remote image. -/
def remote : Text :=
  "https://x/y.png".toList

/-- The text of a component that holds the remote image only. -/
def framed : Text :=
  "<img src=\"https://x/y.png\">".toList

/-- A disk with a document that asks for a component, and with the component. -/
def posted : Disk :=
  ((Disk.empty []).add (Path.ofText "/index.html".toList)
    (.file (Utf8.encode "[c.comp]".toList))).add (Path.ofText "/c.comp".toList)
      (.file (Utf8.encode framed))

/-- The event of the remote image. -/
def remoteEvent : Event :=
  ⟨.image, remote, none, .skipped⟩

/-- The image of the component. -/
def remoteImage : Image.Element :=
  ⟨"<img src=\"".toList, remote, []⟩

theorem scriptPieces_framed :
  Script.pieces framed = [.gap framed]
  := by decide +kernel

theorem imagePieces_framed :
  Image.pieces framed = [.gap [], .token remoteImage, .gap []]
  := by decide +kernel

theorem componentPieces_framed :
  Component.pieces framed = [.gap framed]
  := by decide +kernel

theorem embedAssets_framed (d : Disk) (base root : Path) :
  Component.embedAssets d base root framed = ⟨[remoteEvent], .ok framed⟩
  := by
  have hembed : Image.embed d base root remoteImage = ⟨[remoteEvent], .ok framed⟩ := rfl
  rw [Component.embedAssets_eq, Script.embedAll_of_pieces_eq_gap scriptPieces_framed,
    Recorded.bind_ok, Image.embedAll, imagePieces_framed, Recorded.substitute_gap,
    Recorded.substitute_token, hembed]
  rfl

/-- The component on its own is a page that leaves the event once. -/
theorem compose_framed :
  compose posted (Path.ofText "c.comp".toList) = .ok (framed, [remoteEvent])
  := by
  apply compose_eq_ok_iff.2
  use framed, rfl
  rw [assemble_of_pieces_eq_gap componentPieces_framed, embedAssets_framed]

/-- The component within the document leaves the event twice. -/
theorem compose_posted :
  compose posted (Path.ofText "index.html".toList)
    = .ok (framed, [⟨.component, "c.comp".toList, some (Path.ofText "/c.comp".toList), .inlined⟩,
        remoteEvent, remoteEvent])
  := by
  have hdocument : Component.pieces "[c.comp]".toList
      = [.gap [], .token ⟨"c.comp".toList⟩, .gap []] := by decide +kernel
  apply compose_eq_ok_iff.2
  use "[c.comp]".toList, rfl
  exact assemble_of_component hdocument rfl rfl rfl componentPieces_framed (embedAssets_framed ..)
    (embedAssets_framed ..)

/-- In the page of the component on its own, the image is recorded once and occurs once. -/
theorem remote_is_recorded_once :
  ∃ finished, run .small posted ⟨Path.ofText "c.comp".toList, Path.ofText "out".toList, .none⟩
      = (finished, .ok (resultOf posted (Path.ofText "c.comp".toList) (Path.ofText "out".toList)
          [remoteEvent]))
    ∧ ∃ page written,
      posted.writeText Host.small.maxMissing (Path.ofText "out".toList) page = (written, .ok ())
      ∧ skippedCount remote [remoteEvent] = 1 ∧ Image.occurrences remote page = 1
  := by
  have hwrite : posted.writeText Host.small.maxMissing (Path.ofText "out".toList) framed
      = ((posted.writeText Host.small.maxMissing (Path.ofText "out".toList) framed).1, .ok ()) := rfl
  have hrun := run_of_written compose_framed hwrite .none
  refine ⟨_, hrun, ?_⟩
  obtain ⟨document, expanded, scanned, t, page, written, hread, hscans, hexpanded, hscripts, himages,
    hwritten, hcounts⟩ := skipped_events_are_of_scanned_texts hrun
  have hdocument : posted.readText .strict (Path.ofText "/c.comp".toList) = .ok framed := rfl
  obtain rfl : framed = document := Except.ok.inj (hdocument.symm.trans hread)
  -- There is no component, so no text was scanned before that of the page.
  rw [componentPieces_framed] at hscans hexpanded
  obtain rfl : scanned = [] := by
    cases hscans with
    | gap h =>
      cases h
      rfl
  obtain rfl : framed = expanded := by
    rw [Component.nested_gap, Component.nested_nil, Recorded.bind_ok] at hexpanded
    exact Except.ok.inj hexpanded
  obtain rfl : framed = t := by
    rw [Script.embedAll_of_pieces_eq_gap scriptPieces_framed] at hscripts
    exact Except.ok.inj hscripts
  obtain ⟨-, hsettled⟩ := hcounts remote
  obtain ⟨hpage, hequal⟩ := hsettled (by
    rw [imagePieces_framed]
    apply Image.isSettled_of_isPassedOver
    intro x hx
    obtain rfl : x = remoteImage := by simpa using hx
    decide +kernel)
  have hcount : skippedCount remote [remoteEvent] = 1 := by decide +kernel
  refine ⟨page, written, hwritten, hcount, ?_⟩
  rw [← hequal.2 (by simp)]
  exact hcount

/-- The component within a document leaves two events for the one image of the page. -/
theorem remote_is_recorded_twice :
  ∃ finished events,
    run .small posted ⟨Path.ofText "index.html".toList, Path.ofText "out".toList, .none⟩
      = (finished, .ok (resultOf posted (Path.ofText "index.html".toList)
          (Path.ofText "out".toList) events))
    ∧ posted.writeText Host.small.maxMissing (Path.ofText "out".toList) framed = (finished, .ok ())
    ∧ skippedCount remote events = 2 ∧ Image.occurrences remote framed = 1
  := by
  have hwrite : posted.writeText Host.small.maxMissing (Path.ofText "out".toList) framed
      = ((posted.writeText Host.small.maxMissing (Path.ofText "out".toList) framed).1, .ok ()) := rfl
  refine ⟨_, _, run_of_written compose_posted hwrite .none, hwrite, by decide +kernel, ?_⟩
  have himages : Image.pattern.tokens framed = [remoteImage] :=
    congrArg (List.filterMap Piece.token?) imagePieces_framed
  rw [Image.occurrences, himages]
  decide +kernel

end Build

end Inlay
