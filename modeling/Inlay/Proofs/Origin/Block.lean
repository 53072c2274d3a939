import Inlay.Proofs.Origin.Page

/-!
# The blocks of scripts

What a later pass finds in the block of a script it treats like any other text.  The block stands in
the page as it was put in, and no reference in it leaves an event, exactly if no later event touches
it: it may have found its reference in the block, or removed a part of it.  A script that holds an
element of its own, in a component, is touched by the passes over the document around.  A script
without quotes is not touched where the images around it are there (`quoteless_block_stands`).
-/

namespace Inlay.Build

/-- Without a manifest, a build that succeeds writes the page that it composes. -/
theorem compose_of_run
    {host : Host} {d written : Disk} {request : Request} {result : Result}
    (hmanifest : request.manifest = .none) (h : run host d request = (written, .ok result)) :
  ∃ page, compose d request.input = .ok (page, result.events)
    ∧ d.writeText host.maxMissing request.output page = (written, .ok ())
  := by
  obtain ⟨input, output, target⟩ := request
  obtain rfl : target = .none := hmanifest
  obtain ⟨page, events, written', hcompose, hwritten, rfl, hdone⟩ := exists_of_run_eq_ok h
  have hsame : (written', Except.ok ()) = (written, Except.ok ()) := hdone
  cases hsame
  exact ⟨page, hcompose, hwritten⟩

/-- Without a manifest, a build that succeeds can be followed, and the edits account for the page
that it writes. -/
theorem exists_follow_of_run
    {host : Host} {d written : Disk} {request : Request} {result : Result}
    (hmanifest : request.manifest = .none) (h : run host d request = (written, .ok result)) :
  ∃ edits page, follow d request.input = .ok (edits, page)
    ∧ edits.map Edit.event = result.events
    ∧ d.writeText host.maxMissing request.output (Marked.text page) = (written, .ok ())
    ∧ Account d edits page
  := by
  obtain ⟨page, hcompose, hwrite⟩ := compose_of_run hmanifest h
  obtain ⟨edits, u, hfollow, hevents, rfl, haccount⟩ := exists_follow_of_compose hcompose
  exact ⟨edits, u, hfollow, hevents, hwrite, haccount⟩

/-- In a build without a manifest, the block of a script stands in the page in one piece, and no
reference in it leaves an event, exactly if no later event touches it.  The characters of the block
are those that the event of the script put in, so that an equal text elsewhere does not count. -/
theorem block_stands_iff_untouched
    {host : Host} {d written : Disk} {request : Request} {result : Result}
    (hmanifest : request.manifest = .none) (h : run host d request = (written, .ok result)) :
  ∃ edits page, follow d request.input = .ok (edits, page)
    ∧ edits.map Edit.event = result.events
    ∧ d.writeText host.maxMissing request.output (Marked.text page) = (written, .ok ())
    ∧ ∀ n reference path, result.events[n]? = some ⟨.script, reference, some path, .inlined⟩ →
      ∃ content, d.readReplacing path = .ok content
        ∧ ((Marked.brought n (Script.block content) <:+: page
              ∧ ∀ e ∈ edits.drop (n + 1), Marked.FreeOf n e.found)
            ↔ ∀ e ∈ edits.drop (n + 1), Marked.FreeOf n e.found ∧ Marked.FreeOf n e.removed)
  := by
  obtain ⟨edits, page, hfollow, hevents, hwrite, haccount⟩ := exists_follow_of_run hmanifest h
  use edits, page, hfollow, hevents, hwrite
  intro n reference path hn
  rw [← hevents] at hn
  obtain ⟨content, hcontent, hfate, -⟩ := haccount.exists_block hn
  use content, hcontent
  rw [hfate.stands_iff]
  constructor
  · rintro ⟨hspare, hfound⟩ e he
    exact ⟨hfound e he, hspare e he⟩
  · intro huntouched
    constructor
    · intro e he
      exact (huntouched e he).2
    · intro e he
      exact (huntouched e he).1

/-- In a build without a manifest, the block of a script that holds no quotes stands in the page in
one piece, and no later event finds its reference in it or removes any of it, if every image that
comes later is there, or passed over, and has no opening angle bracket in its reference.  An element
whose image is missing may begin ahead of the block, and end with the first `>` of the block; and a
source may hold the block as a whole, if its quotes stand ahead of the block and behind it. -/
theorem quoteless_block_stands
    {host : Host} {d written : Disk} {request : Request} {result : Result} {n : Nat}
    {reference content : Text} {path : Path}
    (hmanifest : request.manifest = .none) (h : run host d request = (written, .ok result))
    (hn : result.events[n]? = some ⟨.script, reference, some path, .inlined⟩)
    (hcontent : d.readReplacing path = .ok content) (hquote : '"' ∉ content)
    (himages : ∀ event ∈ result.events.drop (n + 1), event.kind = .image →
      event.status ≠ .missing ∧ '<' ∉ event.reference) :
  ∃ edits page, follow d request.input = .ok (edits, page)
    ∧ edits.map Edit.event = result.events
    ∧ d.writeText host.maxMissing request.output (Marked.text page) = (written, .ok ())
    ∧ Marked.brought n (Script.block content) <:+: page
    ∧ ∀ e ∈ edits.drop (n + 1), Marked.FreeOf n e.found ∧ Marked.FreeOf n e.removed
  := by
  obtain ⟨edits, page, hfollow, hevents, hwrite, haccount⟩ := exists_follow_of_run hmanifest h
  rw [← hevents] at hn himages
  obtain ⟨content', hcontent', hfate, huntouched⟩ := haccount.exists_block hn
  rw [hcontent] at hcontent'
  cases hcontent'
  have hspared : ∀ e ∈ edits.drop (n + 1), Marked.FreeOf n e.found ∧ Marked.FreeOf n e.removed := by
    apply huntouched
    intro e he held hgrips
    apply apart_block_of_grips hgrips hquote
    apply himages
    rw [← List.map_drop]
    exact List.mem_map_of_mem he
  use edits, page, hfollow, hevents, hwrite
  constructor
  · apply hfate.stands_iff.2
    intro e he
    exact (hspared e he).2
  · exact hspared

/-- The names of a document, of its component, and of two scripts. -/
def loaderName : Segment :=
  ⟨"index.html".toList, by decide, by decide, by decide⟩

def loaderComponent : Segment :=
  ⟨"c.comp".toList, by decide, by decide, by decide⟩

def loaderOuter : Segment :=
  ⟨"loader.js".toList, by decide, by decide, by decide⟩

def loaderInner : Segment :=
  ⟨"other.js".toList, by decide, by decide, by decide⟩

/-- A disk with a document that asks for a component, which asks for a script, which holds the
element of another script. -/
def loader : Disk :=
  ⟨.node none
    [(loaderName, .node (some (.file (Utf8.encode "[c.comp]".toList))) []),
      (loaderComponent,
        .node (some (.file (Utf8.encode "<script src=\"loader.js\"></script>".toList))) []),
      (loaderOuter,
        .node (some (.file (Utf8.encode "<script src=\"other.js\"></script>".toList))) []),
      (loaderInner, .node (some (.file (Utf8.encode "other".toList))) [])], []⟩

/-- A build of the document without a manifest. -/
def loaderRequest : Request :=
  ⟨Path.ofText "index.html".toList, Path.ofText "out".toList, .none⟩

/-- The page of the document. -/
def loaderPage : Text :=
  "<script>\n<script>\nother\n</script>\n</script>".toList

/-- The events of the document. -/
def loaderEvents : List Event :=
  [⟨.component, "c.comp".toList, some (Path.ofText "/c.comp".toList), .inlined⟩,
    ⟨.script, "loader.js".toList, some (Path.ofText "/loader.js".toList), .inlined⟩,
    ⟨.script, "other.js".toList, some (Path.ofText "/other.js".toList), .inlined⟩]

/-- The passes over the component put the script in place. -/
theorem embedAssets_loader_component :
  Component.embedAssets loader ⟨.root, []⟩ ⟨.root, []⟩ "<script src=\"loader.js\"></script>".toList
    = ⟨[⟨.script, "loader.js".toList, some (Path.ofText "/loader.js".toList), .inlined⟩],
        .ok (Script.block "<script src=\"other.js\"></script>".toList)⟩
  := by
  have hscripts : Script.pieces "<script src=\"loader.js\"></script>".toList
      = [.gap [], .token ⟨" ".toList, "loader.js".toList⟩, .gap []] := by decide +kernel
  apply Component.embedAssets_of_pieces_eq_gap
  · rw [Script.embedAll, hscripts]
    rfl
  · decide +kernel

/-- The passes over the document find the element in the block of that script. -/
theorem embedAssets_loader_document :
  Component.embedAssets loader ⟨.root, []⟩ ⟨.root, []⟩
      (Script.block "<script src=\"other.js\"></script>".toList)
    = ⟨[⟨.script, "other.js".toList, some (Path.ofText "/other.js".toList), .inlined⟩],
        .ok loaderPage⟩
  := by
  have hscripts : Script.pieces (Script.block "<script src=\"other.js\"></script>".toList)
      = [.gap "<script>\n".toList, .token ⟨" ".toList, "other.js".toList⟩,
          .gap "\n</script>".toList] := by decide +kernel
  apply Component.embedAssets_of_pieces_eq_gap
  · rw [Script.embedAll, hscripts]
    rfl
  · decide +kernel

theorem compose_loader :
  compose loader loaderRequest.input = .ok (loaderPage, loaderEvents)
  := by
  have hdocument : Component.pieces "[c.comp]".toList
      = [.gap [], .token ⟨"c.comp".toList⟩, .gap []] := by decide +kernel
  have hcomponent : Component.pieces "<script src=\"loader.js\"></script>".toList
      = [.gap "<script src=\"loader.js\"></script>".toList] := by decide +kernel
  have hpath : Path.resolve "c.comp".toList ⟨.root, []⟩ ⟨.root, []⟩
      = Path.ofText "/c.comp".toList := rfl
  have hparent : (Path.ofText "/c.comp".toList).parent = ⟨.root, []⟩ := rfl
  have hvisit : Component.visit loader [] "c.comp".toList (Path.ofText "/c.comp".toList)
      = .ok (.enter "<script src=\"loader.js\"></script>".toList) := rfl
  apply compose_eq_ok_iff.2
  use "[c.comp]".toList, rfl
  exact assemble_of_component hdocument hpath hparent hvisit hcomponent
    embedAssets_loader_component embedAssets_loader_document

/-- What the build of the document comes to. -/
def loaderResult : Result :=
  ⟨Path.ofText "/index.html".toList, Path.ofText "out".toList, Path.ofText "/".toList, loaderEvents⟩

theorem run_loader :
  ∃ written, run .small loader loaderRequest = (written, .ok loaderResult)
    ∧ loader.writeText Host.small.maxMissing loaderRequest.output loaderPage = (written, .ok ())
  := by
  use (loader.writeText Host.small.maxMissing loaderRequest.output loaderPage).1
  constructor
  · simp only [run, compose_loader]
    rfl
  · rfl

/-- No event comes after that of the inner script, so its block stands. -/
theorem loader_inner_block_stands :
  ∃ edits page, follow loader loaderRequest.input = .ok (edits, page)
    ∧ Marked.brought 2 (Script.block "other".toList) <:+: page
  := by
  obtain ⟨written, hrun, -⟩ := run_loader
  obtain ⟨edits, page, hfollow, hevents, -, hblocks⟩ := block_stands_iff_untouched rfl hrun
  obtain ⟨content, hcontent, hiff⟩ := hblocks 2 "other.js".toList (Path.ofText "/other.js".toList) rfl
  have hread : loader.readReplacing (Path.ofText "/other.js".toList) = .ok "other".toList := rfl
  rw [hread] at hcontent
  cases hcontent
  have hlength : edits.length = 3 := by
    rw [← List.length_map, hevents]
    rfl
  rw [List.drop_eq_nil_of_le (Nat.le_of_eq hlength)] at hiff
  use edits, page, hfollow
  exact (hiff.2 (by simp)).1

/-- The block of the outer script does not occur in the page, and the reference in it left an
event. -/
theorem loader_outer_block_is_rescanned :
  ∃ written, run .small loader loaderRequest = (written, .ok loaderResult)
    ∧ loader.writeText Host.small.maxMissing loaderRequest.output loaderPage = (written, .ok ())
    ∧ ⟨.script, "loader.js".toList, some (Path.ofText "/loader.js".toList), .inlined⟩
      ∈ loaderResult.events
    ∧ loader.readReplacing (Path.ofText "/loader.js".toList)
      = .ok "<script src=\"other.js\"></script>".toList
    ∧ ¬ Script.block "<script src=\"other.js\"></script>".toList <:+: loaderPage
    ∧ ⟨.script, "other.js".toList, some (Path.ofText "/other.js".toList), .inlined⟩
      ∈ loaderResult.events
  := by
  obtain ⟨written, hrun, hwrite⟩ := run_loader
  use written, hrun, hwrite
  constructor
  · simp [loaderResult, loaderEvents]
  · constructor
    · rfl
    · constructor
      · decide +kernel
      · simp [loaderResult, loaderEvents]

end Inlay.Build
