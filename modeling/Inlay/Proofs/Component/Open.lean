import Inlay.Build
import Inlay.Proofs.Component.Steps
import Inlay.Proofs.Component.Token
import Inlay.Proofs.Disk.Linkless
import Inlay.Proofs.Path.Normal
import Mathlib.Data.Set.Card

/-!
# Open components

The components that are open during an expansion, one for each frame that waits.  Their paths are
the visited ones, each of them once (`Faithful`), and in a rooted project they are rooted paths of
files whose names end in `.comp` (`Within`).  On a disk without links different such paths lead to
different files, so no more components are open than the disk has files of that name.
-/

namespace Inlay

/-- The locations of the files whose names end in `.comp`. -/
def Disk.componentFiles (d : Disk) : Set Location :=
  {location | (∃ bytes, d.lookup location = some (.file bytes))
    ∧ ∃ s, location.getLast? = some s ∧ Component.ending <:+ s.text}

theorem Disk.finite_componentFiles (d : Disk) :
  d.componentFiles.Finite
  := by
  apply d.finite_setOf_lookup.subset
  rintro location ⟨⟨bytes, h⟩, -⟩
  exact ⟨_, h⟩

namespace Component

namespace Expansion

/-- The paths of the components that are open, innermost first. -/
def opened (e : Expansion) : List Path :=
  e.waiting.map Prod.fst

/-! ### The visited paths -/

/-- Visited are the paths of the open components, each of them once, and the paths that were visited
from the start. -/
structure Faithful (visited : List Path) (e : Expansion) : Prop where
  visited_eq : e.visited = e.opened ++ visited
  nodup : e.opened.Nodup
  fresh : ∀ p ∈ e.opened, p ∉ visited

theorem faithful_start (base : Path) (visited : List Path) (t : Text) :
  (start base visited t).Faithful visited
  := ⟨rfl, .nil, by simp [opened, start]⟩

/-- Closing a component keeps the visited paths faithful, whatever becomes of its text. -/
theorem Faithful.close
    {visited visited' : List Path} {frame frame' outer : Frame} {path : Path}
    {waiting : List (Path × Frame)} {log log' : List Event}
    (he : Faithful visited ⟨frame, (path, outer) :: waiting, visited', log⟩) :
  Faithful visited ⟨frame', waiting, release visited' path, log'⟩
  := by
  obtain ⟨hnew, hnodup⟩ := List.nodup_cons.1 he.nodup
  have hvisited : visited' = path :: (waiting.map Prod.fst ++ visited) := he.visited_eq
  have hpath : path ∉ waiting.map Prod.fst ++ visited := by
    rw [List.mem_append, not_or]
    exact ⟨hnew, he.fresh path (by simp [opened])⟩
  constructor
  · show release visited' path = _
    rw [hvisited, release_cons_self hpath]
    rfl
  · exact hnodup
  · intro p hp
    exact he.fresh p (List.mem_cons_of_mem _ hp)

/-- Each step keeps the visited paths faithful. -/
theorem Faithful.of_moves
    {d : Disk} {root : Path} {visited : List Path} {e later : Expansion} (h : Moves d root e later)
    (he : e.Faithful visited) :
  later.Faithful visited
  := by
  cases h with
  | gap => exact ⟨he.visited_eq, he.nodup, he.fresh⟩
  | leave => exact ⟨he.visited_eq, he.nodup, he.fresh⟩
  | enter base done x pending waiting visited' log body hvisit =>
    obtain ⟨-, hnew⟩ := of_visit_eq_enter hvisit
    have hvisited : visited' = waiting.map Prod.fst ++ visited := he.visited_eq
    rw [hvisited, List.mem_append, not_or] at hnew
    constructor
    · simp [opened, hvisited]
    · apply List.nodup_cons.2 ⟨hnew.1, he.nodup⟩
    · intro p hp
      rcases List.mem_cons.1 hp with rfl | hp
      · exact hnew.2
      · exact he.fresh p hp
  | pop => exact he.close

/-! ### Open components of a rooted project -/

end Expansion

/-- A frame of a rooted project: its references start where the root does, and its tokens name
components. -/
structure Frame.Within (root : Path) (f : Frame) : Prop where
  anchor_eq : f.base.anchor = root.anchor
  named : ∀ x, .token x ∈ f.pending → namesComponent x.inner = true

theorem Frame.within_start {root base : Path} (h : base.anchor = root.anchor) (t : Text) :
  (Frame.start base t).Within root
  := ⟨h, fun _ => namesComponent_of_mem_pieces⟩

/-- What is left of a frame of a rooted project. -/
theorem Frame.Within.of_cons
    {root base : Path} {done done' : List Text} {piece : Piece Token} {pending : List (Piece Token)}
    (h : Frame.Within root ⟨base, done, piece :: pending⟩) :
  Frame.Within root ⟨base, done', pending⟩
  := ⟨h.anchor_eq, fun x hx => h.named x (List.mem_cons_of_mem _ hx)⟩

/-- The path of a component of a rooted project: a rooted path of a file, without double dots, whose
name ends in `.comp`. -/
structure ComponentPath (d : Disk) (root p : Path) : Prop where
  anchor_eq : p.anchor = root.anchor
  up_not_mem : Segment.up ∉ p.segments
  named : ∃ s, p.segments.getLast? = some s ∧ ending <:+ s.text
  isFile : d.isFile p = .ok true

/-- The path that a token denotes is a component's if it is a file's. -/
theorem componentPath_resolve
    {d : Disk} {root base : Path} {x : Token} (habs : root.isAbsolute)
    (hbase : base.anchor = root.anchor) (hx : namesComponent x.inner = true)
    (hfile : d.isFile (Path.resolve x.reference base root) = .ok true) :
  ComponentPath d root (Path.resolve x.reference base root)
  where
  anchor_eq := Path.anchor_resolve hbase
  up_not_mem := Path.up_not_mem_resolve hbase habs
  named := Path.exists_resolve_eq_concat (ending_isSuffix_reference hx) (by decide) (by decide) _ _
  isFile := hfile

namespace Expansion

/-- All frames are frames of a rooted project, and the open components are components of it. -/
structure Within (d : Disk) (root : Path) (e : Expansion) : Prop where
  frame : e.frame.Within root
  waiting : ∀ w ∈ e.waiting, ComponentPath d root w.1 ∧ w.2.Within root

theorem within_start
    {d : Disk} {root base : Path} (h : base.anchor = root.anchor) (visited : List Path) (t : Text) :
  (start base visited t).Within d root
  := ⟨Frame.within_start h t, by simp [start]⟩

/-- Each step stays within the project. -/
theorem Within.of_moves
    {d : Disk} {root : Path} (habs : root.isAbsolute) {e later : Expansion}
    (h : Moves d root e later) (he : e.Within d root) :
  later.Within d root
  := by
  cases h with
  | gap => exact ⟨he.frame.of_cons, he.waiting⟩
  | leave => exact ⟨he.frame.of_cons, he.waiting⟩
  | enter base done x pending waiting visited log body hvisit =>
    obtain ⟨hfile, -⟩ := of_visit_eq_enter hvisit
    have hpath := componentPath_resolve habs he.frame.anchor_eq (he.frame.named x (by simp)) hfile
    constructor
    · apply Frame.within_start
      exact hpath.anchor_eq
    · intro w hw
      rcases List.mem_cons.1 hw with rfl | hw
      · exact ⟨hpath, he.frame.of_cons⟩
      · exact he.waiting w hw
  | pop base done path outer waiting visited log t events hembed =>
    obtain ⟨-, houter⟩ := he.waiting (path, outer) (by simp)
    constructor
    · exact ⟨houter.anchor_eq, houter.named⟩
    · intro w hw
      exact he.waiting w (List.mem_cons_of_mem _ hw)

/-- Without links different components of a rooted project are different files, so that no more of
them are open than the disk has files of such names. -/
theorem length_waiting_le
    {d : Disk} (hd : d.Linkless) {root : Path} (habs : root.isAbsolute) {visited : List Path}
    {e : Expansion} (hfaithful : e.Faithful visited) (hwithin : e.Within d root) :
  e.waiting.length ≤ d.componentFiles.ncard
  := by
  have hcomponent : ∀ p ∈ e.opened, ComponentPath d root p := by
    intro p hp
    obtain ⟨w, hw, rfl⟩ := List.mem_map.1 hp
    exact (hwithin.waiting w hw).1
  have hnodup : (e.opened.map Path.segments).Nodup := by
    apply List.Nodup.map_on _ hfaithful.nodup
    intro p hp q hq heq
    have hanchor : p.anchor = q.anchor :=
      (hcomponent p hp).anchor_eq.trans (hcomponent q hq).anchor_eq.symm
    cases p
    cases q
    simp_all
  have hsub : {location | location ∈ e.opened.map Path.segments} ⊆ d.componentFiles := by
    intro location hlocation
    obtain ⟨p, hp, rfl⟩ := List.mem_map.1 hlocation
    have hp := hcomponent p hp
    constructor
    · apply Disk.exists_lookup_of_isFile hd _ hp.up_not_mem hp.isFile
      rw [Path.isAbsolute, hp.anchor_eq]
      exact habs
    · exact hp.named
  calc e.waiting.length
      = (e.opened.map Path.segments).toFinset.card := by
        rw [List.toFinset_card_of_nodup hnodup]
        simp [opened]
    _ = Set.ncard {location | location ∈ e.opened.map Path.segments} := by
        rw [← Set.ncard_coe_finset]
        congr 1
        ext location
        simp
    _ ≤ d.componentFiles.ncard := Set.ncard_le_ncard hsub d.finite_componentFiles

end Expansion

theorem isAbsolute_inputPath_parent (d : Disk) (input : Path) :
  (Build.inputPath d input).parent.isAbsolute
  := by
  show (d.currentPath.append input).isAbsolute
  rw [Path.append]
  split
  · assumption
  · rfl

/-- Every expansion is finished after finitely many steps, whatever lies on the disk.  When a
document is built on a disk without links, no more components are ever open than the disk has files
whose names end in `.comp`. -/
theorem expansion_ends_and_stays_shallow :
  (∀ (d : Disk) (base root : Path) (visited : List Path) (t : Text), ∃ n,
      (Expansion.start base visited t).after d root n
        = .finished (expand d base root visited t))
    ∧ ∀ (d : Disk) (input : Path) (document : Text) (e : Expansion), d.Linkless →
      Expansion.Leads d (Build.inputPath d input).parent
        (Expansion.start (Build.inputPath d input).parent [] document) e →
      d.componentFiles.Finite ∧ e.waiting.length ≤ d.componentFiles.ncard
  := by
  constructor
  · intro d base root visited t
    apply Expansion.exists_after_eq_finished
  · intro d input document e hd hleads
    have habs := isAbsolute_inputPath_parent d input
    have hfaithful : e.Faithful [] :=
      hleads.invariant (fun _ _ => Expansion.Faithful.of_moves) (Expansion.faithful_start ..)
    have hwithin : e.Within d (Build.inputPath d input).parent :=
      hleads.invariant (fun _ _ => Expansion.Within.of_moves habs) (Expansion.within_start rfl ..)
    constructor
    · exact d.finite_componentFiles
    · exact Expansion.length_waiting_le hd habs hfaithful hwithin

/-- The name of the component `a.comp`. -/
def selfName : Segment :=
  ⟨"a.comp".toList, by decide, by decide, by decide⟩

/-- A disk with nothing but a component that asks for itself. -/
def selfIncluding : Disk :=
  ⟨.node none [(selfName, .node (some (.file (Utf8.encode "[a.comp]".toList))) [])], []⟩

theorem linkless_selfIncluding :
  selfIncluding.Linkless
  := by
  apply Disk.linkless_of_entries
  intro entry hentry target
  have : entry = ([selfName], .file (Utf8.encode "[a.comp]".toList)) := by
    simpa [selfIncluding, Tree.entries, Tree.entriesBelow, Tree.branchEntries] using hentry
  simp [this]

/-- While a document that asks for it is built, that component is open, and it is a file. -/
theorem one_open_of_selfIncluding :
  ∃ e : Expansion, selfIncluding.Linkless
    ∧ Expansion.Leads selfIncluding (Build.inputPath selfIncluding ⟨.here, []⟩).parent
      (Expansion.start (Build.inputPath selfIncluding ⟨.here, []⟩).parent [] "[a.comp]".toList) e
    ∧ e.waiting.length = 1
    ∧ selfIncluding.componentFiles.Finite
    ∧ 1 ≤ selfIncluding.componentFiles.ncard
  := by
  have hpieces : pieces "[a.comp]".toList = [.gap [], .token ⟨"a.comp".toList⟩, .gap []] := by
    decide +kernel
  have hleads : Expansion.Leads selfIncluding ⟨.root, []⟩
      (Expansion.start ⟨.root, []⟩ [] "[a.comp]".toList)
      ⟨Frame.start ⟨.root, []⟩ "[a.comp]".toList,
        [(⟨.root, [selfName]⟩, ⟨⟨.root, []⟩, [[]], [.gap []]⟩)], [⟨.root, [selfName]⟩],
        [⟨.component, "a.comp".toList, some ⟨.root, [selfName]⟩, .inlined⟩]⟩ := by
    rw [Expansion.start, Frame.start, hpieces]
    apply Expansion.Leads.of_step rfl
    apply Expansion.Leads.of_step _ .refl
    rw [← hpieces]
    apply step_enter
    rfl
  refine ⟨_, linkless_selfIncluding, hleads, rfl, ?_⟩
  exact expansion_ends_and_stays_shallow.2 selfIncluding ⟨.here, []⟩ "[a.comp]".toList _
    linkless_selfIncluding hleads

end Component

end Inlay
