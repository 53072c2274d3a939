import Inlay.Proofs.Component.Open
import Inlay.Proofs.Disk.Walk
import Inlay.Proofs.Page

/-!
# Files within themselves

An expansion tells components apart by their paths, and so a reference is cut exactly if its own path
is open (`step_eq_cut_iff`).  Two paths may lead to one file, but in a project they do so only past
a link (`Disk.SameFile.eq_or_hasLink`).  A file is expanded within itself exactly if a reference to
it spells another path than the one that is open (`files_recur_only_past_links`).
-/

namespace Inlay

/-! ### Paths to one file -/

namespace Disk

/-- A path leads to the file at a location. -/
def LeadsToFile (d : Disk) (p : Path) (location : Location) : Prop :=
  ∃ bytes, d.locate p = .ok (.file location bytes)

/-- Two paths lead to one file. -/
def SameFile (d : Disk) (p q : Path) : Prop :=
  ∃ location, d.LeadsToFile p location ∧ d.LeadsToFile q location

/-- A link lies where the first segments of a path say. -/
def HasLink (d : Disk) (p : Path) : Prop :=
  ∃ front target, front <+: p.segments ∧ d.lookup front = some (.link target)

variable {d : Disk} {p q : Path} {location : Location}

theorem SameFile.symm (h : d.SameFile p q) :
  d.SameFile q p
  := by
  obtain ⟨location, hp, hq⟩ := h
  exact ⟨location, hq, hp⟩

theorem SameFile.isFile (h : d.SameFile p q) :
  d.isFile p = .ok true
  := by
  obtain ⟨location, ⟨bytes, hlocate⟩, -⟩ := h
  exact isFile_eq_true_iff.2 ⟨location, bytes, hlocate⟩

/-- Segments without double dots that lead to a place without links lead where they say. -/
theorem Goes.location_eq
    {segments : List Segment} {stop : Stop} {place : Place} (h : d.Goes location segments stop)
    (hup : Segment.up ∉ segments) (hstop : stop = .place place) :
  place.location = location ++ segments
  := by
  induction h with
  | file =>
    cases hstop
    exact (List.append_nil _).symm
  | directory =>
    cases hstop
    exact (List.append_nil _).symm
  | up => simp at hup
  | vacant =>
    cases hstop
    rfl
  | link => cases hstop
  | on h hs hsize hnext hentry hrest ih =>
    rw [ih (fun hmem => hup (List.mem_cons_of_mem _ hmem)) hstop]
    simp

/-- The first link to which segments without double dots lead lies where the first of them say. -/
theorem Goes.exists_lookup_link
    {segments rest : List Segment} {stop : Stop} {directory : Location} {target : Target}
    (h : d.Goes location segments stop) (hup : Segment.up ∉ segments)
    (hstop : stop = .link directory target rest) :
  ∃ front, front <+: segments ∧ d.lookup (location ++ front) = some (.link target)
  := by
  induction h with
  | file => cases hstop
  | directory => cases hstop
  | up => simp at hup
  | vacant => cases hstop
  | @link location s rest' target' h hs hsize hnext =>
    cases hstop
    use [s]
    simp [hnext]
  | @on location s rest' stop entry h hs hsize hnext hentry hrest ih =>
    obtain ⟨front, hfront, hlookup⟩ := ih (fun hmem => hup (List.mem_cons_of_mem _ hmem)) hstop
    use s :: front
    constructor
    · exact (List.prefix_cons_inj s).2 hfront
    · simpa using hlookup

/-- A path from the root without double dots leads to the file that lies where its segments say,
unless a link lies on its way. -/
theorem LeadsToFile.eq_segments_or_hasLink
    (h : d.LeadsToFile p location) (habs : p.isAbsolute) (hup : Segment.up ∉ p.segments) :
  location = p.segments ∨ d.HasLink p
  := by
  obtain ⟨bytes, hlocate⟩ := h
  obtain ⟨-, hwalks⟩ := locate_eq_ok_iff.1 hlocate
  rw [start, if_pos habs] at hwalks
  cases hwalks with
  | place hgoes =>
    left
    exact hgoes.location_eq hup rfl
  | link hgoes =>
    right
    obtain ⟨front, hfront, hlookup⟩ := hgoes.exists_lookup_link hup rfl
    exact ⟨front, _, hfront, hlookup⟩

end Disk

open Disk

namespace Component

theorem ComponentPath.isAbsolute
    {d : Disk} {root p : Path} (hp : ComponentPath d root p) (habs : root.isAbsolute) :
  p.isAbsolute
  := by
  rw [Path.isAbsolute, hp.anchor_eq]
  exact habs

/-- The components of a project start where its root does, so their segments tell them apart. -/
theorem ComponentPath.eq_of_segments_eq
    {d : Disk} {root p q : Path} (hp : ComponentPath d root p) (hq : ComponentPath d root q)
    (h : p.segments = q.segments) :
  p = q
  := by
  have hanchor : p.anchor = q.anchor := hp.anchor_eq.trans hq.anchor_eq.symm
  cases p
  cases q
  simp_all

/-- Different components of a project are one file only past a link. -/
theorem ComponentPath.hasLink_of_sameFile
    {d : Disk} {root p q : Path} (habs : root.isAbsolute) (hp : ComponentPath d root p)
    (hq : ComponentPath d root q) (hne : p ≠ q) (h : d.SameFile p q) :
  d.HasLink p ∨ d.HasLink q
  := by
  obtain ⟨location, hlocation, hlocation'⟩ := h
  rcases hlocation.eq_segments_or_hasLink (hp.isAbsolute habs) hp.up_not_mem with heq | hlink
  · rcases hlocation'.eq_segments_or_hasLink (hq.isAbsolute habs) hq.up_not_mem with heq' | hlink
    · exact absurd (hp.eq_of_segments_eq hq (heq.symm.trans heq')) hne
    · exact .inr hlink
  · exact .inl hlink

/-! ### References to open components -/

namespace Expansion

/-- A token comes next, and its reference denotes a path. -/
def Asks (root : Path) (e : Expansion) (x : Token) (path : Path) : Prop :=
  ∃ pending, e.frame.pending = .token x :: pending
    ∧ path = Path.resolve x.reference e.frame.base root

/-- The expansion after the comment of a circular reference has taken the place of the token that
comes next. -/
def cut (e : Expansion) (x : Token) (path : Path) : Expansion :=
  { e with
    frame := { e.frame.push (circularComment x.reference) with pending := e.frame.pending.tail }
    log := ⟨.component, x.reference, some path, .circular⟩ :: e.log }

/-- The expansion after the component of the token that comes next has been opened. -/
def enter (e : Expansion) (x : Token) (path : Path) (body : Text) : Expansion where
  frame := Frame.start path.parent body
  waiting := (path, { e.frame with pending := e.frame.pending.tail }) :: e.waiting
  visited := path :: e.visited
  log := ⟨.component, x.reference, some path, .inlined⟩ :: e.log

variable {d : Disk} {root path : Path} {e : Expansion} {x : Token}

/-- A reference to a file is cut if its path is visited. -/
theorem step_of_mem_visited
    (h : e.Asks root x path) (hfile : d.isFile path = .ok true) (hmem : path ∈ e.visited) :
  e.step d root = .next (e.cut x path)
  := by
  obtain ⟨⟨base, done, pending⟩, waiting, visited, log⟩ := e
  obtain ⟨rest, rfl, rfl⟩ := h
  exact step_leave (visit_of_open hfile hmem)

/-- A reference to a file opens it if its path is not visited. -/
theorem exists_step_of_not_mem_visited
    (h : e.Asks root x path) (hfile : d.isFile path = .ok true) (hnew : path ∉ e.visited) :
  ∃ body, d.readReplacing path = .ok body ∧ e.step d root = .next (e.enter x path body)
  := by
  obtain ⟨⟨base, done, pending⟩, waiting, visited, log⟩ := e
  obtain ⟨rest, rfl, rfl⟩ := h
  obtain ⟨body, hbody⟩ := exists_readReplacing_of_isFile hfile
  exact ⟨body, hbody, step_enter (visit_of_file hfile hnew hbody)⟩

theorem enter_ne_cut (body : Text) :
  e.enter x path body ≠ e.cut x path
  := by
  intro heq
  have hlength := congrArg (fun later : Expansion => later.waiting.length) heq
  simp [enter, cut] at hlength

/-- A reference to a file is cut exactly if its own path is open. -/
theorem step_eq_cut_iff
    (he : e.Faithful []) (h : e.Asks root x path) (hfile : d.isFile path = .ok true) :
  e.step d root = .next (e.cut x path) ↔ path ∈ e.opened
  := by
  have hvisited : e.visited = e.opened := by simpa using he.visited_eq
  constructor
  · intro hcut
    by_contra hnew
    rw [← hvisited] at hnew
    obtain ⟨body, -, hstep⟩ := exists_step_of_not_mem_visited h hfile hnew
    rw [hcut] at hstep
    exact enter_ne_cut body (Progress.next.inj hstep).symm
  · intro hmem
    rw [← hvisited] at hmem
    exact step_of_mem_visited h hfile hmem

/-- The path that a reference of a project denotes is a component's if it is a file's. -/
theorem Within.componentPath_of_asks
    (he : e.Within d root) (habs : root.isAbsolute) (h : e.Asks root x path)
    (hfile : d.isFile path = .ok true) :
  ComponentPath d root path
  := by
  obtain ⟨pending, hpending, rfl⟩ := h
  apply componentPath_resolve habs he.frame.anchor_eq _ hfile
  apply he.frame.named
  simp [hpending]

theorem Within.componentPath_of_mem_opened (he : e.Within d root) {p : Path} (hp : p ∈ e.opened) :
  ComponentPath d root p
  := by
  obtain ⟨w, hw, rfl⟩ := List.mem_map.1 hp
  exact (he.waiting w hw).1

/-! ### Files apart -/

/-- The expansion tells components apart by their paths: no path is open twice, a reference is cut
if its path is open, and it opens any other file.  Different paths are one file only past a link. -/
structure TellsByPath (d : Disk) (root : Path) (e : Expansion) : Prop where
  nodup : e.opened.Nodup
  isFile : ∀ p ∈ e.opened, d.isFile p = .ok true
  cut : ∀ x path, e.Asks root x path → path ∈ e.opened → e.step d root = .next (e.cut x path)
  enter : ∀ x path, e.Asks root x path → d.isFile path = .ok true → path ∉ e.opened →
    ∃ body, d.readReplacing path = .ok body ∧ e.step d root = .next (e.enter x path body)
  hasLink : ∀ p ∈ e.opened, ∀ q, (q ∈ e.opened ∨ ∃ x, e.Asks root x q) → p ≠ q →
    d.SameFile p q → d.HasLink p ∨ d.HasLink q

theorem tellsByPath (habs : root.isAbsolute) (he : e.Faithful []) (hwithin : e.Within d root) :
  e.TellsByPath d root
  := by
  have hvisited : e.visited = e.opened := by simpa using he.visited_eq
  have hopened : ∀ p ∈ e.opened, ComponentPath d root p := fun _ =>
    hwithin.componentPath_of_mem_opened
  constructor
  case nodup => exact he.nodup
  case isFile =>
    intro p hp
    exact (hopened p hp).isFile
  case cut =>
    intro x path hasks hmem
    exact (step_eq_cut_iff he hasks (hopened path hmem).isFile).2 hmem
  case enter =>
    intro x path hasks hfile hnew
    rw [← hvisited] at hnew
    exact exists_step_of_not_mem_visited hasks hfile hnew
  case hasLink =>
    rintro p hp q (hq | ⟨x, hasks⟩) hne hsame
    · exact (hopened p hp).hasLink_of_sameFile habs (hopened q hq) hne hsame
    · have hq := hwithin.componentPath_of_asks habs hasks hsame.symm.isFile
      exact (hopened p hp).hasLink_of_sameFile habs hq hne hsame

/-- No file is open twice, and a reference to the file of an open component is cut. -/
structure KeepsFilesApart (d : Disk) (root : Path) (e : Expansion) : Prop where
  apart : e.opened.Pairwise fun p q => ¬ d.SameFile p q
  cut : ∀ x path, e.Asks root x path → ∀ p ∈ e.opened, d.SameFile p path →
    e.step d root = .next (e.cut x path)

/-- A reference that leads to the file of an open component spells its path. -/
def SpellsAlike (d : Disk) (root : Path) (e : Expansion) : Prop :=
  ∀ x path, e.Asks root x path → ∀ p ∈ e.opened, d.SameFile p path → p = path

/-- Without links every reference to a file spells the only path to it. -/
theorem TellsByPath.spellsAlike (h : e.TellsByPath d root) (hd : d.Linkless) :
  e.SpellsAlike d root
  := by
  intro x path hasks p hp hsame
  by_contra hne
  rcases h.hasLink p hp path (.inr ⟨x, hasks⟩) hne hsame with hlink | hlink
  · obtain ⟨front, target, -, hlookup⟩ := hlink
    exact hd front target hlookup
  · obtain ⟨front, target, -, hlookup⟩ := hlink
    exact hd front target hlookup

theorem KeepsFilesApart.spellsAlike
    (h : e.KeepsFilesApart d root) (he : e.Faithful []) :
  e.SpellsAlike d root
  := by
  intro x path hasks p hp hsame
  have hmem := (step_eq_cut_iff he hasks hsame.symm.isFile).1 (h.cut x path hasks p hp hsame)
  have : Std.Symm fun p q => ¬ d.SameFile p q := ⟨fun _ _ hpq hqp => hpq hqp.symm⟩
  by_contra hne
  exact h.apart.forall hp hmem hne hsame

/-- A step from an expansion whose files are apart keeps them apart if its reference is spelled as
an open path that leads to the same file. -/
theorem apart_of_moves
    {later : Expansion} (h : Moves d root e later) (he : e.Faithful [])
    (hspells : e.SpellsAlike d root) (hapart : e.opened.Pairwise fun p q => ¬ d.SameFile p q) :
  later.opened.Pairwise fun p q => ¬ d.SameFile p q
  := by
  cases h with
  | gap => exact hapart
  | leave => exact hapart
  | enter base done x pending waiting visited log body hvisit =>
    obtain ⟨-, hnew⟩ := of_visit_eq_enter hvisit
    apply List.pairwise_cons.2
    use fun p hp hsame => ?_, hapart
    have hpath := hspells x _ ⟨pending, rfl, rfl⟩ p hp hsame.symm
    have hvisited : visited = waiting.map Prod.fst ++ [] := he.visited_eq
    apply hnew
    rw [← hpath, hvisited, List.append_nil]
    exact hp
  | pop => exact (List.pairwise_cons.1 hapart).2

end Expansion

/-! ### Projects -/

/-- The expansions to which the building of a document leads. -/
def Reaches (d : Disk) (input : Path) (document : Text) (e : Expansion) : Prop :=
  Expansion.Leads d (Build.inputPath d input).parent
    (Expansion.start (Build.inputPath d input).parent [] document) e

variable {d : Disk} {input : Path} {document : Text} {e : Expansion}

theorem Reaches.faithful (h : Reaches d input document e) :
  e.Faithful []
  := h.invariant (fun _ _ => Expansion.Faithful.of_moves) (Expansion.faithful_start ..)

theorem Reaches.within (h : Reaches d input document e) :
  e.Within d (Build.inputPath d input).parent
  := by
  apply h.invariant _ (Expansion.within_start rfl ..)
  intro _ _
  exact Expansion.Within.of_moves (isAbsolute_inputPath_parent d input)

/-- Files stay apart if every reference to a file that is open spells the open path. -/
theorem Reaches.keepsFilesApart
    (hspells : ∀ e, Reaches d input document e →
      e.SpellsAlike d (Build.inputPath d input).parent)
    (h : Reaches d input document e) :
  e.KeepsFilesApart d (Build.inputPath d input).parent
  where
  apart := by
    induction h with
    | refl => exact .nil
    | tail hleads hstep ih =>
      apply Expansion.apart_of_moves (Expansion.moves_of_step_eq_next hstep)
      · exact Reaches.faithful hleads
      · exact hspells _ hleads
      · exact ih
  cut := by
    intro x path hasks p hp hsame
    apply (Expansion.step_eq_cut_iff h.faithful hasks hsame.symm.isFile).2
    rwa [← hspells e h x path hasks p hp hsame]

/-- An expansion tells components apart by their paths, at every moment.  So a file is never open
twice, and every reference to an open file is cut, if and only if every such reference spells the
path that is open, as it does where there are no links. -/
theorem files_recur_only_past_links (d : Disk) (input : Path) (document : Text) :
  (∀ e, Reaches d input document e → e.TellsByPath d (Build.inputPath d input).parent)
    ∧ ((∀ e, Reaches d input document e → e.KeepsFilesApart d (Build.inputPath d input).parent)
        ↔ ∀ e, Reaches d input document e → e.SpellsAlike d (Build.inputPath d input).parent)
    ∧ (d.Linkless →
        ∀ e, Reaches d input document e → e.KeepsFilesApart d (Build.inputPath d input).parent)
  := by
  have htells : ∀ e, Reaches d input document e →
      e.TellsByPath d (Build.inputPath d input).parent := by
    intro e h
    exact Expansion.tellsByPath (isAbsolute_inputPath_parent d input) h.faithful h.within
  constructor
  · exact htells
  constructor
  · constructor
    · intro hapart e h
      exact (hapart e h).spellsAlike h.faithful
    · intro hspells e h
      exact h.keepsFilesApart hspells
  · intro hd e h
    apply h.keepsFilesApart
    intro e h
    exact (htells e h).spellsAlike hd

/-! ### A component under two names -/

/-- A disk with a component that asks for itself by the name of a link to it. -/
def aliased : Disk :=
  (((Disk.empty []).add (Path.ofText "/index.html".toList)
    (.file (Utf8.encode "[a.comp]".toList))).add (Path.ofText "/a.comp".toList)
      (.file (Utf8.encode "a[b.comp]".toList))).add (Path.ofText "/b.comp".toList)
        (.link (Target.ofText "a.comp".toList))

/-- The path of the component, and that of the link. -/
def aliasedPath : Path :=
  Path.ofText "/a.comp".toList

def aliasPath : Path :=
  Path.ofText "/b.comp".toList

/-- The component is open, and it asks for itself by the other name. -/
def aliasedExpansion : Expansion :=
  ⟨⟨⟨.root, []⟩, ["a".toList], [.token ⟨"b.comp".toList⟩, .gap []]⟩,
    [(aliasedPath, ⟨⟨.root, []⟩, [[]], [.gap []]⟩)], [aliasedPath],
    [⟨.component, "a.comp".toList, some aliasedPath, .inlined⟩]⟩

theorem sameFile_aliased :
  aliased.SameFile aliasedPath aliasPath
  := by
  refine ⟨aliasedPath.segments, ⟨Utf8.encode "a[b.comp]".toList, ?_⟩,
    ⟨Utf8.encode "a[b.comp]".toList, ?_⟩⟩
  · rfl
  · rfl

theorem reaches_aliasedExpansion :
  Reaches aliased (Path.ofText "index.html".toList) "[a.comp]".toList aliasedExpansion
  := by
  have hdocument : pieces "[a.comp]".toList = [.gap [], .token ⟨"a.comp".toList⟩, .gap []] := by
    decide +kernel
  have hcomponent : pieces "a[b.comp]".toList
      = [.gap "a".toList, .token ⟨"b.comp".toList⟩, .gap []] := by
    decide +kernel
  have hvisit : visit aliased [] "a.comp".toList aliasedPath = .ok (.enter "a[b.comp]".toList) := rfl
  show Expansion.Leads aliased ⟨.root, []⟩ (Expansion.start ⟨.root, []⟩ [] _) _
  rw [Expansion.start, Frame.start, hdocument]
  apply Expansion.Leads.of_step rfl
  apply Expansion.Leads.of_step (step_enter hvisit)
  rw [Frame.start, hcomponent]
  apply Expansion.Leads.of_step rfl
  apply Relation.ReflTransGen.refl

/-- The component is a file of which the open path and the one that is asked for are two names, and
the second opens it again, so that files do not stay apart.  On a disk without links they do. -/
theorem aliased_is_opened_again :
  aliasedExpansion.Asks ⟨.root, []⟩ ⟨"b.comp".toList⟩ aliasPath
    ∧ (∃ body, aliased.readReplacing aliasPath = .ok body
        ∧ aliasedExpansion.step aliased ⟨.root, []⟩
          = .next (aliasedExpansion.enter ⟨"b.comp".toList⟩ aliasPath body))
    ∧ (aliased.HasLink aliasedPath ∨ aliased.HasLink aliasPath)
    ∧ (¬ ∀ e, Reaches aliased (Path.ofText "index.html".toList) "[a.comp]".toList e →
        e.KeepsFilesApart aliased ⟨.root, []⟩)
    ∧ (Expansion.start ⟨.root, []⟩ [] "[a.comp]".toList).KeepsFilesApart selfIncluding ⟨.root, []⟩
  := by
  obtain ⟨htells, hiff, -⟩ :=
    files_recur_only_past_links aliased (Path.ofText "index.html".toList) "[a.comp]".toList
  obtain ⟨-, -, hlinkless⟩ :=
    files_recur_only_past_links selfIncluding ⟨.here, []⟩ "[a.comp]".toList
  have hasks : aliasedExpansion.Asks ⟨.root, []⟩ ⟨"b.comp".toList⟩ aliasPath := ⟨_, rfl, rfl⟩
  have hopen : aliasedPath ∈ aliasedExpansion.opened := by simp [Expansion.opened, aliasedExpansion]
  have hne : aliasedPath ≠ aliasPath := by decide +kernel
  have hnew : aliasPath ∉ aliasedExpansion.opened := by
    simpa [Expansion.opened, aliasedExpansion] using Ne.symm hne
  refine ⟨hasks, ?_, ?_, ?_, ?_⟩
  · exact (htells _ reaches_aliasedExpansion).enter _ _ hasks sameFile_aliased.symm.isFile hnew
  · exact (htells _ reaches_aliasedExpansion).hasLink _ hopen _ (.inr ⟨_, hasks⟩) hne
      sameFile_aliased
  · intro hapart
    exact hne (hiff.1 hapart _ reaches_aliasedExpansion _ _ hasks _ hopen sameFile_aliased)
  · apply hlinkless linkless_selfIncluding
    apply Relation.ReflTransGen.refl

/-- A file is expanded within itself: two open components are one file, and the page holds its text
twice. -/
theorem aliased_is_expanded_within_itself :
  (∃ e : Expansion, Reaches aliased (Path.ofText "index.html".toList) "[a.comp]".toList e
      ∧ e.opened = [aliasPath, aliasedPath] ∧ aliased.SameFile aliasedPath aliasPath)
    ∧ Build.compose aliased (Path.ofText "index.html".toList)
      = .ok ("aa<!-- Circular reference prevented: b.comp -->".toList,
          [⟨.component, "a.comp".toList, some aliasedPath, .inlined⟩,
            ⟨.component, "b.comp".toList, some aliasPath, .inlined⟩,
            ⟨.component, "b.comp".toList, some aliasPath, .circular⟩])
  := by
  constructor
  · use aliasedExpansion.enter ⟨"b.comp".toList⟩ aliasPath "a[b.comp]".toList
    refine ⟨reaches_aliasedExpansion.tail ?_, rfl, sameFile_aliased⟩
    apply step_enter
    rfl
  · have hexpand : expand aliased ⟨.root, []⟩ ⟨.root, []⟩ [] "[a.comp]".toList
        = ⟨[], ⟨[⟨.component, "a.comp".toList, some aliasedPath, .inlined⟩,
            ⟨.component, "b.comp".toList, some aliasPath, .inlined⟩,
            ⟨.component, "b.comp".toList, some aliasPath, .circular⟩],
          .ok "aa<!-- Circular reference prevented: b.comp -->".toList⟩⟩ := by
      apply Expansion.run_of_after_eq_finished (n := 12)
      with_unfolding_all rfl
    exact compose_of_expand rfl rfl hexpand (by decide +kernel) (by decide +kernel)

end Component

end Inlay
