import Inlay.Proofs.Component.Open
import Inlay.Proofs.Disk.Walk
import Inlay.Proofs.Page

/-!
# The visited paths of an expansion

At every moment of an expansion the visited paths are those of the open components, each of them
once, and those that were visited from the start.  However the expansion ends, the latter are left:
an error releases the components that are open (`foldl_release`), and the component whose scripts
and images fail has been released before.
-/

namespace Inlay.Component

/-- Releasing the open components leaves the paths that were visited from the start. -/
theorem foldl_release {opened visited : List Path} (hnodup : opened.Nodup)
    (hfresh : ∀ p ∈ opened, p ∉ visited) :
  opened.foldl release (opened ++ visited) = visited
  := by
  induction opened with
  | nil => rfl
  | cons path opened ih =>
    obtain ⟨hnew, hnodup⟩ := List.nodup_cons.1 hnodup
    have hpath : path ∉ opened ++ visited := by
      rw [List.mem_append, not_or]
      exact ⟨hnew, hfresh path (by simp)⟩
    rw [List.cons_append, List.foldl_cons, release_cons_self hpath]
    apply ih hnodup
    intro p hp
    exact hfresh p (List.mem_cons_of_mem _ hp)

namespace Expansion

/-! ### Endings -/

/-- How an expansion ends: the document is finished, or a file error comes, whatever its cause. -/
inductive Ends : Expansion → Expanded → Prop
  /-- The document is finished. -/
  | finished (base done visited log) :
    Ends ⟨⟨base, done, []⟩, [], visited, log⟩ ⟨visited, ⟨log.reverse, .ok done.reverse.flatten⟩⟩
  /-- It cannot be told whether the component of a token is a file, or the file cannot be read. -/
  | token (base done x pending waiting visited log error) :
    Ends ⟨⟨base, done, .token x :: pending⟩, waiting, visited, log⟩
      (abort ⟨⟨base, done, .token x :: pending⟩, waiting, visited, log⟩ [] error)
  /-- The scripts or the images of a component fail that is closed already. -/
  | assets (base done path outer waiting visited log events error) :
    Ends ⟨⟨base, done, []⟩, (path, outer) :: waiting, visited, log⟩
      (abort ⟨outer, waiting, release visited path, log⟩ events error)

/-- A step that ends the expansion ends it in one of these ways. -/
theorem ends_of_step_eq_finished
    {d : Disk} {root : Path} {e : Expansion} {r : Expanded} (h : e.step d root = .finished r) :
  Ends e r
  := by
  obtain ⟨⟨base, done, pending⟩, waiting, visited, log⟩ := e
  cases pending with
  | nil =>
    cases waiting with
    | nil =>
      cases h
      apply Ends.finished
    | cons top waiting =>
      obtain ⟨path, outer⟩ := top
      cases hembed : embedAssets d path.parent root done.reverse.flatten with
      | mk events outcome =>
        cases outcome with
        | error error =>
          rw [step_pop_error hembed] at h
          cases h
          apply Ends.assets
        | ok t =>
          rw [step_pop hembed] at h
          cases h
  | cons piece pending =>
    cases piece with
    | gap t => cases h
    | token x =>
      cases hvisit : visit d visited x.reference (Path.resolve x.reference base root) with
      | error error =>
        rw [step_token_error hvisit] at h
        cases h
        apply Ends.token
      | ok called =>
        cases called with
        | leave status comment =>
          rw [step_leave hvisit] at h
          cases h
        | enter body =>
          rw [step_enter hvisit] at h
          cases h

/-- An error leaves the paths that were visited from the start. -/
theorem Faithful.visited_abort
    {visited : List Path} {e : Expansion} (he : e.Faithful visited) (events : List Event)
    (error : FileError) :
  (e.abort events error).visited = visited
  := by
  show e.opened.foldl release e.visited = visited
  rw [he.visited_eq]
  exact foldl_release he.nodup he.fresh

/-- Every ending leaves the paths that were visited from the start. -/
theorem Faithful.visited_of_ends
    {visited : List Path} {e : Expansion} {r : Expanded} (he : e.Faithful visited)
    (h : Ends e r) :
  r.visited = visited
  := by
  cases h with
  | finished => exact he.visited_eq
  | token => apply he.visited_abort
  | assets => apply he.close.visited_abort

/-- A run is that of any expansion to which it leads. -/
theorem Leads.run_eq
    {d : Disk} {root : Path} {e later : Expansion} (h : Leads d root e later) :
  e.run d root = later.run d root
  := by
  induction h with
  | refl => rfl
  | tail _ hstep ih => rw [ih, run_of_step_eq_next hstep]

/-- Every run leads to an ending. -/
theorem exists_leads_ends (d : Disk) (root : Path) (e : Expansion) :
  ∃ last, Leads d root e last ∧ Ends last (e.run d root)
  := by
  induction acc_follows d root e with
  | intro e _ ih =>
    cases hstep : e.step d root with
    | next later =>
      obtain ⟨last, hleads, hends⟩ := ih later hstep
      use last, hleads.of_step hstep
      rw [run_of_step_eq_next hstep]
      exact hends
    | finished r =>
      use e, .refl
      rw [run_of_step_eq_finished hstep]
      exact ends_of_step_eq_finished hstep

end Expansion

/-- At every moment the visited paths are those of the open components, which are pairwise different
and were not visited before, together with those that were visited from the start.  However an
expansion ends, by a text or by a file error at whatever step, the latter are left. -/
theorem visited_faithful_and_restored
    (d : Disk) (base root : Path) (visited : List Path) (t : Text) :
  (∀ e, Expansion.Leads d root (Expansion.start base visited t) e →
      e.Faithful visited ∧ ∀ r, Expansion.Ends e r → r.visited = visited)
    ∧ (∃ last, Expansion.Leads d root (Expansion.start base visited t) last
        ∧ Expansion.Ends last (expand d base root visited t))
    ∧ (expand d base root visited t).visited = visited
  := by
  constructor
  · intro e hleads
    have he : e.Faithful visited :=
      hleads.invariant (fun _ _ => Expansion.Faithful.of_moves) (Expansion.faithful_start ..)
    use he
    intro r hr
    exact he.visited_of_ends hr
  · constructor
    · apply Expansion.exists_leads_ends
    · rw [expand_eq]

/-- A name that is too long for any file. -/
def longName : Segment :=
  ⟨List.replicate 256 'a', by decide, by decide, by decide⟩

/-- A script element with that name. -/
def longScript : Text :=
  "<script src=\"".toList ++ longName.text ++ "\"></script>".toList

/-- A disk with nothing but a component that asks for that script. -/
def failing : Disk :=
  ⟨.node none [(selfName, .node (some (.file (Utf8.encode longScript))) [])], []⟩

/-- The path of that component, and one that is visited before. -/
def failingPath : Path :=
  ⟨.root, [selfName]⟩

def otherPath : Path :=
  Path.ofText "/b.comp".toList

/-- The component once its text has been gone through: its scripts come next. -/
def failingExpansion : Expansion :=
  ⟨⟨⟨.root, []⟩, [longScript], []⟩, [(failingPath, ⟨⟨.root, []⟩, [[]], [.gap []]⟩)],
    [failingPath, otherPath], [⟨.component, "a.comp".toList, some failingPath, .inlined⟩]⟩

theorem leads_failing :
  Expansion.Leads failing ⟨.root, []⟩
    (Expansion.start ⟨.root, []⟩ [otherPath] "[a.comp]".toList) failingExpansion
  := by
  have hpieces : pieces "[a.comp]".toList = [.gap [], .token ⟨"a.comp".toList⟩, .gap []] := by
    decide +kernel
  have hlong : pieces longScript = [.gap longScript] := by decide +kernel
  have hbody : failing.readReplacing failingPath = .ok longScript := by decide +kernel
  have hvisit : visit failing [otherPath] "a.comp".toList failingPath = .ok (.enter longScript) :=
    visit_of_file rfl (by decide) hbody
  rw [Expansion.start, Frame.start, hpieces]
  apply Expansion.Leads.of_step rfl
  apply Expansion.Leads.of_step (step_enter hvisit)
  rw [Frame.start, hlong]
  apply Expansion.Leads.of_step rfl
  apply Relation.ReflTransGen.refl

/-- The name of the script is too long, so the scripts of that text fail on any disk. -/
theorem embedAssets_longScript (d : Disk) :
  embedAssets d ⟨.root, []⟩ ⟨.root, []⟩ longScript
    = ⟨[], .error ⟨.nameTooLong, ⟨.root, [longName]⟩⟩⟩
  := by
  have hscripts : Script.pieces longScript
      = [.gap [], .token ⟨" ".toList, longName.text⟩, .gap []] := by decide +kernel
  have hpath : Path.resolve (Script.Element.reference ⟨" ".toList, longName.text⟩)
      ⟨.root, []⟩ ⟨.root, []⟩ = ⟨.root, [longName]⟩ := by decide +kernel
  have hfile : d.isFile ⟨.root, [longName]⟩ = .error ⟨.nameTooLong, ⟨.root, [longName]⟩⟩ :=
    d.isFile_of_long (by decide) (by decide +kernel) (by decide +kernel)
  rw [← hpath] at hfile
  rw [embedAssets_eq, Script.embedAll, hscripts, Recorded.substitute_gap, Recorded.substitute_token,
    Script.embed_of_error hfile, hpath]
  rfl

/-- While its scripts come, the component is visited beside the path that was visited before; they
fail, and that path is left. -/
theorem visited_restored_of_failing :
  failingExpansion.visited = [failingPath] ++ [otherPath]
    ∧ failingExpansion.Faithful [otherPath]
    ∧ (∃ e, (expand failing ⟨.root, []⟩ ⟨.root, []⟩ [otherPath] "[a.comp]".toList).recorded.outcome
        = .error e)
    ∧ (expand failing ⟨.root, []⟩ ⟨.root, []⟩ [otherPath] "[a.comp]".toList).visited = [otherPath]
  := by
  obtain ⟨hleads, -, hrun⟩ := visited_faithful_and_restored failing ⟨.root, []⟩ ⟨.root, []⟩
    [otherPath] "[a.comp]".toList
  have hembed := embedAssets_longScript failing
  rw [show longScript = [longScript].reverse.flatten by simp] at hembed
  have hfails := leads_failing.run_eq.trans (run_of_step_eq_finished (step_pop_error hembed))
  constructor
  · rfl
  · constructor
    · exact (hleads _ leads_failing).1
    · constructor
      · rw [expand, hfails]
        exact ⟨_, rfl⟩
      · exact hrun

end Inlay.Component
