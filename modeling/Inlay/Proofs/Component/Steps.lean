import Inlay.Component.Expansion
import Mathlib.Logic.Relation
import Mathlib.Tactic.Use

/-!
# Steps of an expansion

A step that does not end an expansion is one of four (`moves_of_step_eq_next`): a gap is copied, a
comment takes the place of a token, a component is opened, or the component that is done is closed.
An invariant of expansions is kept by the run if each of the four keeps it.  After finitely many
steps an expansion is finished (`exists_after_eq_finished`).
-/

namespace Inlay.Component

namespace Expansion

/-! ### The four steps -/

/-- What a step does that does not end the expansion. -/
inductive Moves (d : Disk) (root : Path) : Expansion → Expansion → Prop
  /-- A gap is copied. -/
  | gap (base done t pending waiting visited log) :
    Moves d root ⟨⟨base, done, .gap t :: pending⟩, waiting, visited, log⟩
      ⟨⟨base, t :: done, pending⟩, waiting, visited, log⟩
  /-- A comment takes the place of a token. -/
  | leave (base done x pending waiting visited log status comment)
    (h : visit d visited x.reference (Path.resolve x.reference base root)
      = .ok (.leave status comment)) :
    Moves d root ⟨⟨base, done, .token x :: pending⟩, waiting, visited, log⟩
      ⟨⟨base, comment :: done, pending⟩, waiting, visited,
        ⟨.component, x.reference, some (Path.resolve x.reference base root), status⟩ :: log⟩
  /-- A component is opened. -/
  | enter (base done x pending waiting visited log body)
    (h : visit d visited x.reference (Path.resolve x.reference base root) = .ok (.enter body)) :
    Moves d root ⟨⟨base, done, .token x :: pending⟩, waiting, visited, log⟩
      ⟨Frame.start (Path.resolve x.reference base root).parent body,
        (Path.resolve x.reference base root, ⟨base, done, pending⟩) :: waiting,
        Path.resolve x.reference base root :: visited,
        ⟨.component, x.reference, some (Path.resolve x.reference base root), .inlined⟩ :: log⟩
  /-- The component that is done is closed. -/
  | pop (base done path outer waiting visited log t events)
    (h : embedAssets d path.parent root done.reverse.flatten = ⟨events, .ok t⟩) :
    Moves d root ⟨⟨base, done, []⟩, (path, outer) :: waiting, visited, log⟩
      ⟨outer.push t, waiting, release visited path, events.reverse ++ log⟩

/-- A step that does not end the expansion is one of the four. -/
theorem moves_of_step_eq_next
    {d : Disk} {root : Path} {e later : Expansion} (h : e.step d root = .next later) :
  Moves d root e later
  := by
  obtain ⟨⟨base, done, pending⟩, waiting, visited, log⟩ := e
  cases pending with
  | nil =>
    cases waiting with
    | nil => cases h
    | cons top waiting =>
      obtain ⟨path, outer⟩ := top
      cases hembed : embedAssets d path.parent root done.reverse.flatten with
      | mk events outcome =>
        cases outcome with
        | error error =>
          rw [step_pop_error hembed] at h
          cases h
        | ok t =>
          rw [step_pop hembed] at h
          cases h
          apply Moves.pop _ _ _ _ _ _ _ _ _ hembed
  | cons piece pending =>
    cases piece with
    | gap t =>
      cases h
      apply Moves.gap
    | token x =>
      cases hvisit : visit d visited x.reference (Path.resolve x.reference base root) with
      | error error =>
        rw [step_token_error hvisit] at h
        cases h
      | ok called =>
        cases called with
        | leave status comment =>
          rw [step_leave hvisit] at h
          cases h
          apply Moves.leave _ _ _ _ _ _ _ _ _ hvisit
        | enter body =>
          rw [step_enter hvisit] at h
          cases h
          apply Moves.enter _ _ _ _ _ _ _ _ hvisit

/-! ### Runs -/

/-- A number of steps, or perhaps none, lead from one expansion to the other. -/
def Leads (d : Disk) (root : Path) : Expansion → Expansion → Prop :=
  Relation.ReflTransGen fun earlier later => earlier.step d root = .next later

theorem Leads.of_step
    {d : Disk} {root : Path} {e later last : Expansion} (h : e.step d root = .next later)
    (hleads : Leads d root later last) :
  Leads d root e last
  := Relation.ReflTransGen.head h hleads

/-- What the four steps keep holds all along. -/
theorem Leads.invariant
    {d : Disk} {root : Path} {P : Expansion → Prop}
    (hmoves : ∀ earlier later, Moves d root earlier later → P earlier → P later)
    {e later : Expansion} (h : Leads d root e later) (he : P e) :
  P later
  := by
  induction h with
  | refl => exact he
  | tail _ hstep ih => apply hmoves _ _ (moves_of_step_eq_next hstep) ih

/-- What comes of an expansion after a number of steps. -/
def after (d : Disk) (root : Path) : Nat → Expansion → Progress
  | 0, e => .next e
  | n + 1, e =>
    match e.step d root with
    | .next later => later.after d root n
    | .finished r => .finished r

/-- After finitely many steps an expansion is finished, and what it comes to is what the run
gives. -/
theorem exists_after_eq_finished (d : Disk) (root : Path) (e : Expansion) :
  ∃ n, e.after d root n = .finished (e.run d root)
  := by
  induction acc_follows d root e with
  | intro e _ ih =>
    cases hstep : e.step d root with
    | next later =>
      obtain ⟨n, hn⟩ := ih later hstep
      use n + 1
      rw [after, hstep, run_of_step_eq_next hstep]
      exact hn
    | finished r =>
      use 1
      rw [after, hstep, run_of_step_eq_finished hstep]

/-- A number of steps that finishes an expansion finds what the run gives. -/
theorem run_of_after_eq_finished
    {d : Disk} {root : Path} {n : Nat} {e : Expansion} {r : Expanded}
    (h : e.after d root n = .finished r) :
  e.run d root = r
  := by
  induction n generalizing e with
  | zero => cases h
  | succ n ih =>
    rw [after] at h
    cases hstep : e.step d root with
    | next later =>
      rw [hstep] at h
      rw [run_of_step_eq_next hstep]
      exact ih h
    | finished r' =>
      rw [hstep] at h
      cases h
      exact run_of_step_eq_finished hstep

end Expansion

end Inlay.Component
