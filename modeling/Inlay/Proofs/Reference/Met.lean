import Inlay.Proofs.Reference.Site
import Mathlib.Tactic.Use

/-!
# The references that are met

`Meets` says which references passes over a text meet, at any depth of components.  The events of a
run are those of references that it meets, and it fails only where it cannot be told what becomes of
one (`from_runAll`).  A run that succeeds has met its references with their events
(`Meets.exists_event`).
-/

namespace Inlay

/-! ### Meeting a reference -/

/-- Passes over a text meet a site. -/
inductive Meets (d : Disk) (root : Path) : List Pass → Text → Site → Prop
  /-- It stands in the text, for the first of the passes. -/
  | here {pass passes t s} (h : .token s ∈ pass.sites t) :
    Meets d root (pass :: passes) t s
  /-- It is met in a component that the first of the passes opens. -/
  | inside {pass passes t base visited x body s}
    (h : .token (.component base visited x) ∈ pass.sites t)
    (hvisit : Component.visit d visited x.reference (Path.resolve x.reference base root)
      = .ok (.enter body))
    (hs : Meets d root
      (Pass.ofBody (Path.resolve x.reference base root).parent
        (Path.resolve x.reference base root :: visited)) body s) :
    Meets d root (pass :: passes) t s
  /-- It is met in the text that the first of the passes leaves. -/
  | later {pass passes t t' s} (h : (pass.run d root t).outcome = .ok t')
    (hs : Meets d root passes t' s) :
    Meets d root (pass :: passes) t s

/-! ### What comes of sites -/

namespace Recorded

/-- A substitution that succeeds has put a text in the place of every token. -/
theorem exists_of_substitute_eq_ok
    {τ : Type} {f : τ → Recorded Text} {pieces : List (Piece τ)} {x : τ} (hx : .token x ∈ pieces)
    {events : List Event} {t : Text} (h : substitute f pieces = ⟨events, .ok t⟩) :
  ∃ events' t', f x = ⟨events', .ok t'⟩ ∧ events' ⊆ events
  := by
  induction pieces generalizing events t with
  | nil => cases hx
  | cons piece pieces ih =>
    cases piece with
    | gap u =>
      rw [substitute_gap] at h
      obtain ⟨events₂, t₂, after, hrest, -, rfl⟩ := bind_eq_ok_iff.1 h
      obtain ⟨events', t', hf, hsub⟩ := ih (by simpa using hx) hrest
      exact ⟨events', t', hf, List.Subset.trans hsub (List.subset_append_left _ _)⟩
    | token y =>
      rw [substitute_token] at h
      obtain ⟨events₁, t₁, after, hy, hafter, rfl⟩ := bind_eq_ok_iff.1 h
      obtain ⟨events₂, t₂, after', hrest, -, rfl⟩ := bind_eq_ok_iff.1 hafter
      rcases List.mem_cons.1 hx with hxy | hx
      · cases hxy
        exact ⟨events₁, t₁, hy, List.subset_append_left _ _⟩
      · obtain ⟨events', t', hf, hsub⟩ := ih hx hrest
        use events', t', hf
        apply List.Subset.trans hsub
        apply List.Subset.trans (List.subset_append_left _ _) (List.subset_append_right _ _)

end Recorded

variable {d : Disk} {root : Path}

/-- Of a reference that a run meets which succeeds something has become, and its event tells. -/
theorem Meets.exists_event
    {passes : List Pass} {t : Text} {s : Site} (h : Meets d root passes t s) {events : List Event}
    {out : Text} (hrun : Pass.runAll d root passes t = ⟨events, .ok out⟩) :
  ∃ status, s.status d root = .ok status ∧ s.event root status ∈ events
  := by
  induction h generalizing events out with
  | @here pass passes t s h =>
    obtain ⟨before, t', after, hpass, -, rfl⟩ := Recorded.bind_eq_ok_iff.1 hrun
    rw [Pass.run_eq_substitute] at hpass
    obtain ⟨events', t', hplace, hsub⟩ := Recorded.exists_of_substitute_eq_ok h hpass
    cases hstatus : s.status d root with
    | error e =>
      rw [Site.inPlace_of_status_error hstatus] at hplace
      cases hplace
    | ok status =>
      use status, rfl
      apply List.mem_append_left
      apply hsub
      rcases Site.inPlace_cases hstatus with ⟨u, hu⟩ | ⟨base, visited, x, body, rfl, rfl, hvisit⟩
      · rw [hu] at hplace
        cases hplace
        simp
      · rw [Site.inPlace_of_enter hvisit] at hplace
        obtain ⟨_, _, _, hown, -, rfl⟩ := Recorded.bind_eq_ok_iff.1 hplace
        cases hown
        simp
  | @inside pass passes t base visited x body s h hvisit _ ih =>
    obtain ⟨before, t', after, hpass, -, rfl⟩ := Recorded.bind_eq_ok_iff.1 hrun
    rw [Pass.run_eq_substitute] at hpass
    obtain ⟨events', t', hplace, hsub⟩ := Recorded.exists_of_substitute_eq_ok h hpass
    rw [Site.inPlace_of_enter hvisit] at hplace
    obtain ⟨own, _, inner, -, hbody, rfl⟩ := Recorded.bind_eq_ok_iff.1 hplace
    obtain ⟨status, hstatus, hmem⟩ := ih hbody
    use status, hstatus
    apply List.mem_append_left
    apply hsub
    apply List.mem_append_right _ hmem
  | @later pass passes t t' s h _ ih =>
    obtain ⟨before, t'', after, hpass, hrest, rfl⟩ := Recorded.bind_eq_ok_iff.1 hrun
    rw [hpass] at h
    cases h
    obtain ⟨status, hstatus, hmem⟩ := ih hrest
    exact ⟨status, hstatus, List.mem_append_right _ hmem⟩

/-! ### Where events come from -/

/-- The events are of sites in `S`, and an error is that of a site in `S`. -/
structure Recorded.From {α : Type} (d : Disk) (root : Path) (S : Site → Prop) (r : Recorded α) :
    Prop where
  event : ∀ e ∈ r.events, ∃ s status, S s ∧ s.status d root = .ok status ∧ e = s.event root status
  error : ∀ e, r.outcome = .error e → ∃ s, S s ∧ s.status d root = .error e

namespace Recorded.From

variable {S S' : Site → Prop} {α β : Type}

theorem mono {r : Recorded α} (h : r.From d root S) (hsub : ∀ s, S s → S' s) :
  r.From d root S'
  := by
  constructor
  · intro e he
    obtain ⟨s, status, hs, hstatus, heq⟩ := h.event e he
    exact ⟨s, status, hsub s hs, hstatus, heq⟩
  · intro e he
    obtain ⟨s, hs, hstatus⟩ := h.error e he
    exact ⟨s, hsub s hs, hstatus⟩

theorem pure (a : α) :
  (Recorded.pure a).From d root S
  := by
  constructor
  · intro e he
    cases he
  · intro e he
    cases he

/-- A site's own event with a text. -/
theorem own {s : Site} {status : Status} (hs : S s) (h : s.status d root = .ok status) (a : α) :
  From d root S ⟨[s.event root status], .ok a⟩
  := by
  constructor
  · intro e he
    exact ⟨s, status, hs, h, List.mem_singleton.1 he⟩
  · intro e he
    cases he

/-- A site's own error. -/
theorem own_error {s : Site} {e : FileError} (hs : S s) (h : s.status d root = .error e) :
  From (α := α) d root S ⟨[], .error e⟩
  := by
  constructor
  · intro e' he'
    cases he'
  · intro e' he'
    cases he'
    exact ⟨s, hs, h⟩

theorem bind
    {r : Recorded α} {f : α → Recorded β} (hr : r.From d root S)
    (hf : ∀ a, r.outcome = .ok a → (f a).From d root S) :
  (r.bind f).From d root S
  := by
  obtain ⟨events, outcome⟩ := r
  cases outcome with
  | error e =>
    use hr.event
    intro e' he'
    cases he'
    exact hr.error e rfl
  | ok a =>
    have hfa := hf a rfl
    constructor
    · intro e he
      rcases List.mem_append.1 he with he | he
      · exact hr.event e he
      · exact hfa.event e he
    · exact hfa.error

theorem substitute
    {τ : Type} {f : τ → Recorded Text} {pieces : List (Piece τ)}
    (hf : ∀ x, .token x ∈ pieces → (f x).From d root S) :
  (Recorded.substitute f pieces).From d root S
  := by
  induction pieces with
  | nil => apply pure
  | cons piece pieces ih =>
    have hrest := ih fun x hx => hf x (List.mem_cons_of_mem _ hx)
    cases piece with
    | gap t =>
      rw [Recorded.substitute_gap]
      apply hrest.bind
      intro rest _
      apply pure
    | token x =>
      rw [Recorded.substitute_token]
      apply (hf x (by simp)).bind
      intro t _
      apply hrest.bind
      intro rest _
      apply pure

end Recorded.From

/-- A component's token is met by a pass over components. -/
theorem Pass.eq_of_component_mem_sites
    {pass : Pass} {t : Text} {base : Path} {visited : List Path} {x : Component.Token}
    (h : .token (.component base visited x) ∈ pass.sites t) :
  pass = .components base visited
  := by
  cases pass with
  | components base' visited' =>
    obtain ⟨x', -, hx⟩ := Piece.token_mem_map.1 h
    cases hx
    rfl
  | scripts base' =>
    obtain ⟨x', -, hx⟩ := Piece.token_mem_map.1 h
    cases hx
  | images base' =>
    obtain ⟨x', -, hx⟩ := Piece.token_mem_map.1 h
    cases hx

/-- Passes over scripts and images alone meet no component. -/
theorem Meets.kind_ne_component
    {passes : List Pass} {t : Text} {s : Site} (h : Meets d root passes t s)
    (hpasses : ∀ base visited, .components base visited ∉ passes) :
  s.kind ≠ .component
  := by
  induction h with
  | @here pass passes t s hmem =>
    cases s with
    | component base visited x =>
      rw [Pass.eq_of_component_mem_sites hmem] at hpasses
      exact absurd List.mem_cons_self (hpasses base visited)
    | script => simp [Site.kind]
    | image => simp [Site.kind]
  | @inside pass passes t base visited x body s hmem =>
    rw [Pass.eq_of_component_mem_sites hmem] at hpasses
    exact absurd List.mem_cons_self (hpasses base visited)
  | later _ _ ih =>
    apply ih
    intro base visited hmem
    exact hpasses base visited (List.mem_cons_of_mem _ hmem)

/-- The sites of a run are those that it meets, if this holds of the components that it opens. -/
theorem from_runAll_of_bodies
    {passes : List Pass}
    (hbodies : ∀ base visited, .components base visited ∈ passes → ∀ path ∉ visited,
      d.isFile path = .ok true → ∀ body,
      (Pass.runAll d root (Pass.ofBody path.parent (path :: visited)) body).From d root
        (Meets d root (Pass.ofBody path.parent (path :: visited)) body))
    (t : Text) :
  (Pass.runAll d root passes t).From d root (Meets d root passes t)
  := by
  induction passes generalizing t with
  | nil => apply Recorded.From.pure
  | cons pass passes ih =>
    apply Recorded.From.bind
    · rw [Pass.run_eq_substitute]
      apply Recorded.From.substitute
      intro s hs
      cases hstatus : s.status d root with
      | error e =>
        rw [Site.inPlace_of_status_error hstatus]
        exact .own_error (.here hs) hstatus
      | ok status =>
        rcases Site.inPlace_cases hstatus with ⟨u, hu⟩ | ⟨base, visited, x, body, rfl, rfl, hvisit⟩
        · rw [hu]
          exact .own (.here hs) hstatus u
        · rw [Site.inPlace_of_enter hvisit]
          apply (Recorded.From.own (Meets.here hs) hstatus ()).bind
          intro _ _
          obtain ⟨hfile, hnew⟩ := Component.of_visit_eq_enter hvisit
          have hpass : .components base visited ∈ pass :: passes := by
            rw [Pass.eq_of_component_mem_sites hs]
            simp
          apply (hbodies base visited hpass _ hnew hfile body).mono
          intro s hs'
          exact .inside hs hvisit hs'
    · intro t' ht'
      apply (ih _ t').mono
      · intro s hs
        exact .later ht' hs
      · intro base visited hmem
        exact hbodies base visited (List.mem_cons_of_mem _ hmem)

/-- The events of a run are of references that it meets, and it fails only where it cannot be told
what becomes of one. -/
theorem from_runAll (d : Disk) (root : Path) (passes : List Pass) (t : Text) :
  (Pass.runAll d root passes t).From d root (Meets d root passes t)
  := by
  -- Components are opened as long as there is room for the paths that are visited.
  have hbody : ∀ base visited body,
      (Pass.runAll d root (Pass.ofBody base visited) body).From d root
        (Meets d root (Pass.ofBody base visited) body) := by
    intro base visited
    induction hroom : Path.room maxPathBytes visited using Nat.strongRecOn generalizing base visited with
    | ind room ih =>
      apply from_runAll_of_bodies
      intro base' visited' hmem path hnew hfile body
      obtain ⟨-, rfl⟩ : base' = base ∧ visited' = visited := by simpa [Pass.ofBody] using hmem
      have hlt := Path.room_cons_lt (Disk.size_le_of_isFile hfile) hnew
      apply ih _ (hroom ▸ hlt) _ _ rfl
  apply from_runAll_of_bodies
  intro base visited _ path _ _ body
  apply hbody

end Inlay
