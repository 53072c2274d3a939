import Inlay.Proofs.Component.Open
import Inlay.Proofs.Component.Steps
import Inlay.Proofs.Page

/-!
# Components on different branches

What is visited shows in an expansion only where it meets a component that is being expanded already.
So an expansion that meets none is the same with fewer visited paths (`sameIfAcyclic_nested`), and
any two that meet none are the same (`expansion_is_alike_on_all_branches`).
-/

namespace Inlay

/-- No reference of a run is to a component that is being expanded already. -/
def Recorded.Acyclic {α : Type} (x : Recorded α) : Prop :=
  ∀ e ∈ x.events, e.status ≠ .circular

/-- If the second run is acyclic, then the first one is the same. -/
def SameIfAcyclic {α : Type} (x x' : Recorded α) : Prop :=
  x'.Acyclic → x = x'

namespace SameIfAcyclic

variable {α β : Type}

theorem refl (x : Recorded α) :
  SameIfAcyclic x x
  := fun _ => rfl

/-- Two runs are the same if their beginnings are, and what comes after each value. -/
theorem bind
    {x x' : Recorded α} {f f' : α → Recorded β} (hx : SameIfAcyclic x x')
    (hf : ∀ a, SameIfAcyclic (f a) (f' a)) :
  SameIfAcyclic (x.bind f) (x'.bind f')
  := by
  obtain ⟨events, outcome⟩ := x'
  cases outcome with
  | error e =>
    intro hacyclic
    rw [hx hacyclic]
    rfl
  | ok a =>
    intro hacyclic
    rw [Recorded.bind_ok] at hacyclic
    have hbefore : Recorded.Acyclic ⟨events, .ok a⟩ := fun e he =>
      hacyclic e (List.mem_append_left _ he)
    have hafter : (f' a).Acyclic := fun e he => hacyclic e (List.mem_append_right _ he)
    rw [hx hbefore, Recorded.bind_ok, hf a hafter, Recorded.bind_ok]

end SameIfAcyclic

namespace Component

variable {d : Disk} {root base : Path} {visited visited' : List Path}

/-- What a token gives way to is the same with fewer visited paths, if the expansion of its component
is. -/
theorem sameIfAcyclic_inPlace
    {x : Token} {path : Path} (hpath : Path.resolve x.reference base root = path)
    (hsub : visited ⊆ visited')
    (hbody : d.isFile path = .ok true → path ∉ visited' → ∀ body,
      SameIfAcyclic (nested d root path.parent (path :: visited) (pieces body))
        (nested d root path.parent (path :: visited') (pieces body))) :
  SameIfAcyclic (inPlace d root base visited x) (inPlace d root base visited' x)
  := by
  rw [inPlace_eq_visit, inPlace_eq_visit, hpath]
  cases hfile : d.isFile path with
  | error e =>
    rw [visit_of_error hfile, visit_of_error hfile]
    apply SameIfAcyclic.refl
  | ok found =>
    cases found with
    | false =>
      rw [visit_of_missing hfile, visit_of_missing hfile]
      apply SameIfAcyclic.refl
    | true =>
      by_cases hmem : path ∈ visited'
      · -- The second run leaves an event that it is not to leave.
        intro hacyclic
        rw [visit_of_open hfile hmem] at hacyclic
        exact absurd rfl (hacyclic _ (List.mem_singleton_self _))
      · obtain ⟨body, hread⟩ := Disk.exists_readReplacing_of_isFile hfile
        rw [visit_of_file hfile (fun h => hmem (hsub h)) hread, visit_of_file hfile hmem hread]
        apply (SameIfAcyclic.refl _).bind
        intro _
        apply (hbody hfile hmem body).bind
        intro t
        apply SameIfAcyclic.refl

/-- An expansion that meets no open component is the same with fewer visited paths. -/
theorem sameIfAcyclic_nested
    (d : Disk) (root base : Path) (visited visited' : List Path) (pending : List (Piece Token))
    (hsub : visited ⊆ visited') :
  SameIfAcyclic (nested d root base visited pending) (nested d root base visited' pending)
  := by
  induction base, visited', pending using nested.induct d root generalizing visited with
  | case1 base visited' =>
    rw [nested_nil, nested_nil]
    apply SameIfAcyclic.refl
  | case2 base visited' t pending ih =>
    rw [nested_gap, nested_gap]
    apply (ih visited hsub).bind
    intro rest
    apply SameIfAcyclic.refl
  | case3 base visited' x pending reference path ihBody ih =>
    rw [nested_token, nested_token]
    apply SameIfAcyclic.bind
    · apply sameIfAcyclic_inPlace rfl hsub
      intro hfile hnew body
      exact ihBody hfile hnew body (path :: visited) (List.cons_subset_cons path hsub)
    · intro t
      apply (ih visited hsub).bind
      intro rest
      apply SameIfAcyclic.refl

/-- Two expansions of one text that both meet no component within itself give the same text, or the
same file error, and the same events, whatever was visited before them; and if one with more visited
paths meets none, then neither does one with fewer.  So wherever a component is asked for, on a
branch of its own or below others, it comes to the same. -/
theorem expansion_is_alike_on_all_branches
    (d : Disk) (base root : Path) (visited visited' : List Path) (t : Text) :
  ((expand d base root visited t).recorded.Acyclic →
      (expand d base root visited' t).recorded.Acyclic →
      (expand d base root visited t).recorded = (expand d base root visited' t).recorded)
    ∧ (visited ⊆ visited' → (expand d base root visited' t).recorded.Acyclic →
      (expand d base root visited t).recorded.Acyclic)
  := by
  rw [expand_eq, expand_eq]
  dsimp only
  constructor
  · intro hacyclic hacyclic'
    -- Both are the expansion that starts with nothing visited.
    have hnone := sameIfAcyclic_nested d root base [] visited (pieces t) (List.nil_subset _) hacyclic
    have hnone' :=
      sameIfAcyclic_nested d root base [] visited' (pieces t) (List.nil_subset _) hacyclic'
    rw [← hnone, hnone']
  · intro hsub hacyclic
    rw [sameIfAcyclic_nested d root base visited visited' (pieces t) hsub hacyclic]
    exact hacyclic

/-! ### A shared component -/

/-- The name of the component `b.comp`. -/
def sharedName : Segment :=
  ⟨"b.comp".toList, by decide, by decide, by decide⟩

/-- A disk with a component that asks for another one, and that one. -/
def sharing : Disk :=
  ⟨.node none [
    (selfName, .node (some (.file (Utf8.encode "([b.comp])".toList))) []),
    (sharedName, .node (some (.file (Utf8.encode "b".toList))) [])], []⟩

/-- A document that asks for both, so that the latter is on two branches. -/
def sharingDocument : Text :=
  "[a.comp][b.comp]".toList

/-- A path that is visited before. -/
def earlierPath : Path :=
  Path.ofText "/c.comp".toList

/-- The events of the document. -/
def sharingEvents : List Event := [
  ⟨.component, "a.comp".toList, some ⟨.root, [selfName]⟩, .inlined⟩,
  ⟨.component, "b.comp".toList, some ⟨.root, [sharedName]⟩, .inlined⟩,
  ⟨.component, "b.comp".toList, some ⟨.root, [sharedName]⟩, .inlined⟩]

theorem expand_sharing :
  expand sharing ⟨.root, []⟩ ⟨.root, []⟩ [earlierPath] sharingDocument
    = ⟨[earlierPath], ⟨sharingEvents, .ok "(b)b".toList⟩⟩
  := by
  apply Expansion.run_of_after_eq_finished (n := 14)
  with_unfolding_all rfl

/-- The document comes to the same with a path visited before and without. -/
theorem sharing_is_alike_on_both_branches :
  (expand sharing ⟨.root, []⟩ ⟨.root, []⟩ [earlierPath] sharingDocument).recorded.Acyclic
    ∧ (expand sharing ⟨.root, []⟩ ⟨.root, []⟩ [] sharingDocument).recorded.Acyclic
    ∧ (expand sharing ⟨.root, []⟩ ⟨.root, []⟩ [] sharingDocument).recorded
      = ⟨sharingEvents, .ok "(b)b".toList⟩
  := by
  obtain ⟨halike, hfewer⟩ := expansion_is_alike_on_all_branches sharing ⟨.root, []⟩ ⟨.root, []⟩ []
    [earlierPath] sharingDocument
  have hacyclic' :
      (expand sharing ⟨.root, []⟩ ⟨.root, []⟩ [earlierPath] sharingDocument).recorded.Acyclic := by
    rw [expand_sharing]
    show ∀ e ∈ sharingEvents, e.status ≠ .circular
    decide
  have hacyclic := hfewer (List.nil_subset _) hacyclic'
  refine ⟨hacyclic', hacyclic, ?_⟩
  rw [halike hacyclic hacyclic', expand_sharing]

end Component

end Inlay
