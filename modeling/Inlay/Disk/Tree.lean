import Inlay.Path.Basic

/-!
# Trees

A tree has values at some of its nodes, and the branches of a node have names.  So it assigns values
to lists of names.  What counts is `get?`: `get?_set` says what it is after a value has been set, and
`subtree_append` that the way to a node can be gone in parts.
-/

namespace Inlay

/-- A tree with values at some of its nodes. -/
inductive Tree (α : Type) where
  | node (value : Option α) (branches : List (Segment × Tree α))

namespace Tree

variable {α : Type}

/-- The tree without values. -/
def empty : Tree α :=
  .node none []

/-- The value at the root. -/
def value : Tree α → Option α
  | .node value _ => value

/-- The branches of the root. -/
def branches : Tree α → List (Segment × Tree α)
  | .node _ branches => branches

/-- The tree at the end of a branch; it is empty if there is no such branch. -/
def branch (t : Tree α) (s : Segment) : Tree α :=
  (t.branches.lookup s).getD empty

/-- The tree at the end of a way. -/
def subtree (t : Tree α) (way : List Segment) : Tree α :=
  way.foldl branch t

/-- The value at the end of a way. -/
def get? (t : Tree α) (way : List Segment) : Option α :=
  (t.subtree way).value

/-- Puts a tree at the end of a branch: in its place if the branch is there, else behind the others. -/
def putBranch (s : Segment) (u : Tree α) : List (Segment × Tree α) → List (Segment × Tree α)
  | [] => [(s, u)]
  | (name, t) :: rest => if s = name then (name, u) :: rest else (name, t) :: putBranch s u rest

/-- The tree with a value set at the end of a way. -/
def set (a : α) : List Segment → Tree α → Tree α
  | [], t => .node (some a) t.branches
  | s :: way, t => .node t.value (putBranch s (set a way (t.branch s)) t.branches)

mutual

/-- The ways to the values of a tree, each with its value, where `above` leads to the tree, the last
name first. -/
def entriesBelow (above : List Segment) : Tree α → List (List Segment × α)
  | .node value branches =>
    value.toList.map (fun a => (above.reverse, a)) ++ branchEntries above branches

/-- The ways to the values of branches. -/
def branchEntries (above : List Segment) : List (Segment × Tree α) → List (List Segment × α)
  | [] => []
  | (s, t) :: rest => entriesBelow (s :: above) t ++ branchEntries above rest

end

/-- The ways to the values, each with its value. -/
def entries (t : Tree α) : List (List Segment × α) :=
  t.entriesBelow []

theorem lookup_putBranch (s name : Segment) (u : Tree α) (branches : List (Segment × Tree α)) :
  (putBranch s u branches).lookup name = if name = s then some u else branches.lookup name
  := by
  induction branches with
  | nil =>
    by_cases h : name = s
    · simp [putBranch, h]
    · simp [putBranch, List.lookup_cons, h, beq_eq_false_iff_ne.2 h]
  | cons first rest ih =>
    obtain ⟨other, t⟩ := first
    unfold putBranch
    by_cases hs : s = other
    · subst hs
      by_cases h : name = s
      · simp [h]
      · simp [List.lookup_cons, h, beq_eq_false_iff_ne.2 h]
    · by_cases h : name = other
      · subst h
        simp [hs, Ne.symm hs]
      · simp [hs, List.lookup_cons, beq_eq_false_iff_ne.2 h, ih]

theorem subtree_append (t : Tree α) (way onward : List Segment) :
  t.subtree (way ++ onward) = (t.subtree way).subtree onward
  := List.foldl_append

/-- A value set at the end of a way is there, and nothing else changes. -/
theorem get?_set (a : α) (way other : List Segment) (t : Tree α) :
  (t.set a way).get? other = if other = way then some a else t.get? other
  := by
  induction way generalizing other t with
  | nil =>
    cases other with
    | nil => rfl
    | cons s rest => rfl
  | cons s way ih =>
    cases other with
    | nil => rfl
    | cons name rest =>
      have hbranch : (t.set a (s :: way)).branch name
          = if name = s then (t.branch s).set a way else t.branch name := by
        simp only [set, branch, branches, lookup_putBranch]
        split <;> rfl
      show ((t.set a (s :: way)).branch name).get? rest = _
      rw [hbranch]
      by_cases h : name = s
      · subst h
        simp [ih]
        rfl
      · simp [h]
        rfl

end Tree

end Inlay
