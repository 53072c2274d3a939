import Inlay.Disk.Walk
import Mathlib.Data.Set.Finite.List
import Mathlib.Tactic.Use

/-!
# Disks without links

On a disk something lies at finitely many locations.  On a disk without links a path from the root
without double dots can only lead to a file that lies where its segments say.
-/

namespace Inlay

/-! ### Entries -/

namespace Tree

variable {α : Type}

theorem mem_branchEntries_of_lookup
    {above : List Segment} {branches : List (Segment × Tree α)} {s : Segment} {t : Tree α}
    (h : branches.lookup s = some t) {entry : List Segment × α}
    (hentry : entry ∈ entriesBelow (s :: above) t) :
  entry ∈ branchEntries above branches
  := by
  induction branches with
  | nil => cases h
  | cons first rest ih =>
    obtain ⟨name, u⟩ := first
    rw [branchEntries, List.mem_append]
    by_cases hname : s = name
    · subst hname
      simp only [List.lookup_cons_self, Option.some.injEq] at h
      subst h
      exact .inl hentry
    · rw [List.lookup_cons, beq_eq_false_iff_ne.2 hname] at h
      exact .inr (ih h)

/-- The tree without values has none at the end of any way. -/
theorem get?_empty (way : List Segment) :
  (empty : Tree α).get? way = none
  := by
  induction way with
  | nil => rfl
  | cons s way ih => exact ih

/-- The value at the end of a way is among the entries below. -/
theorem mem_entriesBelow_of_get?
    {above way : List Segment} {t : Tree α} {a : α} (h : t.get? way = some a) :
  (above.reverse ++ way, a) ∈ entriesBelow above t
  := by
  induction way generalizing above t with
  | nil =>
    obtain ⟨value, branches⟩ := t
    have hvalue : value = some a := h
    simp [entriesBelow, hvalue]
  | cons s way ih =>
    obtain ⟨value, branches⟩ := t
    rw [entriesBelow, List.mem_append]
    right
    have hbranch : ((Tree.node value branches).branch s).get? way = some a := h
    cases hlookup : branches.lookup s with
    | none =>
      have hempty : (Tree.node value branches).branch s = empty := by
        simp [branch, Tree.branches, hlookup]
      rw [hempty, get?_empty] at hbranch
      cases hbranch
    | some u =>
      have hu : (Tree.node value branches).branch s = u := by
        simp [branch, Tree.branches, hlookup]
      rw [hu] at hbranch
      have := @ih (s :: above) u hbranch
      apply mem_branchEntries_of_lookup hlookup
      simpa using this

end Tree

namespace Disk

/-- What lies at a location other than the root is among the entries of the tree. -/
theorem mem_entries_of_lookup
    {d : Disk} {location : Location} (hne : location ≠ []) {entry : Entry}
    (h : d.lookup location = some entry) :
  (location, entry) ∈ d.tree.entries
  := by
  rw [lookup, if_neg hne] at h
  exact Tree.mem_entriesBelow_of_get? h

/-- Something lies at finitely many locations. -/
theorem finite_setOf_lookup (d : Disk) :
  {location | ∃ entry, d.lookup location = some entry}.Finite
  := by
  apply Set.Finite.subset (List.finite_toSet ([] :: d.tree.entries.map Prod.fst))
  rintro location ⟨entry, h⟩
  by_cases hne : location = []
  · simp [hne]
  · apply List.mem_cons_of_mem
    apply List.mem_map_of_mem (mem_entries_of_lookup hne h)

/-! ### Links -/

/-- There is no link on the disk. -/
def Linkless (d : Disk) : Prop :=
  ∀ location target, d.lookup location ≠ some (.link target)

/-- A disk none of whose entries is a link has no link. -/
theorem linkless_of_entries
    {d : Disk} (h : ∀ entry ∈ d.tree.entries, ∀ target, entry.2 ≠ .link target) :
  d.Linkless
  := by
  intro location target hlookup
  have hne : location ≠ [] := by
    rintro rfl
    rw [lookup_nil] at hlookup
    cases hlookup
  exact h _ (mem_entries_of_lookup hne hlookup) target rfl

/-- Segments without double dots that lead to a file past no link lead to the one that lies there. -/
theorem lookup_of_advance_eq_file
    {d : Disk} {segments : List Segment} (hup : Segment.up ∉ segments)
    {location found : Location} {bytes : Bytes}
    (h : d.advance location segments = .ok (.place (.file found bytes))) :
  d.lookup (location ++ segments) = some (.file bytes)
  := by
  induction segments generalizing location with
  | nil =>
    rw [advance_nil] at h
    rw [List.append_nil]
    split at h
    · rename_i bytes' hlookup
      cases h
      exact hlookup
    · cases h
    · cases h
  | cons s segments ih =>
    simp only [List.mem_cons, not_or] at hup
    rw [advance_cons, if_neg (Ne.symm hup.1)] at h
    split at h
    · split at h
      · cases h
      · split at h
        · split at h <;> cases h
        · cases h
        · have := ih hup.2 h
          simpa using this
    · cases h
    · cases h

/-- Without links a walk never stops at one. -/
theorem advance_ne_link
    {d : Disk} (hd : d.Linkless) (location directory : Location) (segments rest : List Segment)
    (target : Target) :
  d.advance location segments ≠ .ok (.link directory target rest)
  := by
  induction segments generalizing location with
  | nil =>
    rw [advance_nil]
    split <;> simp
  | cons s segments ih =>
    rw [advance_cons]
    split
    · split
      · apply ih
      · split
        · simp
        · split
          · split <;> simp
          · rename_i target' hlookup
            exact absurd hlookup (hd _ _)
          · apply ih
    · simp
    · simp

/-- Without links a path from the root without double dots that leads to a file leads to the file
that lies where its segments say. -/
theorem exists_lookup_of_isFile
    {d : Disk} (hd : d.Linkless) {p : Path} (habs : p.isAbsolute) (hup : Segment.up ∉ p.segments)
    (h : d.isFile p = .ok true) :
  ∃ bytes, d.lookup p.segments = some (.file bytes)
  := by
  rw [isFile, locate, reach] at h
  cases hunfit : unfit? p with
  | some obstacle =>
    simp only [hunfit] at h
    cases obstacle <;> cases h
  | none =>
    simp only [hunfit, start, habs, if_true] at h
    rw [walk] at h
    cases hadvance : d.advance [] p.segments with
    | error obstacle =>
      simp only [hadvance] at h
      cases obstacle <;> cases h
    | ok stop =>
      simp only [hadvance] at h
      cases stop with
      | link directory target rest => exact (advance_ne_link hd _ _ _ _ _ hadvance).elim
      | place place =>
        cases place with
        | file location bytes =>
          use bytes
          exact lookup_of_advance_eq_file hup hadvance
        | directory location => cases h
        | vacant location => cases h

end Disk

end Inlay
