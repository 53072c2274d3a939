import Inlay.Disk.Basic

/-!
# Trails

A trail is the way from the root of a disk to a location together with the trees along it.  One step
on or back from a trail does not have to start at the root again.  The trail to a location leads to
what lies there: `entry_trail`.
-/

namespace Inlay

/-- The steps to a location, each with the tree to which it leads, the last one first. -/
abbrev Trail := List (Segment × Tree Entry)

/-- The location to which a trail leads. -/
def Trail.location (trail : Trail) : Location :=
  (trail.map Prod.fst).reverse

/-- What lies where a trail leads; the root is a directory. -/
def Trail.entry : Trail → Option Entry
  | [] => some .directory
  | (_, t) :: _ => t.value

namespace Disk

/-- The tree to which a trail leads. -/
def treeAt (d : Disk) : Trail → Tree Entry
  | [] => d.tree
  | (_, t) :: _ => t

/-- The trail with one more step. -/
def onward (d : Disk) (trail : Trail) (s : Segment) : Trail :=
  (s, (d.treeAt trail).branch s) :: trail

/-- The trail to a location. -/
def trail (d : Disk) (location : Location) : Trail :=
  location.foldl d.onward []

theorem trail_concat (d : Disk) (location : Location) (s : Segment) :
  d.trail (location ++ [s]) = d.onward (d.trail location) s
  := by
  simp [trail, List.foldl_append]

theorem trail_dropLast (d : Disk) (location : Location) :
  d.trail location.dropLast = (d.trail location).tail
  := by
  rcases List.eq_nil_or_concat location with rfl | ⟨above, s, rfl⟩
  · rfl
  · rw [List.concat_eq_append, List.dropLast_concat, trail_concat]
    rfl

theorem location_foldl_onward (d : Disk) (trail : Trail) (location : Location) :
  Trail.location (location.foldl d.onward trail) = trail.location ++ location
  := by
  induction location generalizing trail with
  | nil => simp
  | cons s location ih =>
    rw [List.foldl_cons, ih]
    simp [Trail.location, onward]

theorem treeAt_foldl_onward (d : Disk) (trail : Trail) (location : Location) :
  d.treeAt (location.foldl d.onward trail) = (d.treeAt trail).subtree location
  := by
  induction location generalizing trail with
  | nil => rfl
  | cons s location ih =>
    rw [List.foldl_cons, ih]
    rfl

/-- The trail to a location leads there. -/
theorem location_trail (d : Disk) (location : Location) :
  (d.trail location).location = location
  := location_foldl_onward d [] location

/-- The trail to a location leads to what lies there. -/
theorem entry_trail (d : Disk) (location : Location) :
  (d.trail location).entry = d.lookup location
  := by
  rcases List.eq_nil_or_concat location with rfl | ⟨above, s, rfl⟩
  · rfl
  · rw [List.concat_eq_append, trail_concat]
    have htree : d.treeAt (d.trail above) = d.tree.subtree above := treeAt_foldl_onward d [] above
    unfold lookup Tree.get?
    rw [Tree.subtree_append, ← htree]
    simp [onward, Trail.entry, Tree.subtree]

end Disk

end Inlay
