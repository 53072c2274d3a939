import Inlay.Bytes
import Inlay.Disk.Target
import Inlay.Disk.Tree

/-!
# Disks

A disk is a tree of directories, files and symbolic links with a current directory.  A location is
the list of names that leads to a place from the root.  What counts is `lookup`, which says what lies
at a location; an entry stands for its location until a later one replaces it.

Permissions are not part of a disk: all files can be read and written, and all directories searched.
So what is a file can always be read, and where reading is told apart from looking, the branch of a
file that cannot be read is never taken.  Devices and hard links are left out too.
-/

namespace Inlay

/-- The names that lead to a place from the root of a disk. -/
abbrev Location := List Segment

/-- What lies at a location. -/
inductive Entry where
  | file (bytes : Bytes)
  | directory
  | link (target : Target)
deriving DecidableEq

/-- A tree of directories, files and links. -/
structure Disk where
  tree : Tree Entry
  current : Location

namespace Disk

/-- What lies at a location; the root is a directory. -/
def lookup (d : Disk) (location : Location) : Option Entry :=
  if location = [] then some .directory else d.tree.get? location

/-- The disk with an entry put at a location. -/
def set (d : Disk) (location : Location) (entry : Entry) : Disk :=
  { d with tree := d.tree.set entry location }

/-- The location at which a path starts. -/
def start (d : Disk) (p : Path) : Location :=
  if p.isAbsolute then [] else d.current

/-- The path of the current directory. -/
def currentPath (d : Disk) : Path :=
  ⟨.root, d.current⟩

/-- The spelling of the path from the root to a location. -/
def spell (location : Location) : Text :=
  Path.toText ⟨.root, location⟩

@[simp]
theorem lookup_nil (d : Disk) :
  d.lookup [] = some .directory
  := rfl

/-- An entry put at a location lies there, and nothing else changes. -/
theorem lookup_set
    (d : Disk) {location : Location} (h : location ≠ []) (entry : Entry) (other : Location) :
  (d.set location entry).lookup other = if other = location then some entry else d.lookup other
  := by
  unfold lookup set
  by_cases hroot : other = []
  · subst hroot
    simp [Ne.symm h]
  · simp [hroot, Tree.get?_set]

@[simp]
theorem current_set (d : Disk) (location : Location) (entry : Entry) :
  (d.set location entry).current = d.current
  := rfl

end Disk

end Inlay
