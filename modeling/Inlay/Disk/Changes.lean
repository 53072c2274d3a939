import Inlay.Disk.Basic

/-!
# What has changed on a disk

The files and directories that are new or hold other bytes than before.  Links are not listed.
-/

namespace Inlay.Disk

/-- A file or a directory. -/
inductive Content where
  | file (bytes : Bytes)
  | directory

/-- The content at a location, if it is a file or a directory. -/
def content? (d : Disk) (location : Location) : Option Content :=
  match d.lookup location with
  | some (.file bytes) => some (.file bytes)
  | some .directory => some .directory
  | _ => none

/-- The locations of `after` at which something lies that does not lie there on `before`, and what
it is. -/
def changes (before after : Disk) : List (Location × Content) :=
  after.tree.entries.filterMap fun (location, _) =>
    if before.lookup location = after.lookup location then none
    else (after.content? location).map fun content => (location, content)

end Inlay.Disk
