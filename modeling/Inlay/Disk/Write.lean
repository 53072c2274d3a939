import Inlay.Disk.Walk

/-!
# Writing to a disk

`write` makes the directories above a path that are missing and then sets the bytes of the file
that the path leads to.  What has been made stays when a later part fails, so the disk is part of
the answer in either case.
-/

namespace Inlay.Disk

/-- Makes one directory, in a directory that exists.  The last segment has to be a name that
nothing bears. -/
def makeDirectory (d : Disk) (p : Path) : Except Obstacle Disk :=
  match unfit? p with
  | some obstacle => .error obstacle
  | none =>
    match p.segments.getLast? with
    | none => .error .alreadyExists
    | some last =>
      let above := d.walk .find maxLinks (d.start p) ⟨p.segments.dropLast, false⟩
      match above.bind Place.asDirectory with
      | .error obstacle => .error obstacle
      | .ok location =>
        if last = Segment.up then .error .alreadyExists
        else if maxSegmentBytes < Utf8.size last.text then .error .nameTooLong
        else
          match d.lookup (location ++ [last]) with
          | some _ => .error .alreadyExists
          | none => .ok (d.set (location ++ [last]) .directory)

/-- Accepts an obstacle to making a directory if the directory is there. -/
def acceptExisting (d : Disk) (p : Path) (obstacle : Obstacle) : Disk × Except FileError Unit :=
  match d.isDirectory p with
  | .ok true => (d, .ok ())
  | .ok false => (d, .error ⟨obstacle, p⟩)
  | .error e => (d, .error e)

/-- Makes one directory unless it is there. -/
def ensureDirectory (d : Disk) (p : Path) : Disk × Except FileError Unit :=
  match d.makeDirectory p with
  | .ok made => (made, .ok ())
  | .error .notFound => (d, .error ⟨.notFound, p⟩)
  | .error .nullCharacter => (d, .error ⟨.nullCharacter, p⟩)
  | .error obstacle => d.acceptExisting p obstacle

/-- Makes the directory at the path whose segments are given from its end, and the directories
above it, as far as they are missing.  There have to be fewer of them than `maxMissing`. -/
def ensureFrom (d : Disk) (anchor : Anchor) (maxMissing : Nat) :
    List Segment → Disk × Except FileError Unit
  | [] => d.ensureDirectory ⟨anchor, []⟩
  | s :: above =>
    let p : Path := ⟨anchor, (s :: above).reverse⟩
    match maxMissing with
    | 0 => (d, .error ⟨.tooManyMissing, p⟩)
    | maxMissing + 1 =>
      match d.makeDirectory p with
      | .error .notFound =>
        match d.ensureFrom anchor maxMissing above with
        | (made, .ok ()) => made.ensureDirectory p
        | (made, .error e) => (made, .error e)
      | _ => d.ensureDirectory p

/-- Makes the directory at a path, and the directories above it, as far as they are missing. -/
def ensureDirectories (d : Disk) (maxMissing : Nat) (p : Path) : Disk × Except FileError Unit :=
  d.ensureFrom p.anchor maxMissing p.segments.reverse

/-- Sets the bytes of the file that a path leads to, which is made if its directory is there. -/
def setFile (d : Disk) (p : Path) (bytes : Bytes) : Disk × Except FileError Unit :=
  match d.reach .write p with
  | .ok (.file location _) => (d.set location (.file bytes), .ok ())
  | .ok (.vacant location) => (d.set location (.file bytes), .ok ())
  | .ok (.directory _) => (d, .error ⟨.isDirectory, p⟩)
  | .error obstacle => (d, .error ⟨obstacle, p⟩)

/-- Writes the file that a path leads to, and makes the directories above the path. -/
def write (d : Disk) (maxMissing : Nat) (p : Path) (bytes : Bytes) :
    Disk × Except FileError Unit :=
  match d.ensureDirectories maxMissing p.parent with
  | (made, .ok ()) => made.setFile p bytes
  | (made, .error e) => (made, .error e)

/-! ### Setting up a disk

Any number of directories may be missing here. -/

/-- A disk with nothing but a current directory and those above it. -/
def empty (current : Location) : Disk :=
  let bare : Disk := ⟨Tree.empty, []⟩
  { (bare.ensureDirectories (current.length + 1) ⟨.root, current⟩).1 with current := current }

/-- The disk with the directory that a path leads to as its current one. -/
def enter (d : Disk) (p : Path) : Disk :=
  match d.locate p with
  | .ok (.directory location) => { d with current := location }
  | _ => d

/-- Puts an entry at a path; the directories above it are made. -/
def add (d : Disk) (p : Path) : Entry → Disk
  | .file bytes => (d.write (p.segments.length + 1) p bytes).1
  | .directory => (d.ensureDirectories (p.segments.length + 1) p).1
  | .link target =>
    let made := (d.ensureDirectories (p.segments.length + 1) p.parent).1
    match made.locate p.parent, p.segments.getLast? with
    | .ok (.directory location), some last => made.set (location ++ [last]) (.link target)
    | _, _ => made

end Inlay.Disk
