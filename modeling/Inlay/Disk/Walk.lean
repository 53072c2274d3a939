import Inlay.Disk.Trail
import Inlay.Disk.Error
import Inlay.Text.Utf8

/-!
# Walking a disk

`locate` goes from the start of a path through its segments.  A double dot leads to the directory
above, a link to where its target leads.  The limits are those of the system: the length of a
segment, the length of a path, and the number of links on the way.  Every walk ends, since between
two links it goes through the segments one by one.  A walk that is to find something and a walk that
is to write differ only at a link whose target ends with a slash.
-/

namespace Inlay

/-- The most bytes that a segment may have. -/
def maxSegmentBytes : Nat := 255

/-- The most bytes that a path may have. -/
def maxPathBytes : Nat := 4095

/-- The most links that a walk follows. -/
def maxLinks : Nat := 40

/-- What a walk comes to. -/
inductive Place where
  | file (location : Location) (bytes : Bytes)
  | directory (location : Location)
  /-- A name that nothing bears, in a directory that exists. -/
  | vacant (location : Location)

/-- The location of a place that is a directory. -/
def Place.asDirectory : Place → Except Obstacle Location
  | .file .. => .error .notDirectory
  | .directory location => .ok location
  | .vacant _ => .error .notFound

/-- What a walk is for. -/
inductive Purpose where
  | find
  /-- To set the bytes of a file, which need not be there. -/
  | write

/-- The segments that a walk goes through, and whether it has to come to a directory. -/
structure Route where
  segments : List Segment
  toDirectory : Bool

/-- The route through a target at which a walk may end.  A slash or a dot at the end asks for a
directory.  A walk that is to write does not look up a segment with a slash behind it: it names a
directory, which cannot be written, and neither can the directory above, to which this walk comes
instead. -/
def Target.ownRoute (target : Target) (purpose : Purpose) : Route :=
  match target.ending, purpose with
  | .segment, _ => ⟨target.path.segments, false⟩
  | .slash, .write => ⟨target.path.segments.dropLast, true⟩
  | _, _ => ⟨target.path.segments, true⟩

/-- The route through a target and on.  How the target ends counts only where the route does not go
on. -/
def Target.route (target : Target) (purpose : Purpose) (onward : Route) : Route :=
  if onward.segments.isEmpty && !onward.toDirectory then target.ownRoute purpose
  else ⟨target.path.segments ++ onward.segments, onward.toDirectory⟩

namespace Disk

/-- Where a walk without links stops: at a place, or at a link with the segments still to go. -/
inductive Stop where
  | place (place : Place)
  | link (directory : Location) (target : Target) (rest : List Segment)

/-- Goes on from a trail through the segments, up to the first link. -/
def advanceAlong (d : Disk) : Trail → List Segment → Except Obstacle Stop
  | trail, [] =>
    match trail.entry with
    | some (.file bytes) => .ok (.place (.file trail.location bytes))
    | some .directory => .ok (.place (.directory trail.location))
    | _ => .error .notFound
  | trail, s :: rest =>
    match trail.entry with
    | some .directory =>
      if s = Segment.up then
        d.advanceAlong trail.tail rest
      else if maxSegmentBytes < Utf8.size s.text then
        .error .nameTooLong
      else
        let next := d.onward trail s
        match next.entry with
        | none =>
          if rest.isEmpty then .ok (.place (.vacant (trail.location ++ [s]))) else .error .notFound
        | some (.link target) => .ok (.link trail.location target rest)
        | some _ => d.advanceAlong next rest
    | some (.file _) => .error .notDirectory
    | _ => .error .notFound

/-- Goes from a location through the segments, up to the first link. -/
def advance (d : Disk) (location : Location) (segments : List Segment) : Except Obstacle Stop :=
  d.advanceAlong (d.trail location) segments

theorem advance_nil (d : Disk) (location : Location) :
  d.advance location [] =
    match d.lookup location with
    | some (.file bytes) => .ok (.place (.file location bytes))
    | some .directory => .ok (.place (.directory location))
    | _ => .error .notFound
  := by
  unfold advance advanceAlong
  rw [entry_trail, location_trail]

/-- One step of a walk, by what lies at the location and at the next one. -/
theorem advance_cons (d : Disk) (location : Location) (s : Segment) (rest : List Segment) :
  d.advance location (s :: rest) =
    match d.lookup location with
    | some .directory =>
      if s = Segment.up then
        d.advance location.dropLast rest
      else if maxSegmentBytes < Utf8.size s.text then
        .error .nameTooLong
      else
        match d.lookup (location ++ [s]) with
        | none =>
          if rest.isEmpty then .ok (.place (.vacant (location ++ [s]))) else .error .notFound
        | some (.link target) => .ok (.link location target rest)
        | some _ => d.advance (location ++ [s]) rest
    | some (.file _) => .error .notDirectory
    | _ => .error .notFound
  := by
  unfold advance
  conv => lhs; unfold advanceAlong
  dsimp only
  rw [entry_trail, location_trail, ← trail_concat, entry_trail, ← trail_dropLast]

/-- Goes along a route and follows at most `links` links. -/
def walk (d : Disk) (purpose : Purpose) (links : Nat) (location : Location) (route : Route) :
    Except Obstacle Place :=
  match d.advance location route.segments with
  | .error obstacle => .error obstacle
  | .ok (.place place) =>
    if route.toDirectory then place.asDirectory.map Place.directory else .ok place
  | .ok (.link directory target rest) =>
    match links with
    | 0 => .error .tooManyLinks
    | links + 1 =>
      d.walk purpose links (if target.path.isAbsolute then [] else directory)
        (target.route purpose ⟨rest, route.toDirectory⟩)

/-- What makes a path unfit for any walk. -/
def unfit? (p : Path) : Option Obstacle :=
  let spelling := p.toText
  if spelling.contains '\x00' then some .nullCharacter
  else if maxPathBytes < Utf8.size spelling then some .nameTooLong
  else none

/-- The place to which a path leads a walk. -/
def reach (d : Disk) (purpose : Purpose) (p : Path) : Except Obstacle Place :=
  match unfit? p with
  | some obstacle => .error obstacle
  | none => d.walk purpose maxLinks (d.start p) ⟨p.segments, false⟩

/-- The place that a path leads to. -/
def locate (d : Disk) (p : Path) : Except Obstacle Place :=
  d.reach .find p

/-- Whether a path leads to a file.  A path that leads nowhere does not; only a name that is too
long leaves the question open. -/
def isFile (d : Disk) (p : Path) : Except FileError Bool :=
  match d.locate p with
  | .ok (.file ..) => .ok true
  | .error .nameTooLong => .error ⟨.nameTooLong, p⟩
  | _ => .ok false

/-- Whether a path leads to a directory, answered as `isFile` answers. -/
def isDirectory (d : Disk) (p : Path) : Except FileError Bool :=
  match d.locate p with
  | .ok (.directory ..) => .ok true
  | .error .nameTooLong => .error ⟨.nameTooLong, p⟩
  | _ => .ok false

/-- The bytes of the file that a path leads to. -/
def read (d : Disk) (p : Path) : Except FileError Bytes :=
  match d.locate p with
  | .ok (.file _ bytes) => .ok bytes
  | .ok (.directory _) => .error ⟨.isDirectory, p⟩
  | .ok (.vacant _) => .error ⟨.notFound, p⟩
  | .error obstacle => .error ⟨obstacle, p⟩

/-- What is a file can be read, since a disk has no permissions. -/
theorem exists_read_of_isFile {d : Disk} {p : Path} (h : d.isFile p = .ok true) :
  ∃ bytes, d.read p = .ok bytes
  := by
  unfold isFile at h
  unfold read
  split at h
  case h_1 location bytes hlocate => exact ⟨bytes, by rw [hlocate]⟩
  case h_2 => cases h
  case h_3 => cases h

/-- The spelling of a path to a file fits the limit. -/
theorem size_le_of_isFile {d : Disk} {p : Path} (h : d.isFile p = .ok true) :
  Utf8.size p.toText ≤ maxPathBytes
  := by
  unfold isFile locate reach at h
  cases hunfit : unfit? p with
  | some obstacle =>
    simp only [hunfit] at h
    cases obstacle <;> cases h
  | none =>
    simp only [unfit?] at hunfit
    split at hunfit
    · cases hunfit
    · split at hunfit
      · cases hunfit
      · omega

end Disk

end Inlay
