import Inlay.Path.Basic

/-!
# Normal paths

Walking a path by its segments alone: a double dot takes back the segment before it.  Where there
is none to take back, it is dropped below a root and kept at the current place.  In a normal path
double dots stand only at the front of a path that starts at the current place.
-/

namespace Inlay.Path

/-- Goes one segment further from the segments walked so far, the last one first. -/
def walkStep (absolute : Bool) (walked : List Segment) (s : Segment) : List Segment :=
  if s = Segment.up then
    match walked with
    | [] => if absolute then [] else [s]
    | last :: before => if last = Segment.up then s :: walked else before
  else
    s :: walked

/-- The segments that remain after walking. -/
def normalSegments (absolute : Bool) (segments : List Segment) : List Segment :=
  (segments.foldl (walkStep absolute) []).reverse

/-- The path with its segments walked. -/
def normalize (p : Path) : Path :=
  ⟨p.anchor, normalSegments p.isAbsolute p.segments⟩

end Inlay.Path
