import Inlay.Text.Basic

/-!
# Paths

A path is read from its text alone: it starts at the current place or at one of the two roots,
`/` and `//`, and goes through a list of segments.  Empty segments and single dots are dropped
when a path is read, double dots stay.  `ofText` and `toText` are inverse on paths, so two paths
are equal exactly when they are spelled alike.
-/

namespace Inlay

/-- A segment of a path: a text that is not empty, is not a single dot, and holds no slash. -/
structure Segment where
  text : Text
  text_ne_nil : text ≠ []
  text_ne_dot : text ≠ ['.']
  slash_not_mem : '/' ∉ text

namespace Segment

/-- Segments are equal if their texts are. -/
theorem ext_iff {s t : Segment} :
  s = t ↔ s.text = t.text
  := by
  cases s
  cases t
  simp

instance : DecidableEq Segment :=
  fun _ _ => decidable_of_iff _ (Text.same_iff.trans ext_iff.symm)

/-- The segment with a given text, if it is one. -/
def ofText? (t : Text) : Option Segment :=
  if h : t ≠ [] ∧ t ≠ ['.'] ∧ '/' ∉ t then
    some ⟨t, h.1, h.2.1, h.2.2⟩
  else
    none

/-- The segment that leads to the directory above. -/
def up : Segment :=
  ⟨['.', '.'], by decide, by decide, by decide⟩

theorem ofText?_text (s : Segment) :
  ofText? s.text = some s
  := by
  simp [ofText?, s.text_ne_nil, s.text_ne_dot, s.slash_not_mem]

end Segment

/-- Where a path starts. -/
inductive Anchor where
  /-- At the current place. -/
  | here
  /-- At the root that is spelled with one slash. -/
  | root
  /-- At the root that is spelled with two slashes. -/
  | doubleRoot
deriving DecidableEq

/-- The slashes that a path starts with. -/
def Anchor.text : Anchor → Text
  | .here => []
  | .root => ['/']
  | .doubleRoot => ['/', '/']

/-- A path: where it starts, and the segments it goes through. -/
structure Path where
  anchor : Anchor
  segments : List Segment
deriving DecidableEq

namespace Path

/-- The anchor of a text: exactly two slashes are a root of their own. -/
def anchorOf : Text → Anchor
  | '/' :: '/' :: '/' :: _ => .root
  | '/' :: '/' :: _ => .doubleRoot
  | '/' :: _ => .root
  | _ => .here

/-- The segments of a text, which has slashes between them. -/
def segmentsOf (t : Text) : List Segment :=
  (Text.splitAt '/' t).filterMap Segment.ofText?

/-- The path that a text spells. -/
def ofText (t : Text) : Path :=
  ⟨anchorOf t, segmentsOf t⟩

/-- The segments with a slash between neighbours. -/
def joined (segments : List Segment) : Text :=
  Text.join ['/'] (segments.map Segment.text)

/-- The spelling of a path; the current place is spelled with a dot. -/
def toText (p : Path) : Text :=
  match p.anchor, p.segments with
  | .here, [] => ['.']
  | anchor, segments => anchor.text ++ joined segments

/-- Whether a path starts at a root. -/
def isAbsolute (p : Path) : Bool :=
  p.anchor ≠ .here

/-- The path without its last segment. -/
def parent (p : Path) : Path :=
  ⟨p.anchor, p.segments.dropLast⟩

/-- The path that continues `p` with `q`; an absolute `q` stands alone. -/
def append (p q : Path) : Path :=
  if q.isAbsolute then q else ⟨p.anchor, p.segments ++ q.segments⟩

/-- The part of a text from its last dot on, unless the dot comes first or last. -/
def suffixOf (name : Text) : Text :=
  let tail := name.reverse.takeWhile (· ≠ '.')
  if tail = [] ∨ name.length ≤ tail.length + 1 then []
  else '.' :: tail.reverse

/-- The suffix of the last segment. -/
def suffix (p : Path) : Text :=
  match p.segments.getLast? with
  | none => []
  | some s => suffixOf s.text

end Path

end Inlay
