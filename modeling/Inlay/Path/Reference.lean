import Inlay.Path.Normal

/-!
# References

A document names a file by a reference.  A reference that starts with a slash starts at the root
of the project and cannot leave it; any other starts at the directory of the document.  Nothing is
looked up: the text of the reference decides.
-/

namespace Inlay.Path

/-- The path that a reference denotes in a document of the directory `base`, in a project whose
root is `root`. -/
def resolve (reference : Text) (base root : Path) : Path :=
  match anchorOf reference with
  | .here => normalize ⟨base.anchor, base.segments ++ normalSegments false (segmentsOf reference)⟩
  | _ => normalize ⟨root.anchor, root.segments ++ normalSegments true (segmentsOf reference)⟩

/-- The segments that lead from `root` to `target`, both walked first, if `target` lies under
`root`. -/
def segmentsUnder? (root target : Path) : Option (List Segment) :=
  let root := root.normalize
  let target := target.normalize
  if root.anchor = target.anchor then
    root.segments.isPrefixOf? target.segments
  else
    none

/-- The spelling of `target` from `root`, if it lies under it; the root itself is spelled with a
dot. -/
def relativeUnder? (root target : Path) : Option Text :=
  (segmentsUnder? root target).map fun segments => toText ⟨.here, segments⟩

/-- A path is not under a root. -/
structure NotUnder where
  root : Path
  target : Path

/-- The words for a path that is not under a root. -/
def NotUnder.message (e : NotUnder) : Text :=
  "Path is not under root: ".toList ++ e.target.normalize.toText ++ " not under ".toList
    ++ e.root.normalize.toText

/-- The spelling of `target` from `root`, or that it is not under it. -/
def relativeUnder (root target : Path) : Except NotUnder Text :=
  match relativeUnder? root target with
  | some t => .ok t
  | none => .error ⟨root, target⟩

end Inlay.Path
