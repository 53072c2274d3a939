import Inlay.Path.Basic

/-!
# Targets of links

A link holds the text of a path.  Unlike the paths of a program, that text is not tidied: what it
ends with says whether the link can only lead to a directory.
-/

namespace Inlay

/-- What the text of a target ends with. -/
inductive Ending where
  /-- With a segment. -/
  | segment
  /-- With slashes behind a segment: the segment names a directory. -/
  | slash
  /-- With a single dot behind a segment: it stands for the directory that the segment leads to. -/
  | dot
deriving DecidableEq, Repr

/-- What a link leads to. -/
structure Target where
  path : Path
  ending : Ending
deriving DecidableEq

/-- What a text ends with. -/
def Ending.ofText (t : Text) : Ending :=
  let pieces := Text.splitAt '/' t
  match (pieces.filter (· ≠ [])).getLast? with
  | none => .segment
  | some last =>
    if last = ['.'] then .dot
    else if pieces.getLast? = some [] then .slash
    else .segment

/-- The target with a given text. -/
def Target.ofText (t : Text) : Target :=
  ⟨Path.ofText t, Ending.ofText t⟩

end Inlay
