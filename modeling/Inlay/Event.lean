import Inlay.Path.Basic

/-!
# Events

Every reference that is met in a document leaves an event behind: what was asked for, under which
reference, the path that the reference denotes, and what became of it.
-/

namespace Inlay

/-- What a reference asks for. -/
inductive Kind where
  | component
  | script
  | image
deriving DecidableEq, Repr

/-- The word for a kind. -/
def Kind.word : Kind → Text
  | .component => "component".toList
  | .script => "script".toList
  | .image => "image".toList

/-- What became of a reference. -/
inductive Status where
  /-- The file was put in its place. -/
  | inlined
  /-- There is no such file. -/
  | missing
  /-- The component is being expanded already. -/
  | circular
  /-- The reference is not to a file of the project and stays as it is. -/
  | skipped
deriving DecidableEq, Repr

/-- The word for a status. -/
def Status.word : Status → Text
  | .inlined => "inlined".toList
  | .missing => "missing".toList
  | .circular => "circular".toList
  | .skipped => "skipped".toList

/-- One reference and what became of it. -/
structure Event where
  kind : Kind
  reference : Text
  path : Option Path
  status : Status
deriving DecidableEq

end Inlay
