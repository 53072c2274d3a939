import Inlay.Schema.Check

/-!
# Hosts

What a build relies on beside the disk: a validator, which reports what of a value violates the
schema of a document, and how deep calls may be nested.  A host is given from outside, and what is
proved holds for every host, or for every lawful one.
-/

namespace Inlay

/-- What the program runs on. -/
structure Host where
  /-- What is reported of a value that is validated against the document of a schema. -/
  validate : Json → Json → Option Violation
  /-- The most containers that may be open within one another in a document that is read. -/
  maxDepth : Nat
  /-- There have to be fewer directories than this that are missing above a file that is written. -/
  maxMissing : Nat
  /-- Calls may be nested deep enough to read a manifest. -/
  three_le_maxDepth : 3 ≤ maxDepth

end Inlay
