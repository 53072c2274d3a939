import Inlay.Manifest.Check
import Inlay.Proofs.Schema.Meaning

/-!
# Lawful hosts

A host is lawful if its validator finds nothing exactly where the schema of manifests holds, as the
keywords of JSON Schema are documented.  Which of several violations it reports is left open; a host
that goes through the schema in order reports the first one, and is lawful (`GoesInOrder.isLawful`).
-/

namespace Inlay.Host

open Manifest (hostOf schema)

variable {host : Host}

/-- What is validated against the document of the schema of manifests is found to violate it exactly
if the schema does not hold. -/
def IsLawful (host : Host) : Prop :=
  ∀ v, host.validate schema.document v = none ↔ schema.Holds v

/-- What a lawful host accepts is what the check accepts. -/
theorem IsLawful.validate_eq_none_iff (h : host.IsLawful) {v : Json} :
  host.validate schema.document v = none ↔ schema.Accepts v
  := (h v).trans Schema.accepts_iff_holds.symm

/-- What is reported is the first violation, in the order of the schema of manifests. -/
def GoesInOrder (host : Host) : Prop :=
  ∀ v, host.validate schema.document v = schema.check v

/-- A host that goes through the schema in order is lawful. -/
theorem GoesInOrder.isLawful (h : host.GoesInOrder) :
  host.IsLawful
  := by
  intro v
  rw [h v]
  exact Schema.accepts_iff_holds

theorem goesInOrder_hostOf (maxDepth maxMissing : Nat) (h : 3 ≤ maxDepth) :
  (hostOf maxDepth maxMissing h).GoesInOrder
  := fun _ => rfl

/-- A host that goes through the schema in order, with limits that are just large enough for a
manifest beside the page. -/
def small : Host :=
  hostOf 3 1 (by decide)

theorem goesInOrder_small :
  small.GoesInOrder
  := goesInOrder_hostOf 3 1 (by decide)

end Inlay.Host
