import Inlay.Component.Token
import Inlay.Proofs.Text.Pattern

/-!
# References of component tokens

The reference of a token that stands in a text ends in `.comp`.
-/

namespace Inlay.Component

theorem namesComponent_of_match? {t rest : Text} {x : Token} (h : Token.match? t = some (x, rest)) :
  namesComponent x.inner = true
  := by
  unfold Token.match? at h
  split at h
  · split at h
    · simp only at h
      split at h
      · cases h
        assumption
      · cases h
    · cases h
  · cases h

/-- The tokens of a text name components. -/
theorem namesComponent_of_mem_pieces {t : Text} {x : Token} (h : .token x ∈ pieces t) :
  namesComponent x.inner = true
  := by
  obtain ⟨u, rest, hmatch⟩ := pattern.exists_match?_of_mem_pieces h
  exact namesComponent_of_match? hmatch

/-- The reference of a token that names a component ends in `.comp`. -/
theorem ending_isSuffix_reference {x : Token} (h : namesComponent x.inner = true) :
  ending <:+ x.reference
  := by
  simp only [namesComponent, Bool.and_eq_true, List.isSuffixOf_iff_suffix] at h
  have hblank : ending.all (fun c => ! Text.isBlank c) = true := by decide
  apply Text.isSuffix_trim h.1
  · decide
  · intro c hc
    simpa using List.all_eq_true.1 hblank c hc

end Inlay.Component
