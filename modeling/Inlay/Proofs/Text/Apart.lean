import Mathlib.Data.List.Basic
import Mathlib.Data.List.Infix

/-!
# Parts that are apart

Two lists are apart (`Apart`) when neither of them stands in the other, and neither of them begins
with an end of the other.  Wherever both stand in one list, one of them stands behind the other
(`Apart.stands_before_or_behind`).
-/

namespace Inlay

/-- The lists `part` and `other` share no place of a list that holds both. -/
structure Apart {α : Type} (part other : List α) : Prop where
  not_infix : ¬ part <:+: other
  not_infix_of : ¬ other <:+: part
  not_prefix_of_suffix : ∀ shared, shared ≠ [] → shared <:+ part → ¬ shared <+: other
  not_suffix_of_prefix : ∀ shared, shared ≠ [] → shared <+: part → ¬ shared <:+ other

namespace Apart

variable {α β : Type} {part other front back before behind : List α}

/-- Lists are apart if their images are. -/
theorem of_map {f : α → β} (h : Apart (part.map f) (other.map f)) :
  Apart part other
  := by
  constructor
  · intro hwithin
    exact h.not_infix (hwithin.map f)
  · intro hwithin
    exact h.not_infix_of (hwithin.map f)
  · intro shared hne hends hbegins
    apply h.not_prefix_of_suffix (shared.map f) _ (hends.map f) (hbegins.map f)
    simpa using hne
  · intro shared hne hbegins hends
    apply h.not_suffix_of_prefix (shared.map f) _ (hbegins.map f) (hends.map f)
    simpa using hne

/-- Lists are apart if neither holds what the other one begins with. -/
theorem of_not_mem_cons {a b : α} (ha : a ∉ other) (hb : b ∉ part)
    (hpart : ∃ t, part = a :: t) (hother : ∃ t, other = b :: t) :
  Apart part other
  := by
  obtain ⟨t, rfl⟩ := hpart
  obtain ⟨u, rfl⟩ := hother
  constructor
  · intro hwithin
    exact ha (hwithin.subset List.mem_cons_self)
  · intro hwithin
    exact hb (hwithin.subset List.mem_cons_self)
  · rintro shared hne hends hbegins
    obtain ⟨c, shared, rfl⟩ := List.exists_cons_of_ne_nil hne
    obtain ⟨rfl, -⟩ := List.cons_prefix_cons.1 hbegins
    exact hb (hends.subset List.mem_cons_self)
  · rintro shared hne hbegins hends
    obtain ⟨c, shared, rfl⟩ := List.exists_cons_of_ne_nil hne
    obtain ⟨rfl, -⟩ := List.cons_prefix_cons.1 hbegins
    exact ha (hends.subset List.mem_cons_self)

/-- Where both stand in one list, one of them stands in front of the other. -/
theorem stands_before_or_behind
    (h : Apart part other) (heq : before ++ other ++ behind = front ++ part ++ back) :
  front ++ part <+: before ∨ part ++ back <:+ behind
  := by
  rw [List.append_assoc, List.append_assoc] at heq
  -- The cases are where the second one begins and ends, as seen from the first.
  rcases List.append_eq_append_iff.1 heq with ⟨x, rfl, hrest⟩ | ⟨x, rfl, hrest⟩
  · rcases List.append_eq_append_iff.1 hrest with ⟨y, rfl, rfl⟩ | ⟨y, rfl, hy⟩
    · exact .inr (List.suffix_append _ _)
    · cases y with
      | nil =>
        right
        rw [hy]
        apply List.suffix_refl
      | cons c y =>
        rcases List.append_eq_append_iff.1 hy with ⟨z, hz, -⟩ | ⟨z, rfl, -⟩
        · exfalso
          apply h.not_infix
          rw [hz]
          exact ⟨x, z, by simp⟩
        · exact absurd (List.suffix_append x _)
            (h.not_suffix_of_prefix (c :: y) (by simp) (List.prefix_append _ _))
  · rcases List.append_eq_append_iff.1 hrest with ⟨y, rfl, -⟩ | ⟨y, rfl, hy⟩
    · left
      rw [← List.append_assoc]
      apply List.prefix_append
    · cases y with
      | nil =>
        left
        simp
      | cons c y =>
        rcases List.append_eq_append_iff.1 hy with ⟨z, hz, -⟩ | ⟨z, rfl, -⟩
        · exfalso
          apply h.not_infix_of
          rw [hz]
          exact ⟨x, z, by simp⟩
        · exact absurd (List.prefix_append _ z)
            (h.not_prefix_of_suffix (c :: y) (by simp) (List.suffix_append x _))

end Apart

end Inlay
