import Inlay.Proofs.Json.Alike
import Inlay.Schema.Check

/-!
# What a schema accepts

A schema accepts a value if it has no violation in it.  What is accepted does not depend on the order
of members (`Accepts.of_alike`).  The first violation in an array is that of the first item that is
not accepted (`check_items_of_first`).
-/

namespace Inlay

open Json

/-- The value has no violation of the schema. -/
def Schema.Accepts (s : Schema) (v : Json) : Prop :=
  s.check v = none

/-! ### Keywords -/

theorem checkKeywords_eq_none_iff {within : Schema} {v : Json} {ks : List Keyword} :
  checkKeywords within v ks = none ↔ ∀ k ∈ ks, k.check within v = none
  := by
  induction ks with
  | nil => simp [checkKeywords]
  | cons k ks ih => rw [checkKeywords, Option.or_eq_none_iff, ih, List.forall_mem_cons]

theorem checkProperties_eq_none_iff
    {members : Members} {properties : List (Text × List Keyword)} :
  checkProperties members properties = none
    ↔ ∀ p ∈ properties, ∀ v, members.get? p.1 = some v → Schema.Accepts p.2 v
  := by
  induction properties with
  | nil => simp [checkProperties]
  | cons p properties ih =>
    obtain ⟨name, schema⟩ := p
    rw [checkProperties, Option.or_eq_none_iff, ih, List.forall_mem_cons]
    apply and_congr_left'
    cases h : Members.get? members name with
    | none => simp
    | some v => simp [Schema.Accepts, Schema.check]

theorem checkProperties_append (members : Members) (properties rest : List (Text × List Keyword)) :
  checkProperties members (properties ++ rest)
    = (checkProperties members properties).or (checkProperties members rest)
  := by
  induction properties with
  | nil => rw [List.nil_append, checkProperties, Option.none_or]
  | cons p properties ih =>
    obtain ⟨name, schema⟩ := p
    rw [List.cons_append, checkProperties, checkProperties, ih, Option.or_assoc]

theorem accepts_ref_iff {name : Text} {target : Schema} {v : Json} :
  Schema.Accepts [.ref name target] v ↔ target.Accepts v
  := by
  rw [Schema.Accepts, Schema.check, checkKeywords_eq_none_iff, List.forall_mem_singleton,
    Keyword.check]
  rfl

theorem check_items_eq_none_iff {within schema : Schema} {items : List Json} :
  (Keyword.items schema).check within (.arr items) = none
    ↔ ∀ v ∈ items, schema.Accepts v
  := by
  rw [Keyword.check, List.findSome?_eq_none_iff]
  constructor
  · intro h v hv
    obtain ⟨n, hn, rfl⟩ := List.getElem_of_mem hv
    simpa [Schema.Accepts, Schema.check] using h (items[n], n) (by simp [List.mem_zipIdx_iff_getElem?, hn])
  · rintro h ⟨v, n⟩ hv
    have hv := h v (List.mem_of_getElem? (List.mem_zipIdx_iff_getElem?.1 hv))
    rw [Schema.Accepts, Schema.check] at hv
    simp [hv]

/-! ### The order of members -/

theorem ValueKind.holds_of_alike {v w : Json} (h : Alike v w) (kind : ValueKind) :
  kind.holds v = kind.holds w
  := by
  cases h <;> cases kind <;> rfl

theorem isSome_get?_iff {members : Members} {key : Text} :
  (members.get? key).isSome = true ↔ key ∈ members.map Prod.fst
  := by
  simp [Members.get?, List.lookup_isSome_iff]

/-- Whether there is an additional member is a matter of the keys. -/
theorem any_isAdditional_iff {within : Schema} {members : Members} :
  members.any (isAdditional within) = true
    ↔ ∃ key, (members.get? key).isSome = true ∧ within.propertyNames.contains key = false
  := by
  rw [List.any_eq_true]
  constructor
  · rintro ⟨m, hm, hadditional⟩
    use m.1, isSome_get?_iff.2 (List.mem_map_of_mem hm)
    simpa [isAdditional] using hadditional
  · rintro ⟨key, hkey, hadditional⟩
    obtain ⟨m, hm, rfl⟩ := List.mem_map.1 (isSome_get?_iff.1 hkey)
    use m, hm
    simpa [isAdditional] using hadditional

/-- A keyword that holds no schemas does not depend on the order of members. -/
theorem Keyword.holdsPlainly_of_alike (within : Schema) {v w : Json} (h : Alike v w) (k : Keyword) :
  k.holdsPlainly within v = k.holdsPlainly within w
  := by
  cases k with
  | type kinds => simp only [holdsPlainly, ValueKind.holds_of_alike h]
  | noAdditional =>
    cases h with
    | @obj members members' hkeys _ =>
      have hany : members.any (isAdditional within) = members'.any (isAdditional within) := by
        rw [Bool.eq_iff_iff, any_isAdditional_iff, any_isAdditional_iff]
        simp only [hkeys]
      simp only [holdsPlainly, hany]
    | _ => rfl
  | required names =>
    cases h with
    | obj hkeys _ => simp only [holdsPlainly, hkeys]
    | _ => rfl
  | _ => cases h <;> rfl

/-- Whether a keyword holds no schemas and is no remark. -/
def Keyword.isPlain : Keyword → Bool
  | .type _ | .const _ | .enum _ | .minLength _ | .hexPattern _ | .noAdditional | .required _ => true
  | _ => false

theorem Keyword.check_of_isPlain {k : Keyword} (hk : k.isPlain) (within : Schema) (v : Json) :
  k.check within v = if k.holdsPlainly within v then none else some ⟨k, within, v, [], []⟩
  := by
  cases k with
  | type | const | enum | minLength | hexPattern | noAdditional | required => rfl
  | _ => cases hk

theorem Keyword.check_of_alike_of_isPlain
    {within : Schema} {k : Keyword} (hk : k.isPlain) {v w : Json} (h : Alike v w)
    (hv : k.check within v = none) :
  k.check within w = none
  := by
  rw [check_of_isPlain hk] at hv ⊢
  rw [← holdsPlainly_of_alike within h]
  split at hv
  case isTrue hplain => rw [if_pos hplain]
  case isFalse => cases hv

mutual

theorem Keyword.check_of_alike
    (within : Schema) (k : Keyword) {v w : Json} (h : Alike v w)
    (hv : k.check within v = none) :
  k.check within w = none
  := by
  match k with
  | .properties schemas =>
    cases h with
    | obj hkeys hvalues => exact checkProperties_of_alike schemas hkeys hvalues hv
    | _ => exact hv
  | .items schema =>
    cases h with
    | @arr items items' hlength hitems =>
      rw [check_items_eq_none_iff] at hv ⊢
      intro w hw
      obtain ⟨n, hn⟩ := List.mem_iff_getElem?.1 hw
      have hn' : n < items.length := by
        rw [hlength]
        exact (List.getElem?_eq_some_iff.1 hn).1
      have hitem := List.getElem?_eq_getElem hn'
      exact checkKeywords_of_alike schema schema (hitems n _ w hitem hn)
        (hv _ (List.mem_of_getElem? hitem))
    | _ => exact hv
  | .oneOf schemas =>
    rw [Keyword.check, countSatisfied_of_alike schemas h] at hv
    rw [Keyword.check]
    split at hv
    case isTrue hone => rw [if_pos hone]
    case isFalse => cases hv
  | .ifThen condition consequence =>
    rw [Keyword.check] at hv ⊢
    split
    case isTrue => rfl
    case isFalse hcondition =>
      -- The condition holds of the one value exactly if it holds of the other.
      have hw := Option.not_isSome_iff_eq_none.1 hcondition
      have hcondition' := checkKeywords_of_alike condition condition h.symm hw
      rw [hcondition'] at hv
      have hconsequence : checkKeywords consequence v consequence = none := by simpa using hv
      rw [checkKeywords_of_alike consequence consequence h hconsequence]
      rfl
  | .ref _ target =>
    rw [Keyword.check] at hv ⊢
    exact checkKeywords_of_alike target target h hv
  | .remark .. => rw [Keyword.check]
  | .definitions _ => rw [Keyword.check]
  | .type _ | .const _ | .enum _ | .minLength _ | .hexPattern _ | .noAdditional | .required _ =>
    exact Keyword.check_of_alike_of_isPlain rfl h hv

theorem checkKeywords_of_alike
    (within : Schema) (ks : List Keyword) {v w : Json} (h : Alike v w)
    (hv : checkKeywords within v ks = none) :
  checkKeywords within w ks = none
  := by
  match ks with
  | [] => rw [checkKeywords]
  | k :: ks =>
    rw [checkKeywords, Option.or_eq_none_iff] at hv ⊢
    exact ⟨Keyword.check_of_alike within k h hv.1, checkKeywords_of_alike within ks h hv.2⟩

theorem checkProperties_of_alike
    (properties : List (Text × List Keyword)) {members members' : Members}
    (hkeys : ∀ key, (members.get? key).isSome = (members'.get? key).isSome)
    (h : ∀ key v v', members.get? key = some v → members'.get? key = some v' → Alike v v')
    (hv : checkProperties members properties = none) :
  checkProperties members' properties = none
  := by
  match properties with
  | [] => rw [checkProperties]
  | (name, schema) :: rest =>
    rw [checkProperties, Option.or_eq_none_iff] at hv ⊢
    obtain ⟨hfirst, hrest⟩ := hv
    use ?_, checkProperties_of_alike rest hkeys h hrest
    have hname := hkeys name
    cases hv' : Members.get? members' name with
    | none => rfl
    | some v' =>
      rw [hv', Option.isSome_some, Option.isSome_iff_exists] at hname
      obtain ⟨v, hv⟩ := hname
      rw [hv] at hfirst
      have hschema : checkKeywords schema v schema = none := by simpa using hfirst
      dsimp only
      rw [checkKeywords_of_alike schema schema (h name v v' hv hv') hschema]
      rfl

theorem countSatisfied_of_alike (schemas : List (List Keyword)) {v w : Json} (h : Alike v w) :
  countSatisfied v schemas = countSatisfied w schemas
  := by
  match schemas with
  | [] => rw [countSatisfied, countSatisfied]
  | schema :: rest =>
    have hschema : (checkKeywords schema v schema).isNone = (checkKeywords schema w schema).isNone := by
      rw [Bool.eq_iff_iff, Option.isNone_iff_eq_none, Option.isNone_iff_eq_none]
      exact ⟨checkKeywords_of_alike schema schema h, checkKeywords_of_alike schema schema h.symm⟩
    rw [countSatisfied, countSatisfied, hschema, countSatisfied_of_alike rest h]

end

/-- What a schema accepts it accepts in any order of members. -/
theorem Schema.Accepts.of_alike {s : Schema} {v w : Json} (hv : s.Accepts v) (h : Alike v w) :
  s.Accepts w
  := checkKeywords_of_alike s s h hv

/-! ### The first violation -/

/-- An item is the first to be violated if those before it are satisfied. -/
theorem check_items_of_first
    {within schema : Schema} {items : List Json} {n : Nat} {v : Json} {violation : Violation}
    (hbefore : ∀ i < n, ∀ u, items[i]? = some u → schema.Accepts u) (hn : items[n]? = some v)
    (h : schema.check v = some violation) :
  (Keyword.items schema).check within (.arr items)
    = some ((violation.within (.index n)).below [.key "items".toList])
  := by
  have hcheck : checkKeywords schema v schema = some violation := h
  obtain ⟨hlt, hv⟩ := List.getElem?_eq_some_iff.1 hn
  have hsplit : items = items.take n ++ v :: items.drop (n + 1) := by
    rw [← hv, ← List.drop_eq_getElem_cons hlt, List.take_append_drop]
  have hlength : (items.take n).length = n := by
    rw [List.length_take]
    omega
  rw [Keyword.check, List.findSome?_eq_some_iff]
  use (items.take n).zipIdx, (v, n), (items.drop (n + 1)).zipIdx (n + 1)
  refine ⟨?_, ?_, ?_⟩
  · conv => lhs; rw [hsplit]
    rw [List.zipIdx_append, List.zipIdx_cons, hlength, Nat.zero_add]
  · simp [hcheck]
  · rintro ⟨u, i⟩ hu
    have hu := List.mem_zipIdx_iff_getElem?.1 hu
    rw [List.getElem?_take] at hu
    split at hu
    case isTrue hi =>
      have haccepts : checkKeywords schema u schema = none := hbefore i hi u hu
      simp [haccepts]
    case isFalse => cases hu

end Inlay
