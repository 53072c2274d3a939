import Inlay.Json.Mapping
import Inlay.Proofs.Json.Numeral

/-!
# Pairs

What is taken for a mapping, and is no object, is a sequence of pairs (`mapping_eq_ok_iff`).  The
pairs are given to the mapping one after another, so the last value of a key is the one that counts
(`get?_putAll_nil`).
-/

namespace Inlay.Json

/-- An item that is taken for a pair of a key and a value: two characters, an array of two, or the
keys of an object with two members. -/
inductive IsPair : Json → Text → Json → Prop
  | text {c d} : IsPair (.str [c, d]) [c] (.str [d])
  | array {k t v} (h : keyText k = .ok t) : IsPair (.arr [k, v]) t v
  | object {key u key' u'} : IsPair (.obj [(key, u), (key', u')]) key (.str key')

theorem isPair_iff {item v : Json} {t : Text} :
  IsPair item t v ↔ ∃ k, item.sequence? = some [k, v] ∧ keyText k = .ok t
  := by
  constructor
  · rintro (_ | h | _)
    · exact ⟨_, rfl, rfl⟩
    · exact ⟨_, rfl, h⟩
    · exact ⟨_, rfl, rfl⟩
  · rintro ⟨k, hitem, hk⟩
    cases item with
    | str s =>
      have hlength : s.length = 2 := by simpa using congrArg List.length (Option.some.inj hitem)
      obtain ⟨c, d, rfl⟩ := List.length_eq_two.1 hlength
      cases hitem
      cases hk
      exact .text
    | arr items =>
      cases hitem
      exact .array hk
    | obj members =>
      have hlength : members.length = 2 := by
        simpa using congrArg List.length (Option.some.inj hitem)
      obtain ⟨m, m', rfl⟩ := List.length_eq_two.1 hlength
      cases hitem
      cases hk
      exact .object
    | _ => cases hitem

/-- A key that is no text is spelled as a word or as a number. -/
theorem eq_str_of_keyText {k : Json} {t : Text} (h : keyText k = .ok t) (hk : Spelled k)
    (hwords : t ∉ ["null".toList, "true".toList, "false".toList]) (hnumeral : ¬ IsNumeral t) :
  k = .str t
  := by
  cases hk with
  | str =>
    cases h
    rfl
  | null =>
    cases h
    exact absurd (by decide) hwords
  | @bool b =>
    cases h
    cases b <;> exact absurd (by decide) hwords
  | @int n =>
    have ht : ofInt n = t := by simpa [keyText, layout] using h
    obtain ⟨c, cs, hc, heq⟩ := exists_ofInt_eq_cons n
    rw [← ht, heq] at hnumeral
    exact absurd ⟨c, rfl, hc.imp_right fun hc => by simp [hc]⟩ hnumeral
  | @real spelling hspelling =>
    have ht : spelling = t := by simpa [keyText, layout] using h
    rw [ht] at hspelling
    exact absurd hspelling hnumeral
  | arr | obj => cases h

/-! ### Giving pairs to a mapping -/

/-- Gives pairs to a mapping, one after another. -/
def Members.putAll (members pairs : Members) : Members :=
  pairs.foldl (fun members p => members.put p.1 p.2) members

theorem get?_cons (k : Text) (u : Json) (members : Members) (key : Text) :
  Members.get? ((k, u) :: members) key = if key = k then some u else members.get? key
  := by
  rw [Members.get?, List.lookup_cons]
  by_cases h : key = k
  · simp [h]
  · rw [beq_eq_false_iff_ne.2 h, if_neg h]
    rfl

theorem get?_put (members : Members) (key : Text) (v : Json) (key' : Text) :
  (members.put key v).get? key' = if key' = key then some v else members.get? key'
  := by
  induction members with
  | nil => exact get?_cons key v [] key'
  | cons m members ih =>
    obtain ⟨k, u⟩ := m
    rw [Members.put]
    split
    case isTrue hsame =>
      obtain rfl := Text.same_iff.1 hsame
      rw [get?_cons, get?_cons]
      split <;> rfl
    case isFalse hsame =>
      have hk : k ≠ key := fun hk => hsame (Text.same_iff.2 hk)
      rw [get?_cons, get?_cons, ih]
      by_cases h : key' = k
      · rw [if_pos h, if_pos h, if_neg (h ▸ hk)]
      · rw [if_neg h, if_neg h]

/-- The last of the pairs with a key gives its value. -/
theorem get?_putAll (members pairs : Members) (key : Text) :
  (members.putAll pairs).get? key = (Members.get? pairs.reverse key).or (members.get? key)
  := by
  induction pairs generalizing members with
  | nil => rfl
  | cons p pairs ih =>
    have hput : members.putAll (p :: pairs) = (members.put p.1 p.2).putAll pairs := rfl
    have hlast : Members.get? (p :: pairs).reverse key
        = (Members.get? pairs.reverse key).or (if key = p.1 then some p.2 else none) := by
      rw [List.reverse_cons, Members.get?, List.lookup_append]
      exact congrArg _ (get?_cons p.1 p.2 [] key)
    rw [hput, ih, get?_put, hlast, Option.or_assoc]
    split <;> rfl

/-- A mapping that is made of pairs gives each key the value of the last pair with it. -/
theorem get?_putAll_nil (pairs : Members) (key : Text) :
  (Members.putAll [] pairs).get? key = Members.get? pairs.reverse key
  := by
  rw [get?_putAll]
  exact Option.or_none

/-- Items are given to a mapping as the pairs for which they are taken. -/
theorem putPairs_eq_ok_iff {members members' : Members} {index : Nat} {items : List Json} :
  putPairs members index items = .ok members'
    ↔ ∃ pairs, List.Forall₂ (fun item p => IsPair item p.1 p.2) items pairs
      ∧ members.putAll pairs = members'
  := by
  induction items generalizing members index with
  | nil => simp [putPairs, Members.putAll]
  | cons item items ih =>
    constructor
    · intro h
      rw [putPairs] at h
      split at h
      case h_1 => cases h
      case h_3 => cases h
      case h_2 k v hitem =>
        split at h
        case h_2 => cases h
        case h_1 t hk =>
          obtain ⟨pairs, hpairs, hall⟩ := ih.1 h
          exact ⟨(t, v) :: pairs, .cons (isPair_iff.2 ⟨k, hitem, hk⟩) hpairs, hall⟩
    · rintro ⟨_, _ | ⟨hitem, hpairs⟩, hall⟩
      obtain ⟨k, hsequence, hk⟩ := isPair_iff.1 hitem
      rw [putPairs, hsequence]
      dsimp only
      rw [hk]
      exact ih.2 ⟨_, hpairs, hall⟩

/-- A value is taken for a mapping if it is an object or an array of pairs, or the empty text. -/
theorem mapping_eq_ok_iff {v : Json} {members : Members} :
  v.mapping = .ok members
    ↔ v = .obj members ∨ (v = .str [] ∧ members = [])
      ∨ ∃ items pairs, v = .arr items
        ∧ List.Forall₂ (fun item p => IsPair item p.1 p.2) items pairs
        ∧ Members.putAll [] pairs = members
  := by
  cases v with
  | obj members' => simp [mapping]
  | arr items =>
    rw [mapping, sequence?]
    · simp [putPairs_eq_ok_iff]
    · simp
  | str t =>
    cases t with
    | nil => simp [mapping, sequence?, putPairs, eq_comm]
    | cons c t => simp [mapping, sequence?, putPairs]
  | _ => simp [mapping, sequence?]

end Inlay.Json
