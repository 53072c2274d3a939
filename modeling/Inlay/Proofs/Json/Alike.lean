import Inlay.Proofs.Json.RoundTrip

/-!
# Values up to the order of members

Two values are alike if they differ at most in the order of the members of their objects: the same
keys have values that are alike.  A value is like its sorted form (`alike_sorted`), so what is read
back from a document is like what was written.
-/

namespace Inlay.Json

/-- Values that differ at most in the order of members. -/
inductive Alike : Json → Json → Prop
  | null : Alike .null .null
  | bool {b} : Alike (.bool b) (.bool b)
  | int {n} : Alike (.int n) (.int n)
  | real {spelling} : Alike (.real spelling) (.real spelling)
  | str {t} : Alike (.str t) (.str t)
  | arr {items items'} (hlength : items.length = items'.length)
    (h : ∀ (n : Nat) v v', items[n]? = some v → items'[n]? = some v' → Alike v v') :
    Alike (.arr items) (.arr items')
  | obj {members members' : Members}
    (hkeys : ∀ key, (members.get? key).isSome = (members'.get? key).isSome)
    (h : ∀ key v v', members.get? key = some v → members'.get? key = some v' → Alike v v') :
    Alike (.obj members) (.obj members')

theorem Alike.symm {v w : Json} (h : Alike v w) :
  Alike w v
  := by
  induction h with
  | null => exact .null
  | bool => exact .bool
  | int => exact .int
  | real => exact .real
  | str => exact .str
  | arr hlength _ ih =>
    apply Alike.arr hlength.symm
    intro n v' v hv' hv
    exact ih n v v' hv hv'
  | obj hkeys _ ih =>
    apply Alike.obj fun key => (hkeys key).symm
    intro key v' v hv' hv
    exact ih key v v' hv hv'

theorem Alike.eq_str {t : Text} {v : Json} (h : Alike (.str t) v) :
  v = .str t
  := by
  cases h
  rfl

theorem Alike.eq_null {v : Json} (h : Alike .null v) :
  v = .null
  := by
  cases h
  rfl

/-- What is like an array has as many items, which are alike. -/
theorem Alike.exists_eq_arr {items : List Json} {v : Json} (h : Alike (.arr items) v) :
  ∃ items', v = .arr items' ∧ items.length = items'.length
    ∧ ∀ (n : Nat) u u', items[n]? = some u → items'[n]? = some u' → Alike u u'
  := by
  cases h with
  | arr hlength h => exact ⟨_, rfl, hlength, h⟩

/-! ### Values of keys -/

/-- Where no key comes twice, the value of a key is that of any member with the key. -/
theorem get?_eq_some_iff
    {members : Members} (hkeys : (members.map Prod.fst).Nodup) {key : Text} {v : Json} :
  members.get? key = some v ↔ (key, v) ∈ members
  := by
  induction members with
  | nil => simp [Members.get?]
  | cons m members ih =>
    obtain ⟨k, u⟩ := m
    rw [List.map_cons, List.nodup_cons] at hkeys
    obtain ⟨hk, hkeys⟩ := hkeys
    by_cases h : key = k
    · subst h
      have hnot : (key, v) ∉ members := fun hmem => hk (List.mem_map.2 ⟨(key, v), hmem, rfl⟩)
      rw [Members.get?, List.lookup_cons_self]
      simp [hnot, eq_comm]
    · rw [Members.get?, List.lookup_cons, beq_eq_false_iff_ne.2 h]
      simpa [h, Members.get?] using ih hkeys

/-- Sorting keeps the values of all keys and sorts them. -/
theorem get?_sortMembers
    {members : Members} (hkeys : (members.map Prod.fst).Nodup) (key : Text) :
  (sortMembers members).get? key = (members.get? key).map sorted
  := by
  have hkeys' : ((sortMembers members).map Prod.fst).Nodup :=
    (keys_sortMembers_perm members).nodup_iff.2 hkeys
  apply Option.ext
  intro w
  rw [get?_eq_some_iff hkeys', (sortMembers_perm members).mem_iff, List.mem_map,
    Option.map_eq_some_iff]
  constructor
  · rintro ⟨m, hm, heq⟩
    cases heq
    exact ⟨m.2, (get?_eq_some_iff hkeys).2 hm, rfl⟩
  · rintro ⟨v, hv, rfl⟩
    exact ⟨(key, v), (get?_eq_some_iff hkeys).1 hv, rfl⟩

/-- A value that is read back is like what was written. -/
theorem Readable.alike_sorted {room : Nat} {v : Json} (hv : Readable room v) :
  Alike v.sorted v
  := by
  induction hv with
  | null => exact .null
  | bool => exact .bool
  | int => exact .int
  | str => exact .str
  | @arr _ items _ ih =>
    rw [sorted_arr]
    apply Alike.arr (by rw [List.length_map])
    intro n w v hw hv
    rw [List.getElem?_map, hv] at hw
    cases hw
    exact ih v (List.mem_of_getElem? hv)
  | @obj _ members hkeys _ ih =>
    rw [sorted_obj]
    apply Alike.obj
    · intro key
      rw [get?_sortMembers hkeys, Option.isSome_map]
    · intro key w v hw hv
      rw [get?_sortMembers hkeys, hv] at hw
      cases hw
      exact ih (key, v) ((get?_eq_some_iff hkeys).1 hv)

/-- Values that are alike have values that are alike at a key. -/
theorem Alike.get? {v w u : Json} {key : Text} (h : Alike v w) (hu : v.get? key = some u) :
  ∃ u', w.get? key = some u' ∧ Alike u u'
  := by
  cases h with
  | obj hkeys h =>
    have hu : Members.get? _ key = some u := hu
    have hsome := hkeys key
    rw [hu, Option.isSome_some, eq_comm, Option.isSome_iff_exists] at hsome
    obtain ⟨u', hu'⟩ := hsome
    exact ⟨u', hu', h key u u' hu hu'⟩
  | null => cases hu
  | bool => cases hu
  | int => cases hu
  | real => cases hu
  | str => cases hu
  | arr => cases hu

end Inlay.Json
