import Inlay.Proofs.Json.Alike

/-!
# One layout for each value

The stable layout does not depend on the order in which members came, and values that are not alike
have different layouts (`print_eq_iff_alike`).  Of two keys one comes before the other, so where no
key comes twice the members stand in one order only, whatever order they came in.
-/

namespace Inlay.Json

/-! ### The order of keys -/

theorem keyLe_cons_iff {c d : Char} {cs ds : Text} :
  keyLe (c :: cs) (d :: ds) = true ↔ c < d ∨ c = d ∧ keyLe cs ds = true
  := by
  simp [keyLe]

theorem keyLe_trans {a b c : Text} (hab : keyLe a b = true) (hbc : keyLe b c = true) :
  keyLe a c = true
  := by
  induction a generalizing b c with
  | nil => rfl
  | cons x xs ih =>
    cases b with
    | nil => cases hab
    | cons y ys =>
      cases c with
      | nil => cases hbc
      | cons z zs =>
        rw [keyLe_cons_iff] at hab hbc ⊢
        rcases hab with hxy | ⟨rfl, hxy⟩
        · rcases hbc with hyz | ⟨rfl, hyz⟩
          · exact .inl (Char.lt_trans hxy hyz)
          · exact .inl hxy
        · exact hbc.imp_right fun hyz => ⟨hyz.1, ih hxy hyz.2⟩

/-- Of two keys one comes before the other. -/
theorem keyLe_total (a b : Text) :
  keyLe a b = true ∨ keyLe b a = true
  := by
  induction a generalizing b with
  | nil => exact .inl rfl
  | cons x xs ih =>
    cases b with
    | nil => exact .inr rfl
    | cons y ys =>
      rw [keyLe_cons_iff, keyLe_cons_iff]
      by_cases heq : x = y
      · subst heq
        exact (ih ys).imp (fun h => .inr ⟨rfl, h⟩) fun h => .inr ⟨rfl, h⟩
      · by_contra hnone
        simp only [not_or, Char.not_lt] at hnone
        exact heq (Char.le_antisymm hnone.2.1 hnone.1.1)

theorem keyLe_antisymm {a b : Text} (hab : keyLe a b = true) (hba : keyLe b a = true) :
  a = b
  := by
  induction a generalizing b with
  | nil =>
    cases b with
    | nil => rfl
    | cons => cases hba
  | cons x xs ih =>
    cases b with
    | nil => cases hab
    | cons y ys =>
      rw [keyLe_cons_iff] at hab hba
      rcases hab with hxy | ⟨rfl, hxy⟩
      · rcases hba with hyx | ⟨rfl, -⟩
        · exact absurd hyx (Char.lt_asymm hxy)
        · exact absurd hxy (Char.lt_irrefl _)
      · rcases hba with hyx | ⟨-, hyx⟩
        · exact absurd hyx (Char.lt_irrefl _)
        · rw [ih hxy hyx]

/-- Members that have been sorted stand in the order of their keys. -/
theorem pairwise_sortMembers (members : Members) :
  (sortMembers members).Pairwise fun m n => keyLe m.1 n.1 = true
  := by
  apply List.pairwise_mergeSort
  · intro a b c hab hbc
    exact keyLe_trans hab hbc
  · intro a b
    rw [Bool.or_eq_true]
    apply keyLe_total

/-- Members whose keys have the same values when they are sorted stand in the same order then. -/
theorem sortMembers_eq_of_get?_eq
    {members members' : Members} (hkeys : (members.map Prod.fst).Nodup)
    (hkeys' : (members'.map Prod.fst).Nodup)
    (h : ∀ key, (sortMembers members).get? key = (sortMembers members').get? key) :
  sortMembers members = sortMembers members'
  := by
  have hnodup : ((sortMembers members).map Prod.fst).Nodup :=
    (keys_sortMembers_perm members).nodup_iff.2 hkeys
  have hnodup' : ((sortMembers members').map Prod.fst).Nodup :=
    (keys_sortMembers_perm members').nodup_iff.2 hkeys'
  have hmem : ∀ m, m ∈ sortMembers members ↔ m ∈ sortMembers members' := by
    rintro ⟨key, v⟩
    rw [← get?_eq_some_iff hnodup, ← get?_eq_some_iff hnodup', h]
  have hperm : (sortMembers members).Perm (sortMembers members') :=
    (List.perm_ext_iff_of_nodup hnodup.of_map hnodup'.of_map).2 hmem
  refine hperm.eq_of_pairwise ?_ (pairwise_sortMembers members) (pairwise_sortMembers members')
  -- A key comes once only, so members with the same key are the same.
  rintro ⟨key, v⟩ ⟨key', v'⟩ hv hv' hle hle'
  obtain rfl : key = key' := keyLe_antisymm hle hle'
  rw [← get?_eq_some_iff hnodup] at hv
  rw [← hmem, ← get?_eq_some_iff hnodup, hv] at hv'
  cases hv'
  rfl

/-! ### Layouts of values that are alike -/

/-- Values that are alike are the same when they are sorted. -/
theorem Alike.sorted_eq
    {room room' : Nat} {v w : Json} (h : Alike v w) (hv : Readable room v) (hw : Readable room' w) :
  v.sorted = w.sorted
  := by
  induction h generalizing room room' with
  | null => rfl
  | bool => rfl
  | int => rfl
  | real => rfl
  | str => rfl
  | @arr items items' hlength _ ih =>
    cases hv with
    | arr hv =>
      cases hw with
      | arr hw =>
        rw [sorted_arr, sorted_arr]
        apply congrArg
        apply List.ext_getElem (by simpa using hlength)
        intro n hn hn'
        rw [List.length_map] at hn hn'
        rw [List.getElem_map, List.getElem_map]
        exact ih n _ _ (List.getElem?_eq_getElem hn) (List.getElem?_eq_getElem hn')
          (hv _ (List.getElem_mem hn)) (hw _ (List.getElem_mem hn'))
  | @obj members members' hsome h ih =>
    cases hv with
    | obj hkeys hv =>
      cases hw with
      | obj hkeys' hw =>
        rw [sorted_obj, sorted_obj]
        apply congrArg
        apply sortMembers_eq_of_get?_eq hkeys hkeys'
        intro key
        rw [get?_sortMembers hkeys, get?_sortMembers hkeys']
        cases hget : members.get? key with
        | none =>
          have hnone : members'.get? key = none := by
            rw [← Option.isNone_iff_eq_none, ← Option.not_isSome, ← hsome key, hget]
            rfl
          rw [hnone]
        | some v =>
          have hobj : Alike (.obj members) (.obj members') := .obj hsome h
          obtain ⟨v', hv', -⟩ := hobj.get? hget
          have hget' : members'.get? key = some v' := hv'
          rw [hget', Option.map_some, Option.map_some]
          apply congrArg
          exact ih key v v' hget hget' (hv _ ((get?_eq_some_iff hkeys).1 hget))
            (hw _ ((get?_eq_some_iff hkeys').1 hget'))

theorem Alike.trans {u v w : Json} (huv : Alike u v) (hvw : Alike v w) :
  Alike u w
  := by
  induction huv generalizing w with
  | null => exact hvw
  | bool => exact hvw
  | int => exact hvw
  | real => exact hvw
  | str => exact hvw
  | @arr items items' hlength _ ih =>
    cases hvw with
    | @arr _ items'' hlength' h' =>
      apply Alike.arr (hlength.trans hlength')
      intro n x z hx hz
      have hn : n < items'.length := by
        rw [← hlength]
        exact (List.getElem?_eq_some_iff.1 hx).1
      have hy := List.getElem?_eq_getElem hn
      exact ih n x _ hx hy (h' n _ z hy hz)
  | @obj members members' hkeys h ih =>
    cases hvw with
    | @obj _ members'' hkeys' h' =>
      apply Alike.obj fun key => (hkeys key).trans (hkeys' key)
      intro key x z hx hz
      have hobj : Alike (.obj members) (.obj members') := .obj hkeys h
      obtain ⟨y, hy, -⟩ := hobj.get? hx
      exact ih key x y hx hy (h' key y z hy hz)

section

variable {room : Nat} {members members' : Members}

/-- The order of members does not matter to whether an object is read back. -/
theorem Readable.of_perm (hv : Readable room (.obj members)) (hperm : members.Perm members') :
  Readable room (.obj members')
  := by
  cases hv with
  | obj hkeys hv =>
    apply Readable.obj ((hperm.map Prod.fst).nodup_iff.1 hkeys)
    intro m hm
    exact hv m (hperm.mem_iff.2 hm)

/-- Objects whose members come in another order are alike. -/
theorem Readable.alike_of_perm (hv : Readable room (.obj members)) (hperm : members.Perm members') :
  Alike (.obj members) (.obj members')
  := by
  cases hv with
  | obj hkeys hv =>
    have hget : ∀ key, members.get? key = members'.get? key := by
      intro key
      apply Option.ext
      intro v
      have hkeys' : (members'.map Prod.fst).Nodup := (hperm.map Prod.fst).nodup_iff.1 hkeys
      rw [get?_eq_some_iff hkeys, get?_eq_some_iff hkeys', hperm.mem_iff]
    apply Alike.obj fun key => by rw [hget]
    intro key v v' hv₁ hv₂
    rw [hget, hv₂] at hv₁
    cases hv₁
    have hmem := (get?_eq_some_iff hkeys).1 ((hget key).trans hv₂)
    have hsorted := (hv _ hmem).alike_sorted
    exact hsorted.symm.trans hsorted

end

/-- Values have the same layout exactly if they are alike. -/
theorem print_eq_iff_alike
    {room : Nat} {v w : Json} (hv : Readable room v) (hw : Readable room w) :
  v.print = w.print ↔ Alike v w
  := by
  constructor
  · intro h
    have hsorted : v.sorted = w.sorted := by
      have hread := read_print hv (Nat.le_refl room)
      rw [h, read_print hw (Nat.le_refl room)] at hread
      exact (Except.ok.inj hread).symm
    have hmiddle := hv.alike_sorted.symm
    rw [hsorted] at hmiddle
    exact hmiddle.trans hw.alike_sorted
  · intro h
    rw [print, print, h.sorted_eq hv hw]

end Inlay.Json
