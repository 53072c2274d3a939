import Inlay.Proofs.Schema.Check

/-!
# What a schema says

`Keyword.Holds` says what each keyword asks of a value, and `Schema.Holds` what a schema does.  What
asks for all members of which it speaks, and for no others, asks for a record
(`keywordsHold_record_iff`).  The check finds no violation exactly where the schema holds
(`Schema.accepts_iff_holds`).  A violation that it finds is a fault (`Schema.fault_of_check`): the
schema asks something of the part of the value to which the path of the violation leads, by a keyword
that does not hold there.
-/

namespace Inlay

open Json

/-! ### Keywords -/

/-- A text is a number of lower case hexadecimal digits; one line feed may follow. -/
def IsHex (digits : Nat) (t : Text) : Prop :=
  ∃ front : Text, front.length = digits ∧ (∀ c ∈ front, c ∈ "0123456789abcdef".toList)
    ∧ (t = front ∨ t = front ++ ['\n'])

mutual

/-- What a keyword asks of a value.  It may depend on the schema in which the keyword stands. -/
def Keyword.Holds (within : Schema) (v : Json) : Keyword → Prop
  | .type kinds => ∃ kind ∈ kinds, kind.holds v
  | .const t => v = .str t
  | .enum texts => ∃ t ∈ texts, v = .str t
  | .minLength n => ∀ t, v = .str t → n ≤ t.length
  | .hexPattern digits => ∀ t, v = .str t → IsHex digits t
  | .noAdditional => ∀ members, v = .obj members → ∀ m ∈ members, m.1 ∈ within.propertyNames
  | .required names => ∀ members, v = .obj members → ∀ name ∈ names, name ∈ members.map Prod.fst
  | .properties schemas => ∀ members, v = .obj members → PropertiesHold members schemas
  | .items schema => ∀ items, v = .arr items → ∀ u ∈ items, KeywordsHold schema u schema
  | .oneOf schemas => OneHolds v schemas
  | .ifThen condition consequence =>
    KeywordsHold condition v condition → KeywordsHold consequence v consequence
  | .ref _ target => KeywordsHold target v target
  | .remark .. => True
  | .definitions _ => True

/-- All of the keywords hold. -/
def KeywordsHold (within : Schema) (v : Json) : List Keyword → Prop
  | [] => True
  | k :: ks => k.Holds within v ∧ KeywordsHold within v ks

/-- The schemas hold of the members of their names, as far as these are there. -/
def PropertiesHold (members : Members) : List (Text × List Keyword) → Prop
  | [] => True
  | (name, schema) :: rest =>
    (∀ u, members.get? name = some u → KeywordsHold schema u schema) ∧ PropertiesHold members rest

/-- Exactly one of the schemas holds. -/
def OneHolds (v : Json) : List (List Keyword) → Prop
  | [] => False
  | schema :: rest =>
    (KeywordsHold schema v schema ∧ NoneHolds v rest)
      ∨ (¬ KeywordsHold schema v schema ∧ OneHolds v rest)

/-- None of the schemas holds. -/
def NoneHolds (v : Json) : List (List Keyword) → Prop
  | [] => True
  | schema :: rest => ¬ KeywordsHold schema v schema ∧ NoneHolds v rest

end

/-- What a schema asks of a value: all that its keywords do. -/
def Schema.Holds (s : Schema) (v : Json) : Prop :=
  KeywordsHold s v s

theorem keywordsHold_iff {within : Schema} {v : Json} {ks : List Keyword} :
  KeywordsHold within v ks ↔ ∀ k ∈ ks, k.Holds within v
  := by
  induction ks with
  | nil => simp [KeywordsHold]
  | cons k ks ih => rw [KeywordsHold, ih, List.forall_mem_cons]

theorem propertiesHold_iff {members : Members} {schemas : List (Text × List Keyword)} :
  PropertiesHold members schemas
    ↔ ∀ p ∈ schemas, ∀ u, members.get? p.1 = some u → Schema.Holds p.2 u
  := by
  induction schemas with
  | nil => simp [PropertiesHold]
  | cons p schemas ih =>
    rw [PropertiesHold, ih, List.forall_mem_cons]
    rfl

namespace Schema

/-- A schema of one keyword asks what the keyword does. -/
theorem holds_singleton_iff {k : Keyword} {v : Json} :
  Holds [k] v ↔ k.Holds [k] v
  := by
  rw [Holds, keywordsHold_iff, List.forall_mem_singleton]

theorem holds_const (t : Text) :
  Holds [.const t] = fun v => v = .str t
  := by
  funext v
  rw [holds_singleton_iff, Keyword.Holds]

theorem holds_ref (name : Text) (target : Schema) :
  Holds [.ref name target] = target.Holds
  := by
  funext v
  rw [holds_singleton_iff, Keyword.Holds, Holds]

theorem holds_oneOf_pair_iff {s s' : Schema} {v : Json} :
  Holds [.oneOf [s, s']] v
    ↔ (s.Holds v ∧ ¬ s'.Holds v) ∨ (¬ s.Holds v ∧ s'.Holds v)
  := by
  rw [holds_singleton_iff, Keyword.Holds]
  simp only [OneHolds, NoneHolds, Holds, and_true, and_false, or_false]

/-- A schema of one property asks for what the property does, if it is there. -/
theorem holds_property_iff {name : Text} {s : Schema} {v : Json} :
  Holds [.properties [(name, s)]] v ↔ ∀ u, v.get? name = some u → s.Holds u
  := by
  rw [holds_singleton_iff, Keyword.Holds]
  simp only [propertiesHold_iff, List.forall_mem_singleton]
  cases v <;> simp [get?]

end Schema

theorem keywordsHold_remark_cons_iff
    {within : Schema} {v : Json} {name text : Text} {ks : List Keyword} :
  KeywordsHold within v (.remark name text :: ks) ↔ KeywordsHold within v ks
  := by
  rw [KeywordsHold, Keyword.Holds, true_and]

/-! ### Records -/

/-- An object whose keys are exactly those of the fields, each with a value as the field asks. -/
def IsRecord (fields : List (Text × (Json → Prop))) (v : Json) : Prop :=
  ∃ members, v = .obj members ∧ (∀ key, key ∈ members.map Prod.fst ↔ key ∈ fields.map Prod.fst)
    ∧ ∀ f ∈ fields, ∃ u, Members.get? members f.1 = some u ∧ f.2 u

/-- A record has the members of which its fields speak. -/
theorem IsRecord.exists_get?
    {fields : List (Text × (Json → Prop))} {v : Json} (h : IsRecord fields v) {name : Text}
    {P : Json → Prop} (hfield : (name, P) ∈ fields) :
  ∃ u, v.get? name = some u ∧ P u
  := by
  obtain ⟨members, rfl, -, hfields⟩ := h
  exact hfields _ hfield

/-- Whether members are a record depends on the values of their keys alone. -/
theorem IsRecord.of_get?_eq
    {fields : List (Text × (Json → Prop))} {members members' : Members}
    (h : ∀ key, members.get? key = members'.get? key) (hrecord : IsRecord fields (.obj members)) :
  IsRecord fields (.obj members')
  := by
  obtain ⟨_, ⟨⟩, hkeys, hfields⟩ := hrecord
  refine ⟨members', rfl, ?_, ?_⟩
  · intro key
    rw [← hkeys, ← isSome_get?_iff, ← isSome_get?_iff, h]
  · intro f hf
    rw [← h]
    exact hfields f hf

/-- An object that has to have all the members for which there are properties, and no others, is a
record. -/
theorem keywordsHold_record_iff
    (within : Schema) (v : Json) (schemas : List (Text × Schema)) (rest : List Keyword)
    (h : within.propertyNames = schemas.map Prod.fst) :
  KeywordsHold within v
      (.type [.object] :: .noAdditional :: .required (schemas.map Prod.fst) :: .properties schemas
        :: rest)
    ↔ IsRecord (schemas.map fun p => (p.1, Schema.Holds p.2)) v ∧ KeywordsHold within v rest
  := by
  simp only [KeywordsHold, ← and_assoc]
  apply and_congr_left'
  simp only [Keyword.Holds, propertiesHold_iff, h]
  constructor
  · rintro ⟨⟨⟨⟨kind, hkind, htype⟩, hadditional⟩, hrequired⟩, hproperties⟩
    obtain ⟨members, rfl⟩ : ∃ members, v = .obj members := by
      cases v <;> simp_all [ValueKind.holds]
    use members, rfl
    constructor
    · intro key
      rw [List.map_map]
      constructor
      · intro hkey
        obtain ⟨m, hm, rfl⟩ := List.mem_map.1 hkey
        exact hadditional members rfl m hm
      · exact hrequired members rfl key
    · intro f hf
      obtain ⟨p, hp, rfl⟩ := List.mem_map.1 hf
      have hkey := hrequired members rfl p.1 (List.mem_map_of_mem hp)
      obtain ⟨u, hu⟩ := Option.isSome_iff_exists.1 (isSome_get?_iff.2 hkey)
      exact ⟨u, hu, hproperties members rfl p hp u hu⟩
  · rintro ⟨members, rfl, hkeys, hfields⟩
    simp only [Json.obj.injEq, forall_eq', List.map_map] at hkeys ⊢
    refine ⟨⟨⟨⟨.object, List.mem_singleton_self _, rfl⟩, ?_⟩, ?_⟩, ?_⟩
    · intro m hm
      exact (hkeys m.1).1 (List.mem_map_of_mem hm)
    · intro name hname
      exact (hkeys name).2 hname
    · intro p hp u hu
      obtain ⟨u', hu', hholds⟩ := hfields _ (List.mem_map_of_mem hp)
      rw [hu] at hu'
      cases hu'
      exact hholds

/-! ### The check -/

theorem isLowerHex_iff {c : Char} :
  isLowerHex c = true ↔ c ∈ "0123456789abcdef".toList
  := by
  constructor
  · intro h
    have hcodes : ∀ n < 103, isLowerHex (Char.ofNat n) = true →
        Char.ofNat n ∈ "0123456789abcdef".toList := by decide
    have hcode : c.toNat < 103 := by
      rw [isLowerHex, Bool.or_eq_true, Bool.and_eq_true, Char.isDigit_iff_toNat,
        decide_eq_true_eq, decide_eq_true_eq] at h
      rcases h with ⟨-, hdigit⟩ | ⟨-, hletter⟩
      · exact Nat.lt_of_le_of_lt hdigit (by decide)
      · exact Nat.lt_succ_of_le hletter
    rw [← Char.ofNat_toNat c] at h ⊢
    exact hcodes c.toNat hcode h
  · have hall : "0123456789abcdef".toList.all isLowerHex = true := by decide
    exact List.all_eq_true.1 hall c

theorem matchesHex_iff {digits : Nat} {t : Text} :
  matchesHex digits t = true ↔ IsHex digits t
  := by
  simp only [matchesHex, Bool.and_eq_true, decide_eq_true_eq, List.all_eq_true, Bool.or_eq_true,
    isLowerHex_iff]
  constructor
  · rintro ⟨⟨hlength, hfront⟩, hback⟩
    use t.take digits, hlength, hfront
    have ht := List.take_append_drop digits t
    rcases hback with hback | hback
    · left
      rw [hback, List.append_nil] at ht
      exact ht.symm
    · right
      rw [← hback, ht]
  · rintro ⟨front, rfl, hfront, rfl | rfl⟩
    · simpa using hfront
    · simpa using hfront

/-- A plain keyword is checked by what it says. -/
theorem Keyword.holdsPlainly_iff {within : Schema} {v : Json} {k : Keyword} (hk : k.isPlain) :
  k.holdsPlainly within v = true ↔ k.Holds within v
  := by
  cases k with
  | type kinds => rw [holdsPlainly, Holds, List.any_eq_true]
  | const t =>
    rw [holdsPlainly, Holds]
    cases v <;> simp [text?]
  | enum texts =>
    rw [Holds]
    cases v <;> simp [holdsPlainly]
  | minLength n =>
    rw [Holds]
    cases v <;> simp [holdsPlainly]
  | hexPattern digits =>
    rw [Holds]
    cases v <;> simp [holdsPlainly, matchesHex_iff]
  | noAdditional =>
    rw [Holds]
    cases v <;> simp [holdsPlainly, isAdditional]
  | required names =>
    rw [Holds]
    cases v with
    | obj members => simp [holdsPlainly, isSome_get?_iff]
    | _ => simp [holdsPlainly]
  | _ => cases hk

theorem Keyword.check_eq_none_iff_of_isPlain
    {within : Schema} {v : Json} {k : Keyword} (hk : k.isPlain) :
  k.check within v = none ↔ k.Holds within v
  := by
  rw [check_of_isPlain hk, ← holdsPlainly_iff hk]
  split <;> simp_all

mutual

theorem Keyword.check_eq_none_iff (within : Schema) (v : Json) (k : Keyword) :
  k.check within v = none ↔ k.Holds within v
  := by
  match k with
  | .properties schemas =>
    rw [Keyword.Holds]
    cases v with
    | obj members => simpa [Keyword.check] using checkProperties_eq_none_iff_hold members schemas
    | _ => simp [Keyword.check]
  | .items schema =>
    rw [Keyword.Holds]
    cases v with
    | arr items =>
      rw [check_items_eq_none_iff]
      simp only [Json.arr.injEq, forall_eq']
      apply forall₂_congr
      intro u _
      exact checkKeywords_eq_none_iff_hold schema u schema
    | _ => simp [Keyword.check]
  | .oneOf schemas =>
    rw [Keyword.check, Keyword.Holds, ← countSatisfied_eq_one_iff]
    split <;> simp_all
  | .ifThen condition consequence =>
    rw [Keyword.check, Keyword.Holds, ← checkKeywords_eq_none_iff_hold condition,
      ← checkKeywords_eq_none_iff_hold consequence]
    cases checkKeywords condition v condition <;> simp
  | .ref _ target =>
    rw [Keyword.check, Keyword.Holds]
    exact checkKeywords_eq_none_iff_hold target v target
  | .remark .. => simp [Keyword.check, Keyword.Holds]
  | .definitions _ => simp [Keyword.check, Keyword.Holds]
  | .type _ | .const _ | .enum _ | .minLength _ | .hexPattern _ | .noAdditional | .required _ =>
    exact Keyword.check_eq_none_iff_of_isPlain rfl

theorem checkKeywords_eq_none_iff_hold (within : Schema) (v : Json) (ks : List Keyword) :
  checkKeywords within v ks = none ↔ KeywordsHold within v ks
  := by
  match ks with
  | [] => simp [checkKeywords, KeywordsHold]
  | k :: ks =>
    rw [checkKeywords, Option.or_eq_none_iff, KeywordsHold, Keyword.check_eq_none_iff within v k,
      checkKeywords_eq_none_iff_hold within v ks]

theorem checkProperties_eq_none_iff_hold
    (members : Members) (schemas : List (Text × List Keyword)) :
  checkProperties members schemas = none ↔ PropertiesHold members schemas
  := by
  match schemas with
  | [] => simp [checkProperties, PropertiesHold]
  | (name, schema) :: rest =>
    rw [checkProperties, Option.or_eq_none_iff, PropertiesHold,
      checkProperties_eq_none_iff_hold members rest]
    apply and_congr_left'
    cases Members.get? members name with
    | none => simp
    | some u => simpa using checkKeywords_eq_none_iff_hold schema u schema

theorem countSatisfied_eq_zero_iff (v : Json) (schemas : List (List Keyword)) :
  countSatisfied v schemas = 0 ↔ NoneHolds v schemas
  := by
  match schemas with
  | [] => simp [countSatisfied, NoneHolds]
  | schema :: rest =>
    rw [countSatisfied, NoneHolds, ← checkKeywords_eq_none_iff_hold schema v schema,
      ← countSatisfied_eq_zero_iff v rest]
    cases checkKeywords schema v schema <;> simp

theorem countSatisfied_eq_one_iff (v : Json) (schemas : List (List Keyword)) :
  countSatisfied v schemas = 1 ↔ OneHolds v schemas
  := by
  match schemas with
  | [] => simp [countSatisfied, OneHolds]
  | schema :: rest =>
    rw [countSatisfied, OneHolds, ← checkKeywords_eq_none_iff_hold schema v schema,
      ← countSatisfied_eq_zero_iff v rest, ← countSatisfied_eq_one_iff v rest]
    cases checkKeywords schema v schema <;> simp

end

/-- A schema has no violation in a value exactly if it holds of it. -/
theorem Schema.accepts_iff_holds {s : Schema} {v : Json} :
  s.Accepts v ↔ s.Holds v
  := checkKeywords_eq_none_iff_hold s v s

/-! ### Faults -/

/-- The part of a value to which a path leads. -/
def Json.at? : Json → List Step → Option Json
  | v, [] => some v
  | .obj members, .key name :: path => (Members.get? members name).bind fun u => u.at? path
  | .arr items, .index n :: path => items[n]?.bind fun u => u.at? path
  | _, _ :: _ => none

/-- To hold of the value `v`, the schema `s` asks that the schema `t`, which stands at `place` in `s`,
holds of the part `u` of `v` at `path`. -/
inductive Schema.Asks :
    Schema → Json → (path : List Step) → (place : List Step) → Schema → Json → Prop
  | here (s v) : Asks s v [] [] s v
  | property {s schemas name schema members u path place t w} (hk : .properties schemas ∈ s)
    (hschema : (name, schema) ∈ schemas) (hu : Members.get? members name = some u)
    (h : Asks schema u path place t w) :
    Asks s (.obj members) (.key name :: path) (.key "properties".toList :: .key name :: place) t w
  | item {s schema items n u path place t w} (hk : .items schema ∈ s) (hu : items[n]? = some u)
    (h : Asks schema u path place t w) :
    Asks s (.arr items) (.index n :: path) (.key "items".toList :: place) t w
  | consequence {s condition schema v path place t w} (hk : .ifThen condition schema ∈ s)
    (hcondition : Holds condition v) (h : Asks schema v path place t w) :
    Asks s v path (.key "then".toList :: place) t w
  | target {s name schema v path place t w} (hk : .ref name schema ∈ s)
    (h : Asks schema v path place t w) :
    Asks s v path place t w

/-- What is asked is asked of a part of the value. -/
theorem Schema.Asks.at?_eq
    {s t : Schema} {v w : Json} {path place : List Step} (h : Asks s v path place t w) :
  v.at? path = some w
  := by
  induction h with
  | here s v => cases v <;> rfl
  | property hk hschema hu h ih => rw [at?, hu, Option.bind_some, ih]
  | item hk hu h ih => rw [at?, hu, Option.bind_some, ih]
  | consequence hk hcondition h ih => exact ih
  | target hk h ih => exact ih

/-- The schema asks a keyword of a part of the value that does not satisfy it. -/
structure Schema.Fault (s : Schema) (v : Json) (violation : Violation) : Prop where
  asks : s.Asks v violation.path violation.schemaPath violation.schema violation.value
  keyword_mem : violation.keyword ∈ violation.schema
  not_holds : ¬ violation.keyword.Holds violation.schema violation.value

/-- A plain keyword that is violated is a fault of the value itself. -/
theorem Keyword.fault_of_isPlain
    {within : Schema} {v : Json} {k : Keyword} {violation : Violation} (hplain : k.isPlain)
    (hk : k ∈ within) (h : k.check within v = some violation) :
  within.Fault v violation
  := by
  have hholds : ¬ k.Holds within v := by
    rw [← check_eq_none_iff, h]
    simp
  rw [check_of_isPlain hplain] at h
  split at h
  · cases h
  · cases h
    exact ⟨.here within v, hk, hholds⟩

mutual

theorem Keyword.fault_of_check
    {within : Schema} {v : Json} (k : Keyword) {violation : Violation} (hk : k ∈ within)
    (h : k.check within v = some violation) :
  within.Fault v violation
  := by
  match k with
  | .properties schemas =>
    cases v with
    | obj members => exact fault_of_checkProperties schemas hk (fun _ hp => hp) h
    | _ => cases h
  | .items schema =>
    cases v with
    | arr items =>
      rw [Keyword.check] at h
      obtain ⟨⟨u, n⟩, hu, hitem⟩ := List.exists_of_findSome?_eq_some h
      obtain ⟨inner, hinner, rfl⟩ := Option.map_eq_some_iff.1 hitem
      have hfault := fault_of_checkKeywords schema (fun _ hk => hk) hinner
      exact ⟨.item hk (List.mem_zipIdx_iff_getElem?.1 hu) hfault.asks, hfault.keyword_mem,
        hfault.not_holds⟩
    | _ => cases h
  | .oneOf schemas =>
    have hholds : ¬ (Keyword.oneOf schemas).Holds within v := by
      rw [← Keyword.check_eq_none_iff, h]
      simp
    rw [Keyword.check] at h
    split at h
    · cases h
    · cases h
      exact ⟨.here within v, hk, hholds⟩
  | .ifThen condition consequence =>
    rw [Keyword.check] at h
    split at h
    case isTrue => cases h
    case isFalse hcondition =>
      obtain ⟨inner, hinner, rfl⟩ := Option.map_eq_some_iff.1 h
      have hcondition := Option.not_isSome_iff_eq_none.1 hcondition
      have hfault := fault_of_checkKeywords consequence (fun _ hk => hk) hinner
      exact ⟨.consequence hk ((checkKeywords_eq_none_iff_hold ..).1 hcondition) hfault.asks,
        hfault.keyword_mem, hfault.not_holds⟩
  | .ref _ target =>
    rw [Keyword.check] at h
    have hfault := fault_of_checkKeywords target (fun _ hk => hk) h
    exact ⟨.target hk hfault.asks, hfault.keyword_mem, hfault.not_holds⟩
  | .remark .. => cases h
  | .definitions _ => cases h
  | .type _ | .const _ | .enum _ | .minLength _ | .hexPattern _ | .noAdditional | .required _ =>
    exact Keyword.fault_of_isPlain rfl hk h
termination_by structural k

theorem fault_of_checkKeywords
    {within : Schema} {v : Json} (ks : List Keyword) {violation : Violation} (hks : ks ⊆ within)
    (h : checkKeywords within v ks = some violation) :
  within.Fault v violation
  := by
  match ks with
  | [] => cases h
  | k :: ks =>
    obtain ⟨hk, hks⟩ := List.cons_subset.1 hks
    rw [checkKeywords, Option.or_eq_some_iff] at h
    rcases h with h | ⟨-, h⟩
    · exact Keyword.fault_of_check k hk h
    · exact fault_of_checkKeywords ks hks h
termination_by structural ks

theorem fault_of_checkProperties
    {within : Schema} {members : Members} {schemas : List (Text × List Keyword)}
    (rest : List (Text × List Keyword)) {violation : Violation} (hk : .properties schemas ∈ within)
    (hrest : rest ⊆ schemas) (h : checkProperties members rest = some violation) :
  within.Fault (.obj members) violation
  := by
  match rest with
  | [] => cases h
  | (name, schema) :: rest =>
    obtain ⟨hschema, hrest⟩ := List.cons_subset.1 hrest
    rw [checkProperties, Option.or_eq_some_iff] at h
    rcases h with h | ⟨-, h⟩
    · cases hu : Members.get? members name with
      | none =>
        rw [hu] at h
        cases h
      | some u =>
        rw [hu] at h
        obtain ⟨inner, hinner, rfl⟩ := Option.map_eq_some_iff.1 h
        have hfault := fault_of_checkKeywords schema (fun _ hk => hk) hinner
        exact ⟨.property hk hschema hu hfault.asks, hfault.keyword_mem, hfault.not_holds⟩
    · exact fault_of_checkProperties rest hk hrest h
termination_by structural rest

end

/-- The first violation of a schema in a value is a fault of the value. -/
theorem Schema.fault_of_check
    {s : Schema} {v : Json} {violation : Violation} (h : s.check v = some violation) :
  s.Fault v violation
  := fault_of_checkKeywords s (fun _ hk => hk) h

end Inlay
