import Inlay.Proofs.Host

/-!
# The shape of manifests

A manifest is a record of texts, of two files with their digests and of references.  The schema of
manifests holds of these records and of no other values (`Manifest.holds_schema`).  On a lawful host an
object is accepted exactly if it is a manifest; what it is refused for is found in it
(`Manifest.exactly_manifests_are_accepted`).
-/

namespace Inlay.Manifest

open Json

/-! ### Records -/

/-- A text that is not empty. -/
def IsNonempty (v : Json) : Prop :=
  ∃ t, v = .str t ∧ t ≠ []

/-- The digest of a file. -/
def IsDigest (v : Json) : Prop :=
  ∃ t, v = .str t ∧ IsHex 64 t

/-- One of some texts. -/
def IsOneOf (texts : List Text) (v : Json) : Prop :=
  ∃ t ∈ texts, v = .str t

/-- A file with its digest. -/
def IsFile : Json → Prop :=
  IsRecord [("path".toList, IsNonempty), ("sha256".toList, IsDigest)]

/-- The members of a reference. -/
def referenceFields : List (Text × (Json → Prop)) :=
  [("kind".toList, IsOneOf ["component".toList, "script".toList, "image".toList]),
   ("reference".toList, IsNonempty),
   ("status".toList,
     IsOneOf ["inlined".toList, "missing".toList, "circular".toList, "skipped".toList]),
   ("resolved_path".toList, fun v => v = .null ∨ ∃ t, v = .str t),
   ("sha256".toList, fun v => v = .null ∨ IsDigest v)]

/-- A reference: what was inlined has a digest. -/
def IsReference (v : Json) : Prop :=
  IsRecord referenceFields v
    ∧ (v.get? "status".toList = some (.str "inlined".toList) → v.get? "sha256".toList ≠ some .null)

/-- A manifest. -/
def IsManifest : Json → Prop :=
  IsRecord
    [("schema_version".toList, fun v => v = .str "v1".toList),
     ("tool_version".toList, IsNonempty),
     ("project_root".toList, IsNonempty),
     ("input".toList, IsFile),
     ("output".toList, IsFile),
     ("references".toList, fun v => ∃ items, v = .arr items ∧ ∀ u ∈ items, IsReference u)]

/-! ### Schemas -/

theorem holds_digestSchema :
  digestSchema.Holds = IsDigest
  := by
  funext v
  simp only [Schema.Holds, digestSchema, KeywordsHold, Keyword.Holds, IsDigest]
  cases v <;> simp [ValueKind.holds]

theorem holds_nonemptySchema :
  nonemptySchema.Holds = IsNonempty
  := by
  funext v
  simp only [Schema.Holds, nonemptySchema, KeywordsHold, Keyword.Holds, IsNonempty]
  cases v <;> simp [ValueKind.holds, Nat.one_le_iff_ne_zero]

theorem holds_enum (texts : List Text) :
  Schema.Holds [.enum texts] = IsOneOf texts
  := by
  funext v
  rw [Schema.holds_singleton_iff, Keyword.Holds, IsOneOf]

theorem holds_text_or_null :
  Schema.Holds [.type [.string, .null]] = fun v => v = .null ∨ ∃ t, v = .str t
  := by
  funext v
  rw [Schema.holds_singleton_iff, Keyword.Holds]
  cases v <;> simp [ValueKind.holds]

theorem holds_null :
  Schema.Holds [.type [.null]] = fun v => v = .null
  := by
  funext v
  rw [Schema.holds_singleton_iff, Keyword.Holds]
  cases v <;> simp [ValueKind.holds]

theorem holds_digest_or_null :
  Schema.Holds [.oneOf [[.ref "sha256".toList digestSchema], [.type [.null]]]]
    = fun v => v = .null ∨ IsDigest v
  := by
  funext v
  simp only [Schema.holds_oneOf_pair_iff, Schema.holds_ref, holds_digestSchema, holds_null]
  -- No digest is null, so the two schemas never hold together.
  cases v <;> simp [IsDigest]

theorem holds_fileSchema :
  fileSchema.Holds = IsFile
  := by
  funext v
  have h : fileSchema.Holds v ↔ _ := keywordsHold_record_iff fileSchema v
    [("path".toList, nonemptySchema), ("sha256".toList, [.ref "sha256".toList digestSchema])] [] rfl
  simp only [List.map_cons, List.map_nil, holds_nonemptySchema, Schema.holds_ref, holds_digestSchema,
    KeywordsHold, and_true] at h
  exact propext h

theorem holds_referenceSchema :
  referenceSchema.Holds = IsReference
  := by
  funext v
  have h : referenceSchema.Holds v ↔ _ := keywordsHold_record_iff referenceSchema v
    [("kind".toList, [.enum ["component".toList, "script".toList, "image".toList]]),
     ("reference".toList, nonemptySchema),
     ("status".toList,
       [.enum ["inlined".toList, "missing".toList, "circular".toList, "skipped".toList]]),
     ("resolved_path".toList, [.type [.string, .null]]),
     ("sha256".toList, [.oneOf [[.ref "sha256".toList digestSchema], [.type [.null]]]])]
    [.ifThen
      [.properties [("status".toList, [.const "inlined".toList])]]
      [.properties [("sha256".toList, [.ref "sha256".toList digestSchema])]]] rfl
  simp only [List.map_cons, List.map_nil, holds_enum, holds_nonemptySchema, holds_text_or_null,
    holds_digest_or_null] at h
  apply propext
  rw [h, IsReference]
  apply and_congr_right
  intro hrecord
  obtain ⟨status, hstatus, -⟩ := hrecord.exists_get? (List.mem_of_getElem? (i := 2) rfl)
  obtain ⟨digest, hdigest, hnull⟩ := hrecord.exists_get? (List.mem_of_getElem? (i := 4) rfl)
  have hcondition : Schema.Holds [.properties [("status".toList, [.const "inlined".toList])]] v
      ↔ status = .str "inlined".toList := by
    simp only [Schema.holds_property_iff, hstatus, Schema.holds_const, Option.some.injEq, forall_eq']
  have hconsequence :
      Schema.Holds [.properties [("sha256".toList, [.ref "sha256".toList digestSchema])]] v
        ↔ digest ≠ .null := by
    rw [Schema.holds_property_iff, hdigest, Schema.holds_ref, holds_digestSchema]
    rcases hnull with rfl | ⟨t, rfl, ht⟩
    · simp [IsDigest]
    · simp [IsDigest, ht]
  rw [KeywordsHold, KeywordsHold, and_true, Keyword.Holds]
  rw [hstatus, hdigest, Option.some_inj, ne_eq, Option.some_inj]
  exact imp_congr hcondition hconsequence

theorem holds_references :
  Schema.Holds [.type [.array], .items [.ref "reference".toList referenceSchema]]
    = fun v => ∃ items, v = .arr items ∧ ∀ u ∈ items, IsReference u
  := by
  funext v
  have href : ∀ u, KeywordsHold [.ref "reference".toList referenceSchema] u
      [.ref "reference".toList referenceSchema] ↔ IsReference u := by
    intro u
    rw [← holds_referenceSchema, ← Schema.holds_ref "reference".toList]
    rfl
  rw [Schema.Holds, KeywordsHold, KeywordsHold, KeywordsHold, and_true, Keyword.Holds,
    Keyword.Holds]
  simp only [href]
  cases v <;> simp [ValueKind.holds]

/-- The schema of manifests holds of the manifests. -/
theorem holds_schema :
  schema.Holds = IsManifest
  := by
  funext v
  have hremarks : schema.Holds v ↔ KeywordsHold schema v (schema.drop 2) :=
    keywordsHold_remark_cons_iff.trans keywordsHold_remark_cons_iff
  have h : schema.Holds v ↔ _ := hremarks.trans <| keywordsHold_record_iff schema v
    [("schema_version".toList, [.const "v1".toList]),
     ("tool_version".toList, nonemptySchema),
     ("project_root".toList, nonemptySchema),
     ("input".toList, [.ref "file_digest".toList fileSchema]),
     ("output".toList, [.ref "file_digest".toList fileSchema]),
     ("references".toList,
       [.type [.array], .items [.ref "reference".toList referenceSchema]])]
    [.definitions
      [("sha256".toList, digestSchema),
       ("file_digest".toList, fileSchema),
       ("reference".toList, referenceSchema)]] rfl
  simp only [List.map_cons, List.map_nil, Schema.holds_const, holds_nonemptySchema, Schema.holds_ref,
    holds_fileSchema, holds_references, KeywordsHold, Keyword.Holds, and_true] at h
  exact propext h

/-! ### Acceptance -/

/-- On a lawful host, an object is accepted exactly if it is a manifest.  When it is refused, it is for
the violation that the validator reports.  If the validator goes through the schema in order, then the
schema asks the keyword of this violation of a part of the object, to which the path of the violation
leads, and the keyword does not hold there. -/
theorem exactly_manifests_are_accepted
    {host : Host} (hlawful : host.IsLawful) (d : Disk) (members : Members) :
  (checkAgainst host d none (.obj members) = .ok () ↔ IsManifest (.obj members))
    ∧ ∀ e, checkAgainst host d none (.obj members) = .error e →
      ∃ violation, e = .violation violation
        ∧ host.validate schema.document (.obj members) = some violation
        ∧ (host.GoesInOrder → schema.Fault (.obj members) violation
          ∧ (Json.obj members).at? violation.path = some violation.value)
  := by
  rw [← holds_schema, ← hlawful]
  cases h : host.validate schema.document (.obj members) with
  | none =>
    have haccepted : checkAgainst host d none (.obj members) = .ok () := by
      simp only [checkAgainst, loadSchema, check, mapping, h]
    simp [haccepted]
  | some violation =>
    have hrefused : checkAgainst host d none (.obj members) = .error (.violation violation) := by
      simp only [checkAgainst, loadSchema, check, mapping, h]
    rw [hrefused]
    constructor
    · simp
    · rintro e ⟨⟩
      refine ⟨violation, rfl, rfl, ?_⟩
      intro horder
      have hfault := Schema.fault_of_check ((horder _).symm.trans h)
      exact ⟨hfault, hfault.asks.at?_eq⟩

/-- A manifest that has no digest of a script that was inlined. -/
def undigested : Members :=
  [("schema_version".toList, .str "v1".toList),
   ("tool_version".toList, .str "0.1.0".toList),
   ("project_root".toList, .str "/".toList),
   ("input".toList, .obj [("path".toList, .str "/a".toList),
     ("sha256".toList, .str (List.replicate 64 '0'))]),
   ("output".toList, .obj [("path".toList, .str "/b".toList),
     ("sha256".toList, .str (List.replicate 64 '0'))]),
   ("references".toList, .arr [.obj [("kind".toList, .str "script".toList),
     ("reference".toList, .str "s.js".toList),
     ("status".toList, .str "inlined".toList),
     ("resolved_path".toList, .str "s.js".toList),
     ("sha256".toList, .null)]])]

/-- It is refused for the digest of the script, which is null. -/
theorem undigested_is_refused :
  ¬ IsManifest (.obj undigested)
    ∧ ∃ violation, checkAgainst .small (Disk.empty []) none (.obj undigested)
        = .error (.violation violation)
      ∧ violation.path = [.key "references".toList, .index 0, .key "sha256".toList]
      ∧ (Json.obj undigested).at? violation.path = some .null
  := by
  have horder := Host.goesInOrder_small
  obtain ⟨haccepted, hrefused⟩ :=
    exactly_manifests_are_accepted horder.isLawful (Disk.empty []) undigested
  have hcheck : ∃ violation, checkAgainst .small (Disk.empty []) none (.obj undigested)
        = .error (.violation violation)
      ∧ violation.path = [.key "references".toList, .index 0, .key "sha256".toList]
      ∧ violation.value = .null := ⟨_, rfl, rfl, rfl⟩
  obtain ⟨violation, herror, hpath, hvalue⟩ := hcheck
  constructor
  · rw [← haccepted, herror]
    simp
  · obtain ⟨_, hviolation, -, hfound⟩ := hrefused _ herror
    cases hviolation
    obtain ⟨-, hat⟩ := hfound horder
    use violation, herror, hpath
    rw [hat, hvalue]

end Inlay.Manifest
