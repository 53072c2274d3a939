import Inlay.Build
import Inlay.Proofs.Manifest.Shape
import Inlay.Proofs.Sha256

/-!
# The manifest of a build

Where the files of a build can be read, the manifest can be made (`payload_eq_ok`).  It can be read
back (`readable_manifestJson`), and its schema accepts it unless a reference is empty: the first such
reference is what it violates its schema by (`accepts_manifestJson_iff`, `check_manifestJson_of_empty`).
-/

namespace Inlay

open Json

theorem Path.toText_ne_nil (p : Path) :
  p.toText ≠ []
  := by
  obtain ⟨anchor, segments⟩ := p
  cases anchor with
  | here =>
    cases segments with
    | nil => simp [toText]
    | cons s rest =>
      have hs := s.text_ne_nil
      cases rest <;> simp [toText, joined, Text.join, Anchor.text, hs]
  | root => simp [toText, Anchor.text]
  | doubleRoot => simp [toText, Anchor.text]

namespace Manifest

/-! ### The parts of a manifest -/

/-- What a manifest records of an event. -/
def recordOf (e : Event) : ReferenceRecord :=
  ⟨e.kind.word, e.reference, e.path, e.status.word⟩

/-- The digest with which an event is recorded: that of the file, if it was inlined. -/
def digestJson (d : Disk) (e : Event) : Json :=
  match e.status, e.path.map d.read with
  | .inlined, some (.ok bytes) => .str (Sha256.hexDigest bytes)
  | _, _ => .null

/-- How the path of an event is shown. -/
def pathJson (root : Path) (e : Event) : Json :=
  match e.path with
  | some p => .str (displayPath root p)
  | none => .null

/-- The entry of an event with a digest. -/
def entryJson (root : Path) (e : Event) (digest : Json) : Json :=
  .obj [
    ("kind".toList, .str e.kind.word),
    ("reference".toList, .str e.reference),
    ("status".toList, .str e.status.word),
    ("resolved_path".toList, pathJson root e),
    ("sha256".toList, digest)]

/-- The entry of a file with its bytes. -/
def fileJson (shown : Path) (bytes : Bytes) : Json :=
  .obj [
    ("path".toList, .str shown.toText),
    ("sha256".toList, .str (Sha256.hexDigest bytes))]

/-- The entries of the events. -/
def entriesJson (d : Disk) (r : Build.Result) : List Json :=
  r.events.map fun e => entryJson r.root e (digestJson d e)

/-- The members of the manifest of a build whose input and output have the given bytes. -/
def manifestMembers (d : Disk) (r : Build.Result) (input output : Bytes) : Members :=
  [("schema_version".toList, .str schemaVersion),
   ("tool_version".toList, .str toolVersion),
   ("project_root".toList, .str r.root.toText),
   ("input".toList, fileJson r.input input),
   ("output".toList, fileJson (d.currentPath.append r.output) output),
   ("references".toList, .arr (entriesJson d r))]

/-- The manifest of a build whose input and output have the given bytes. -/
def manifestJson (d : Disk) (r : Build.Result) (input output : Bytes) : Json :=
  .obj (manifestMembers d r input output)

variable {d : Disk} {root : Path}

/-- The file of an event can be read if it was inlined. -/
def CanBeRead (d : Disk) (e : Event) : Prop :=
  e.status = .inlined → ∃ p bytes, e.path = some p ∧ d.read p = .ok bytes

theorem digestJson_of_inlined
    {e : Event} {p : Path} {bytes : Bytes} (hstatus : e.status = .inlined) (hpath : e.path = some p)
    (hread : d.read p = .ok bytes) :
  digestJson d e = .str (Sha256.hexDigest bytes)
  := by
  simp only [digestJson, hstatus, hpath, Option.map_some, hread]

theorem digestJson_of_not_inlined {e : Event} (hstatus : e.status ≠ .inlined) :
  digestJson d e = .null
  := by
  rw [digestJson]
  split
  case h_1 h _ => exact absurd h hstatus
  case h_2 => rfl

theorem digest_recordOf {e : Event} (he : CanBeRead d e) :
  (recordOf e).digest d = .ok (digestJson d e)
  := by
  obtain ⟨kind, reference, path, status⟩ := e
  cases status with
  | inlined =>
    obtain ⟨p, bytes, rfl, hread⟩ := he rfl
    have hdigest : (d.digest p).map Json.str = .ok (.str (Sha256.hexDigest bytes)) := by
      rw [Disk.digest, hread]
      rfl
    rw [digestJson_of_inlined rfl rfl hread]
    exact hdigest
  | _ => cases path <;> rfl

theorem entry_recordOf {e : Event} (he : CanBeRead d e) :
  (recordOf e).entry d root = .ok (entryJson root e (digestJson d e))
  := by
  rw [ReferenceRecord.entry, digest_recordOf he]
  rfl

theorem entries_map_recordOf {events : List Event} (h : ∀ e ∈ events, CanBeRead d e) :
  entries d root (events.map recordOf)
    = .ok (events.map fun e => entryJson root e (digestJson d e))
  := by
  induction events with
  | nil => rfl
  | cons e events ih =>
    obtain ⟨he, hrest⟩ := List.forall_mem_cons.1 h
    rw [List.map_cons, entries, entry_recordOf he, ih hrest]
    rfl

/-- The manifest of a build can be made if its files can be read. -/
theorem payload_eq_ok
    {r : Build.Result} {input output : Bytes} (hevents : ∀ e ∈ r.events, CanBeRead d e)
    (hinput : d.read r.input = .ok input) (houtput : d.read r.output = .ok output) :
  payload d r.record = .ok (manifestJson d r input output)
  := by
  have hentries : entries d r.root r.record.references
      = .ok (r.events.map fun e => entryJson r.root e (digestJson d e)) :=
    entries_map_recordOf hevents
  have hinput' : fileEntry d r.record.input r.record.input = .ok (fileJson r.input input) := by
    rw [fileEntry, Disk.digest, show d.read r.record.input = .ok input from hinput]
    rfl
  have houtput' : fileEntry d (d.currentPath.append r.record.output) r.record.output
      = .ok (fileJson (d.currentPath.append r.output) output) := by
    rw [fileEntry, Disk.digest, show d.read r.record.output = .ok output from houtput]
    rfl
  rw [payload, show r.record.root = r.root from rfl, hentries, hinput', houtput']
  rfl

/-! ### Reading it back -/

theorem readable_digestJson (room : Nat) (d : Disk) (e : Event) :
  Readable room (digestJson d e)
  := by
  rw [digestJson]
  split
  · exact .str
  · exact .null

theorem readable_entryJson (room : Nat) (d : Disk) (root : Path) (e : Event) :
  Readable (room + 1) (entryJson root e (digestJson d e))
  := by
  have hkeys : ["kind".toList, "reference".toList, "status".toList, "resolved_path".toList,
      "sha256".toList].Nodup := by decide
  refine Readable.obj hkeys ?_
  simp only [List.forall_mem_cons, List.not_mem_nil, false_implies, implies_true, and_true]
  refine ⟨.str, .str, .str, ?_, readable_digestJson room d e⟩
  rw [pathJson]
  split
  · exact .str
  · exact .null

theorem readable_fileJson (room : Nat) (shown : Path) (bytes : Bytes) :
  Readable (room + 1) (fileJson shown bytes)
  := by
  have hkeys : ["path".toList, "sha256".toList].Nodup := by decide
  refine Readable.obj hkeys ?_
  simp only [List.forall_mem_cons, List.not_mem_nil, false_implies, implies_true, and_true]
  exact ⟨.str, .str⟩

/-- A manifest can be read back. -/
theorem readable_manifestJson (d : Disk) (r : Build.Result) (input output : Bytes) :
  Readable 3 (manifestJson d r input output)
  := by
  have hkeys : ["schema_version".toList, "tool_version".toList, "project_root".toList,
      "input".toList, "output".toList, "references".toList].Nodup := by decide
  refine Readable.obj hkeys ?_
  simp only [manifestMembers, List.forall_mem_cons, List.not_mem_nil, false_implies, implies_true, and_true]
  refine ⟨.str, .str, .str, readable_fileJson 1 _ _, readable_fileJson 1 _ _, ?_⟩
  apply Readable.arr
  intro v hv
  obtain ⟨e, -, rfl⟩ := List.mem_map.1 hv
  exact readable_entryJson 0 d r.root e

/-! ### Checking it -/

theorem accepts_nonempty {t : Text} (h : t ≠ []) :
  nonemptySchema.Accepts (.str t)
  := by
  cases t with
  | nil => exact absurd rfl h
  | cons c t => rfl

theorem isDigest_hexDigest (bytes : Bytes) :
  IsDigest (.str (Sha256.hexDigest bytes))
  := ⟨_, rfl, matchesHex_iff.1 (Sha256.matchesHex_hexDigest bytes)⟩

theorem accepts_fileJson (shown : Path) (bytes : Bytes) :
  fileSchema.Accepts (fileJson shown bytes)
  := by
  rw [Schema.accepts_iff_holds, holds_fileSchema]
  refine ⟨_, rfl, fun _ => Iff.rfl, ?_⟩
  simp only [List.forall_mem_cons, List.not_mem_nil, false_implies, implies_true, and_true]
  constructor
  · exact ⟨_, rfl, _, rfl, shown.toText_ne_nil⟩
  · exact ⟨_, rfl, isDigest_hexDigest bytes⟩

/-- A digest is there at least where a file was inlined. -/
theorem digestJson_cases {e : Event} (he : CanBeRead d e) :
  (e.status ≠ .inlined ∧ digestJson d e = .null)
    ∨ ∃ bytes, digestJson d e = .str (Sha256.hexDigest bytes)
  := by
  by_cases hstatus : e.status = .inlined
  · obtain ⟨p, bytes, hpath, hread⟩ := he hstatus
    exact .inr ⟨bytes, digestJson_of_inlined hstatus hpath hread⟩
  · exact .inl ⟨hstatus, digestJson_of_not_inlined hstatus⟩

theorem isOneOf_kind (kind : Kind) :
  IsOneOf ["component".toList, "script".toList, "image".toList] (.str kind.word)
  := ⟨kind.word, by cases kind <;> decide, rfl⟩

theorem isOneOf_status (status : Status) :
  IsOneOf ["inlined".toList, "missing".toList, "circular".toList, "skipped".toList]
    (.str status.word)
  := ⟨status.word, by cases status <;> decide, rfl⟩

theorem eq_inlined_of_word {status : Status} (h : status.word = "inlined".toList) :
  status = .inlined
  := by
  revert h
  cases status <;> decide

theorem pathJson_cases (root : Path) (e : Event) :
  pathJson root e = .null ∨ ∃ t, pathJson root e = .str t
  := by
  rw [pathJson]
  split
  · exact .inr ⟨_, rfl⟩
  · exact .inl rfl

/-- The entry of an event whose reference is not empty is that of a reference. -/
theorem isReference_entryJson {e : Event} (he : CanBeRead d e) (hreference : e.reference ≠ []) :
  IsReference (entryJson root e (digestJson d e))
  := by
  constructor
  · refine ⟨_, rfl, fun _ => Iff.rfl, ?_⟩
    simp only [referenceFields, List.forall_mem_cons, List.not_mem_nil, false_implies, implies_true,
      and_true]
    refine ⟨?_, ?_, ?_, ?_, ?_⟩
    · exact ⟨_, rfl, isOneOf_kind e.kind⟩
    · exact ⟨_, rfl, _, rfl, hreference⟩
    · exact ⟨_, rfl, isOneOf_status e.status⟩
    · exact ⟨_, rfl, pathJson_cases root e⟩
    · use digestJson d e, rfl
      rcases digestJson_cases he with ⟨-, hdigest⟩ | ⟨bytes, hdigest⟩
      · exact .inl hdigest
      · exact .inr (hdigest ▸ isDigest_hexDigest bytes)
  · intro hinlined hnull
    obtain hnull : digestJson d e = .null := Option.some.inj hnull
    have hword : e.status.word = "inlined".toList := Json.str.inj (Option.some.inj hinlined)
    rcases digestJson_cases he with ⟨hstatus, -⟩ | ⟨bytes, hdigest⟩
    · exact hstatus (eq_inlined_of_word hword)
    · rw [hnull] at hdigest
      cases hdigest

theorem accepts_entryJson {e : Event} (he : CanBeRead d e) (hreference : e.reference ≠ []) :
  referenceSchema.Accepts (entryJson root e (digestJson d e))
  := by
  rw [Schema.accepts_iff_holds, holds_referenceSchema]
  exact isReference_entryJson he hreference

/-- What is wrong with an empty reference, as it is seen from its entry. -/
def emptyReference : Violation :=
  ⟨.minLength 1, nonemptySchema, .str [], [.key "reference".toList],
    [.key "properties".toList, .key "reference".toList]⟩

/-- An entry whose reference is empty violates the schema there first. -/
theorem check_entryJson {e : Event} (hreference : e.reference = []) (digest : Json) :
  referenceSchema.check (entryJson root e digest) = some emptyReference
  := by
  obtain ⟨kind, reference, path, status⟩ := e
  subst hreference
  cases kind <;> rfl

variable {r : Build.Result} {input output : Bytes}

/-- The properties of a manifest that come before the references. -/
def frontProperties : List (Text × Schema) :=
  [("schema_version".toList, [.const "v1".toList]),
   ("tool_version".toList, nonemptySchema),
   ("project_root".toList, nonemptySchema),
   ("input".toList, [.ref "file_digest".toList fileSchema]),
   ("output".toList, [.ref "file_digest".toList fileSchema])]

/-- The schema of the references of a manifest. -/
def referencesSchema : Schema :=
  [.type [.array], .items [.ref "reference".toList referenceSchema]]

theorem checkProperties_front :
  checkProperties (manifestMembers d r input output) frontProperties = none
  := by
  apply checkProperties_eq_none_iff.2
  simp only [frontProperties, List.forall_mem_cons, List.not_mem_nil, false_implies, implies_true,
    and_true]
  refine ⟨?_, ?_, ?_, ?_, ?_⟩
  · intro v hv
    obtain rfl : Json.str schemaVersion = v := Option.some.inj hv
    rfl
  · intro v hv
    obtain rfl : Json.str toolVersion = v := Option.some.inj hv
    rfl
  · intro v hv
    obtain rfl : Json.str r.root.toText = v := Option.some.inj hv
    exact accepts_nonempty r.root.toText_ne_nil
  · intro v hv
    obtain rfl : fileJson r.input input = v := Option.some.inj hv
    exact accepts_ref_iff.2 (accepts_fileJson _ _)
  · intro v hv
    obtain rfl : fileJson (d.currentPath.append r.output) output = v := Option.some.inj hv
    exact accepts_ref_iff.2 (accepts_fileJson _ _)

/-- Only the references of a manifest can violate its schema. -/
theorem check_manifestJson_eq :
  schema.check (manifestJson d r input output)
    = (referencesSchema.check (.arr (entriesJson d r))).map fun violation =>
        (violation.within (.key "references".toList)).below
          [.key "properties".toList, .key "references".toList]
  := by
  have hproperties : schema.check (manifestJson d r input output)
      = (checkProperties (manifestMembers d r input output)
          (frontProperties ++ [("references".toList, referencesSchema)])).or none := rfl
  rw [hproperties, checkProperties_append, checkProperties_front, Option.none_or, Option.or_none]
  exact Option.or_none

/-- The references are checked one after another. -/
theorem check_references (entries : List Json) :
  referencesSchema.check (.arr entries)
    = (Keyword.items [.ref "reference".toList referenceSchema]).check referencesSchema
        (.arr entries)
  := by
  exact Option.or_none

/-- A manifest is accepted exactly if no reference is empty. -/
theorem accepts_manifestJson_iff (hread : ∀ e ∈ r.events, CanBeRead d e) :
  schema.Accepts (manifestJson d r input output) ↔ ∀ e ∈ r.events, e.reference ≠ []
  := by
  have hitems : schema.Accepts (manifestJson d r input output)
      ↔ ∀ v ∈ entriesJson d r, referenceSchema.Accepts v := by
    rw [Schema.Accepts, check_manifestJson_eq, check_references, Option.map_eq_none_iff,
      check_items_eq_none_iff]
    simp only [accepts_ref_iff]
  rw [hitems, entriesJson, List.forall_mem_map]
  apply forall₂_congr
  intro e he
  constructor
  · intro haccepts hreference
    rw [Schema.Accepts, check_entryJson hreference] at haccepts
    cases haccepts
  · intro hreference
    exact accepts_entryJson (hread e he) hreference

/-- What is wrong with a manifest in which the reference at an index is empty. -/
def emptyReferenceAt (n : Nat) : Violation :=
  ⟨.minLength 1, nonemptySchema, .str [],
    [.key "references".toList, .index n, .key "reference".toList],
    [.key "properties".toList, .key "references".toList, .key "items".toList,
      .key "properties".toList, .key "reference".toList]⟩

/-- The first reference that is empty is what a manifest violates its schema by. -/
theorem check_manifestJson_of_empty
    (hread : ∀ e ∈ r.events, CanBeRead d e) {n : Nat} {e : Event} (hn : r.events[n]? = some e)
    (hreference : e.reference = [])
    (hfirst : ∀ i < n, ∀ e', r.events[i]? = some e' → e'.reference ≠ []) :
  schema.check (manifestJson d r input output) = some (emptyReferenceAt n)
  := by
  have hentry : Schema.check [.ref "reference".toList referenceSchema]
      (entryJson r.root e (digestJson d e)) = some emptyReference := by
    rw [Schema.check, checkKeywords, Keyword.check, ← Schema.check, check_entryJson hreference]
    rfl
  have hitem : (entriesJson d r)[n]? = some (entryJson r.root e (digestJson d e)) := by
    rw [entriesJson, List.getElem?_map, hn]
    rfl
  rw [check_manifestJson_eq, check_references, check_items_of_first _ hitem hentry]
  · rfl
  · intro i hi v hv
    rw [entriesJson, List.getElem?_map, Option.map_eq_some_iff] at hv
    obtain ⟨e', he', rfl⟩ := hv
    have haccepts : referenceSchema.Accepts (entryJson r.root e' (digestJson d e')) :=
      accepts_entryJson (hread e' (List.mem_of_getElem? he')) (hfirst i hi e' he')
    exact accepts_ref_iff.2 haccepts

end Manifest

end Inlay
