import Inlay.Manifest.Check
import Inlay.Proofs.Disk.Document
import Inlay.Proofs.Json.Pairs
import Inlay.Proofs.Manifest.Shape

/-!
# Files that are accepted

On a lawful host, a file is accepted exactly if it is the document of a manifest, or of a listing: an
array that lists the members of a manifest one by one.  A listing is given out as it stands, though it
is no object (`Manifest.file_is_accepted_iff`).
-/

namespace Inlay

open Json

namespace Manifest

/-- An item that lists a member: an array of its name and its value, or an object with two members,
whose names they are. -/
inductive Lists : Json → Text → Json → Prop
  | array {name v} : Lists (.arr [.str name, v]) name v
  | object {name u name' u'} : Lists (.obj [(name, u), (name', u')]) name (.str name')

/-- An array that lists the members of a manifest.  When a name comes again, its last value counts. -/
def IsListing (v : Json) : Prop :=
  ∃ items entries members, v = .arr items
    ∧ List.Forall₂ (fun item (entry : Text × Json) => Lists item entry.1 entry.2) items entries
    ∧ (∀ name, Members.get? members name = Members.get? entries.reverse name)
    ∧ schema.Holds (.obj members)

theorem exists_obj_of_holds {v : Json} (h : schema.Holds v) :
  ∃ members, v = .obj members
  := by
  rw [holds_schema] at h
  obtain ⟨members, hv, -⟩ := h
  exact ⟨members, hv⟩

/-! ### Names -/

/-- The keys of a manifest are names of properties. -/
theorem mem_propertyNames_of_holds
    {members : Members} (h : schema.Holds (.obj members)) {name : Text} {v : Json}
    (hname : Members.get? members name = some v) :
  name ∈ schema.propertyNames
  := by
  have hkey : name ∈ members.map Prod.fst := isSome_get?_iff.1 (by rw [hname, Option.isSome_some])
  obtain ⟨m, hm, rfl⟩ := List.mem_map.1 hkey
  have hadditional := keywordsHold_iff.1 h .noAdditional (by simp [schema])
  exact hadditional members rfl m hm

/-- No name of a property is a letter, another word or a number. -/
theorem propertyNames_are_words {name : Text} (h : name ∈ schema.propertyNames) :
  name.length ≠ 1 ∧ name ∉ ["null".toList, "true".toList, "false".toList] ∧ ¬ IsNumeral name
  := by
  have hall : ∀ name ∈ schema.propertyNames, name.length ≠ 1
      ∧ name ∉ ["null".toList, "true".toList, "false".toList]
      ∧ (name.head?.any fun c => c.isDigit || c ∈ "-NI".toList) = false := by decide
  obtain ⟨hlength, hwords, hhead⟩ := hall name h
  refine ⟨hlength, hwords, ?_⟩
  rintro ⟨c, hc, hnumeral⟩
  rw [hc, Option.any_some, Bool.or_eq_false_iff, decide_eq_false_iff_not] at hhead
  exact hnumeral.elim (fun hdigit => by simp [hdigit] at hhead) hhead.2

/-! ### Listings -/

theorem Lists.isPair {item v : Json} {name : Text} (h : Lists item name v) :
  IsPair item name v
  := by
  cases h with
  | array => exact .array rfl
  | object => exact .object

/-- What is taken for a pair with the name of a property lists it. -/
theorem lists_of_isPair
    {item v : Json} {name : Text} (hitem : Spelled item) (hname : name ∈ schema.propertyNames)
    (h : IsPair item name v) :
  Lists item name v
  := by
  obtain ⟨hlength, hwords, hnumeral⟩ := propertyNames_are_words hname
  cases h with
  | text => exact absurd rfl hlength
  | object => exact .object
  | array hk =>
    cases hitem with
    | arr hitems =>
      obtain rfl := eq_str_of_keyText hk (hitems _ List.mem_cons_self) hwords hnumeral
      exact .array

theorem forall₂_lists
    {items : List Json} {pairs : Members} (hitems : ∀ item ∈ items, Spelled item)
    (hnames : ∀ p ∈ pairs, p.1 ∈ schema.propertyNames)
    (h : List.Forall₂ (fun item (p : Text × Json) => IsPair item p.1 p.2) items pairs) :
  List.Forall₂ (fun item (p : Text × Json) => Lists item p.1 p.2) items pairs
  := by
  induction h with
  | nil => exact .nil
  | cons hpair _ ih =>
    obtain ⟨hitem, hitems⟩ := List.forall_mem_cons.1 hitems
    obtain ⟨hname, hnames⟩ := List.forall_mem_cons.1 hnames
    exact .cons (lists_of_isPair hitem hname hpair) (ih hitems hnames)

/-- A value that is taken for a manifest, and was read, is one or lists one. -/
theorem isListing_of_mapping
    {v : Json} {members : Members} (hv : Spelled v) (hmapping : v.mapping = .ok members)
    (h : schema.Holds (.obj members)) :
  ((∃ members, v = .obj members) ∧ schema.Holds v) ∨ IsListing v
  := by
  rcases mapping_eq_ok_iff.1 hmapping with rfl | ⟨-, rfl⟩ | ⟨items, pairs, rfl, hpairs, rfl⟩
  · exact .inl ⟨⟨members, rfl⟩, h⟩
  · obtain ⟨_, hversion, -⟩ := (holds_schema ▸ h : IsManifest _).exists_get? List.mem_cons_self
    cases hversion
  · right
    refine ⟨items, pairs, _, rfl, ?_, get?_putAll_nil pairs, h⟩
    have hnames : ∀ p ∈ pairs, p.1 ∈ schema.propertyNames := by
      intro p hp
      have hkey : p.1 ∈ pairs.reverse.map Prod.fst := List.mem_map_of_mem (List.mem_reverse.2 hp)
      obtain ⟨u, hu⟩ := Option.isSome_iff_exists.1 (isSome_get?_iff.2 hkey)
      exact mem_propertyNames_of_holds h ((get?_putAll_nil pairs p.1).trans hu)
    cases hv with
    | arr hitems => exact forall₂_lists hitems hnames hpairs

theorem mapping_of_isListing {v : Json} (h : IsListing v) :
  ∃ members, v.mapping = .ok members ∧ schema.Holds (.obj members)
  := by
  obtain ⟨items, entries, members, rfl, hlists, hmembers, hholds⟩ := h
  have hpairs := hlists.imp fun _ _ => Lists.isPair
  use Members.putAll [] entries
  constructor
  · exact mapping_eq_ok_iff.2 (.inr (.inr ⟨items, entries, rfl, hpairs, rfl⟩))
  · rw [holds_schema] at hholds ⊢
    apply hholds.of_get?_eq
    intro name
    rw [hmembers, get?_putAll_nil]

/-! ### Acceptance -/

section

variable {host : Host} {d : Disk} {p : Path} {v : Json}

theorem check_eq_ok_iff (hlawful : host.IsLawful) :
  check host schema.document v = .ok ()
    ↔ ∃ members, v.mapping = .ok members ∧ schema.Holds (.obj members)
  := by
  rw [check]
  cases v.mapping with
  | error e => simp
  | ok members =>
    simp only [← hlawful (.obj members), Except.ok.injEq, exists_eq_left']
    cases host.validate schema.document (.obj members) <;> simp

theorem checkFile_eq_ok_iff :
  checkFile host d p = .ok v
    ↔ d.readJson host.maxDepth p = .ok v ∧ check host schema.document v = .ok ()
  := by
  rw [checkFile]
  cases d.readJson host.maxDepth p with
  | error e => simp
  | ok u =>
    simp only [checkAgainst, loadSchema]
    constructor
    · intro h
      split at h
      case h_1 => cases h
      case h_2 hcheck =>
        cases h
        exact ⟨rfl, hcheck⟩
    · rintro ⟨⟨⟩, hcheck⟩
      rw [hcheck]

/-- What a file has to hold to be accepted, and what is then given out. -/
theorem checkFile_eq_ok_iff_hasDocument (hlawful : host.IsLawful) :
  checkFile host d p = .ok v
    ↔ d.HasDocument host.maxDepth p v
      ∧ (((∃ members, v = .obj members) ∧ schema.Holds v) ∨ IsListing v)
  := by
  rw [checkFile_eq_ok_iff, Disk.readJson_eq_ok_iff, check_eq_ok_iff hlawful]
  constructor
  · rintro ⟨⟨t, hread, hvalue⟩, members, hmapping, hholds⟩
    exact ⟨⟨t, hread, hvalue⟩, isListing_of_mapping (spelled_of_read hvalue) hmapping hholds⟩
  · rintro ⟨hdocument, ⟨⟨members, rfl⟩, hholds⟩ | hlisting⟩
    · exact ⟨hdocument, members, rfl, hholds⟩
    · exact ⟨hdocument, mapping_of_isListing hlisting⟩

/-- On a lawful host, a file is accepted exactly if it holds the document of an object that satisfies
the schema, or a listing of one, and what is given out is the value of the document; every other file
is refused.  So it is always an object that is given out, and one that satisfies the schema, exactly
if the document of the file is no listing. -/
theorem file_is_accepted_iff (hlawful : host.IsLawful) (d : Disk) (p : Path) :
  (∀ v, checkFile host d p = .ok v
      ↔ d.HasDocument host.maxDepth p v
        ∧ (((∃ members, v = .obj members) ∧ schema.Holds v) ∨ IsListing v))
    ∧ ((∃ e, checkFile host d p = .error e)
      ↔ ∀ v, d.HasDocument host.maxDepth p v → ¬ schema.Holds v ∧ ¬ IsListing v)
    ∧ ((∀ v, checkFile host d p = .ok v →
        d.HasDocument host.maxDepth p v ∧ (∃ members, v = .obj members) ∧ schema.Holds v)
      ↔ ∀ v, d.HasDocument host.maxDepth p v → ¬ IsListing v)
  := by
  refine ⟨fun v => checkFile_eq_ok_iff_hasDocument hlawful, ?_, ?_⟩
  · have hrefused : (∃ e, checkFile host d p = .error e) ↔ ∀ v, checkFile host d p ≠ .ok v := by
      cases checkFile host d p <;> simp
    rw [hrefused]
    constructor
    · intro h v hdocument
      rw [← not_or]
      rintro (hholds | hlisting)
      · exact h v ((checkFile_eq_ok_iff_hasDocument hlawful).2
          ⟨hdocument, .inl ⟨exists_obj_of_holds hholds, hholds⟩⟩)
      · exact h v ((checkFile_eq_ok_iff_hasDocument hlawful).2 ⟨hdocument, .inr hlisting⟩)
    · intro h v haccepted
      obtain ⟨hdocument, ⟨-, hholds⟩ | hlisting⟩ :=
        (checkFile_eq_ok_iff_hasDocument hlawful).1 haccepted
      · exact (h v hdocument).1 hholds
      · exact (h v hdocument).2 hlisting
  · constructor
    · intro hlaw v hdocument hlisting
      obtain ⟨-, ⟨members, hobject⟩, -⟩ :=
        hlaw v ((checkFile_eq_ok_iff_hasDocument hlawful).2 ⟨hdocument, .inr hlisting⟩)
      obtain ⟨items, _, _, harray, -⟩ := hlisting
      rw [hobject] at harray
      cases harray
    · intro hlistings v haccepted
      obtain ⟨hdocument, hobject | hlisting⟩ :=
        (checkFile_eq_ok_iff_hasDocument hlawful).1 haccepted
      · exact ⟨hdocument, hobject⟩
      · exact absurd hlisting (hlistings v hdocument)

end

/-! ### A manifest and its listing -/

/-- A file with a digest. -/
def listedFile (path : Text) : Json :=
  .obj [("path".toList, .str path), ("sha256".toList, .str (List.replicate 64 '0'))]

/-- The members of a manifest. -/
def listedMembers : Members :=
  [("schema_version".toList, .str "v1".toList),
   ("tool_version".toList, .str "0.1.0".toList),
   ("project_root".toList, .str "/".toList),
   ("input".toList, listedFile "/a".toList),
   ("output".toList, listedFile "/b".toList),
   ("references".toList, .arr [])]

/-- The members of the manifest, one by one. -/
def listed : Json :=
  .arr (listedMembers.map fun m => .arr [.str m.1, m.2])

/-- The path of a document. -/
def listedPath : Path :=
  Path.ofText "/m.json".toList

/-- A disk with nothing but the document of a value. -/
def diskWith (v : Json) : Disk :=
  (Disk.empty []).add listedPath (.file (Utf8.encode v.print))

theorem read_diskWith (v : Json) :
  (diskWith v).read listedPath = .ok (Utf8.encode v.print)
  := rfl

theorem readable_listedFile {path : Text} {room : Nat} :
  Readable (room + 1) (listedFile path)
  := by
  have hkeys : ["path".toList, "sha256".toList].Nodup := by decide
  exact .obj hkeys (List.forall_mem_cons.2 ⟨.str, List.forall_mem_singleton.2 .str⟩)

theorem readable_of_mem_listedMembers {room : Nat} :
  ∀ m ∈ listedMembers, Readable (room + 1) m.2
  := by
  have hreferences : Readable (room + 1) (.arr []) := .arr (List.forall_mem_nil _)
  simp only [listedMembers, List.forall_mem_cons]
  exact ⟨.str, .str, .str, readable_listedFile, readable_listedFile, hreferences,
    List.forall_mem_nil _⟩

theorem readable_obj_listedMembers :
  Readable 3 (.obj listedMembers)
  := by
  have hkeys : (listedMembers.map Prod.fst).Nodup := by decide
  exact .obj hkeys readable_of_mem_listedMembers

/-- The manifest is accepted, and given out with its members in order. -/
theorem manifest_of_listed_is_accepted :
  Host.small.IsLawful
    ∧ checkFile .small (diskWith (.obj listedMembers)) listedPath
      = .ok (Json.obj listedMembers).sorted
  := by
  have hlawful := Host.goesInOrder_small.isLawful
  obtain ⟨haccepted, -⟩ :=
    file_is_accepted_iff hlawful (diskWith (.obj listedMembers)) listedPath
  have hdocument := Disk.hasDocument_of_print readable_obj_listedMembers (Nat.le_refl 3)
    (read_diskWith (.obj listedMembers))
  have haccepts : schema.Accepts (.obj listedMembers) := rfl
  have hholds : schema.Holds (Json.obj listedMembers).sorted :=
    Schema.accepts_iff_holds.1 (haccepts.of_alike readable_obj_listedMembers.alike_sorted.symm)
  exact ⟨hlawful, (haccepted _).2 ⟨hdocument, .inl ⟨exists_obj_of_holds hholds, hholds⟩⟩⟩

theorem sorted_listed :
  listed.sorted = listed
  := by
  have hfile : ∀ path, (listedFile path).sorted = listedFile path := by
    intro path
    rw [listedFile, sorted_obj, sortMembers]
    exact congrArg _ (List.mergeSort_of_pairwise (by simp [keyLe]))
  simp only [listed, listedMembers, List.map_cons, List.map_nil, Json.sorted, sortedItems, hfile]

theorem readable_listed :
  listed.Readable 3
  := by
  apply Readable.arr
  rw [List.forall_mem_map]
  intro m hm
  apply Readable.arr
  exact List.forall_mem_cons.2
    ⟨.str, List.forall_mem_singleton.2 (readable_of_mem_listedMembers m hm)⟩

/-- The listing is accepted and given out, though it is no object. -/
theorem listing_is_accepted :
  checkFile .small (diskWith listed) listedPath = .ok listed
    ∧ ¬ ∃ members, listed = .obj members
  := by
  have hdocument :=
    Disk.hasDocument_of_print readable_listed (Nat.le_refl 3) (read_diskWith listed)
  rw [sorted_listed] at hdocument
  have hcheck : check .small schema.document listed = .ok () := rfl
  constructor
  · rw [checkFile_eq_ok_iff, Disk.readJson_eq_ok_iff]
    exact ⟨hdocument, hcheck⟩
  · rintro ⟨members, h⟩
    cases h

end Manifest

end Inlay
