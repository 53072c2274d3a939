import Inlay.Disk.Write
import Inlay.Proofs.Disk.Walk
import Mathlib.Data.Set.Insert

/-!
# What writing leaves

Writing to a path makes directories where nothing lies and sets the bytes of one file.  All else
stays where it is (`Keeps`), so a path that led somewhere before leads to the same location after,
and the path that was written leads to the bytes that were written (`of_write_eq_ok`).
-/

namespace Inlay

namespace Disk

/-- What lies on the first disk lies on the second one, but for the bytes of files at the locations
in `changed`. -/
structure Keeps (changed : Set Location) (d d' : Disk) : Prop where
  current : d'.current = d.current
  lookup : ∀ location entry, d.lookup location = some entry →
    d'.lookup location = some entry
      ∨ location ∈ changed ∧ ∃ bytes bytes', entry = .file bytes
        ∧ d'.lookup location = some (.file bytes')

namespace Keeps

variable {changed changed' : Set Location} {d d' d'' : Disk} {location : Location}

theorem refl (d : Disk) :
  d.Keeps ∅ d
  := ⟨rfl, fun _ _ h => .inl h⟩

theorem trans (h : d.Keeps changed d') (h' : d'.Keeps changed' d'') :
  d.Keeps (changed ∪ changed') d''
  := by
  use h'.current.trans h.current
  intro location entry hentry
  rcases h.lookup location entry hentry with hkept | ⟨hmem, bytes, bytes', rfl, hfile⟩
  · rcases h'.lookup location entry hkept with hkept | ⟨hmem, hfile⟩
    · exact .inl hkept
    · exact .inr ⟨.inr hmem, hfile⟩
  · right
    use .inl hmem, bytes
    rcases h'.lookup location _ hfile with hkept | ⟨-, -, bytes'', -, hfile⟩
    · exact ⟨bytes', rfl, hkept⟩
    · exact ⟨bytes'', rfl, hfile⟩

theorem directory (h : d.Keeps changed d') (hd : d.lookup location = some .directory) :
  d'.lookup location = some .directory
  := by
  rcases h.lookup location _ hd with hkept | ⟨-, _, _, hentry, -⟩
  · exact hkept
  · cases hentry

theorem link
    {target : Target} (h : d.Keeps changed d') (hd : d.lookup location = some (.link target)) :
  d'.lookup location = some (.link target)
  := by
  rcases h.lookup location _ hd with hkept | ⟨-, _, _, hentry, -⟩
  · exact hkept
  · cases hentry

theorem file
    {bytes : Bytes} (h : d.Keeps changed d') (hd : d.lookup location = some (.file bytes)) :
  ∃ bytes', d'.lookup location = some (.file bytes') ∧ (location ∉ changed → bytes' = bytes)
  := by
  rcases h.lookup location _ hd with hkept | ⟨hmem, _, bytes', -, hfile⟩
  · exact ⟨bytes, hkept, fun _ => rfl⟩
  · exact ⟨bytes', hfile, fun hout => absurd hmem hout⟩

/-- What is no link is none after. -/
theorem notLink
    {entry : Entry} (h : d.Keeps changed d') (hd : d.lookup location = some entry)
    (hentry : ∀ target, entry ≠ .link target) :
  ∃ entry', d'.lookup location = some entry' ∧ ∀ target, entry' ≠ .link target
  := by
  cases entry with
  | file bytes =>
    obtain ⟨bytes', hfile, -⟩ := h.file hd
    exact ⟨.file bytes', hfile, by simp⟩
  | directory => exact ⟨.directory, h.directory hd, by simp⟩
  | link target => exact absurd rfl (hentry target)

/-- An entry put where nothing lies. -/
theorem set_vacant (hd : d.lookup location = none) (entry : Entry) :
  d.Keeps ∅ (d.set location entry)
  := by
  have hroot : location ≠ [] := by
    rintro rfl
    cases hd
  use rfl
  intro other entry' hother
  left
  rw [lookup_set d hroot, if_neg, hother]
  rintro rfl
  rw [hd] at hother
  cases hother

/-- The bytes of a file changed. -/
theorem set_file
    {bytes : Bytes} (hd : d.lookup location = some (.file bytes)) (bytes' : Bytes) :
  d.Keeps {location} (d.set location (.file bytes'))
  := by
  have hroot : location ≠ [] := by
    rintro rfl
    cases hd
  use rfl
  intro other entry hother
  by_cases h : other = location
  · subst h
    right
    rw [hd] at hother
    cases hother
    exact ⟨rfl, bytes, bytes', rfl, by rw [lookup_set d hroot, if_pos rfl]⟩
  · left
    rw [lookup_set d hroot, if_neg h, hother]

end Keeps

/-! ### Walks after a change -/

section

variable {changed : Set Location} {d d' : Disk} {purpose : Purpose} {links : Nat}
  {location : Location} {place place' : Place}

/-- A place at which something lies is where a walk of no segments stops. -/
theorem goes_nil (hplace : d.lookup place.location = place.entry?) (hlies : place.entry? ≠ none) :
  d.Goes place.location [] (.place place)
  := by
  cases place with
  | file location bytes => exact .file hplace
  | directory location => exact .directory hplace
  | vacant location => exact absurd rfl hlies

/-- A walk up to the first link stops at the same location after, by what lies there then. -/
theorem Goes.keeps
    {segments : List Segment} {stop : Stop} (hk : d.Keeps changed d')
    (h : d.Goes location segments stop) (hstop : stop = .place place)
    (hlocation : place'.location = place.location)
    (hplace : d'.lookup place'.location = place'.entry?) (hlies : place'.entry? ≠ none) :
  d'.Goes location segments (.place place')
  := by
  induction h with
  | file h =>
    cases hstop
    obtain rfl := hlocation.symm
    exact goes_nil hplace hlies
  | directory h =>
    cases hstop
    obtain rfl := hlocation.symm
    exact goes_nil hplace hlies
  | up h _ ih => exact .up (hk.directory h) (ih hstop)
  | @vacant location s h hs hsize hnext =>
    cases hstop
    obtain ⟨entry, hentry⟩ := Option.ne_none_iff_exists'.1 hlies
    have hrest := goes_nil hplace hlies
    rw [show place'.location = location ++ [s] from hlocation] at hplace hrest
    apply Goes.on (hk.directory h) hs hsize (hplace.trans hentry) _ hrest
    rintro target rfl
    cases place' <;> cases hentry
  | link => cases hstop
  | on h hs hsize hnext hentry _ ih =>
    obtain ⟨entry', hnext', hentry'⟩ := hk.notLink hnext hentry
    exact .on (hk.directory h) hs hsize hnext' hentry' (ih hstop)

/-- A walk stops at the same link after. -/
theorem Goes.keeps_link
    {segments rest : List Segment} {stop : Stop} {directory : Location} {target : Target}
    (hk : d.Keeps changed d') (h : d.Goes location segments stop)
    (hstop : stop = .link directory target rest) :
  d'.Goes location segments (.link directory target rest)
  := by
  induction h with
  | file => cases hstop
  | directory => cases hstop
  | vacant => cases hstop
  | up h _ ih => exact .up (hk.directory h) (ih hstop)
  | link h hs hsize hnext =>
    cases hstop
    exact .link (hk.directory h) hs hsize (hk.link hnext)
  | on h hs hsize hnext hentry _ ih =>
    obtain ⟨entry', hnext', hentry'⟩ := hk.notLink hnext hentry
    exact .on (hk.directory h) hs hsize hnext' hentry' (ih hstop)

/-- A walk comes to the same location after, by what lies there then. -/
theorem Walks.keeps
    {route : Route} (hk : d.Keeps changed d') (h : d.Walks purpose links location route place)
    (hlocation : place'.location = place.location)
    (hplace : d'.lookup place'.location = place'.entry?) (hlies : place'.entry? ≠ none) :
  d'.Walks purpose links location route place'
  := by
  induction h with
  | @place links location route place h hdirectory =>
    apply Walks.place (h.keeps hk rfl hlocation hplace hlies)
    intro hroute
    obtain ⟨found, rfl⟩ := hdirectory hroute
    obtain rfl : place'.location = found := hlocation
    have hdirectory' := hk.directory (h.lookup_eq rfl)
    rw [show Place.location (.directory place'.location) = place'.location from rfl, hplace]
      at hdirectory'
    cases place' with
    | directory found => exact ⟨found, rfl⟩
    | file => cases hdirectory'
    | vacant => cases hdirectory'
  | link h _ ih => exact .link (h.keeps_link hk rfl) (ih hlocation)

theorem Keeps.start_eq (hk : d.Keeps changed d') (p : Path) :
  d'.start p = d.start p
  := by
  rw [start, start, hk.current]

/-- A walk from the start of a path comes to the same location after, by what lies there then. -/
theorem Keeps.reach
    {p : Path} (hk : d.Keeps changed d') (h : d.reach purpose p = .ok place)
    (hlocation : place'.location = place.location)
    (hplace : d'.lookup place'.location = place'.entry?) (hlies : place'.entry? ≠ none) :
  d'.reach purpose p = .ok place'
  := by
  obtain ⟨hunfit, hwalks⟩ := reach_eq_ok_iff.1 h
  apply reach_eq_ok_iff.2
  use hunfit
  rw [hk.start_eq]
  exact hwalks.keeps hk hlocation hplace hlies

/-- A path leads to the same location after, by what lies there then. -/
theorem Keeps.locate
    {p : Path} (hk : d.Keeps changed d') (h : d.locate p = .ok place)
    (hlocation : place'.location = place.location)
    (hplace : d'.lookup place'.location = place'.entry?) (hlies : place'.entry? ≠ none) :
  d'.locate p = .ok place'
  := hk.reach h hlocation hplace hlies

/-- What a path leads to lies there. -/
theorem lookup_of_locate {p : Path} (h : d.locate p = .ok place) :
  d.lookup place.location = place.entry?
  := (locate_eq_ok_iff.1 h).2.lookup_eq

/-- A path that leads to a file leads to it after. -/
theorem Keeps.locate_file
    {p : Path} {bytes : Bytes} (hk : d.Keeps changed d')
    (h : d.locate p = .ok (.file location bytes)) :
  ∃ bytes', d'.locate p = .ok (.file location bytes') ∧ (location ∉ changed → bytes' = bytes)
  := by
  obtain ⟨bytes', hlookup, hsame⟩ := hk.file (lookup_of_locate h)
  use bytes'
  constructor
  · exact hk.locate h rfl hlookup (by simp [Place.entry?])
  · exact hsame

end

/-! ### Directories -/

/-- A directory is made in the directory to which the segments above its name lead, where nothing
bears the name. -/
theorem of_makeDirectory_eq_ok {d d' : Disk} {p : Path} (h : d.makeDirectory p = .ok d') :
  ∃ above last location, p.segments = above ++ [last] ∧ unfit? p = none
    ∧ d.Walks .find maxLinks (d.start p) ⟨above, false⟩ (.directory location)
    ∧ last ≠ Segment.up ∧ Utf8.size last.text ≤ maxSegmentBytes
    ∧ d.lookup (location ++ [last]) = none ∧ d' = d.set (location ++ [last]) .directory
  := by
  rw [makeDirectory] at h
  dsimp only at h
  split at h
  · cases h
  rename_i hunfit
  split at h
  · cases h
  rename_i last hlast
  split at h
  · cases h
  rename_i location habove
  split at h
  · cases h
  rename_i hup
  split at h
  · cases h
  rename_i hsize
  split at h
  · cases h
  rename_i hvacant
  cases h
  obtain ⟨above, hsegments⟩ := List.getLast?_eq_some_iff.1 hlast
  rw [hsegments, List.dropLast_concat] at habove
  use above, last, location, hsegments, hunfit
  refine ⟨?_, hup, Nat.le_of_not_lt hsize, hvacant, rfl⟩
  apply walk_eq_ok_iff.1
  cases hwalk : d.walk .find maxLinks (d.start p) ⟨above, false⟩ with
  | error obstacle =>
    rw [hwalk] at habove
    cases habove
  | ok place =>
    rw [hwalk] at habove
    cases place <;> cases habove
    rfl

theorem keeps_of_makeDirectory {d d' : Disk} {p : Path} (h : d.makeDirectory p = .ok d') :
  d.Keeps ∅ d'
  := by
  obtain ⟨above, last, location, -, -, -, -, -, hvacant, rfl⟩ := of_makeDirectory_eq_ok h
  exact .set_vacant hvacant _

/-- Ensuring a directory does nothing to the disk, or makes it. -/
theorem fst_ensureDirectory (d : Disk) (p : Path) :
  (d.ensureDirectory p).1 = d ∨ d.makeDirectory p = .ok (d.ensureDirectory p).1
  := by
  rw [ensureDirectory]
  split
  · rename_i hmade
    exact .inr hmade
  · exact .inl rfl
  · exact .inl rfl
  · rw [acceptExisting]
    left
    split <;> rfl

/-- A relation of disks that is reflexive and transitive, and holds where one directory is made at
the path or above it, holds where all of them are ensured. -/
theorem ensureFrom_induction
    {R : Disk → Disk → Prop} (hrefl : ∀ d, R d d)
    (htrans : ∀ {d d' d''}, R d d' → R d' d'' → R d d'') {anchor : Anchor} {segments : List Segment}
    (hmade : ∀ above, above <:+ segments → ∀ d d',
      d.makeDirectory ⟨anchor, above.reverse⟩ = .ok d' → R d d')
    (d : Disk) (maxMissing : Nat) :
  R d (d.ensureFrom anchor maxMissing segments).1
  := by
  have hone : ∀ (d : Disk) p, (∀ d', d.makeDirectory p = .ok d' → R d d') →
      R d (d.ensureDirectory p).1 := by
    intro d p hmake
    rcases d.fst_ensureDirectory p with hsame | hmade
    · rw [hsame]
      exact hrefl d
    · exact hmake _ hmade
  induction segments generalizing maxMissing with
  | nil =>
    rw [ensureFrom.eq_def]
    exact hone d _ (hmade [] List.suffix_rfl d)
  | cons s above ih =>
    have habove := ih (fun above' h => hmade above' (h.trans (List.suffix_cons s above)))
    have hlast : ∀ d : Disk, R d (d.ensureDirectory ⟨anchor, (s :: above).reverse⟩).1 := fun d =>
      hone d _ (hmade (s :: above) List.suffix_rfl d)
    rw [ensureFrom.eq_def]
    cases maxMissing with
    | zero => exact hrefl d
    | succ maxMissing =>
      dsimp only
      split
      · have hensure := habove maxMissing
        split
        all_goals
          rename_i hensured
          rw [hensured] at hensure
        · exact htrans hensure (hlast _)
        · exact hensure
      · exact hlast d

/-- The directories that are made are new. -/
theorem keeps_ensureDirectories (d : Disk) (maxMissing : Nat) (p : Path) :
  d.Keeps ∅ (d.ensureDirectories maxMissing p).1
  := by
  apply ensureFrom_induction Keeps.refl
  · intro d d' d'' h h'
    have hboth := h.trans h'
    rwa [Set.empty_union] at hboth
  · intro above _ d d' hmade
    exact keeps_of_makeDirectory hmade

/-! ### Files -/

/-- A path that comes to no directory when writing leads to the same place. -/
theorem locate_of_reach_write
    {d : Disk} {p : Path} {place : Place} (h : d.reach .write p = .ok place)
    (hplace : ∀ found, place ≠ .directory found) :
  d.locate p = .ok place
  := by
  obtain ⟨hunfit, hwalks⟩ := reach_eq_ok_iff.1 h
  exact locate_eq_ok_iff.2 ⟨hunfit, hwalks.find hplace⟩

/-- Where a path comes to no directory, bytes can be put, and the path comes to them. -/
theorem reach_set_of_reach
    {d : Disk} {p : Path} {place : Place} (h : d.reach .write p = .ok place)
    (hplace : ∀ found, place ≠ .directory found) (bytes : Bytes) :
  (d.lookup place.location = none ∨ ∃ old, d.lookup place.location = some (.file old))
    ∧ (d.set place.location (.file bytes)).reach .write p = .ok (.file place.location bytes)
  := by
  have hlookup := (reach_eq_ok_iff.1 h).2.lookup_eq
  have hroot : place.location ≠ [] := by
    intro hnil
    rw [hnil, lookup_nil] at hlookup
    cases place with
    | directory found => exact hplace found rfl
    | file => cases hlookup
    | vacant => cases hlookup
  have hset : (d.set place.location (.file bytes)).lookup place.location = some (.file bytes) := by
    rw [lookup_set d hroot, if_pos rfl]
  cases place with
  | directory found => exact absurd rfl (hplace found)
  | file location old =>
    use .inr ⟨old, hlookup⟩
    exact (Keeps.set_file hlookup bytes).reach h rfl hset (by simp [Place.entry?])
  | vacant location =>
    use .inl hlookup
    exact (Keeps.set_vacant hlookup _).reach h rfl hset (by simp [Place.entry?])

/-- The bytes of a file are set where the path comes to them afterwards. -/
theorem exists_set_of_setFile_eq_ok
    {d d' : Disk} {p : Path} {bytes : Bytes} (h : d.setFile p bytes = (d', .ok ())) :
  ∃ out, (d.lookup out = none ∨ ∃ old, d.lookup out = some (.file old))
    ∧ d' = d.set out (.file bytes) ∧ d'.reach .write p = .ok (.file out bytes)
  := by
  rw [setFile] at h
  split at h
  case h_1 location old hreach =>
    cases h
    obtain ⟨hbefore, hafter⟩ := reach_set_of_reach hreach (by simp) bytes
    exact ⟨location, hbefore, rfl, hafter⟩
  case h_2 location hreach =>
    cases h
    obtain ⟨hbefore, hafter⟩ := reach_set_of_reach hreach (by simp) bytes
    exact ⟨location, hbefore, rfl, hafter⟩
  case h_3 => cases h
  case h_4 => cases h

/-- The path of a file whose bytes have been set leads to them, and nothing else has changed. -/
theorem of_setFile_eq_ok
    {d d' : Disk} {p : Path} {bytes : Bytes} (h : d.setFile p bytes = (d', .ok ())) :
  ∃ out, d.Keeps {out} d' ∧ d'.locate p = .ok (.file out bytes)
  := by
  obtain ⟨out, hbefore, rfl, hreach⟩ := exists_set_of_setFile_eq_ok h
  have hlocate := locate_of_reach_write hreach (by simp)
  rcases hbefore with hvacant | ⟨old, hfile⟩
  · have hk := Keeps.set_vacant hvacant (.file bytes)
    use out
    constructor
    · exact ⟨hk.current, fun at' entry hentry => (hk.lookup at' entry hentry).imp_right (by simp)⟩
    · exact hlocate
  · exact ⟨out, .set_file hfile bytes, hlocate⟩

/-- The path that was written leads to the bytes that were written, and no other file has changed. -/
theorem of_write_eq_ok
    {d d' : Disk} {maxMissing : Nat} {p : Path} {bytes : Bytes}
    (h : d.write maxMissing p bytes = (d', .ok ())) :
  ∃ out, d.Keeps {out} d' ∧ d'.locate p = .ok (.file out bytes)
  := by
  rw [write] at h
  have hmade := d.keeps_ensureDirectories maxMissing p.parent
  split at h
  case h_1 made hensure =>
    rw [hensure] at hmade
    obtain ⟨out, hk, hlocate⟩ := of_setFile_eq_ok h
    use out
    constructor
    · have hboth := hmade.trans hk
      rwa [Set.empty_union] at hboth
    · exact hlocate
  case h_2 => cases h

/-- A path that led to a file leads there after another has been written, to other bytes only if it
is the one that was written. -/
theorem Keeps.locate_of_written
    {d d' : Disk} {p q : Path} {out location : Location} {bytes bytes' : Bytes}
    (hk : d.Keeps {out} d') (hp : d'.locate p = .ok (.file out bytes))
    (hq : d.locate q = .ok (.file location bytes')) :
  d'.locate q = .ok (.file location (if location = out then bytes else bytes'))
  := by
  obtain ⟨after, hafter, hsame⟩ := hk.locate_file hq
  rw [hafter]
  split
  case isTrue h =>
    subst h
    have hlookup : some (Entry.file after) = some (.file bytes) :=
      (lookup_of_locate hafter).symm.trans (lookup_of_locate hp)
    cases hlookup
    rfl
  case isFalse h => rw [hsame (by simpa using h)]

end Disk

end Inlay
