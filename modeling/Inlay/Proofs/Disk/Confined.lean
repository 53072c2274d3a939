import Inlay.Proofs.Disk.Written

/-!
# Where writing changes a disk

Writing to a path changes a disk only where the path leads afterwards: to the file whose bytes are
written, and at its fronts to directories that are new (`confined_write`).  This holds whether the
writing succeeds or not.  The fronts are those of the path as it is spelled: behind a double dot or a
link the new directory lies elsewhere than the names of the front say.
-/

namespace Inlay

/-- The path through the first segments of a path. -/
def Path.front (p : Path) (k : Nat) : Path :=
  ⟨p.anchor, p.segments.take k⟩

namespace Disk

/-! ### Longer walks -/

section

variable {d : Disk} {location found : Location} {s : Segment}

/-- A walk that comes to a directory can go on to one in it. -/
theorem Goes.concat
    {segments : List Segment} {stop : Stop} (hs : s ≠ Segment.up)
    (hsize : Utf8.size s.text ≤ maxSegmentBytes) (hnext : d.lookup (found ++ [s]) = some .directory)
    (h : d.Goes location segments stop) (hstop : stop = .place (.directory found)) :
  d.Goes location (segments ++ [s]) (.place (.directory (found ++ [s])))
  := by
  induction h with
  | file => cases hstop
  | directory h =>
    cases hstop
    exact .on h hs hsize hnext (by simp) (.directory hnext)
  | up h _ ih => exact .up h (ih hstop)
  | vacant => cases hstop
  | link => cases hstop
  | on h hs' hsize' hnext' hentry _ ih => exact .on h hs' hsize' hnext' hentry (ih hstop)

/-- A walk that comes to a link comes to it with one more segment to go. -/
theorem Goes.concat_link
    {segments rest : List Segment} {stop : Stop} {directory : Location} {target : Target}
    (h : d.Goes location segments stop) (hstop : stop = .link directory target rest) (s : Segment) :
  d.Goes location (segments ++ [s]) (.link directory target (rest ++ [s]))
  := by
  induction h with
  | file => cases hstop
  | directory => cases hstop
  | up h _ ih => exact .up h (ih hstop)
  | vacant => cases hstop
  | link h hs hsize hnext =>
    cases hstop
    exact .link h hs hsize hnext
  | on h hs hsize hnext hentry _ ih => exact .on h hs hsize hnext hentry (ih hstop)

/-- What finds a directory finds one in it with one more segment. -/
theorem Walks.concat
    {links : Nat} {route : Route} {place : Place} (hs : s ≠ Segment.up)
    (hsize : Utf8.size s.text ≤ maxSegmentBytes) (hnext : d.lookup (found ++ [s]) = some .directory)
    (h : d.Walks .find links location route place) (hplace : place = .directory found)
    (toDirectory : Bool) :
  d.Walks .find links location ⟨route.segments ++ [s], toDirectory⟩ (.directory (found ++ [s]))
  := by
  induction h generalizing toDirectory with
  | place h _ =>
    subst hplace
    exact .place (h.concat hs hsize hnext rfl) fun _ => ⟨_, rfl⟩
  | @link links location route directory target rest place h _ ih =>
    apply Walks.link (h.concat_link rfl s)
    obtain ⟨_, hroute⟩ := route_find target ⟨rest, route.toDirectory⟩
    obtain ⟨asked, hroute'⟩ := route_find target ⟨rest ++ [s], toDirectory⟩
    have hrest := ih hplace asked
    rw [hroute, List.append_assoc] at hrest
    rw [hroute']
    exact hrest

end

/-! ### Confined changes -/

/-- One of the paths leads to a file at the location, where no directory or link was before. -/
structure IsWritten (paths : Set Path) (d d' : Disk) (location : Location) : Prop where
  before : d.lookup location = none ∨ ∃ bytes, d.lookup location = some (.file bytes)
  after : ∃ p ∈ paths, ∃ bytes, d'.locate p = .ok (.file location bytes)

/-- A proper front of one of the paths leads to a directory at the location, where nothing was
before. -/
structure IsMade (paths : Set Path) (d d' : Disk) (location : Location) : Prop where
  before : d.lookup location = none
  after : ∃ p ∈ paths, ∃ k < p.segments.length, d'.locate (p.front k) = .ok (.directory location)

/-- The second disk differs from the first one only in what has been written to some paths and in
the directories that have been made for it. -/
structure Confined (paths : Set Path) (d d' : Disk) : Prop where
  current : d'.current = d.current
  lookup : ∀ location, d'.lookup location = d.lookup location
    ∨ d.IsWritten paths d' location ∨ d.IsMade paths d' location

section

variable {paths paths' : Set Path} {changed : Set Location} {d d' d'' : Disk} {location : Location}

theorem IsWritten.exists_lookup (h : IsWritten paths d d' location) :
  ∃ bytes, d'.lookup location = some (.file bytes)
  := by
  obtain ⟨p, -, bytes, hp⟩ := h.after
  exact ⟨bytes, lookup_of_locate hp⟩

theorem IsMade.lookup_eq (h : IsMade paths d d' location) :
  d'.lookup location = some .directory
  := by
  obtain ⟨p, -, k, -, hp⟩ := h.after
  exact lookup_of_locate hp

/-- A path that leads to a file leads to it after more has changed. -/
theorem IsWritten.of_keeps (h : IsWritten paths d d' location) (hk : d'.Keeps changed d'') :
  IsWritten paths d d'' location
  := by
  obtain ⟨p, hp, bytes, hlocate⟩ := h.after
  obtain ⟨bytes', hlocate', -⟩ := hk.locate_file hlocate
  exact ⟨h.before, p, hp, bytes', hlocate'⟩

/-- A path that leads to a directory leads to it after more has changed. -/
theorem IsMade.of_keeps (h : IsMade paths d d' location) (hk : d'.Keeps changed d'') :
  IsMade paths d d'' location
  := by
  obtain ⟨p, hp, k, hlt, hlocate⟩ := h.after
  have hlookup := hk.directory h.lookup_eq
  exact ⟨h.before, p, hp, k, hlt, hk.locate hlocate rfl hlookup (by simp [Place.entry?])⟩

namespace Confined

theorem refl (paths : Set Path) (d : Disk) :
  d.Confined paths d
  := ⟨rfl, fun _ => .inl rfl⟩

theorem mono (h : d.Confined paths d') (hsub : paths ⊆ paths') :
  d.Confined paths' d'
  := by
  use h.current
  intro location
  rcases h.lookup location with hsame | ⟨hbefore, p, hp, hafter⟩ | ⟨hbefore, p, hp, hafter⟩
  · exact .inl hsame
  · exact .inr (.inl ⟨hbefore, p, hsub hp, hafter⟩)
  · exact .inr (.inr ⟨hbefore, p, hsub hp, hafter⟩)

/-- What was there is kept, but for the bytes of files that have been written. -/
theorem keeps (h : d.Confined paths d') :
  d.Keeps {location | d.IsWritten paths d' location} d'
  := by
  use h.current
  intro location entry hentry
  rcases h.lookup location with hsame | hwritten | hmade
  · left
    rw [hsame, hentry]
  · right
    obtain ⟨bytes', hbytes'⟩ := hwritten.exists_lookup
    rcases hwritten.before with hnone | ⟨bytes, hbytes⟩
    · rw [hnone] at hentry
      cases hentry
    · rw [hbytes] at hentry
      cases hentry
      exact ⟨hwritten, bytes, bytes', rfl, hbytes'⟩
  · rw [hmade.before] at hentry
    cases hentry

theorem trans (h : d.Confined paths d') (h' : d'.Confined paths d'') :
  d.Confined paths d''
  := by
  use h'.current.trans h.current
  intro location
  rcases h'.lookup location with hsame' | hwritten' | hmade'
  · rw [hsame']
    rcases h.lookup location with hsame | hwritten | hmade
    · exact .inl hsame
    · exact .inr (.inl (hwritten.of_keeps h'.keeps))
    · exact .inr (.inr (hmade.of_keeps h'.keeps))
  · -- Where a file has been written in the end, none or a file was before, and so at first.
    right; left
    refine ⟨?_, hwritten'.after⟩
    rcases h.lookup location with hsame | hwritten | hmade
    · rw [← hsame]
      exact hwritten'.before
    · exact hwritten.before
    · exact .inl hmade.before
  · right; right
    refine ⟨?_, hmade'.after⟩
    rcases h.lookup location with hsame | hwritten | hmade
    · rw [← hsame]
      exact hmade'.before
    · obtain ⟨bytes, hbytes⟩ := hwritten.exists_lookup
      rw [hmade'.before] at hbytes
      cases hbytes
    · exact hmade.before

end Confined

end

/-- An entry that is put at one location. -/
theorem Confined.set
    {paths : Set Path} {d : Disk} {location : Location} {entry : Entry} (hroot : location ≠ [])
    (h : d.IsWritten paths (d.set location entry) location
      ∨ d.IsMade paths (d.set location entry) location) :
  d.Confined paths (d.set location entry)
  := by
  use rfl
  intro other
  by_cases hother : other = location
  · subst hother
    exact .inr h
  · left
    rw [lookup_set d hroot, if_neg hother]

/-! ### Directories -/

/-- The path of a directory that has been made leads to it. -/
theorem exists_set_of_makeDirectory_eq_ok {d d' : Disk} {p : Path} (h : d.makeDirectory p = .ok d') :
  p.segments ≠ [] ∧ ∃ made, made ≠ [] ∧ d.lookup made = none ∧ d' = d.set made .directory
    ∧ d'.locate p = .ok (.directory made)
  := by
  have hk := keeps_of_makeDirectory h
  obtain ⟨above, last, location, hsegments, hunfit, hwalks, hup, hsize, hvacant, rfl⟩ :=
    of_makeDirectory_eq_ok h
  have hroot : location ++ [last] ≠ [] := by simp
  constructor
  · simp [hsegments]
  · use location ++ [last], hroot, hvacant, rfl
    apply locate_eq_ok_iff.2
    use hunfit
    rw [hk.start_eq, hsegments]
    -- The directory above is still found, and now the new one is in it.
    have habove : (d.set (location ++ [last]) .directory).Walks .find maxLinks (d.start p)
        ⟨above, false⟩ (.directory location) :=
      hwalks.keeps hk rfl (hk.directory hwalks.lookup_eq) (by simp [Place.entry?])
    apply habove.concat hup hsize _ rfl
    rw [lookup_set d hroot, if_pos rfl]

/-- The directories above a path are made for it. -/
theorem confined_ensureDirectories (d : Disk) (maxMissing : Nat) (p : Path) :
  d.Confined {p} (d.ensureDirectories maxMissing p.parent).1
  := by
  apply ensureFrom_induction (Confined.refl {p}) Confined.trans
  intro above habove d d' hmade
  obtain ⟨hfront, location, hroot, hvacant, rfl, hlocate⟩ := exists_set_of_makeDirectory_eq_ok hmade
  have hparent : above.reverse <+: p.segments.dropLast := by
    have hreverse := List.reverse_prefix.2 habove
    rwa [List.reverse_reverse] at hreverse
  have htake : above.reverse = p.segments.take above.reverse.length :=
    List.prefix_iff_eq_take.1 (hparent.trans (List.dropLast_prefix _))
  have hlt : above.reverse.length < p.segments.length := by
    have hle := hparent.length_le
    have hpos := List.length_pos_iff.2 hfront
    rw [List.length_dropLast] at hle
    dsimp only at hpos
    omega
  apply Confined.set hroot
  right
  use hvacant, p, rfl, above.reverse.length, hlt
  rw [Path.front, ← htake]
  exact hlocate

/-! ### Files -/

theorem confined_setFile (d : Disk) (p : Path) (bytes : Bytes) :
  d.Confined {p} (d.setFile p bytes).1
  := by
  cases hset : d.setFile p bytes with
  | mk d' outcome =>
    cases outcome with
    | ok _ =>
      obtain ⟨out, hbefore, rfl, hreach⟩ := exists_set_of_setFile_eq_ok hset
      have hlocate := locate_of_reach_write hreach (by simp)
      apply Confined.set
      · rintro rfl
        rcases hbefore with hnone | ⟨old, hold⟩
        · cases hnone
        · cases hold
      · exact .inl ⟨hbefore, p, rfl, bytes, hlocate⟩
    | error e =>
      rw [setFile] at hset
      split at hset <;> cases hset
      · apply Confined.refl
      · apply Confined.refl

/-- Writing to a path changes what it leads to and makes the directories above it; nothing else. -/
theorem confined_write (d : Disk) (maxMissing : Nat) (p : Path) (bytes : Bytes) :
  d.Confined {p} (d.write maxMissing p bytes).1
  := by
  have hmade := d.confined_ensureDirectories maxMissing p
  rw [write]
  split
  case h_1 made hensure =>
    rw [hensure] at hmade
    exact hmade.trans (made.confined_setFile p bytes)
  case h_2 made e hensure =>
    rw [hensure] at hmade
    exact hmade

/-- A name before a double dot is made, though the file does not lie below it. -/
example :
  let d := ((empty []).write 2 (Path.ofText "made/../page".toList) []).1
  d.lookup (Path.segmentsOf "made".toList) = some .directory
    ∧ d.lookup (Path.segmentsOf "page".toList) = some (.file [])
  := by decide +kernel

end Disk

end Inlay
