import Inlay.Disk.Walk
import Mathlib.Tactic.Use

/-!
# Where walks lead

`Goes` and `Walks` say, step by step, where a walk gets that does not fail, up to the first link and
in all.  A property of walks is shown by induction on them.  The walk to a file goes through the
directory above it (`Walks.above`), and does the same whether it is to find or to write
(`Walks.find`).  Only a name that is too long, on the path or on a link, ends a walk by that obstacle
(`locate_ne_nameTooLong`).
-/

namespace Inlay

namespace Disk

/-! ### Up to the first link -/

/-- The segments lead from a location to where a walk stops: at a place, or at the first link. -/
inductive Goes (d : Disk) : Location → List Segment → Stop → Prop
  | file {location bytes} (h : d.lookup location = some (.file bytes)) :
    Goes d location [] (.place (.file location bytes))
  | directory {location} (h : d.lookup location = some .directory) :
    Goes d location [] (.place (.directory location))
  | up {location rest stop} (h : d.lookup location = some .directory)
    (hrest : Goes d location.dropLast rest stop) :
    Goes d location (Segment.up :: rest) stop
  | vacant {location s} (h : d.lookup location = some .directory) (hs : s ≠ Segment.up)
    (hsize : Utf8.size s.text ≤ maxSegmentBytes) (hnext : d.lookup (location ++ [s]) = none) :
    Goes d location [s] (.place (.vacant (location ++ [s])))
  | link {location s rest target} (h : d.lookup location = some .directory) (hs : s ≠ Segment.up)
    (hsize : Utf8.size s.text ≤ maxSegmentBytes)
    (hnext : d.lookup (location ++ [s]) = some (.link target)) :
    Goes d location (s :: rest) (.link location target rest)
  | on {location s rest stop entry} (h : d.lookup location = some .directory) (hs : s ≠ Segment.up)
    (hsize : Utf8.size s.text ≤ maxSegmentBytes) (hnext : d.lookup (location ++ [s]) = some entry)
    (hentry : ∀ target, entry ≠ .link target) (hrest : Goes d (location ++ [s]) rest stop) :
    Goes d location (s :: rest) stop

theorem goes_of_advance
    {d : Disk} {location : Location} {segments : List Segment} {stop : Stop}
    (h : d.advance location segments = .ok stop) :
  d.Goes location segments stop
  := by
  induction segments generalizing location with
  | nil =>
    rw [advance_nil] at h
    split at h
    case h_1 bytes hlookup =>
      cases h
      exact .file hlookup
    case h_2 hlookup =>
      cases h
      exact .directory hlookup
    case h_3 => cases h
  | cons s rest ih =>
    rw [advance_cons] at h
    split at h
    case h_1 hlookup =>
      split at h
      case isTrue hs =>
        subst hs
        exact .up hlookup (ih h)
      case isFalse hs =>
        split at h
        case isTrue => cases h
        case isFalse hsize =>
          have hsize := Nat.le_of_not_lt hsize
          split at h
          case h_1 hnext =>
            split at h
            case isTrue hrest =>
              cases h
              rw [List.isEmpty_iff.1 hrest]
              exact .vacant hlookup hs hsize hnext
            case isFalse => cases h
          case h_2 target hnext =>
            cases h
            exact .link hlookup hs hsize hnext
          case h_3 entry hentry hnext => exact .on hlookup hs hsize hnext hentry (ih h)
    case h_2 => cases h
    case h_3 => cases h

theorem Goes.advance_eq
    {d : Disk} {location : Location} {segments : List Segment} {stop : Stop}
    (h : d.Goes location segments stop) :
  d.advance location segments = .ok stop
  := by
  induction h with
  | file h => rw [advance_nil, h]
  | directory h => rw [advance_nil, h]
  | up h _ ih => rw [advance_cons, h]; simpa using ih
  | vacant h hs hsize hnext =>
    rw [advance_cons, h]
    simp [hs, Nat.not_lt.2 hsize, hnext]
  | link h hs hsize hnext =>
    rw [advance_cons, h]
    simp [hs, Nat.not_lt.2 hsize, hnext]
  | @on location s rest stop entry h hs hsize hnext hentry _ ih =>
    rw [advance_cons, h]
    simp only [hs, Nat.not_lt.2 hsize, hnext]
    cases entry with
    | link target => exact absurd rfl (hentry target)
    | file bytes => exact ih
    | directory => exact ih

/-- `Goes` says where `advance` gets. -/
theorem advance_eq_ok_iff
    {d : Disk} {location : Location} {segments : List Segment} {stop : Stop} :
  d.advance location segments = .ok stop ↔ d.Goes location segments stop
  := ⟨goes_of_advance, Goes.advance_eq⟩

/-! ### Whole walks -/

/-- The location at which the target of a link in a directory starts. -/
def targetStart (directory : Location) (target : Target) : Location :=
  if target.path.isAbsolute then [] else directory

/-- A route leads from a location to a place, past at most a number of links. -/
inductive Walks (d : Disk) (purpose : Purpose) : Nat → Location → Route → Place → Prop
  | place {links location route place} (h : d.Goes location route.segments (.place place))
    (hdirectory : route.toDirectory = true → ∃ found, place = .directory found) :
    Walks d purpose links location route place
  | link {links location route directory target rest place}
    (h : d.Goes location route.segments (.link directory target rest))
    (hrest : Walks d purpose links (targetStart directory target)
      (target.route purpose ⟨rest, route.toDirectory⟩) place) :
    Walks d purpose (links + 1) location route place

/-- A place that passes for a directory is one. -/
theorem eq_directory_of_asDirectory
    {found place : Place} (h : found.asDirectory.map Place.directory = .ok place) :
  found = place ∧ ∃ location, place = .directory location
  := by
  cases found with
  | file => cases h
  | vacant => cases h
  | directory location =>
    cases h
    use rfl, location

theorem walks_of_walk
    {d : Disk} {purpose : Purpose} {links : Nat} {location : Location} {route : Route} {place : Place}
    (h : d.walk purpose links location route = .ok place) :
  d.Walks purpose links location route place
  := by
  fun_induction d.walk purpose links location route with
  | case1 => cases h
  | case2 links location route found hadvance hroute =>
    obtain ⟨rfl, hdirectory⟩ := eq_directory_of_asDirectory h
    exact .place (advance_eq_ok_iff.1 hadvance) fun _ => hdirectory
  | case3 links location route found hadvance hroute =>
    cases h
    exact .place (advance_eq_ok_iff.1 hadvance) fun htrue => absurd htrue hroute
  | case4 => cases h
  | case5 location route directory target rest hadvance links ih =>
    exact .link (advance_eq_ok_iff.1 hadvance) (ih h)

theorem Walks.walk_eq
    {d : Disk} {purpose : Purpose} {links : Nat} {location : Location} {route : Route} {place : Place}
    (h : d.Walks purpose links location route place) :
  d.walk purpose links location route = .ok place
  := by
  induction h with
  | @place links location route place h hdirectory =>
    rw [walk, advance_eq_ok_iff.2 h]
    dsimp only
    split
    case isTrue hroute =>
      obtain ⟨found, rfl⟩ := hdirectory hroute
      rfl
    case isFalse => rfl
  | link h _ ih =>
    rw [walk, advance_eq_ok_iff.2 h]
    exact ih

/-- `Walks` says where `walk` gets. -/
theorem walk_eq_ok_iff
    {d : Disk} {purpose : Purpose} {links : Nat} {location : Location} {route : Route}
    {place : Place} :
  d.walk purpose links location route = .ok place ↔ d.Walks purpose links location route place
  := ⟨walks_of_walk, Walks.walk_eq⟩

/-- A walk comes to one place only. -/
theorem Walks.place_unique
    {d : Disk} {purpose : Purpose} {links : Nat} {location : Location} {route : Route}
    {place place' : Place} (h : d.Walks purpose links location route place)
    (h' : d.Walks purpose links location route place') :
  place = place'
  := Except.ok.inj (h.walk_eq.symm.trans h'.walk_eq)

theorem reach_eq_ok_iff {d : Disk} {purpose : Purpose} {p : Path} {place : Place} :
  d.reach purpose p = .ok place
    ↔ unfit? p = none ∧ d.Walks purpose maxLinks (d.start p) ⟨p.segments, false⟩ place
  := by
  rw [reach, ← walk_eq_ok_iff]
  cases unfit? p with
  | none => simp
  | some obstacle => simp

theorem locate_eq_ok_iff {d : Disk} {p : Path} {place : Place} :
  d.locate p = .ok place
    ↔ unfit? p = none ∧ d.Walks .find maxLinks (d.start p) ⟨p.segments, false⟩ place
  := reach_eq_ok_iff

/-! ### The place -/

end Disk

/-- The location of a place. -/
def Place.location : Place → Location
  | .file location _ => location
  | .directory location => location
  | .vacant location => location

/-- What lies at a place. -/
def Place.entry? : Place → Option Entry
  | .file _ bytes => some (.file bytes)
  | .directory _ => some .directory
  | .vacant _ => none

namespace Disk

variable {d : Disk} {purpose : Purpose} {links : Nat} {location : Location} {place : Place}

theorem Goes.lookup_eq
    {segments : List Segment} {stop : Stop} (h : d.Goes location segments stop)
    (hstop : stop = .place place) :
  d.lookup place.location = place.entry?
  := by
  induction h with
  | file h =>
    cases hstop
    exact h
  | directory h =>
    cases hstop
    exact h
  | up h hrest ih => exact ih hstop
  | vacant h hs hsize hnext =>
    cases hstop
    exact hnext
  | link => cases hstop
  | on h hs hsize hnext hentry hrest ih => exact ih hstop

/-- A walk comes to a place by what lies there. -/
theorem Walks.lookup_eq {route : Route} (h : d.Walks purpose links location route place) :
  d.lookup place.location = place.entry?
  := by
  induction h with
  | place h _ => exact h.lookup_eq rfl
  | link _ _ ih => exact ih

/-- A walk that is to come to a directory does. -/
theorem Walks.exists_eq_directory
    {route : Route} (h : d.Walks purpose links location route place)
    (hroute : route.toDirectory = true) :
  ∃ found, place = .directory found
  := by
  induction h with
  | place _ hdirectory => exact hdirectory hroute
  | link _ _ ih =>
    apply ih
    simp [Target.route, hroute]

/-! ### Finding and writing -/

/-- A walk that is to write and does not come to a directory comes to the same place as one that is
to find. -/
theorem Walks.find
    {route : Route} (h : d.Walks .write links location route place)
    (hplace : ∀ found, place ≠ .directory found) :
  d.Walks .find links location route place
  := by
  induction h with
  | place h hdirectory => exact .place h hdirectory
  | @link links location route directory target rest place h hrest ih =>
    apply Walks.link h
    -- The two routes differ only at a slash, which asks for a directory when writing.
    have hroute : target.route .write ⟨rest, route.toDirectory⟩
        = target.route .find ⟨rest, route.toDirectory⟩ := by
      rw [Target.route, Target.route]
      split
      case isTrue hend =>
        cases hending : target.ending with
        | segment => simp [Target.ownRoute, hending]
        | dot => simp [Target.ownRoute, hending]
        | slash =>
          have hdirectory : (target.route .write ⟨rest, route.toDirectory⟩).toDirectory = true := by
            simp only [Target.route, hend, if_true, Target.ownRoute, hending]
          obtain ⟨found, hfound⟩ := hrest.exists_eq_directory hdirectory
          exact absurd hfound (hplace found)
      case isFalse => rfl
    rw [← hroute]
    exact ih hplace

/-! ### The directory above -/

theorem Goes.above
    {segments : List Segment} {s : Segment} {stop : Stop}
    (h : d.Goes location (segments ++ [s]) stop) :
  (∃ found, d.Goes location segments (.place (.directory found)))
    ∨ ∃ directory target rest, stop = .link directory target (rest ++ [s])
        ∧ d.Goes location segments (.link directory target rest)
  := by
  induction segments generalizing location with
  | nil =>
    left
    cases h with
    | up h => exact ⟨_, .directory h⟩
    | vacant h => exact ⟨_, .directory h⟩
    | link h => exact ⟨_, .directory h⟩
    | on h => exact ⟨_, .directory h⟩
  | cons s' segments ih =>
    have hkeep : ∀ {onward : Location} {stop : Stop},
        (∀ {stop'}, d.Goes onward segments stop' → d.Goes location (s' :: segments) stop') →
        (∃ found, d.Goes onward segments (.place (.directory found)))
          ∨ (∃ directory target rest, stop = .link directory target (rest ++ [s])
              ∧ d.Goes onward segments (.link directory target rest)) →
        (∃ found, d.Goes location (s' :: segments) (.place (.directory found)))
          ∨ ∃ directory target rest, stop = .link directory target (rest ++ [s])
              ∧ d.Goes location (s' :: segments) (.link directory target rest) := by
      rintro onward stop hgo (⟨found, hfound⟩ | ⟨directory, target, rest, rfl, hlink⟩)
      · exact .inl ⟨found, hgo hfound⟩
      · exact .inr ⟨directory, target, rest, rfl, hgo hlink⟩
    rw [List.cons_append] at h
    generalize htail : segments ++ [s] = tail at h
    cases h with
    | up h hrest =>
      subst htail
      exact hkeep (.up h) (ih hrest)
    | vacant => simp at htail
    | link h hs' hsize hnext =>
      subst htail
      exact .inr ⟨_, _, _, rfl, .link h hs' hsize hnext⟩
    | on h hs' hsize hnext hentry hrest =>
      subst htail
      exact hkeep (.on h hs' hsize hnext hentry) (ih hrest)

/-- A route that is to find goes through all segments of the target. -/
theorem route_find (target : Target) (onward : Route) :
  ∃ toDirectory, target.route .find onward
    = ⟨target.path.segments ++ onward.segments, toDirectory⟩
  := by
  rw [Target.route]
  split
  case isTrue hend =>
    obtain ⟨hsegments, -⟩ := Bool.and_eq_true_iff.1 hend
    rw [List.isEmpty_iff.1 hsegments, List.append_nil]
    cases hending : target.ending with
    | segment => exact ⟨false, by simp only [Target.ownRoute, hending]⟩
    | slash => exact ⟨true, by simp only [Target.ownRoute, hending]⟩
    | dot => exact ⟨true, by simp only [Target.ownRoute, hending]⟩
  case isFalse => exact ⟨onward.toDirectory, rfl⟩

/-- A walk past a directory comes to it if it is to go no further. -/
theorem Walks.above
    {segments : List Segment} {s : Segment} {toDirectory : Bool}
    (h : d.Walks .find links location ⟨segments ++ [s], toDirectory⟩ place) (toDirectory' : Bool) :
  ∃ found, d.Walks .find links location ⟨segments, toDirectory'⟩ (.directory found)
  := by
  generalize hroute : Route.mk (segments ++ [s]) toDirectory = route at h
  induction h generalizing segments toDirectory toDirectory' with
  | place h hdirectory =>
    subst hroute
    rcases h.above with ⟨found, hfound⟩ | ⟨directory, target, rest, hstop, -⟩
    · exact ⟨found, .place hfound fun _ => ⟨found, rfl⟩⟩
    · cases hstop
  | @link links location route directory target rest place h hrest ih =>
    subst hroute
    rcases h.above with ⟨found, hfound⟩ | ⟨directory', target', rest', hstop, hlink⟩
    · exact ⟨found, .place hfound fun _ => ⟨found, rfl⟩⟩
    · cases hstop
      obtain ⟨_, hroute⟩ := route_find target ⟨rest' ++ [s], toDirectory⟩
      obtain ⟨asked, hroute'⟩ := route_find target ⟨rest', toDirectory'⟩
      obtain ⟨found, hfound⟩ := ih asked (by rw [hroute, ← List.append_assoc])
      use found
      apply Walks.link hlink
      rw [hroute']
      exact hfound

/-! ### Answers -/

variable {p : Path}

theorem isFile_eq_true_iff :
  d.isFile p = .ok true ↔ ∃ location bytes, d.locate p = .ok (.file location bytes)
  := by
  rw [isFile]
  split
  case h_1 location bytes h => simp [h]
  case h_2 h => simp [h]
  case h_3 h _ =>
    constructor
    · intro hfalse
      cases hfalse
    · rintro ⟨location, bytes, hlocate⟩
      exact absurd hlocate (h location bytes)

/-- It cannot be told whether a path leads to a file exactly if it is too long. -/
theorem isFile_eq_error_iff {e : FileError} :
  d.isFile p = .error e ↔ d.locate p = .error .nameTooLong ∧ e = ⟨.nameTooLong, p⟩
  := by
  rw [isFile]
  split
  case h_1 location bytes h => simp [h]
  case h_2 h => simp [h, eq_comm]
  case h_3 h =>
    constructor
    · intro hfalse
      cases hfalse
    · rintro ⟨hlocate, -⟩
      exact (h hlocate).elim

theorem read_of_locate {found : Location} {bytes : Bytes} (h : d.locate p = .ok (.file found bytes)) :
  d.read p = .ok bytes
  := by
  rw [read, h]

/-- What can be read is a file. -/
theorem exists_locate_of_read {bytes : Bytes} (h : d.read p = .ok bytes) :
  ∃ found, d.locate p = .ok (.file found bytes)
  := by
  rw [read] at h
  split at h
  case h_1 found bytes' hlocate =>
    cases h
    exact ⟨found, hlocate⟩
  all_goals cases h

/-! ### Long names -/

end Disk

/-- A segment is a name that can be looked up. -/
def Segment.Fits (s : Segment) : Prop :=
  Utf8.size s.text ≤ maxSegmentBytes

instance (s : Segment) : Decidable s.Fits :=
  inferInstanceAs (Decidable (_ ≤ _))

/-- A path is short enough, and so are the names on it. -/
structure Path.Fits (p : Path) : Prop where
  size_le : Utf8.size p.toText ≤ maxPathBytes
  segments : ∀ s ∈ p.segments, s.Fits

instance (p : Path) : Decidable p.Fits :=
  decidable_of_iff (Utf8.size p.toText ≤ maxPathBytes ∧ ∀ s ∈ p.segments, s.Fits)
    ⟨fun h => ⟨h.1, h.2⟩, fun h => ⟨h.size_le, h.segments⟩⟩

namespace Disk

variable {d : Disk} {location : Location}

/-- All names on the targets of links are short enough. -/
def LinksFit (d : Disk) : Prop :=
  ∀ location target, d.lookup location = some (.link target) → ∀ s ∈ target.path.segments, s.Fits

theorem advance_ne_nameTooLong
    {segments : List Segment} (h : ∀ s ∈ segments, s.Fits) :
  d.advance location segments ≠ .error .nameTooLong
  := by
  induction segments generalizing location with
  | nil =>
    rw [advance_nil]
    split <;> simp
  | cons s rest ih =>
    obtain ⟨hs, hrest⟩ := List.forall_mem_cons.1 h
    rw [advance_cons, if_neg (Nat.not_lt.2 hs)]
    split
    · split
      · apply ih hrest
      · split
        · split
          · simp
          · simp
        · simp
        · apply ih hrest
    · simp
    · simp

/-- A walk that stops at a link has some of its segments still to go. -/
theorem Goes.rest_subset
    {segments rest : List Segment} {stop : Stop} {directory : Location} {target : Target}
    (h : d.Goes location segments stop) (hstop : stop = .link directory target rest) :
  (∀ s ∈ rest, s ∈ segments) ∧ ∃ at', d.lookup at' = some (.link target)
  := by
  induction h with
  | file => cases hstop
  | directory => cases hstop
  | vacant => cases hstop
  | up _ _ ih =>
    obtain ⟨hsub, hlink⟩ := ih hstop
    exact ⟨fun s hs => List.mem_cons_of_mem _ (hsub s hs), hlink⟩
  | link _ _ _ hnext =>
    cases hstop
    exact ⟨fun s hs => List.mem_cons_of_mem _ hs, _, hnext⟩
  | on _ _ _ _ _ _ ih =>
    obtain ⟨hsub, hlink⟩ := ih hstop
    exact ⟨fun s hs => List.mem_cons_of_mem _ (hsub s hs), hlink⟩

theorem walk_ne_nameTooLong
    (hd : d.LinksFit) {links : Nat} {route : Route} (h : ∀ s ∈ route.segments, s.Fits) :
  d.walk .find links location route ≠ .error .nameTooLong
  := by
  fun_induction d.walk .find links location route with
  | case1 links location route obstacle hadvance =>
    rintro hobstacle
    cases hobstacle
    exact advance_ne_nameTooLong h hadvance
  | case2 links location route found hadvance hroute =>
    cases found <;> simp [Place.asDirectory, Except.map]
  | case3 => simp
  | case4 => simp
  | case5 location route directory target rest hadvance links ih =>
    apply ih
    obtain ⟨hsub, at', hlink⟩ := (advance_eq_ok_iff.1 hadvance).rest_subset rfl
    obtain ⟨_, hroute⟩ := route_find target ⟨rest, route.toDirectory⟩
    rw [hroute]
    intro s hs
    rcases List.mem_append.1 hs with hs | hs
    · exact hd _ _ hlink s hs
    · exact h s (hsub s hs)

/-- Only through a name that is too long is a path too long. -/
theorem locate_ne_nameTooLong (hd : d.LinksFit) {p : Path} (h : p.Fits) :
  d.locate p ≠ .error .nameTooLong
  := by
  rw [locate, reach, unfit?]
  split
  case h_1 obstacle hunfit =>
    rw [if_neg (Nat.not_lt.2 h.size_le)] at hunfit
    split at hunfit
    · cases hunfit
      simp
    · cases hunfit
  case h_2 => exact walk_ne_nameTooLong hd h.segments

/-- A name that is too long cannot be looked up. -/
theorem isFile_of_long
    (d : Disk) {s : Segment} (hs : s ≠ Segment.up) (hlong : maxSegmentBytes < Utf8.size s.text)
    (hunfit : unfit? ⟨.root, [s]⟩ = none) :
  d.isFile ⟨.root, [s]⟩ = .error ⟨.nameTooLong, ⟨.root, [s]⟩⟩
  := by
  apply isFile_eq_error_iff.2
  constructor
  · have hstart : d.start ⟨.root, [s]⟩ = [] := rfl
    rw [locate, reach, hunfit]
    dsimp only
    rw [walk, advance_cons, hstart, lookup_nil]
    simp [hs, hlong]
  · rfl

end Disk

end Inlay
