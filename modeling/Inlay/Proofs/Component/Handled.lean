import Inlay.Proofs.Component.Branch
import Inlay.Proofs.Component.Occurrence
import Inlay.Proofs.Component.Visited
import Inlay.Proofs.Reference.Met

/-!
# The tokens that a frame handles

An expansion goes through the pieces of a text one after another, and while a frame waits for a
component its other pieces wait as well.  So a frame handles the tokens of its text in order, each
once and with one event, and no others, unless the expansion ends before by a path that is too long
(`tokens_are_found_and_handled`).  Nothing else ends it, since all files of a disk can be read.
-/

namespace Inlay

/-- The error is that of a path that is too long to be looked up on the disk. -/
def FileError.IsOfLongPath (d : Disk) (e : FileError) : Prop :=
  e.obstacle = .nameTooLong ∧ d.locate e.path = .error .nameTooLong

namespace Component

variable {d : Disk} {root base : Path}

/-! ### Scripts, images and failures -/

/-- The events of the scripts and the images of a text are not of components. -/
theorem kind_ne_component_of_embedAssets
    {t : Text} {e : Event} (he : e ∈ (embedAssets d base root t).events) :
  e.kind ≠ .component
  := by
  rw [← Pass.runAll_assets] at he
  obtain ⟨s, status, hmeets, -, rfl⟩ := (from_runAll d root _ t).event e he
  exact hmeets.kind_ne_component (by simp)

/-- The scripts and the images of a text fail only at a path that is too long: their files can all be
read. -/
theorem error_of_embedAssets
    {t : Text} {events : List Event} {e : FileError}
    (h : embedAssets d base root t = ⟨events, .error e⟩) :
  e.IsOfLongPath d
  := by
  have houtcome : (Pass.runAll d root [.scripts base, .images base] t).outcome = .error e := by
    rw [Pass.runAll_assets, h]
  obtain ⟨s, -, hstatus⟩ := (from_runAll d root _ t).error e houtcome
  obtain ⟨-, hlocate, rfl⟩ := Site.status_eq_error_iff.1 hstatus
  exact ⟨rfl, hlocate⟩

/-- A token fails only if its path is too long: the files of components can all be read. -/
theorem error_of_visit
    {visited : List Path} {reference : Text} {path : Path} {e : FileError}
    (h : visit d visited reference path = .error e) :
  e.IsOfLongPath d
  := by
  cases hfile : d.isFile path with
  | error e' =>
    rw [visit_of_error hfile] at h
    cases h
    obtain ⟨hlocate, rfl⟩ := Disk.isFile_eq_error_iff.1 hfile
    exact ⟨rfl, hlocate⟩
  | ok found =>
    cases found with
    | false =>
      rw [visit_of_missing hfile] at h
      cases h
    | true =>
      by_cases hmem : path ∈ visited
      · rw [visit_of_open hfile hmem] at h
        cases h
      · obtain ⟨body, hbody⟩ := Disk.exists_readReplacing_of_isFile hfile
        rw [visit_of_file hfile hmem hbody] at h
        cases h

/-! ### Handling tokens -/

/-- A token that a step handles: how many frames wait meanwhile, and the events that it leaves. -/
structure Handling where
  depth : Nat
  token : Token
  events : List Event

/-- The token leaves one event, that of a component with the token's reference. -/
def Handling.IsRecorded (h : Handling) : Prop :=
  ∃ path status, h.events = [⟨.component, h.token.reference, some path, status⟩]

/-- The tokens among those handled for which `depth` frames waited. -/
def tokensAt (depth : Nat) (handled : List Handling) : List Token :=
  (handled.filter (·.depth = depth)).map Handling.token

/-- The tokens that are still to come in a frame. -/
def Frame.tokens (f : Frame) : List Token :=
  f.pending.filterMap Piece.token?

namespace Expansion

/-- Steps lead from one expansion to another, and `handled` are the tokens that they handle. -/
inductive Handles (d : Disk) (root : Path) : Expansion → List Handling → Expansion → Prop
  | refl (e) : Handles d root e [] e
  /-- The first step handles a token. -/
  | token {e later last x pending events handled} (hpending : e.frame.pending = .token x :: pending)
    (hstep : e.step d root = .next later) (hlog : later.log = events.reverse ++ e.log)
    (h : Handles d root later handled last) :
    Handles d root e (⟨e.waiting.length, x, events⟩ :: handled) last
  /-- The first step copies a gap or closes a component. -/
  | other {e later last handled} (hpending : ∀ x pending, e.frame.pending ≠ .token x :: pending)
    (hstep : e.step d root = .next later) (h : Handles d root later handled last) :
    Handles d root e handled last

variable {e later last : Expansion} {handled handled' : List Handling}

theorem Handles.trans
    (h : Handles d root e handled later) (h' : Handles d root later handled' last) :
  Handles d root e (handled ++ handled') last
  := by
  induction h with
  | refl => exact h'
  | token hpending hstep hlog _ ih => exact .token hpending hstep hlog (ih h')
  | other hpending hstep _ ih => exact .other hpending hstep (ih h')

/-- Where the next step ends the expansion, nothing more is handled. -/
theorem Handles.eq_nil
    {r : Expanded} (h : Handles d root e handled last) (hstep : e.step d root = .finished r) :
  handled = []
  := by
  cases h with
  | refl => rfl
  | token _ hnext =>
    rw [hstep] at hnext
    cases hnext
  | other _ hnext =>
    rw [hstep] at hnext
    cases hnext

theorem Handles.leads (h : Handles d root e handled last) :
  Leads d root e last
  := by
  induction h with
  | refl => exact .refl
  | token _ hstep _ _ ih => exact ih.of_step hstep
  | other _ hstep _ ih => exact ih.of_step hstep

/-- A step that handles a token leaves one event, that of a component with the token's reference. -/
theorem isRecorded_of_step
    {x : Token} {pending : List (Piece Token)} {events : List Event}
    (hpending : e.frame.pending = .token x :: pending) (hstep : e.step d root = .next later)
    (hlog : later.log = events.reverse ++ e.log) :
  Handling.IsRecorded ⟨e.waiting.length, x, events⟩
  := by
  have hone : ∀ {event : Event} {log : List Event}, event :: log = events.reverse ++ log →
      events = [event] := by
    intro event log heq
    have hreverse : events.reverse = [event] := List.append_left_injective log heq.symm
    rw [← List.reverse_reverse events, hreverse]
    rfl
  cases moves_of_step_eq_next hstep with
  | gap => cases hpending
  | leave base done x' pending' waiting visited log status comment hvisit =>
    cases hpending
    exact ⟨_, status, hone hlog⟩
  | enter base done x' pending' waiting visited log body hvisit =>
    cases hpending
    exact ⟨_, .inlined, hone hlog⟩
  | pop => cases hpending

/-- Any other step leaves no event of a component. -/
theorem exists_log_of_step
    (hpending : ∀ x pending, e.frame.pending ≠ .token x :: pending)
    (hstep : e.step d root = .next later) :
  ∃ logged : List Event, later.log = logged.reverse ++ e.log
    ∧ ∀ event ∈ logged, event.kind ≠ .component
  := by
  cases moves_of_step_eq_next hstep with
  | gap => exact ⟨[], rfl, by simp⟩
  | leave => exact absurd rfl (hpending _ _)
  | enter => exact absurd rfl (hpending _ _)
  | pop base done path outer waiting visited log t events hembed =>
    use events, rfl
    intro event hevent
    have hmem : event ∈ (embedAssets d path.parent root done.reverse.flatten).events := by
      rw [hembed]
      exact hevent
    exact kind_ne_component_of_embedAssets hmem

/-- Every token that is handled leaves one event, and no other events of components are left. -/
structure Logs (e : Expansion) (handled : List Handling) (last : Expansion) : Prop where
  isRecorded : ∀ h ∈ handled, h.IsRecorded
  exists_log : ∃ logged : List Event, last.log = logged.reverse ++ e.log
    ∧ logged.filter (·.kind = .component) = handled.flatMap Handling.events

theorem Handles.logs (h : Handles d root e handled last) :
  Logs e handled last
  := by
  induction h with
  | refl => exact ⟨by simp, [], rfl, rfl⟩
  | @token e later last x pending events handled hpending hstep hlog _ ih =>
    obtain ⟨hrecorded, logged, hlast, hfilter⟩ := ih
    have hfirst := isRecorded_of_step hpending hstep hlog
    constructor
    · exact List.forall_mem_cons.2 ⟨hfirst, hrecorded⟩
    · use events ++ logged
      constructor
      · rw [hlast, hlog]
        simp
      · obtain ⟨path, status, hevents⟩ := hfirst
        have hall : events.filter (·.kind = .component) = events := by
          rw [show events = [_] from hevents]
          rfl
        rw [List.filter_append, hall, hfilter, List.flatMap_cons]
  | @other e later last handled hpending hstep _ ih =>
    obtain ⟨hrecorded, logged, hlast, hfilter⟩ := ih
    obtain ⟨logged', hlog, hkind⟩ := exists_log_of_step hpending hstep
    use hrecorded, logged' ++ logged
    constructor
    · rw [hlast, hlog]
      simp
    · rw [List.filter_append, hfilter, List.filter_eq_nil_iff.2 (by simpa using hkind)]
      rfl

/-! ### The pieces of a frame -/

/-- What takes the place of a piece: a gap is copied, and some text comes for a token. -/
inductive Fills : Piece Token → Text → Prop
  | gap (t) : Fills (.gap t) t
  | token (x t) : Fills (.token x) t

/-- Steps take the first pieces of a frame, handling their tokens and else only tokens of components
that they open, and close these again. -/
structure Advances (d : Disk) (root : Path) (e : Expansion) (taken : List (Piece Token))
    (handled : List Handling) (later : Expansion) : Prop where
  handles : Handles d root e handled later
  pending_eq : e.frame.pending = taken ++ later.frame.pending
  exists_parts : ∃ parts, List.Forall₂ Fills taken parts
    ∧ later.frame = ⟨e.frame.base, parts.reverse ++ e.frame.done, later.frame.pending⟩
  waiting_eq : later.waiting = e.waiting
  visited_eq : later.visited = e.visited
  tokens_eq : tokensAt e.waiting.length handled = taken.filterMap Piece.token?
  le_depth : ∀ h ∈ handled, e.waiting.length ≤ h.depth

/-- The next step ends the expansion, since a path is too long. -/
def Fails (d : Disk) (root : Path) (e : Expansion) : Prop :=
  ∃ r error, e.step d root = .finished r ∧ r.recorded.outcome = .error error ∧ error.IsOfLongPath d

/-- The expansion fails at a token of the frame, or while the frame waits for a component: so far
the first tokens of the frame have been handled, and the others are still to come. -/
structure StopsShort (d : Disk) (root : Path) (e : Expansion) (handled : List Handling)
    (last : Expansion) : Prop where
  handles : Handles d root e handled last
  fails : last.Fails d root
  unfinished :
    (∃ x pending, last.frame.pending = .token x :: pending ∧ last.waiting = e.waiting
      ∧ e.frame.tokens = tokensAt e.waiting.length handled ++ last.frame.tokens)
    ∨ ∃ above path outer, last.waiting = above ++ (path, outer) :: e.waiting
      ∧ e.frame.tokens = tokensAt e.waiting.length handled ++ outer.tokens
  le_depth : ∀ h ∈ handled, e.waiting.length ≤ h.depth

/-- Steps lead through all pieces of a frame, or a path that is too long ends them before. -/
def GoesOrStops (d : Disk) (root : Path) (e : Expansion) : Prop :=
  ∃ handled last, Advances d root e e.frame.pending handled last ∨ StopsShort d root e handled last

end Expansion

/-! ### Tokens at a depth -/

theorem tokensAt_append (depth : Nat) (handled handled' : List Handling) :
  tokensAt depth (handled ++ handled') = tokensAt depth handled ++ tokensAt depth handled'
  := by
  simp [tokensAt]

theorem tokensAt_cons_self
    (depth : Nat) (x : Token) (events : List Event) (handled : List Handling) :
  tokensAt depth (⟨depth, x, events⟩ :: handled) = x :: tokensAt depth handled
  := by
  simp [tokensAt]

/-- Tokens that are handled deeper down are not the frame's. -/
theorem tokensAt_eq_nil
    {depth : Nat} {handled : List Handling} (h : ∀ x ∈ handled, depth < x.depth) :
  tokensAt depth handled = []
  := by
  rw [tokensAt, List.map_eq_nil_iff, List.filter_eq_nil_iff]
  intro x hx
  have := h x hx
  simp only [decide_eq_true_eq]
  omega

namespace Expansion

variable {e later last : Expansion} {handled handled' : List Handling}
  {taken taken' : List (Piece Token)}

/-! ### One piece after another -/

theorem advances_refl (d : Disk) (root : Path) (e : Expansion) :
  Advances d root e [] [] e
  where
  handles := .refl e
  pending_eq := rfl
  exists_parts := ⟨[], .nil, rfl⟩
  waiting_eq := rfl
  visited_eq := rfl
  tokens_eq := rfl
  le_depth := by simp

theorem Advances.trans
    (h : Advances d root e taken handled later) (h' : Advances d root later taken' handled' last) :
  Advances d root e (taken ++ taken') (handled ++ handled') last
  where
  handles := h.handles.trans h'.handles
  pending_eq := by rw [h.pending_eq, h'.pending_eq, List.append_assoc]
  exists_parts := by
    obtain ⟨parts, hfills, hframe⟩ := h.exists_parts
    obtain ⟨parts', hfills', hframe'⟩ := h'.exists_parts
    use parts ++ parts', List.rel_append hfills hfills'
    rw [hframe', hframe]
    simp
  waiting_eq := h'.waiting_eq.trans h.waiting_eq
  visited_eq := h'.visited_eq.trans h.visited_eq
  tokens_eq := by
    rw [tokensAt_append, h.tokens_eq, ← h.waiting_eq, h'.tokens_eq, List.filterMap_append]
  le_depth := by
    apply List.forall_mem_append.2 ⟨h.le_depth, _⟩
    rw [← h.waiting_eq]
    exact h'.le_depth

/-- The tokens of a frame are those of the pieces that are taken, and then those to come. -/
theorem Advances.frame_tokens_eq (h : Advances d root e taken handled later) :
  e.frame.tokens = tokensAt e.waiting.length handled ++ later.frame.tokens
  := by
  rw [Frame.tokens, h.pending_eq, List.filterMap_append, h.tokens_eq]
  rfl

/-- What stops a frame short once some of its pieces are taken stops it short. -/
theorem StopsShort.of_advances
    (h' : StopsShort d root later handled' last) (h : Advances d root e taken handled later) :
  StopsShort d root e (handled ++ handled') last
  := by
  have htokens : ∀ {rest}, later.frame.tokens = tokensAt later.waiting.length handled' ++ rest →
      e.frame.tokens = tokensAt e.waiting.length (handled ++ handled') ++ rest := by
    intro rest hrest
    rw [h.frame_tokens_eq, hrest, h.waiting_eq, tokensAt_append, List.append_assoc]
  constructor
  · exact h.handles.trans h'.handles
  · exact h'.fails
  · rcases h'.unfinished with
      ⟨x, pending, hpending, hwaiting, hrest⟩ | ⟨above, path, outer, hwaiting, hrest⟩
    · left
      exact ⟨x, pending, hpending, hwaiting.trans h.waiting_eq, htokens hrest⟩
    · right
      rw [h.waiting_eq] at hwaiting
      exact ⟨above, path, outer, hwaiting, htokens hrest⟩
  · apply List.forall_mem_append.2 ⟨h.le_depth, _⟩
    rw [← h.waiting_eq]
    exact h'.le_depth

/-- A frame that has gone through all of its pieces has nothing to come, and the frames that wait and
the visited paths are as before. -/
theorem Advances.exists_eq (h : Advances d root e e.frame.pending handled last) :
  ∃ done log, last = ⟨⟨e.frame.base, done, []⟩, e.waiting, e.visited, log⟩
  := by
  obtain ⟨parts, -, hframe⟩ := h.exists_parts
  have hpending : last.frame.pending = [] := by simpa using h.pending_eq
  obtain ⟨frame, waiting, visited, log⟩ := last
  use parts.reverse ++ e.frame.done, log
  rw [hpending] at hframe
  rw [← hframe, ← h.waiting_eq, ← h.visited_eq]

/-- It is enough to know of the pieces that are left when some are taken. -/
theorem Advances.goesOrStops
    (h : Advances d root e taken handled later) (hrest : GoesOrStops d root later) :
  GoesOrStops d root e
  := by
  obtain ⟨handled', last, hgoes | hstops⟩ := hrest
  · use handled ++ handled', last
    left
    rw [h.pending_eq]
    exact h.trans hgoes
  · exact ⟨_, last, .inr (hstops.of_advances h)⟩

section

variable {done : List Text} {pending : List (Piece Token)} {waiting : List (Path × Frame)}
  {visited : List Path} {log : List Event} {x : Token}

/-- A gap is copied. -/
theorem advances_gap (t : Text) :
  Advances d root ⟨⟨base, done, .gap t :: pending⟩, waiting, visited, log⟩ [.gap t] []
    ⟨⟨base, t :: done, pending⟩, waiting, visited, log⟩
  where
  handles := .other (by simp) rfl (.refl _)
  pending_eq := rfl
  exists_parts := ⟨[t], .cons (.gap t) .nil, rfl⟩
  waiting_eq := rfl
  visited_eq := rfl
  tokens_eq := rfl
  le_depth := by simp

/-- A token is taken when a text has come in its place, while only deeper tokens were handled. -/
theorem advances_token
    {t : Text} {events : List Event} {log' : List Event} {inner : List Handling}
    (h : Handles d root ⟨⟨base, done, .token x :: pending⟩, waiting, visited, log⟩
      (⟨waiting.length, x, events⟩ :: inner) ⟨⟨base, t :: done, pending⟩, waiting, visited, log'⟩)
    (hinner : ∀ h ∈ inner, waiting.length < h.depth) :
  Advances d root ⟨⟨base, done, .token x :: pending⟩, waiting, visited, log⟩ [.token x]
    (⟨waiting.length, x, events⟩ :: inner) ⟨⟨base, t :: done, pending⟩, waiting, visited, log'⟩
  where
  handles := h
  pending_eq := rfl
  exists_parts := ⟨[t], .cons (.token x t) .nil, rfl⟩
  waiting_eq := rfl
  visited_eq := rfl
  tokens_eq := by
    rw [tokensAt_cons_self, tokensAt_eq_nil hinner]
    rfl
  le_depth := List.forall_mem_cons.2 ⟨Nat.le_refl _, fun h hmem => Nat.le_of_lt (hinner h hmem)⟩

/-- A comment takes the place of a token. -/
theorem advances_leave
    {status : Status} {comment : Text}
    (h : visit d visited x.reference (Path.resolve x.reference base root)
      = .ok (.leave status comment)) :
  Advances d root ⟨⟨base, done, .token x :: pending⟩, waiting, visited, log⟩ [.token x]
    [⟨waiting.length, x,
      [⟨.component, x.reference, some (Path.resolve x.reference base root), status⟩]⟩]
    ⟨⟨base, comment :: done, pending⟩, waiting, visited,
      ⟨.component, x.reference, some (Path.resolve x.reference base root), status⟩ :: log⟩
  := advances_token (.token rfl (step_leave h) rfl (.refl _)) (by simp)

/-- A token is the last that is handled, if the expansion fails while its component is open. -/
theorem stopsShort_token
    {events : List Event} {inner : List Handling} {path : Path}
    (h : Handles d root ⟨⟨base, done, .token x :: pending⟩, waiting, visited, log⟩
      (⟨waiting.length, x, events⟩ :: inner) last)
    (hfails : last.Fails d root) (hinner : ∀ h ∈ inner, waiting.length < h.depth)
    (hopen : ∃ above, last.waiting = above ++ (path, ⟨base, done, pending⟩) :: waiting) :
  StopsShort d root ⟨⟨base, done, .token x :: pending⟩, waiting, visited, log⟩
    (⟨waiting.length, x, events⟩ :: inner) last
  where
  handles := h
  fails := hfails
  unfinished := by
    obtain ⟨above, hwaiting⟩ := hopen
    right
    use above, path, ⟨base, done, pending⟩, hwaiting
    rw [tokensAt_cons_self, tokensAt_eq_nil hinner]
    rfl
  le_depth := List.forall_mem_cons.2 ⟨Nat.le_refl _, fun h hmem => Nat.le_of_lt (hinner h hmem)⟩

/-- Where a frame is stopped short, the frames that waited for it still wait. -/
theorem StopsShort.exists_waiting_eq (h : StopsShort d root e handled last) :
  ∃ above, last.waiting = above ++ e.waiting
  := by
  rcases h.unfinished with ⟨x, pending, -, hwaiting, -⟩ | ⟨above, path, outer, hwaiting, -⟩
  · exact ⟨[], hwaiting⟩
  · use above ++ [(path, outer)]
    rw [hwaiting, List.append_assoc]
    rfl

/-- A token whose path is too long fails. -/
theorem fails_token
    {error : FileError}
    (h : visit d visited x.reference (Path.resolve x.reference base root) = .error error) :
  Fails d root ⟨⟨base, done, .token x :: pending⟩, waiting, visited, log⟩
  := ⟨_, error, step_token_error h, rfl, error_of_visit h⟩

/-- Scripts or images of a component with a path that is too long fail. -/
theorem fails_pop
    {path : Path} {outer : Frame} {events : List Event} {error : FileError}
    (h : embedAssets d path.parent root done.reverse.flatten = ⟨events, .error error⟩) :
  Fails d root ⟨⟨base, done, []⟩, (path, outer) :: waiting, visited, log⟩
  := ⟨_, error, step_pop_error h, rfl, error_of_embedAssets h⟩

/-- A component whose scripts and images are in place is closed, and no token is handled. -/
theorem handles_close
    {path : Path} {outer : Frame} {t : Text} {events : List Event} (hnew : path ∉ visited)
    (h : embedAssets d path.parent root done.reverse.flatten = ⟨events, .ok t⟩) :
  Handles d root ⟨⟨base, done, []⟩, (path, outer) :: waiting, path :: visited, log⟩ []
    ⟨outer.push t, waiting, visited, events.reverse ++ log⟩
  := by
  apply Handles.other (by simp) _ (.refl _)
  rw [step_pop h, release_cons_self hnew]

/-- A component that is opened is gone through and closed before the pieces behind its token. -/
theorem goesOrStops_enter
    {body : Text} {path : Path} {event : Event} (hnew : path ∉ visited)
    (hstep : Expansion.step d root ⟨⟨base, done, .token x :: pending⟩, waiting, visited, log⟩
      = .next ⟨Frame.start path.parent body, (path, ⟨base, done, pending⟩) :: waiting,
          path :: visited, event :: log⟩)
    (hbody : GoesOrStops d root
      ⟨Frame.start path.parent body, (path, ⟨base, done, pending⟩) :: waiting, path :: visited,
        event :: log⟩)
    (hrest : ∀ t log', GoesOrStops d root ⟨⟨base, t :: done, pending⟩, waiting, visited, log'⟩) :
  GoesOrStops d root ⟨⟨base, done, .token x :: pending⟩, waiting, visited, log⟩
  := by
  have hopen : ∀ {inner last}, Handles d root
      ⟨Frame.start path.parent body, (path, ⟨base, done, pending⟩) :: waiting, path :: visited,
        event :: log⟩ inner last →
      Handles d root ⟨⟨base, done, .token x :: pending⟩, waiting, visited, log⟩
        (⟨waiting.length, x, [event]⟩ :: inner) last :=
    fun h => .token rfl hstep rfl h
  obtain ⟨inner, last, hgoes | hstops⟩ := hbody
  · have hinner := hopen hgoes.handles
    obtain ⟨done', log', rfl⟩ := hgoes.exists_eq
    cases hembed : embedAssets d path.parent root done'.reverse.flatten with
    | mk events outcome =>
      cases outcome with
      | error error =>
        exact ⟨_, _, .inr (stopsShort_token hinner (fails_pop hembed) hgoes.le_depth ⟨[], rfl⟩)⟩
      | ok t =>
        have hall := hinner.trans (handles_close hnew hembed)
        rw [List.append_nil] at hall
        exact (advances_token hall hgoes.le_depth).goesOrStops (hrest ..)
  · have hinner := hopen hstops.handles
    exact ⟨_, _, .inr (stopsShort_token hinner hstops.fails hstops.le_depth
      hstops.exists_waiting_eq)⟩

/-- A frame goes through all of its pieces, or a path that is too long ends the expansion before. -/
theorem goesOrStops (d : Disk) (root : Path) (e : Expansion) :
  GoesOrStops d root e
  := by
  obtain ⟨⟨base, done, pending⟩, waiting, visited, log⟩ := e
  induction base, visited, pending using nested.induct d root generalizing done waiting log with
  | case1 base visited => exact ⟨[], _, .inl (advances_refl ..)⟩
  | case2 base visited t pending ih => exact (advances_gap t).goesOrStops (ih ..)
  | case3 base visited x pending reference path ihBody ih =>
    cases hvisit : visit d visited reference path with
    | error error =>
      refine ⟨[], _, .inr ⟨.refl _, fails_token hvisit, .inl ?_, by simp⟩⟩
      exact ⟨x, pending, rfl, rfl, rfl⟩
    | ok called =>
      cases called with
      | leave status comment => exact (advances_leave hvisit).goesOrStops (ih ..)
      | enter body =>
        -- The frame of the component is gone through first, then what is left of this one.
        obtain ⟨hfile, hnew⟩ := of_visit_eq_enter hvisit
        apply goesOrStops_enter hnew (step_enter hvisit) (ihBody hfile hnew ..)
        intro t log'
        apply ih

end

/-- An expansion that is stopped short comes to the error of a path that is too long. -/
theorem StopsShort.exists_error (h : StopsShort d root e handled last) :
  ∃ error, (e.run d root).recorded.outcome = .error error ∧ error.IsOfLongPath d
  := by
  obtain ⟨r, error, hstep, houtcome, hlong⟩ := h.fails
  rw [h.handles.leads.run_eq, run_of_step_eq_finished hstep]
  exact ⟨error, houtcome, hlong⟩

end Expansion

/-- A text is cut into gaps and tokens that give it back.  The tokens are all that stand anywhere in
it, whatever stands before them, in the order of their places and without overlap.  A frame that is
started on the text, wherever it lies in an expansion, handles these tokens one after another, each
of them once and with one event, that of a component with the token's reference, and no others,
unless a path that is too long ends the expansion before; then it has handled the first of them so.
That a file cannot be read does not come into it, as the files of a disk can all be read. -/
theorem tokens_are_found_and_handled (d : Disk) (root base : Path) (t : Text) :
  (pieces t).flatMap pattern.pieceText = t
    ∧ (Frame.start base t).tokens = (pattern.places t).map Prod.snd
    ∧ (∀ front x, (front, x) ∈ pattern.places t ↔ Occurs t front x)
    ∧ ((pattern.places t).Pairwise fun a b => a.1 ++ pattern.text a.2 <+: b.1)
    ∧ ∀ waiting visited log, ∃ handled last,
      Expansion.Logs ⟨Frame.start base t, waiting, visited, log⟩ handled last
        ∧ (Expansion.Advances d root ⟨Frame.start base t, waiting, visited, log⟩ (pieces t) handled
            last
          ∨ Expansion.StopsShort d root ⟨Frame.start base t, waiting, visited, log⟩ handled last)
  := by
  refine ⟨pattern.flatMap_text_pieces t, (pattern.map_snd_places t).symm,
    fun front x => mem_places_iff_occurs, pattern.pairwise_places t, ?_⟩
  intro waiting visited log
  obtain ⟨handled, last, h⟩ :=
    Expansion.goesOrStops d root ⟨Frame.start base t, waiting, visited, log⟩
  use handled, last
  constructor
  · rcases h with hgoes | hstops
    · exact hgoes.handles.logs
    · exact hstops.handles.logs
  · exact h

/-! ### Brackets within brackets -/

/-- A document in which a token stands behind an opening bracket that begins none. -/
def bracketed : Text :=
  "[[b.comp].comp]".toList

theorem pieces_bracketed :
  pieces bracketed = [.gap "[".toList, .token ⟨"b.comp".toList⟩, .gap ".comp]".toList]
  := by
  decide +kernel

theorem expand_bracketed :
  expand sharing ⟨.root, []⟩ ⟨.root, []⟩ [] bracketed
    = ⟨[], ⟨[⟨.component, "b.comp".toList, some ⟨.root, [sharedName]⟩, .inlined⟩],
        .ok "[b.comp]".toList⟩⟩
  := by
  apply Expansion.run_of_after_eq_finished (n := 7)
  with_unfolding_all rfl

/-- The token within the brackets is found and handled, and it is the only one. -/
theorem bracketed_token_is_handled :
  Occurs bracketed "[".toList ⟨"b.comp".toList⟩
    ∧ ∃ handled last,
      Expansion.Advances sharing ⟨.root, []⟩ (Expansion.start ⟨.root, []⟩ [] bracketed)
        (pieces bracketed) handled last
      ∧ (∀ h ∈ handled, h.IsRecorded)
      ∧ tokensAt 0 handled = [⟨"b.comp".toList⟩]
  := by
  obtain ⟨-, -, hplaces, -, hframe⟩ :=
    tokens_are_found_and_handled sharing ⟨.root, []⟩ ⟨.root, []⟩ bracketed
  constructor
  · apply (hplaces _ _).1
    decide +kernel
  · obtain ⟨handled, last, hlogs, hgoes | hstops⟩ := hframe [] [] []
    · refine ⟨handled, last, hgoes, hlogs.isRecorded, ?_⟩
      have htokens := hgoes.tokens_eq
      rw [pieces_bracketed] at htokens
      exact htokens
    · obtain ⟨error, houtcome, -⟩ := hstops.exists_error
      have hrun := expand_bracketed
      rw [expand, Expansion.start] at hrun
      rw [hrun] at houtcome
      cases houtcome

/-! ### A name that is too long -/

/-- The name of a component that is too long for any file. -/
def longComponent : Segment :=
  ⟨longName.text ++ ending, by decide +kernel, by decide +kernel, by decide +kernel⟩

/-- A document that asks for that component and then for another one. -/
def longDocument : Text :=
  '[' :: (longComponent.text ++ "][b.comp]".toList)

theorem pieces_longDocument :
  pieces longDocument
    = [.gap [], .token ⟨longComponent.text⟩, .gap [], .token ⟨"b.comp".toList⟩, .gap []]
  := by
  decide +kernel

/-- Both tokens stand in the text. -/
theorem places_longDocument :
  pattern.places longDocument
    = [([], ⟨longComponent.text⟩), ('[' :: (longComponent.text ++ [']']), ⟨"b.comp".toList⟩)]
  := by
  decide +kernel

/-- At the first token the expansion ends, whatever lies on the disk. -/
theorem step_longComponent (d : Disk) (done : List Text) (pending : List (Piece Token)) :
  Expansion.step d ⟨.root, []⟩
      ⟨⟨⟨.root, []⟩, done, .token ⟨longComponent.text⟩ :: pending⟩, [], [], []⟩
    = .finished ⟨[], ⟨[], .error ⟨.nameTooLong, ⟨.root, [longComponent]⟩⟩⟩⟩
  := by
  have hpath : Path.resolve (Token.mk longComponent.text).reference ⟨.root, []⟩ ⟨.root, []⟩
      = ⟨.root, [longComponent]⟩ := by decide +kernel
  have hfile : d.isFile ⟨.root, [longComponent]⟩
      = .error ⟨.nameTooLong, ⟨.root, [longComponent]⟩⟩ :=
    d.isFile_of_long (by decide) (by decide +kernel) (by decide +kernel)
  rw [← hpath] at hfile
  rw [step_token_error (visit_of_error hfile), hpath]
  rfl

/-- The text asks for both components, but neither token is ever handled and no event is left: it
cannot be told whether the first component is a file. -/
theorem longDocument_is_not_handled :
  (∃ front, Occurs longDocument front ⟨"b.comp".toList⟩)
    ∧ (∃ front, Occurs longDocument front ⟨longComponent.text⟩)
    ∧ (∀ handled last,
      Expansion.Handles sharing ⟨.root, []⟩ (Expansion.start ⟨.root, []⟩ [] longDocument) handled
        last → handled = [])
    ∧ expand sharing ⟨.root, []⟩ ⟨.root, []⟩ [] longDocument
      = ⟨[], ⟨[], .error ⟨.nameTooLong, ⟨.root, [longComponent]⟩⟩⟩⟩
  := by
  have hoccurs : ∀ front x, (front, x) ∈ pattern.places longDocument →
      ∃ front, Occurs longDocument front x :=
    fun front x hmem => ⟨front, mem_places_iff_occurs.1 hmem⟩
  rw [places_longDocument] at hoccurs
  have hstart : Expansion.start ⟨.root, []⟩ [] longDocument
      = ⟨⟨⟨.root, []⟩, [], [.gap [], .token ⟨longComponent.text⟩, .gap [],
          .token ⟨"b.comp".toList⟩, .gap []]⟩, [], [], []⟩ := by
    rw [Expansion.start, Frame.start, pieces_longDocument]
  constructor
  · exact hoccurs _ _ (List.mem_cons_of_mem _ List.mem_cons_self)
  · constructor
    · exact hoccurs _ _ List.mem_cons_self
    · constructor
      · rw [hstart]
        intro handled last h
        cases h with
        | refl => rfl
        | token hpending => cases hpending
        | other _ hstep h =>
          cases hstep
          exact h.eq_nil (step_longComponent ..)
      · rw [expand, hstart, run_of_step_eq_next rfl]
        exact run_of_step_eq_finished (step_longComponent ..)

end Component

end Inlay
