import Inlay.Component.Expansion

/-!
# Nested expansion

`nested` is the expansion of components as a recursion: a component is expanded, with its scripts
and images, before the text behind its token.  The stack of `Expansion.run` computes it
(`run_eq_finish`): at every moment of an expansion, what comes out is what the recursion gives for
the pieces to come, handed on to the frames that wait.  So an expansion gives the text, the events
and the file error of the recursion, and leaves the visited paths as they were.
-/

namespace Inlay.Component

/-! ### The recursion -/

/-- Puts the components of a text in the directory `base` in place, when those in `visited` are
being expanded: gaps are copied, and a token gives way to a comment or to the expanded text of its
component, whose references start from the component's own directory. -/
def nested (d : Disk) (root base : Path) (visited : List Path) :
    List (Piece Token) → Recorded Text
  | [] => pure []
  | .gap t :: pending => do
    return t ++ (← nested d root base visited pending)
  | .token x :: pending =>
    let reference := x.reference
    let path := Path.resolve reference base root
    let inPlace : Recorded Text :=
      match _hfile : d.isFile path with
      | .error e => Recorded.fail e
      | .ok false => do
        Recorded.record ⟨.component, reference, some path, .missing⟩
        return missingComment reference path
      | .ok true =>
        if _hnew : path ∈ visited then do
          Recorded.record ⟨.component, reference, some path, .circular⟩
          return circularComment reference
        else do
          let body ← Recorded.lift (d.readReplacing path)
          Recorded.record ⟨.component, reference, some path, .inlined⟩
          let expanded ← nested d root path.parent (path :: visited) (pieces body)
          Image.embedAll d path.parent root (← Script.embedAll d path.parent root expanded)
    do
      let t ← inPlace
      return t ++ (← nested d root base visited pending)
termination_by pending => (Path.room maxPathBytes visited, pending.length)
decreasing_by
  · exact Prod.Lex.right _ (by simp)
  · exact Prod.Lex.left _ _ (Path.room_cons_lt (Disk.size_le_of_isFile _hfile) _hnew)
  · exact Prod.Lex.right _ (by simp)

/-- What is put in the place of a token. -/
def inPlace (d : Disk) (root base : Path) (visited : List Path) (x : Token) : Recorded Text :=
  let path := Path.resolve x.reference base root
  match d.isFile path with
  | .error e => Recorded.fail e
  | .ok false => ⟨[⟨.component, x.reference, some path, .missing⟩],
      .ok (missingComment x.reference path)⟩
  | .ok true =>
    if path ∈ visited then ⟨[⟨.component, x.reference, some path, .circular⟩],
      .ok (circularComment x.reference)⟩
    else do
      let body ← Recorded.lift (d.readReplacing path)
      Recorded.record ⟨.component, x.reference, some path, .inlined⟩
      embedAssets d path.parent root (← nested d root path.parent (path :: visited) (pieces body))

theorem nested_nil (d : Disk) (root base : Path) (visited : List Path) :
  nested d root base visited [] = ⟨[], .ok []⟩
  := by
  rw [nested]
  rfl

theorem nested_gap
    (d : Disk) (root base : Path) (visited : List Path) (t : Text) (pending : List (Piece Token)) :
  nested d root base visited (.gap t :: pending)
    = (nested d root base visited pending).bind fun rest => Recorded.pure (t ++ rest)
  := by
  rw [nested]
  rfl

/-- A token is put in place before what follows it. -/
theorem nested_token
    (d : Disk) (root base : Path) (visited : List Path) (x : Token) (pending : List (Piece Token)) :
  nested d root base visited (.token x :: pending)
    = (inPlace d root base visited x).bind fun t =>
        (nested d root base visited pending).bind fun rest => Recorded.pure (t ++ rest)
  := by
  rw [nested, inPlace]
  apply congrArg fun r : Recorded Text => r.bind fun t =>
    (nested d root base visited pending).bind fun rest => Recorded.pure (t ++ rest)
  split
  case h_1 e hfile => rw [hfile]
  case h_2 hfile =>
    rw [hfile]
    rfl
  case h_3 hfile =>
    rw [hfile]
    by_cases hmem : Path.resolve x.reference base root ∈ visited
    · simp only [hmem]
      rfl
    · simp only [hmem]
      rfl

/-- What is put in the place of a token, by what the token calls for. -/
theorem inPlace_eq_visit
    (d : Disk) (root base : Path) (visited : List Path) (x : Token) :
  inPlace d root base visited x =
    match visit d visited x.reference (Path.resolve x.reference base root) with
    | .error e => ⟨[], .error e⟩
    | .ok (.leave status comment) =>
      ⟨[⟨.component, x.reference, some (Path.resolve x.reference base root), status⟩], .ok comment⟩
    | .ok (.enter body) =>
      Recorded.bind
        ⟨[⟨.component, x.reference, some (Path.resolve x.reference base root), .inlined⟩], .ok ()⟩
        fun _ => (nested d root (Path.resolve x.reference base root).parent
            (Path.resolve x.reference base root :: visited) (pieces body)).bind
          (embedAssets d (Path.resolve x.reference base root).parent root)
  := by
  rw [inPlace, visit]
  cases hfile : d.isFile (Path.resolve x.reference base root) with
  | error e => rfl
  | ok found =>
    cases found with
    | false => rfl
    | true =>
      by_cases hmem : Path.resolve x.reference base root ∈ visited
      · simp only [hmem]
        rfl
      · simp only [hmem]
        cases d.readReplacing (Path.resolve x.reference base root) <;> rfl

/-! ### The stack -/

/-- What comes of an expansion if the text, the events or the error of `r` take the place of the
pieces to come in its frame. -/
def Expansion.finish (d : Disk) (root : Path) (e : Expansion) (r : Recorded Text) : Expanded :=
  match r with
  | ⟨events, .ok t⟩ =>
    Expansion.run d root
      { e with frame := { e.frame.push t with pending := [] }, log := events.reverse ++ e.log }
  | ⟨events, .error error⟩ => e.abort events error

/-- Of a frame with nothing to come only the text counts. -/
theorem run_eq_of_text_eq
    {d : Disk} {root : Path} {done done' : List Text} (h : done.reverse.flatten = done'.reverse.flatten)
    (base : Path) (waiting : List (Path × Frame)) (visited : List Path) (log : List Event) :
  Expansion.run d root ⟨⟨base, done, []⟩, waiting, visited, log⟩
    = Expansion.run d root ⟨⟨base, done', []⟩, waiting, visited, log⟩
  := by
  have hstep : Expansion.step d root ⟨⟨base, done, []⟩, waiting, visited, log⟩
      = Expansion.step d root ⟨⟨base, done', []⟩, waiting, visited, log⟩ := by
    simp only [Expansion.step, Frame.text, h]
  rw [Expansion.run, Expansion.run, hstep]

/-- Events that come first are added to the log. -/
theorem finish_append
    (d : Disk) (root : Path) (e : Expansion) (events : List Event) (r : Recorded Text) :
  e.finish d root ⟨events ++ r.events, r.outcome⟩
    = { e with log := events.reverse ++ e.log }.finish d root r
  := by
  obtain ⟨later, outcome⟩ := r
  cases outcome with
  | ok t => simp [Expansion.finish]
  | error error => simp [Expansion.finish, Expansion.abort]

/-- A text that comes first is a finished part. -/
theorem finish_push
    (d : Disk) (root : Path) (e : Expansion) (t : Text) (pending : List (Piece Token))
    (r : Recorded Text) :
  e.finish d root (r.bind fun rest => Recorded.pure (t ++ rest))
    = { e with frame := { e.frame.push t with pending := pending } }.finish d root r
  := by
  obtain ⟨events, outcome⟩ := r
  cases outcome with
  | ok rest =>
    simp only [Recorded.bind_ok, Recorded.pure, List.append_nil, Expansion.finish, Frame.push]
    apply run_eq_of_text_eq
    simp
  | error error => rfl

/-- A text that is put in the place of a token is a finished part, and its events are added. -/
theorem finish_bind_ok
    (d : Disk) (root : Path) (e : Expansion) (events : List Event) (t : Text)
    (pending : List (Piece Token)) (r : Recorded Text) :
  e.finish d root
      (Recorded.bind ⟨events, .ok t⟩ fun t => r.bind fun rest => Recorded.pure (t ++ rest))
    = { e with
        frame := { e.frame.push t with pending := pending }
        log := events.reverse ++ e.log }.finish d root r
  := by
  rw [Recorded.bind_ok, finish_append, finish_push d root _ t pending]

/-- A component that is open comes to its text with its scripts and images, in the frame that
waits for it. -/
theorem finish_open
    {d : Disk} {root path base : Path} {visited : List Path} (hnew : path ∉ visited) (outer : Frame)
    (waiting : List (Path × Frame)) (log : List Event) (r rest : Recorded Text)
    (pending pending' : List (Piece Token))
    (hrest : ∀ t log', Expansion.run d root ⟨outer.push t, waiting, visited, log'⟩
      = Expansion.finish d root ⟨outer.push t, waiting, visited, log'⟩ rest) :
  Expansion.finish d root ⟨⟨base, [], pending⟩, (path, outer) :: waiting, path :: visited, log⟩ r
    = Expansion.finish d root ⟨{ outer with pending := pending' }, waiting, visited, log⟩
        ((r.bind (embedAssets d path.parent root)).bind fun t =>
          rest.bind fun u => Recorded.pure (t ++ u))
  := by
  obtain ⟨events, outcome⟩ := r
  cases outcome with
  | error error => simp [Expansion.finish, Expansion.abort, release_cons_self hnew]
  | ok t =>
    rw [Recorded.bind_ok, Expansion.finish]
    cases hembed : embedAssets d path.parent root t with
    | mk events' outcome' =>
      cases outcome' with
      | error error =>
        rw [run_of_step_eq_finished (step_pop_error (by simpa [Frame.push] using hembed)),
          release_cons_self hnew]
        simp [Expansion.finish, Expansion.abort]
      | ok t' =>
        rw [run_of_step_eq_next (step_pop (by simpa [Frame.push] using hembed)),
          release_cons_self hnew, finish_bind_ok d root _ _ _ outer.pending, hrest]
        simp [Frame.push]

/-- An expansion comes to what the recursion gives for the pieces to come. -/
theorem run_eq_finish (d : Disk) (root : Path) (e : Expansion) :
  e.run d root = e.finish d root (nested d root e.frame.base e.visited e.frame.pending)
  := by
  obtain ⟨⟨base, done, pending⟩, waiting, visited, log⟩ := e
  induction base, visited, pending using nested.induct d root generalizing done waiting log with
  | case1 base visited =>
    rw [nested_nil]
    apply run_eq_of_text_eq
    simp [Frame.push]
  | case2 base visited t pending ih =>
    rw [nested_gap, finish_push d root _ t pending, run_of_step_eq_next rfl]
    apply ih
  | case3 base visited x pending reference path ihBody ih =>
    rw [nested_token, inPlace_eq_visit]
    dsimp only
    cases hvisit : visit d visited x.reference (Path.resolve x.reference base root) with
    | error error =>
      rw [run_of_step_eq_finished (step_token_error hvisit)]
      rfl
    | ok called =>
      cases called with
      | leave status comment =>
        rw [run_of_step_eq_next (step_leave hvisit)]
        dsimp only
        rw [finish_bind_ok d root _ _ _ pending]
        apply ih
      | enter body =>
        obtain ⟨hfile, hnew⟩ := of_visit_eq_enter hvisit
        rw [run_of_step_eq_next (step_enter hvisit), Frame.start, ihBody hfile hnew]
        dsimp only
        rw [Recorded.bind_assoc, Recorded.bind_ok, finish_append]
        apply finish_open hnew
        intro t log'
        apply ih

/-- An expansion gives what the recursion gives, and leaves the visited paths as they were. -/
theorem expand_eq (d : Disk) (base root : Path) (visited : List Path) (t : Text) :
  expand d base root visited t = ⟨visited, nested d root base visited (pieces t)⟩
  := by
  rw [expand, run_eq_finish]
  dsimp only [Expansion.start, Frame.start]
  cases nested d root base visited (pieces t) with
  | mk events outcome =>
    cases outcome with
    | error error => rfl
    | ok t =>
      rw [Expansion.finish, run_of_step_eq_finished rfl]
      simp [Frame.push, Frame.text]

/-- The stack refines the recursion: whatever the disk, the text, the directories and the paths that
are visited already, it gives the same text, or the same file error, after the same events. -/
theorem expand_refines_nested (d : Disk) (base root : Path) (visited : List Path) (t : Text) :
  (expand d base root visited t).recorded = nested d root base visited (pieces t)
  := by
  rw [expand_eq]

end Inlay.Component
