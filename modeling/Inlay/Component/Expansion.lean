import Inlay.Component.Token
import Inlay.Image.Embedding
import Inlay.Path.Room
import Inlay.Script.Embedding

/-!
# Expanding components

A component token is replaced by the text of its component, in which the components, then the
scripts and then the images are put in place in turn.  A component that is being expanded is not
expanded within itself.

The expansion works on an explicit stack: the text that is being expanded, and below it the texts
that wait for a component, each with the path of that component.  `run` repeats `step` until the
document is finished.  It ends, since a component is opened only if its path is a file's and is not
visited yet, and there are finitely many paths that can be a file's.
-/

namespace Inlay.Component

/-- The comment in the place of a component that is missing. -/
def missingComment (reference : Text) (path : Path) : Text :=
  "<!-- Missing component: ".toList ++ reference ++ " (resolved to: ".toList ++ path.toText
    ++ ") -->".toList

/-- The comment in the place of a component that is being expanded already. -/
def circularComment (reference : Text) : Text :=
  "<!-- Circular reference prevented: ".toList ++ reference ++ " -->".toList

/-! ### One token -/

/-- What a token calls for. -/
inductive Visit where
  /-- A comment in its place. -/
  | leave (status : Status) (comment : Text)
  /-- The expansion of the component's text. -/
  | enter (body : Text)

/-- What the token calls for whose reference denotes a path, when the components in `visited` are
being expanded. -/
def visit (d : Disk) (visited : List Path) (reference : Text) (path : Path) :
    Except FileError Visit := do
  if ← d.isFile path then
    if path ∈ visited then
      return .leave .circular (circularComment reference)
    else
      return .enter (← d.readReplacing path)
  else
    return .leave .missing (missingComment reference path)

section

variable {d : Disk} {visited : List Path} {reference : Text} {path : Path}

theorem visit_of_error {e : FileError} (h : d.isFile path = .error e) :
  visit d visited reference path = .error e
  := by
  rw [visit, h]
  rfl

/-- A component that is missing gives way to a comment. -/
theorem visit_of_missing (h : d.isFile path = .ok false) :
  visit d visited reference path = .ok (.leave .missing (missingComment reference path))
  := by
  rw [visit, h]
  rfl

/-- A component that is being expanded gives way to a comment. -/
theorem visit_of_open (h : d.isFile path = .ok true) (hopen : path ∈ visited) :
  visit d visited reference path = .ok (.leave .circular (circularComment reference))
  := by
  rw [visit, h]
  simp only [hopen]
  rfl

/-- Any other component is expanded. -/
theorem visit_of_file
    {body : Text} (h : d.isFile path = .ok true) (hnew : path ∉ visited)
    (hbody : d.readReplacing path = .ok body) :
  visit d visited reference path = .ok (.enter body)
  := by
  rw [visit, h, hbody]
  simp only [hnew]
  rfl

end

/-- The scripts and images of the expanded text of a component, which lies in the directory
`base`. -/
def embedAssets (d : Disk) (base root : Path) (t : Text) : Recorded Text := do
  Image.embedAll d base root (← Script.embedAll d base root t)

/-! ### The stack -/

/-- A text that is being expanded: the directory that its references start from, the finished parts,
the last one first, and the pieces to come. -/
structure Frame where
  base : Path
  done : List Text
  pending : List (Piece Token)

/-- A text none of which is finished. -/
def Frame.start (base : Path) (t : Text) : Frame :=
  ⟨base, [], pieces t⟩

/-- The frame with one more part finished. -/
def Frame.push (f : Frame) (t : Text) : Frame :=
  { f with done := t :: f.done }

/-- The finished parts of a frame. -/
def Frame.text (f : Frame) : Text :=
  f.done.reverse.flatten

/-- An expansion under way: the frame that is worked on, the frames that wait, innermost first, each
with the path of the component that it waits for, the paths that are visited, and the events so far,
the last one first. -/
structure Expansion where
  frame : Frame
  waiting : List (Path × Frame)
  visited : List Path
  log : List Event

/-- What is left of an expansion: the paths that are visited still, and the text with its events. -/
structure Expanded where
  visited : List Path
  recorded : Recorded Text

/-- What comes of one step. -/
inductive Progress where
  | next (e : Expansion)
  | finished (r : Expanded)

/-- The paths without one that is no longer being expanded. -/
def release (visited : List Path) (path : Path) : List Path :=
  visited.filter (· ≠ path)

/-- Ends an expansion by an error: every component that is open is released. -/
def Expansion.abort (e : Expansion) (events : List Event) (error : FileError) : Expanded :=
  ⟨(e.waiting.map Prod.fst).foldl release e.visited, ⟨e.log.reverse ++ events, .error error⟩⟩

/-- One step.  A frame with nothing to come is finished: its text, after its scripts and images,
goes to the frame that waits for it. -/
def Expansion.step (d : Disk) (root : Path) (e : Expansion) : Progress :=
  match e.frame.pending with
  | [] =>
    match e.waiting with
    | [] => .finished ⟨e.visited, ⟨e.log.reverse, .ok e.frame.text⟩⟩
    | (path, outer) :: waiting =>
      let popped : Expansion := ⟨outer, waiting, release e.visited path, e.log⟩
      match embedAssets d path.parent root e.frame.text with
      | ⟨events, .ok t⟩ => .next { popped with frame := outer.push t, log := events.reverse ++ e.log }
      | ⟨events, .error error⟩ => .finished (popped.abort events error)
  | .gap t :: pending => .next { e with frame := { e.frame.push t with pending := pending } }
  | .token x :: pending =>
    let reference := x.reference
    let path := Path.resolve reference e.frame.base root
    match visit d e.visited reference path with
    | .error error => .finished (e.abort [] error)
    | .ok (.leave status comment) =>
      .next { e with
        frame := { e.frame.push comment with pending := pending }
        log := ⟨.component, reference, some path, status⟩ :: e.log }
    | .ok (.enter body) =>
      .next {
        frame := Frame.start path.parent body
        waiting := (path, { e.frame with pending := pending }) :: e.waiting
        visited := path :: e.visited
        log := ⟨.component, reference, some path, .inlined⟩ :: e.log }

/-! ### What a step does -/

section

variable
  {d : Disk} {root base : Path} {done : List Text} {pending : List (Piece Token)}
  {waiting : List (Path × Frame)} {visited : List Path} {log : List Event} {x : Token}

/-- The text of a finished component, with its scripts and images, goes to the frame that waits. -/
theorem step_pop
    {path : Path} {outer : Frame} {t : Text} {events : List Event}
    (h : embedAssets d path.parent root done.reverse.flatten = ⟨events, .ok t⟩) :
  Expansion.step d root ⟨⟨base, done, []⟩, (path, outer) :: waiting, visited, log⟩
    = .next ⟨outer.push t, waiting, release visited path, events.reverse ++ log⟩
  := by
  simp only [Expansion.step, Frame.text, h]

/-- A file error in the scripts or images of a finished component ends the expansion. -/
theorem step_pop_error
    {path : Path} {outer : Frame} {error : FileError} {events : List Event}
    (h : embedAssets d path.parent root done.reverse.flatten = ⟨events, .error error⟩) :
  Expansion.step d root ⟨⟨base, done, []⟩, (path, outer) :: waiting, visited, log⟩
    = .finished (Expansion.abort ⟨outer, waiting, release visited path, log⟩ events error)
  := by
  simp only [Expansion.step, Frame.text, h]

/-- A file error at a token ends the expansion. -/
theorem step_token_error
    {error : FileError}
    (h : visit d visited x.reference (Path.resolve x.reference base root) = .error error) :
  Expansion.step d root ⟨⟨base, done, .token x :: pending⟩, waiting, visited, log⟩
    = .finished (Expansion.abort ⟨⟨base, done, .token x :: pending⟩, waiting, visited, log⟩ [] error)
  := by
  simp only [Expansion.step, h]

/-- A component that is missing or open already gives way to a comment. -/
theorem step_leave
    {status : Status} {comment : Text}
    (h : visit d visited x.reference (Path.resolve x.reference base root)
      = .ok (.leave status comment)) :
  Expansion.step d root ⟨⟨base, done, .token x :: pending⟩, waiting, visited, log⟩
    = .next ⟨⟨base, comment :: done, pending⟩, waiting, visited,
        ⟨.component, x.reference, some (Path.resolve x.reference base root), status⟩ :: log⟩
  := by
  simp only [Expansion.step, h, Frame.push]

/-- A component is opened, and the frame waits for it. -/
theorem step_enter
    {body : Text}
    (h : visit d visited x.reference (Path.resolve x.reference base root) = .ok (.enter body)) :
  Expansion.step d root ⟨⟨base, done, .token x :: pending⟩, waiting, visited, log⟩
    = .next ⟨Frame.start (Path.resolve x.reference base root).parent body,
        (Path.resolve x.reference base root, ⟨base, done, pending⟩) :: waiting,
        Path.resolve x.reference base root :: visited,
        ⟨.component, x.reference, some (Path.resolve x.reference base root), .inlined⟩ :: log⟩
  := by
  simp only [Expansion.step, h]

end

/-! ### The end of an expansion -/

/-- A component is entered only if its path is a file's and is not visited. -/
theorem of_visit_eq_enter
    {d : Disk} {visited : List Path} {reference body : Text} {path : Path}
    (h : visit d visited reference path = .ok (.enter body)) :
  d.isFile path = .ok true ∧ path ∉ visited
  := by
  unfold visit at h
  cases hfile : d.isFile path with
  | error e => simp [hfile, bind, Except.bind] at h
  | ok found =>
    cases found with
    | false => simp [hfile, bind, Except.bind, pure, Except.pure] at h
    | true =>
      refine ⟨rfl, fun hmem => ?_⟩
      simp [hfile, bind, Except.bind, pure, Except.pure, hmem] at h

theorem release_cons_self {visited : List Path} {path : Path} (h : path ∉ visited) :
  release (path :: visited) path = visited
  := by
  unfold release
  rw [List.filter_cons_of_neg (by simp), List.filter_eq_self]
  intro p hp
  simpa using fun heq : p = path => h (heq ▸ hp)

/-- One expansion comes right after another. -/
def Follows (d : Disk) (root : Path) (later earlier : Expansion) : Prop :=
  earlier.step d root = .next later

/-- An expansion ends if it does whenever it comes back to the frames that wait, whatever the
component gave. -/
theorem acc_of_acc_waiting
    (d : Disk) (root : Path) (waiting : List (Path × Frame)) (visited : List Path) (base : Path)
    (pending : List (Piece Token)) (done : List Text) (log : List Event)
    (hpop : ∀ path outer below t log', waiting = (path, outer) :: below →
      Acc (Follows d root) ⟨outer.push t, below, release visited path, log'⟩) :
  Acc (Follows d root) ⟨⟨base, done, pending⟩, waiting, visited, log⟩
  := by
  generalize hroom : Path.room maxPathBytes visited = room
  induction room using Nat.strongRecOn generalizing waiting visited base pending done log with
  | ind room outerIh =>
    induction pending generalizing done log with
    | nil =>
      apply Acc.intro
      intro later hlater
      simp only [Follows, Expansion.step] at hlater
      split at hlater
      · cases hlater
      · split at hlater
        · cases hlater
          exact hpop _ _ _ _ _ rfl
        · cases hlater
    | cons piece pending ih =>
      apply Acc.intro
      intro later hlater
      cases piece with
      | gap t =>
        cases hlater
        exact ih (t :: done) log
      | token x =>
        simp only [Follows, Expansion.step] at hlater
        split at hlater
        · cases hlater
        · cases hlater
          exact ih _ _
        case h_3 body hvisit =>
          cases hlater
          obtain ⟨hfile, hnew⟩ := of_visit_eq_enter hvisit
          have hlt := Path.room_cons_lt (Disk.size_le_of_isFile hfile) hnew
          refine outerIh _ (hroom ▸ hlt) _ _ _ _ _ _ ?_ rfl
          intro path outer below t log' heq
          cases heq
          rw [release_cons_self hnew]
          exact ih (t :: done) log'

/-- Every expansion ends. -/
theorem acc_follows (d : Disk) (root : Path) (e : Expansion) :
  Acc (Follows d root) e
  := by
  obtain ⟨frame, waiting, visited, log⟩ := e
  induction waiting generalizing frame visited log with
  | nil =>
    apply acc_of_acc_waiting
    intro path outer below t log' heq
    cases heq
  | cons top waiting ih =>
    apply acc_of_acc_waiting
    intro path outer below t log' heq
    cases heq
    exact ih _ _ _

/-- An expansion on a disk, in a project. -/
structure Running (d : Disk) (root : Path) where
  expansion : Expansion

instance (d : Disk) (root : Path) : WellFoundedRelation (Running d root) where
  rel later earlier := Follows d root later.expansion earlier.expansion
  wf := InvImage.wf Running.expansion ⟨acc_follows d root⟩

/-- Repeats the step until the document is finished. -/
def Expansion.run (d : Disk) (root : Path) (e : Expansion) : Expanded :=
  match _h : e.step d root with
  | .next later => later.run d root
  | .finished r => r
termination_by (⟨e⟩ : Running d root)
decreasing_by exact _h

theorem run_of_step_eq_next
    {d : Disk} {root : Path} {e later : Expansion} (h : e.step d root = .next later) :
  e.run d root = later.run d root
  := by
  rw [Expansion.run]
  split
  case h_1 later' h' =>
    rw [h] at h'
    cases h'
    rfl
  case h_2 r h' =>
    rw [h] at h'
    cases h'

theorem run_of_step_eq_finished
    {d : Disk} {root : Path} {e : Expansion} {r : Expanded} (h : e.step d root = .finished r) :
  e.run d root = r
  := by
  rw [Expansion.run]
  split
  case h_1 later' h' =>
    rw [h] at h'
    cases h'
  case h_2 r' h' =>
    rw [h] at h'
    cases h'
    rfl

/-- An expansion none of which is done, of a text in the directory `base`, when the components in
`visited` are being expanded. -/
def Expansion.start (base : Path) (visited : List Path) (t : Text) : Expansion :=
  ⟨Frame.start base t, [], visited, []⟩

/-- Expands the components of a text in the directory `base`, when those in `visited` are being
expanded. -/
def expand (d : Disk) (base root : Path) (visited : List Path) (t : Text) : Expanded :=
  (Expansion.start base visited t).run d root

end Inlay.Component
