import Inlay.Disk.Error
import Inlay.Event
import Inlay.Text.Pattern

/-!
# Recorded values

A value that is computed from references comes with the events of those references.  When a file
error ends the computation, the events up to then remain.
-/

namespace Inlay

/-- A value, or the file error in its place, and the events on the way, in order. -/
structure Recorded (α : Type) where
  events : List Event
  outcome : Except FileError α

namespace Recorded

/-- A value without events. -/
def pure {α : Type} (a : α) : Recorded α :=
  ⟨[], .ok a⟩

/-- A file error without events. -/
def fail {α : Type} (e : FileError) : Recorded α :=
  ⟨[], .error e⟩

/-- Goes on with the value, unless an error ended the computation. -/
def bind {α β : Type} (x : Recorded α) (f : α → Recorded β) : Recorded β :=
  match x.outcome with
  | .ok a => ⟨x.events ++ (f a).events, (f a).outcome⟩
  | .error e => ⟨x.events, .error e⟩

instance : Monad Recorded where
  pure := Recorded.pure
  bind := Recorded.bind

/-- Records an event. -/
def record (e : Event) : Recorded Unit :=
  ⟨[e], .ok ()⟩

/-- A value that may be a file error, without events. -/
def lift {α : Type} (outcome : Except FileError α) : Recorded α :=
  ⟨[], outcome⟩

/-! ### Going on -/

/-- After a value come the events and the outcome of what goes on with it. -/
@[simp]
theorem bind_ok {α β : Type} (events : List Event) (a : α) (f : α → Recorded β) :
  Recorded.bind ⟨events, .ok a⟩ f = ⟨events ++ (f a).events, (f a).outcome⟩
  := rfl

/-- After an error comes nothing. -/
@[simp]
theorem bind_error {α β : Type} (events : List Event) (e : FileError) (f : α → Recorded β) :
  Recorded.bind ⟨events, .error e⟩ f = ⟨events, .error e⟩
  := rfl

theorem bind_assoc {α β γ : Type} (x : Recorded α) (f : α → Recorded β) (g : β → Recorded γ) :
  (x.bind f).bind g = x.bind fun a => (f a).bind g
  := by
  obtain ⟨events, outcome⟩ := x
  cases outcome with
  | error e => rfl
  | ok a =>
    rw [bind_ok, bind_ok]
    cases h : f a with
    | mk events' outcome' => cases outcome' <;> simp

/-- A computation in two parts succeeds exactly if both parts do. -/
theorem bind_eq_ok_iff
    {α β : Type} {x : Recorded α} {f : α → Recorded β} {events : List Event} {b : β} :
  x.bind f = ⟨events, .ok b⟩
    ↔ ∃ before a after, x = ⟨before, .ok a⟩ ∧ f a = ⟨after, .ok b⟩ ∧ events = before ++ after
  := by
  obtain ⟨before, outcome⟩ := x
  cases outcome with
  | error e => simp
  | ok a =>
    cases h : f a with
    | mk after outcome' =>
      rw [bind_ok, h]
      constructor
      · intro heq
        cases heq
        exact ⟨before, a, after, rfl, h, rfl⟩
      · rintro ⟨_, _, _, hx, hf, rfl⟩
        cases hx
        rw [h] at hf
        cases hf
        rfl

/-! ### Substituting for the tokens of a text -/

/-- Puts `f x` in the place of each token `x` and joins the pieces.  `done` are the texts so far and
`log` the events so far, both from the last one. -/
def substituteOnto {τ : Type} (f : τ → Recorded Text) (done : List Text) (log : List Event) :
    List (Piece τ) → Recorded Text
  | [] => ⟨log.reverse, .ok done.reverse.flatten⟩
  | .gap t :: pieces => substituteOnto f (t :: done) log pieces
  | .token x :: pieces =>
    match f x with
    | ⟨events, .ok t⟩ => substituteOnto f (t :: done) (events.reverse ++ log) pieces
    | ⟨events, .error e⟩ => ⟨log.reverse ++ events, .error e⟩

/-- The pieces with `f x` in the place of each token `x`, joined. -/
def substitute {τ : Type} (f : τ → Recorded Text) (pieces : List (Piece τ)) : Recorded Text :=
  substituteOnto f [] [] pieces

theorem substituteOnto_eq
    {τ : Type} (f : τ → Recorded Text) (done : List Text) (log : List Event)
    (pieces : List (Piece τ)) :
  substituteOnto f done log pieces
    = ⟨log.reverse ++ (substitute f pieces).events,
        (substitute f pieces).outcome.map (done.reverse.flatten ++ ·)⟩
  := by
  unfold substitute
  induction pieces generalizing done log with
  | nil => simp [substituteOnto, Except.map]
  | cons piece pieces ih =>
    cases piece with
    | gap t =>
      simp only [substituteOnto]
      rw [ih (t :: done) log, ih [t] []]
      cases (substituteOnto f [] [] pieces).outcome <;> simp [Except.map]
    | token x =>
      simp only [substituteOnto]
      cases h : f x with
      | mk events outcome =>
        cases outcome with
        | error e => simp [Except.map]
        | ok t =>
          simp only
          rw [ih (t :: done) (events.reverse ++ log), ih [t] (events.reverse ++ [])]
          cases (substituteOnto f [] [] pieces).outcome <;> simp [Except.map]

@[simp]
theorem substitute_nil {τ : Type} (f : τ → Recorded Text) :
  substitute f [] = Recorded.pure []
  := rfl

/-- A gap is kept. -/
theorem substitute_gap
    {τ : Type} (f : τ → Recorded Text) (t : Text) (pieces : List (Piece τ)) :
  substitute f (.gap t :: pieces)
    = (substitute f pieces).bind fun rest => Recorded.pure (t ++ rest)
  := by
  rw [substitute, substituteOnto, substituteOnto_eq]
  cases h : (substitute f pieces).outcome <;>
    simp [Recorded.bind, Recorded.pure, h, Except.map]

/-- A token is replaced before what follows it. -/
theorem substitute_token
    {τ : Type} (f : τ → Recorded Text) (x : τ) (pieces : List (Piece τ)) :
  substitute f (.token x :: pieces)
    = (f x).bind fun t => (substitute f pieces).bind fun rest => Recorded.pure (t ++ rest)
  := by
  rw [substitute, substituteOnto]
  cases h : f x with
  | mk events outcome =>
    cases outcome with
    | error e => simp [Recorded.bind]
    | ok t =>
      simp only [substituteOnto_eq]
      cases hrest : (substitute f pieces).outcome <;>
        simp [Recorded.bind, Recorded.pure, hrest, Except.map]

end Recorded

end Inlay
