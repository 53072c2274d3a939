import Inlay.Proofs.Origin.Edit
import Inlay.Recorded

/-!
# Followed runs

A followed run does what a recorded one does, and keeps the marks of the text and an edit for every
event.  That a followed run does to a marked text what a recorded run does to its characters, and
keeps the account of whatever surrounds it, is `Rewrites`: the relation goes through sequences,
through neighbouring parts, and through the tokens of a text.
-/

namespace Inlay

/-- A run that starts after some number of events: its edits and its value, or the file error that
ended it. -/
def Followed (α : Type) : Type :=
  Nat → Except FileError (List Edit × α)

namespace Followed

/-- A value without edits. -/
def pure {α : Type} (a : α) : Followed α :=
  fun _ => .ok ([], a)

/-- A file error. -/
def fail {α : Type} (e : FileError) : Followed α :=
  fun _ => .error e

/-- Goes on with the value, unless an error ended the run. -/
def bind {α β : Type} (m : Followed α) (f : α → Followed β) : Followed β :=
  fun n =>
    match m n with
    | .error e => .error e
    | .ok (edits, a) =>
      match f a (n + edits.length) with
      | .error e => .error e
      | .ok (edits', b) => .ok (edits ++ edits', b)

instance : Monad Followed where
  pure := Followed.pure
  bind := Followed.bind

/-- A value that may be a file error, without edits. -/
def lift {α : Type} (outcome : Except FileError α) : Followed α :=
  fun _ => outcome.map ([], ·)

/-- A text in the place of a part of the text. -/
def replace (event : Event) (found removed : Marked) (inserted : Text) : Followed Marked :=
  fun n => .ok ([⟨event, found, removed, inserted⟩], Marked.brought n inserted)

/-- An event that leaves the text as it is. -/
def leave (event : Event) (found : Marked) : Followed Unit :=
  fun _ => .ok ([⟨event, found, [], []⟩], ())

/-- One part of a text after another. -/
def append (m m' : Followed Marked) : Followed Marked := do
  return (← m) ++ (← m')

/-- A text in the place of a part of the text, between parts that are kept. -/
def replaceWithin
    (event : Event) (found front removed back : Marked) (inserted : Text) : Followed Marked :=
  append (pure front) (append (replace event found removed inserted) (pure back))

/-- Puts `f x w` in the place of each token `x`, which stands in the text as `w`. -/
def substitute {τ : Type} (P : Pattern τ) (f : τ → Marked → Followed Marked) :
    List (Piece τ) → Marked → Followed Marked
  | [], _ => pure []
  | .gap t :: pieces, u =>
    append (pure (u.take t.length)) (substitute P f pieces (u.drop t.length))
  | .token x :: pieces, u =>
    append (f x (u.take (P.text x).length)) (substitute P f pieces (u.drop (P.text x).length))

theorem bind_eq_ok
    {α β : Type} {m : Followed α} {f : α → Followed β} {n : Nat} {edits edits' : List Edit} {a : α}
    {b : β} (h : m n = .ok (edits, a)) (h' : f a (n + edits.length) = .ok (edits', b)) :
  m.bind f n = .ok (edits ++ edits', b)
  := by
  rw [bind, h]
  dsimp only
  rw [h']

end Followed

open Marked

/-- After some edits, the followed run does to the part `w` of a text what the recorded run does to
its characters, if that succeeds, and the account of the whole text is kept. -/
def Rewrites
    (d : Disk) (edits : List Edit) (w : Marked) (m : Followed Marked) (x : Recorded Text) : Prop :=
  ∀ ⦃front back⦄, Account d edits (front ++ w ++ back) →
    ∀ ⦃events t⦄, x = ⟨events, .ok t⟩ →
      ∃ new v, m edits.length = .ok (new, v) ∧ new.map Edit.event = events ∧ text v = t
        ∧ Account d (edits ++ new) (front ++ v ++ back)

namespace Rewrites

variable {d : Disk} {edits : List Edit} {w : Marked}

/-- A run that fails is no promise. -/
theorem of_error (m : Followed Marked) (events : List Event) (e : FileError) :
  Rewrites d edits w m ⟨events, .error e⟩
  := by
  intro front back _ events' t h
  cases h

/-- A part that is kept. -/
theorem keep {t : Text} (hw : text w = t) :
  Rewrites d edits w (Followed.pure w) (Recorded.pure t)
  := by
  intro front back h events t' hx
  cases hx
  use [], w, rfl, rfl, hw
  rw [List.append_nil]
  exact h

/-- A part that gives way to another text. -/
theorem replace
    {event : Event} {found : Marked} {inserted : Text}
    (hscript : Edit.HoldsScript d ⟨event, found, w, inserted⟩)
    (htangible : Edit.Tangible edits event w) (hfound : found ⊆ w) (hw : w ≠ []) :
  Rewrites d edits w (Followed.replace event found w inserted) ⟨[event], .ok inserted⟩
  := by
  intro front back h events t hx
  cases hx
  use [⟨event, found, w, inserted⟩], brought edits.length inserted, rfl, rfl, text_brought _ _
  have htakes : Edit.TakesHold edits ⟨event, found, w, inserted⟩ w :=
    Edit.takesHold_of_removed htangible hfound
  apply Account.insert h hscript (htakes.append front back)
  intro hnil
  exact absurd hnil hw

/-- A part that an event leaves as it is. -/
theorem leave
    {event : Event} {found : Marked} (hscript : Edit.HoldsScript d ⟨event, found, [], []⟩)
    (htakes : Edit.TakesHold edits ⟨event, found, [], []⟩ w) :
  Rewrites d edits w ((Followed.leave event found).bind fun _ => Followed.pure w)
    ⟨[event], .ok (text w)⟩
  := by
  intro front back h events t hx
  cases hx
  use [⟨event, found, [], []⟩], w, rfl, rfl, rfl
  have heq : front ++ w ++ back = front ++ [] ++ (w ++ back) := by simp
  have hwhole := htakes.append front back
  rw [heq] at h hwhole ⊢
  exact Account.insert h hscript hwhole fun _ => rfl

/-- A part that gives way between parts that are kept. -/
theorem replaceWithin
    {event : Event} {inserted t : Text} {found front removed back : Marked}
    (hscript : Edit.HoldsScript d ⟨event, found, removed, inserted⟩)
    (htakes : Edit.TakesHold edits ⟨event, found, removed, inserted⟩ w) (hremoved : removed ≠ [])
    (hw : front ++ (removed ++ back) = w) (ht : text front ++ (inserted ++ text back) = t) :
  Rewrites d edits w (Followed.replaceWithin event found front removed back inserted)
    ⟨[event], .ok t⟩
  := by
  intro front' back' h events t' hx
  cases hx
  subst hw ht
  use [⟨event, found, removed, inserted⟩], front ++ (brought edits.length inserted ++ back), rfl
  use rfl
  constructor
  · simp
  · have hwhole := htakes.append front' back'
    have heq : ∀ v, front' ++ (front ++ (v ++ back)) ++ back'
        = front' ++ front ++ v ++ (back ++ back') := by simp
    rw [heq] at h hwhole ⊢
    apply Account.insert h hscript hwhole
    intro hnil
    exact absurd hnil hremoved

/-- One rewriting after another. -/
theorem bind
    {m : Followed Marked} {x : Recorded Text} {g : Marked → Followed Marked}
    {f : Text → Recorded Text} (hm : Rewrites d edits w m x)
    (hg : ∀ new v, m edits.length = .ok (new, v) → x.outcome = .ok (text v) →
      Rewrites d (edits ++ new) v (g v) (f (text v))) :
  Rewrites d edits w (m.bind g) (x.bind f)
  := by
  intro front back h events t hx
  obtain ⟨events₁, outcome⟩ := x
  cases outcome with
  | error e => cases hx
  | ok t₁ =>
    obtain ⟨new₁, v₁, hrun₁, hevents₁, htext₁, h₁⟩ := hm h rfl
    subst htext₁
    cases hrest : f (text v₁) with
    | mk events₂ outcome₂ =>
      rw [Recorded.bind_ok, hrest] at hx
      cases hx
      obtain ⟨new₂, v₂, hrun₂, hevents₂, htext₂, h₂⟩ := hg new₁ v₁ hrun₁ rfl h₁ hrest
      rw [List.length_append] at hrun₂
      use new₁ ++ new₂, v₂, Followed.bind_eq_ok hrun₁ hrun₂
      constructor
      · rw [List.map_append, hevents₁, hevents₂]
      · use htext₂
        rw [← List.append_assoc]
        exact h₂

/-- One part after another. -/
theorem append
    {w' : Marked} {m m' : Followed Marked} {x x' : Recorded Text} (hm : Rewrites d edits w m x)
    (hm' : ∀ new, Rewrites d (edits ++ new) w' m' x') :
  Rewrites d edits (w ++ w') (Followed.append m m')
    (x.bind fun t => x'.bind fun t' => Recorded.pure (t ++ t'))
  := by
  intro front back h events t hx
  obtain ⟨events₁, outcome⟩ := x
  obtain ⟨events₂, outcome'⟩ := x'
  cases outcome with
  | error e => cases hx
  | ok t₁ =>
    cases outcome' with
    | error e => cases hx
    | ok t₂ =>
      simp only [Recorded.bind_ok, Recorded.pure, List.append_nil] at hx
      cases hx
      have hfirst : Account d edits (front ++ w ++ (w' ++ back)) := by simpa using h
      obtain ⟨new₁, v₁, hrun₁, hevents₁, rfl, h₁⟩ := hm hfirst rfl
      have hsecond : Account d (edits ++ new₁) (front ++ v₁ ++ w' ++ back) := by simpa using h₁
      obtain ⟨new₂, v₂, hrun₂, hevents₂, rfl, h₂⟩ := hm' new₁ hsecond rfl
      rw [List.length_append] at hrun₂
      use new₁ ++ (new₂ ++ []), v₁ ++ v₂
      constructor
      · apply Followed.bind_eq_ok hrun₁
        apply Followed.bind_eq_ok hrun₂
        rfl
      · constructor
        · simp [hevents₁, hevents₂]
        · use text_append _ _
          simpa using h₂

/-- A text that is cut in two. -/
theorem append_take_drop
    {n : Nat} {m m' : Followed Marked} {x x' : Recorded Text} (hm : Rewrites d edits (w.take n) m x)
    (hm' : ∀ new, Rewrites d (edits ++ new) (w.drop n) m' x') :
  Rewrites d edits w (Followed.append m m')
    (x.bind fun t => x'.bind fun t' => Recorded.pure (t ++ t'))
  := by
  have happend := hm.append hm'
  rw [List.take_append_drop] at happend
  exact happend

/-- A text is rewritten when each of its tokens is. -/
theorem substitute
    {τ : Type} {P : Pattern τ} {f : τ → Marked → Followed Marked} {g : τ → Recorded Text}
    {pieces : List (Piece τ)} {u : Marked}
    (h : ∀ x, .token x ∈ pieces → ∀ edits w, text w = P.text x → Rewrites d edits w (f x w) (g x))
    (hu : text u = pieces.flatMap P.pieceText) :
  Rewrites d edits u (Followed.substitute P f pieces u) (Recorded.substitute g pieces)
  := by
  induction pieces generalizing u edits with
  | nil =>
    obtain rfl : u = [] := List.map_eq_nil_iff.1 hu
    apply keep rfl
  | cons piece pieces ih =>
    have hrest := fun edits u hu => @ih edits u (fun x hx => h x (List.mem_cons_of_mem _ hx)) hu
    cases piece with
    | gap t =>
      have hcut : text u = t ++ pieces.flatMap P.pieceText := hu
      obtain ⟨hhere, hthere⟩ := text_take_and_drop hcut
      rw [Recorded.substitute_gap]
      exact (keep hhere).append_take_drop fun new => hrest _ _ hthere
    | token x =>
      have hcut : text u = P.text x ++ pieces.flatMap P.pieceText := hu
      obtain ⟨hhere, hthere⟩ := text_take_and_drop hcut
      rw [Recorded.substitute_token]
      exact (h x (by simp) _ _ hhere).append_take_drop fun new => hrest _ _ hthere

end Rewrites

end Inlay
