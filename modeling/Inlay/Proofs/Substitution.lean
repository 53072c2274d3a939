import Inlay.Recorded

/-!
# What a substitution leaves

A substitution that succeeds keeps the gaps of a text and puts a part in the place of each token,
one after another, with the events of that part (`Recorded.substitute_eq_ok_iff`).
-/

namespace Inlay

variable {τ : Type} {Gives Gives' : τ → List Event → Text → Prop} {pieces : List (Piece τ)}
  {events : List Event} {out : Text}

/-- What comes of pieces: gaps are kept, and each token gives way to a text and leaves events, such
as `Gives` allows. -/
inductive Substituted (Gives : τ → List Event → Text → Prop) :
    List (Piece τ) → List Event → Text → Prop
  | nil : Substituted Gives [] [] []
  | gap (t : Text) {pieces events out} (h : Substituted Gives pieces events out) :
    Substituted Gives (.gap t :: pieces) events (t ++ out)
  | token {x own new pieces events out} (hx : Gives x own new)
    (h : Substituted Gives pieces events out) :
    Substituted Gives (.token x :: pieces) (own ++ events) (new ++ out)

/-- What the tokens give may be said in other words. -/
theorem Substituted.imp
    (h : Substituted Gives pieces events out)
    (himp : ∀ x own new, .token x ∈ pieces → Gives x own new → Gives' x own new) :
  Substituted Gives' pieces events out
  := by
  induction h with
  | nil => exact .nil
  | gap t _ ih => exact .gap t (ih fun x own new hx => himp x own new (by simp [hx]))
  | token hx _ ih =>
    apply Substituted.token (himp _ _ _ (by simp) hx)
    exact ih fun x own new hx => himp x own new (by simp [hx])

/-- A substitution succeeds exactly with what comes of the pieces. -/
theorem Recorded.substitute_eq_ok_iff {f : τ → Recorded Text} :
  substitute f pieces = ⟨events, .ok out⟩
    ↔ Substituted (fun x own new => f x = ⟨own, .ok new⟩) pieces events out
  := by
  constructor
  · intro h
    induction pieces generalizing events out with
    | nil =>
      cases h
      exact .nil
    | cons piece pieces ih =>
      cases piece with
      | gap t =>
        rw [substitute_gap] at h
        obtain ⟨events', out', _, hrest, hdone, rfl⟩ := bind_eq_ok_iff.1 h
        cases hdone
        rw [List.append_nil]
        exact .gap t (ih hrest)
      | token x =>
        rw [substitute_token] at h
        obtain ⟨own, new, _, hx, hafter, rfl⟩ := bind_eq_ok_iff.1 h
        obtain ⟨events', out', _, hrest, hdone, rfl⟩ := bind_eq_ok_iff.1 hafter
        cases hdone
        rw [List.append_nil]
        exact .token hx (ih hrest)
  · intro h
    induction h with
    | nil => rfl
    | gap t _ ih =>
      rw [substitute_gap, ih]
      simp [Recorded.pure]
    | token hx _ ih =>
      rw [substitute_token, hx, ih]
      simp [Recorded.pure]

end Inlay
