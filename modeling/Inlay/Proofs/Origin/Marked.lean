import Inlay.Text.Pattern
import Mathlib.Data.List.Basic
import Mathlib.Tactic.Use

/-!
# Marked texts

The events of a run are numbered from zero.  In a marked text every character carries the number of
the event that put it in, unless it was there before.  Forgetting the marks gives the text.

Main statement: `infix_of_infix_replace`, a part of a text stays in one piece when something else
gives way to a new text.
-/

namespace Inlay

/-- A text whose characters carry the number of the event that put them in. -/
abbrev Marked := List (Char × Option Nat)

namespace Marked

/-- The characters alone. -/
def text (u : Marked) : Text :=
  u.map Prod.fst

/-- A text that was there before any event. -/
def plain (t : Text) : Marked :=
  t.map (·, none)

/-- A text that the event `n` put in. -/
def brought (n : Nat) (t : Text) : Marked :=
  t.map (·, some n)

/-- None of the characters was put in by the event `n`. -/
def FreeOf (n : Nat) (u : Marked) : Prop :=
  ∀ c ∈ u, c.2 ≠ some n

/-- How many of the characters the event `n` put in. -/
def count (n : Nat) (u : Marked) : Nat :=
  u.countP (·.2 = some n)

/-! ### The characters -/

@[simp]
theorem text_append (u v : Marked) :
  text (u ++ v) = text u ++ text v
  := List.map_append

@[simp]
theorem text_plain (t : Text) :
  text (plain t) = t
  := by simp [text, plain, Function.comp_def]

@[simp]
theorem text_brought (n : Nat) (t : Text) :
  text (brought n t) = t
  := by simp [text, brought, Function.comp_def]

/-- Where a text is cut, its marked text is cut. -/
theorem text_take_and_drop {u : Marked} {t rest : Text} (h : text u = t ++ rest) :
  text (u.take t.length) = t ∧ text (u.drop t.length) = rest
  := by
  rw [text] at h
  simp [text, List.map_take, List.map_drop, h]

/-- What is cut out of a marked text is a part of it. -/
theorem take_drop_subset (u : Marked) (m n : Nat) :
  (u.drop m).take n ⊆ u
  := List.Subset.trans (List.take_subset _ _) (List.drop_subset _ _)

theorem ne_nil_of_text {u : Marked} (h : text u ≠ []) :
  u ≠ []
  := by
  rintro rfl
  apply h
  rfl

/-- What stands for a token is not empty. -/
theorem ne_nil_of_text_eq {τ : Type} (P : Pattern τ) {x : τ} {u : Marked} (h : text u = P.text x) :
  u ≠ []
  := by
  apply ne_nil_of_text
  rw [h]
  apply P.text_ne_nil

/-! ### The marks -/

theorem freeOf_append {n : Nat} {u v : Marked} :
  FreeOf n (u ++ v) ↔ FreeOf n u ∧ FreeOf n v
  := List.forall_mem_append

theorem freeOf_plain (n : Nat) (t : Text) :
  FreeOf n (plain t)
  := by simp [FreeOf, plain]

theorem freeOf_brought {n m : Nat} (h : m ≠ n) (t : Text) :
  FreeOf n (brought m t)
  := by simp [FreeOf, brought, h]

theorem count_append (n : Nat) (u v : Marked) :
  count n (u ++ v) = count n u + count n v
  := List.countP_append

theorem count_eq_zero_iff {n : Nat} {u : Marked} :
  count n u = 0 ↔ FreeOf n u
  := by simp [count, FreeOf]

theorem count_brought (n : Nat) (t : Text) :
  count n (brought n t) = t.length
  := by simp [count, brought, List.countP_map, Function.comp_def]

/-- A text that an event put in is counted wherever it stands in one piece. -/
theorem length_le_count {n : Nat} {t : Text} {u : Marked} (h : brought n t <:+: u) :
  t.length ≤ count n u
  := by
  rw [← count_brought n t]
  apply h.sublist.countP_le

end Marked

/-! ### Parts in one piece -/

section

variable {α : Type} {part front gone back : List α}

/-- A part in front of which something goes stands behind it. -/
theorem infix_of_append_eq_append
    {before after : List α} (hgone : ∀ c ∈ gone, c ∉ part)
    (h : before ++ (part ++ after) = gone ++ back) :
  part <:+: back
  := by
  rcases List.append_eq_append_iff.1 h with ⟨x, rfl, hback⟩ | ⟨x, rfl, rfl⟩
  · cases part with
    | nil => apply List.nil_infix
    | cons c part =>
      cases x with
      | nil => exact ⟨[], after, by simpa using hback⟩
      | cons c' x =>
        obtain ⟨rfl, -⟩ := List.cons_eq_cons.1 (by simpa using hback)
        exact absurd List.mem_cons_self (hgone c (by simp))
  · exact ⟨x, after, by simp⟩

/-- When something that shares nothing with a part gives way to something else, the part stays in
one piece. -/
theorem infix_of_infix_replace
    {new : List α} (hgone : ∀ c ∈ gone, c ∉ part) (hnew : gone = [] → new = [])
    (h : part <:+: front ++ gone ++ back) :
  part <:+: front ++ new ++ back
  := by
  obtain ⟨before, after, h⟩ := h
  rw [List.append_assoc, List.append_assoc] at h
  rcases List.append_eq_append_iff.1 h with ⟨x, rfl, hpart⟩ | ⟨x, rfl, hrest⟩
  · rcases List.append_eq_append_iff.1 hpart with ⟨y, rfl, -⟩ | ⟨y, rfl, hy⟩
    · exact ⟨before, y ++ new ++ back, by simp⟩
    · cases y with
      | nil => exact ⟨before, new ++ back, by simp⟩
      | cons c y =>
        cases gone with
        | nil =>
          rw [hnew rfl]
          exact ⟨before, after, by simpa using hy.symm⟩
        | cons c' gone =>
          obtain ⟨rfl, -⟩ := List.cons_eq_cons.1 (by simpa using hy)
          exact absurd (by simp) (hgone c' List.mem_cons_self)
  · apply List.IsInfix.trans (infix_of_append_eq_append hgone hrest.symm)
    exact ⟨front ++ new, [], by simp⟩

end

end Inlay
