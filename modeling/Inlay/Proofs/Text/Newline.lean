import Inlay.Text.Newline

/-!
# Texts with line feeds

Making every line end a line feed is done in two steps: first every pair of a carriage return and a
line feed becomes one line feed, and then every carriage return that is left (`unifyNewlines_eq`).
-/

namespace Inlay.Text

/-- Every carriage return with a line feed behind it becomes one line feed with it. -/
def joinPairs : Text → Text
  | [] => []
  | '\r' :: '\n' :: t => '\n' :: joinPairs t
  | c :: t => c :: joinPairs t

/-- Every pair of a carriage return and a line feed becomes one line feed, and then every carriage
return that is left. -/
def withLineFeeds (t : Text) : Text :=
  (joinPairs t).map fun c => if c = '\r' then '\n' else c

theorem joinPairs_cons {c : Char} {t : Text} (h : ∀ t', c = '\r' → t = '\n' :: t' → False) :
  joinPairs (c :: t) = c :: joinPairs t
  := joinPairs.eq_3 c t h

theorem unifyNewlinesOnto_eq (done t : Text) :
  unifyNewlinesOnto done t = done.reverse ++ withLineFeeds t
  := by
  fun_induction unifyNewlinesOnto done t with
  | case1 done => simp [withLineFeeds, joinPairs]
  | case2 done t ih => simp [ih, withLineFeeds, joinPairs]
  | case3 done t hpair ih =>
    rw [ih, withLineFeeds, withLineFeeds, joinPairs_cons fun t' _ => hpair t']
    simp
  | case4 done c t hpair hreturn ih =>
    rw [ih, withLineFeeds, withLineFeeds, joinPairs_cons hpair, List.map_cons, if_neg hreturn]
    simp

/-- Reading makes every line end a line feed. -/
theorem unifyNewlines_eq (t : Text) :
  unifyNewlines t = withLineFeeds t
  := unifyNewlinesOnto_eq [] t

/-- No carriage return is left. -/
theorem return_not_mem_withLineFeeds (t : Text) :
  '\r' ∉ withLineFeeds t
  := by
  intro hmem
  obtain ⟨c, -, hc⟩ := List.mem_map.1 hmem
  split at hc
  case isTrue => cases hc
  case isFalse h => exact h hc

theorem joinPairs_of_not_mem {t : Text} (h : '\r' ∉ t) :
  joinPairs t = t
  := by
  induction t with
  | nil => rfl
  | cons c t ih =>
    obtain ⟨hc, ht⟩ : '\r' ≠ c ∧ '\r' ∉ t := by simpa using h
    rw [joinPairs_cons fun _ hreturn => absurd hreturn.symm hc, ih ht]

/-- A text without carriage returns is as it was. -/
theorem withLineFeeds_of_not_mem {t : Text} (h : '\r' ∉ t) :
  withLineFeeds t = t
  := by
  have hsame : ∀ c ∈ t, (if c = '\r' then '\n' else c) = id c := by
    intro c hc
    rw [if_neg]
    · rfl
    · rintro rfl
      exact h hc
  rw [withLineFeeds, joinPairs_of_not_mem h, List.map_congr_left hsame, List.map_id]

end Inlay.Text
