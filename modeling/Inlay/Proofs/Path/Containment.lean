import Inlay.Proofs.Path.Normal
import Mathlib.Data.List.Basic

/-!
# References from the root of the project

A reference that starts with a slash is walked from an empty stack of segments, where a double dot
has nothing to take away (`descend`).  What the walk leaves are names only, so they stay as they are
behind the root of the project, whatever that is; and seen from the root, the path of the reference
is spelled with these names (`rooted_references_stay_under_root`).  The root itself is walked more
than once on the way, which changes nothing after the first time: what walking leaves is normal
(`isNormal_normalSegments`), and walking normal segments leaves them.
-/

namespace Inlay.Path

/-! ### Normal segments -/

/-- Double dots stand only in front of the names, and below a root nowhere. -/
def IsNormal (absolute : Bool) (segments : List Segment) : Prop :=
  ∃ n names, segments = List.replicate n Segment.up ++ names ∧ Segment.up ∉ names
    ∧ (absolute = true → n = 0)

theorem normalSegments_concat_up (absolute : Bool) (segments : List Segment) :
  normalSegments absolute (segments ++ [Segment.up])
    = (walkStep absolute (normalSegments absolute segments).reverse Segment.up).reverse
  := by
  simp [normalSegments]

/-- A double dot takes back the name before it. -/
theorem normalSegments_concat_up_of_name
    {absolute : Bool} {segments front : List Segment} {s : Segment} (hs : s ≠ Segment.up)
    (h : normalSegments absolute segments = front ++ [s]) :
  normalSegments absolute (segments ++ [Segment.up]) = front
  := by
  rw [normalSegments_concat_up, h]
  simp [walkStep, hs]

/-- Below a root a double dot is dropped where there is nothing to take back. -/
theorem normalSegments_concat_up_of_nil
    {segments : List Segment} (h : normalSegments true segments = []) :
  normalSegments true (segments ++ [Segment.up]) = []
  := by
  rw [normalSegments_concat_up, h]
  rfl

/-- At the current place a double dot stays behind double dots. -/
theorem normalSegments_concat_up_of_ups
    {segments : List Segment} {n : Nat}
    (h : normalSegments false segments = List.replicate n Segment.up) :
  normalSegments false (segments ++ [Segment.up]) = List.replicate (n + 1) Segment.up
  := by
  have hstep : walkStep false (List.replicate n Segment.up) Segment.up
      = List.replicate (n + 1) Segment.up := by
    cases n <;> simp [List.replicate_succ, walkStep]
  rw [normalSegments_concat_up, h, List.reverse_replicate, hstep, List.reverse_replicate]

/-- What walking leaves is normal. -/
theorem isNormal_normalSegments (absolute : Bool) (segments : List Segment) :
  IsNormal absolute (normalSegments absolute segments)
  := by
  induction segments using List.reverseRecOn with
  | nil => exact ⟨0, [], rfl, by simp, fun _ => rfl⟩
  | append_singleton segments s ih =>
    obtain ⟨n, names, hnormal, hnames, hn⟩ := ih
    by_cases hs : s = Segment.up
    · subst hs
      rcases List.eq_nil_or_concat names with rfl | ⟨front, last, rfl⟩
      · rw [List.append_nil] at hnormal
        cases absolute with
        | true =>
          rw [hn rfl] at hnormal
          use 0, []
          exact ⟨normalSegments_concat_up_of_nil hnormal, by simp, fun _ => rfl⟩
        | false =>
          use n + 1, []
          rw [List.append_nil]
          exact ⟨normalSegments_concat_up_of_ups hnormal, by simp, by simp⟩
      · rw [List.concat_eq_append, List.mem_append, List.mem_singleton, not_or] at hnames
        use n, front
        refine ⟨?_, hnames.1, hn⟩
        apply normalSegments_concat_up_of_name (Ne.symm hnames.2)
        rw [hnormal, List.concat_eq_append, List.append_assoc]
    · use n, names ++ [s]
      refine ⟨?_, ?_, hn⟩
      · rw [normalSegments_concat hs, hnormal, List.append_assoc]
      · simp [hnames, Ne.symm hs]

/-- Names behind other segments stay as they are. -/
theorem normalSegments_append_of_not_mem
    {names : List Segment} (h : Segment.up ∉ names) (absolute : Bool) (segments : List Segment) :
  normalSegments absolute (segments ++ names) = normalSegments absolute segments ++ names
  := by
  induction names using List.reverseRecOn with
  | nil => rw [List.append_nil, List.append_nil]
  | append_singleton names s ih =>
    rw [List.mem_append, List.mem_singleton, not_or] at h
    rw [← List.append_assoc, normalSegments_concat (Ne.symm h.2), ih h.1, List.append_assoc]

/-- Walking normal segments changes nothing. -/
theorem IsNormal.normalSegments_eq
    {absolute : Bool} {segments : List Segment} (h : IsNormal absolute segments) :
  normalSegments absolute segments = segments
  := by
  obtain ⟨n, names, rfl, hnames, hn⟩ := h
  rw [normalSegments_append_of_not_mem hnames]
  congr 1
  cases absolute with
  | true =>
    rw [hn rfl]
    rfl
  | false =>
    clear hn
    induction n with
    | zero => rfl
    | succ n ih =>
      conv => lhs; rw [List.replicate_succ']
      exact normalSegments_concat_up_of_ups ih

/-- Walking twice is walking once. -/
theorem normalSegments_idem (absolute : Bool) (segments : List Segment) :
  normalSegments absolute (normalSegments absolute segments) = normalSegments absolute segments
  := (isNormal_normalSegments absolute segments).normalSegments_eq

/-! ### Walking from an empty stack -/

/-- The stack of segments that a walk leaves, the last one on top: a name is put on top, and a double
dot takes the top away.  It does nothing where the stack is empty. -/
def descend (stack : List Segment) : List Segment → List Segment
  | [] => stack
  | s :: rest =>
    if s = Segment.up then descend stack.dropLast rest else descend (stack ++ [s]) rest

theorem descend_eq_foldl {stack : List Segment} (h : Segment.up ∉ stack) (segments : List Segment) :
  descend stack segments = (segments.foldl (walkStep true) stack.reverse).reverse
  := by
  induction segments generalizing stack with
  | nil => simp [descend]
  | cons s rest ih =>
    rw [descend, List.foldl_cons]
    by_cases hs : s = Segment.up
    · subst hs
      rw [if_pos rfl, ih (fun hmem => h (List.dropLast_subset _ hmem))]
      congr 2
      rcases List.eq_nil_or_concat stack with rfl | ⟨below, top, rfl⟩
      · rfl
      · rw [List.concat_eq_append, List.mem_append, List.mem_singleton, not_or] at h
        simp [walkStep, Ne.symm h.2]
    · have hstack : Segment.up ∉ stack ++ [s] := by simp [h, Ne.symm hs]
      rw [if_neg hs, ih hstack]
      simp [walkStep, hs]

/-- Below a root, walking is walking from an empty stack. -/
theorem normalSegments_true_eq_descend (segments : List Segment) :
  normalSegments true segments = descend [] segments
  := by
  rw [descend_eq_foldl (by simp)]
  rfl

/-! ### Under the root of the project -/

theorem anchorOf_slash_ne_here (t : Text) :
  anchorOf ('/' :: t) ≠ .here
  := by
  unfold anchorOf
  split <;> simp_all

/-- A text starts at the current place exactly if no slash comes first. -/
theorem anchorOf_eq_here_iff {t : Text} :
  anchorOf t = .here ↔ t.head? ≠ some '/'
  := by
  cases t with
  | nil => simp [anchorOf]
  | cons c cs =>
    by_cases hc : c = '/'
    · subst hc
      simp [anchorOf_slash_ne_here]
    · simp [anchorOf, hc]

/-- A reference that starts with a slash is walked, and follows the root of the project. -/
theorem resolve_slash (t : Text) (base root : Path) :
  resolve ('/' :: t) base root
    = normalize ⟨root.anchor, root.segments ++ descend [] (segmentsOf ('/' :: t))⟩
  := by
  rw [resolve, ← normalSegments_true_eq_descend]
  split
  case h_1 h => exact absurd h (anchorOf_slash_ne_here t)
  case h_2 => rfl

/-- What follows the root of the project by names lies under it, by these names. -/
theorem segmentsUnder?_of_names {names : List Segment} (h : Segment.up ∉ names) (root : Path) :
  segmentsUnder? root (normalize ⟨root.anchor, root.segments ++ names⟩) = some names
  := by
  have htarget : (normalize ⟨root.anchor, root.segments ++ names⟩).normalize
      = ⟨root.anchor, root.normalize.segments ++ names⟩ := by
    simp only [normalize, isAbsolute, normalSegments_append_of_not_mem h, normalSegments_idem]
  rw [segmentsUnder?, htarget]
  dsimp only
  rw [if_pos (by rfl)]
  exact List.isPrefixOf?_eq_some_iff_append_eq.2 rfl

/-- A reference that starts with a slash cannot leave the project, whatever its other slashes and
dots are, and whatever the root of the project is: seen from the root, its path is spelled with the
segments that walking the reference from an empty stack leaves.  None of them is a double dot, and
the directory of the document does not matter. -/
theorem rooted_references_stay_under_root (t : Text) (root : Path) :
  ∃ shown, (∀ base, relativeUnder? root (resolve ('/' :: t) base root) = some shown)
    ∧ shown = toText ⟨.here, descend [] (segmentsOf ('/' :: t))⟩
    ∧ Segment.up ∉ segmentsOf shown
  := by
  have hnames : Segment.up ∉ descend [] (segmentsOf ('/' :: t)) := by
    rw [← normalSegments_true_eq_descend]
    apply up_not_mem_normalSegments
  use toText ⟨.here, descend [] (segmentsOf ('/' :: t))⟩
  refine ⟨?_, rfl, ?_⟩
  · intro base
    rw [resolve_slash, relativeUnder?, segmentsUnder?_of_names hnames]
    rfl
  · have hspelling := ofText_toText ⟨.here, descend [] (segmentsOf ('/' :: t))⟩
    rw [show segmentsOf _ = _ from congrArg segments hspelling]
    exact hnames

example :
  relativeUnder? (ofText "a/../..".toList)
      (resolve "//..//../x/./y/../z".toList (ofText "/d".toList) (ofText "a/../..".toList))
    = some "x/z".toList
  := by decide +kernel

end Inlay.Path
