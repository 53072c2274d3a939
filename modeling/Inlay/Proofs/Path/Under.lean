import Inlay.Proofs.Path.Containment

/-!
# Paths under a root

A path is answered for from a root exactly if a relative text leads from the one to the other, both
walked (`segmentsUnder?_eq_some_iff`).  The answer leads there, and it goes down only, unless the root
is nothing but double dots, or the current place, and the path has more of them in front
(`answers_lead_to_targets`): then it climbs out of the root (`parent_is_answered_for`).
-/

namespace Inlay.Path

/-- A relative text that leads from a root to a path, both of them walked. -/
structure LeadsTo (root target : Path) (r : Text) : Prop where
  relative : anchorOf r = .here
  append_eq : root.normalize.append (ofText r) = target.normalize

/-- A path lies under a root by a text that leads there without double dots. -/
def IsUnderBy (root target : Path) (r : Text) : Prop :=
  LeadsTo root target r ∧ Segment.up ∉ segmentsOf r

/-- What is answered for a path and a root is a text by which the one lies under the other, if there
is any, and otherwise nothing. -/
def AnswersOnlyUnder (root target : Path) : Prop :=
  (∀ r, relativeUnder? root target = some r → IsUnderBy root target r)
    ∧ (relativeUnder? root target = none ↔ ¬ ∃ r, IsUnderBy root target r)

/-- The root is walked to double dots alone, and the path to more of them. -/
def ClimbsOut (root target : Path) : Prop :=
  ∃ n rest, root.normalize = ⟨.here, List.replicate n Segment.up⟩
    ∧ target.normalize = ⟨.here, List.replicate n Segment.up ++ Segment.up :: rest⟩

/-! ### Where answers lead -/

theorem append_relative (p : Path) (segments : List Segment) :
  p.append ⟨.here, segments⟩ = ⟨p.anchor, p.segments ++ segments⟩
  := rfl

theorem ofText_of_relative {r : Text} (h : anchorOf r = .here) :
  ofText r = ⟨.here, segmentsOf r⟩
  := by
  rw [ofText, h]

variable {root target : Path} {segments : List Segment} {r : Text}

/-- The segments that are found are those that lead from the root to the path. -/
theorem segmentsUnder?_eq_some_iff :
  segmentsUnder? root target = some segments
    ↔ root.normalize.append ⟨.here, segments⟩ = target.normalize
  := by
  rw [append_relative, segmentsUnder?]
  split
  case isTrue hanchor =>
    rw [List.isPrefixOf?_eq_some_iff_append_eq]
    constructor
    · intro happend
      rw [hanchor, happend]
    · intro hpath
      exact congrArg Path.segments hpath
  case isFalse hanchor =>
    constructor
    · intro h
      cases h
    · intro hpath
      exact absurd (congrArg Path.anchor hpath) hanchor

/-- The answer spells the segments that are found. -/
theorem relativeUnder?_eq_some_iff :
  relativeUnder? root target = some r
    ↔ ∃ segments, segmentsUnder? root target = some segments ∧ toText ⟨.here, segments⟩ = r
  := Option.map_eq_some_iff

/-- The spelling of relative segments leads where the segments do. -/
theorem leadsTo_toText_iff :
  LeadsTo root target (toText ⟨.here, segments⟩) ↔ segmentsUnder? root target = some segments
  := by
  rw [segmentsUnder?_eq_some_iff]
  constructor
  · intro h
    have happend := h.append_eq
    rwa [ofText_toText] at happend
  · intro h
    constructor
    · exact anchorOf_toText ⟨.here, segments⟩
    · rwa [ofText_toText]

/-- Whatever leads to a path has the segments that are found. -/
theorem LeadsTo.segmentsUnder?_eq (h : LeadsTo root target r) :
  segmentsUnder? root target = some (segmentsOf r)
  := by
  rw [segmentsUnder?_eq_some_iff, ← ofText_of_relative h.relative]
  exact h.append_eq

/-- The answer leads to the path. -/
theorem leadsTo_of_relativeUnder? (h : relativeUnder? root target = some r) :
  LeadsTo root target r
  := by
  obtain ⟨segments, hsegments, rfl⟩ := relativeUnder?_eq_some_iff.1 h
  exact leadsTo_toText_iff.2 hsegments

/-- There is no answer exactly if nothing leads to the path. -/
theorem relativeUnder?_eq_none_iff :
  relativeUnder? root target = none ↔ ∀ r, ¬ LeadsTo root target r
  := by
  constructor
  · intro hnone r hr
    have hsegments := Option.map_eq_none_iff.1 hnone
    rw [hr.segmentsUnder?_eq] at hsegments
    cases hsegments
  · intro hnone
    rw [Option.eq_none_iff_forall_ne_some]
    intro r hr
    exact hnone r (leadsTo_of_relativeUnder? hr)

/-! ### Climbing out -/

/-- In normal segments only double dots precede a double dot. -/
theorem IsNormal.eq_ups_of_mem
    {absolute : Bool} {front back : List Segment} (h : IsNormal absolute (front ++ back))
    (hup : Segment.up ∈ back) :
  absolute = false ∧ (∃ n, front = List.replicate n Segment.up) ∧ ∃ rest, back = Segment.up :: rest
  := by
  obtain ⟨n, names, heq, hnames, hn⟩ := h
  rcases List.append_eq_append_iff.1 heq with ⟨ups, hups, rfl⟩ | ⟨between, -, rfl⟩
  · obtain ⟨hlength, hfront, hback⟩ := List.replicate_eq_append_iff.1 hups
    refine ⟨?_, ⟨front.length, hfront⟩, ?_⟩
    · cases absolute with
      | false => rfl
      | true =>
        rw [hback, show ups.length = 0 by have := hn rfl; omega] at hup
        exact absurd hup hnames
    · cases ups with
      | nil => exact absurd hup hnames
      | cons s ups =>
        obtain rfl : s = Segment.up := (List.cons.inj hback).1
        exact ⟨ups ++ names, rfl⟩
  · exact absurd (List.mem_append_right between hup) hnames

/-- The segments that are found have a double dot exactly if the path climbs out of the root. -/
theorem up_mem_iff_climbsOut (h : segmentsUnder? root target = some segments) :
  Segment.up ∈ segments ↔ ClimbsOut root target
  := by
  have htarget := (segmentsUnder?_eq_some_iff.1 h).symm
  rw [append_relative] at htarget
  constructor
  · intro hup
    have hsegments : target.normalize.segments = root.normalize.segments ++ segments :=
      congrArg Path.segments htarget
    have hnormal := isNormal_normalSegments target.isAbsolute target.segments
    rw [show normalSegments target.isAbsolute target.segments = _ from hsegments] at hnormal
    obtain ⟨habsolute, ⟨n, hfront⟩, rest, rfl⟩ := hnormal.eq_ups_of_mem hup
    have hhere : target.normalize.anchor = .here := of_not_not (of_decide_eq_false habsolute)
    have hroot : root.normalize.anchor = .here := by
      rw [← hhere, htarget]
    use n, rest
    constructor
    · rw [← hroot, ← hfront]
    · rw [htarget, hroot, hfront]
  · rintro ⟨n, rest, hroot, hclimbs⟩
    rw [hroot, hclimbs] at htarget
    have hsegments := List.append_cancel_left (congrArg Path.segments htarget)
    rw [← hsegments]
    simp

/-- A path that climbs out of a root is answered for by a text with a double dot. -/
theorem ClimbsOut.exists_relativeUnder? (h : ClimbsOut root target) :
  ∃ r, relativeUnder? root target = some r ∧ Segment.up ∈ segmentsOf r
  := by
  obtain ⟨n, rest, hroot, htarget⟩ := h
  have hsegments : segmentsUnder? root target = some (Segment.up :: rest) := by
    rw [segmentsUnder?_eq_some_iff, hroot, htarget]
    rfl
  use toText ⟨.here, Segment.up :: rest⟩
  constructor
  · exact relativeUnder?_eq_some_iff.2 ⟨_, hsegments, rfl⟩
  · rw [segmentsOf_toText]
    exact List.mem_cons_self

/-- Whatever the root and the path are, an answer is a relative text that leads from the one to the
other, in its only normal spelling, and there is none exactly if no such text exists.  It has double
dots exactly if the path climbs out of a root of double dots alone, and then it is not under the root;
in all other cases the answers are for what is under the root, and for nothing else. -/
theorem answers_lead_to_targets (root target : Path) :
  (∀ r, relativeUnder? root target = some r →
      LeadsTo root target r ∧ (ofText r).toText = r
        ∧ (Segment.up ∈ segmentsOf r ↔ ClimbsOut root target))
    ∧ (relativeUnder? root target = none ↔ ∀ r, ¬ LeadsTo root target r)
    ∧ (AnswersOnlyUnder root target ↔ ¬ ClimbsOut root target)
  := by
  refine ⟨?_, relativeUnder?_eq_none_iff, ?_⟩
  · intro r hr
    have hleads := leadsTo_of_relativeUnder? hr
    refine ⟨hleads, ?_, up_mem_iff_climbsOut hleads.segmentsUnder?_eq⟩
    obtain ⟨segments, -, rfl⟩ := relativeUnder?_eq_some_iff.1 hr
    rw [ofText_toText]
  · constructor
    · rintro ⟨hanswers, -⟩ hclimbs
      obtain ⟨r, hr, hup⟩ := hclimbs.exists_relativeUnder?
      exact (hanswers r hr).2 hup
    · intro hclimbs
      have hunder : ∀ r, LeadsTo root target r → IsUnderBy root target r := by
        intro r hr
        use hr
        rw [up_mem_iff_climbsOut hr.segmentsUnder?_eq]
        exact hclimbs
      constructor
      · intro r hr
        exact hunder r (leadsTo_of_relativeUnder? hr)
      · rw [relativeUnder?_eq_none_iff, not_exists]
        apply forall_congr'
        intro r
        exact not_congr ⟨hunder r, And.left⟩

/-- The directory above is answered for from the current place, under which it is not. -/
theorem parent_is_answered_for :
  relativeUnder? (ofText ".".toList) (ofText "..".toList) = some "..".toList
    ∧ (¬ ∃ r, IsUnderBy (ofText ".".toList) (ofText "..".toList) r)
    ∧ ¬ AnswersOnlyUnder (ofText ".".toList) (ofText "..".toList)
  := by
  have hanswer : relativeUnder? (ofText ".".toList) (ofText "..".toList) = some "..".toList := by
    decide +kernel
  have hsegments : segmentsUnder? (ofText ".".toList) (ofText "..".toList) = some [Segment.up] := by
    decide +kernel
  refine ⟨hanswer, ?_, ?_⟩
  · rintro ⟨r, hr, hup⟩
    rw [hr.segmentsUnder?_eq] at hsegments
    rw [Option.some.inj hsegments] at hup
    simp at hup
  · rintro ⟨hanswers, -⟩
    exact (hanswers _ hanswer).2 (by decide +kernel)

end Inlay.Path
