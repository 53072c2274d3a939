import Inlay.Proofs.Path.Containment
import Mathlib.Data.List.TakeWhile

/-!
# References along a chain of documents

Walking is a fold that composes: a part of a path may be walked before it is put in its place
(`normalSegments_append_normalSegments`), though double dots are dropped below a root and kept at the
current place.  So a relative reference that stands in a component denotes what the two references
denote when they are joined to one (`relative_references_compose`).  Whatever a reference is, the
path that it denotes is spelled without anything to walk (`isNormalSpelling_resolve`).
-/

namespace Inlay

/-- Splitting at a separator that stands in the text splits both sides of it. -/
theorem Text.splitAt_append_separator (separator : Char) (t u : Text) :
  splitAt separator (t ++ separator :: u) = splitAt separator t ++ splitAt separator u
  := by
  induction t with
  | nil => simp [splitAt]
  | cons c cs ih =>
    by_cases hc : c = separator
    · simp [splitAt, hc, ih]
    · cases hcs : splitAt separator cs with
      | nil => exact absurd hcs (splitAt_ne_nil separator cs)
      | cons piece pieces =>
        rw [hcs] at ih
        simp [splitAt, hc, hcs, ih]

namespace Path

/-! ### The parts of a reference -/

/-- The name at the end of a reference: what follows its last slash. -/
def namePart (t : Text) : Text :=
  (t.reverse.takeWhile (· ≠ '/')).reverse

/-- The reference up to its last slash. -/
def frontPart (t : Text) : Text :=
  (t.reverse.dropWhile (· ≠ '/')).reverse

/-- The directory of a reference: what precedes its name, without the slashes at the end unless there
are slashes only. -/
def directoryPart (t : Text) : Text :=
  if (frontPart t).all (· = '/') then frontPart t
  else Text.dropEndWhile (· = '/') (frontPart t)

/-- The reference that goes on from a directory; one that starts with a slash stands alone. -/
def joinText (directory t : Text) : Text :=
  if t.head? = some '/' then t
  else if directory = [] ∨ directory.getLast? = some '/' then directory ++ t
  else directory ++ '/' :: t

/-- The segments on both sides of a slash are those of the text. -/
theorem segmentsOf_append_slash (t u : Text) :
  segmentsOf (t ++ '/' :: u) = segmentsOf t ++ segmentsOf u
  := by
  rw [segmentsOf, Text.splitAt_append_separator, List.filterMap_append]
  rfl

/-- Slashes at the end do not count. -/
theorem segmentsOf_append_slashes {slashes : Text} (h : ∀ c ∈ slashes, c = '/') (t : Text) :
  segmentsOf (t ++ slashes) = segmentsOf t
  := by
  induction slashes using List.reverseRecOn with
  | nil => rw [List.append_nil]
  | append_singleton slashes c ih =>
    obtain rfl : c = '/' := h c (by simp)
    rw [← List.append_assoc, segmentsOf_append_slash, ih fun c hc => h c (by simp [hc])]
    exact List.append_nil _

theorem frontPart_append_namePart (t : Text) :
  frontPart t ++ namePart t = t
  := by
  rw [frontPart, namePart, ← List.reverse_append, List.takeWhile_append_dropWhile,
    List.reverse_reverse]

/-- The front of a reference ends in the last slash, if there is one. -/
theorem frontPart_cases (t : Text) :
  frontPart t = [] ∨ ∃ front, frontPart t = front ++ ['/']
  := by
  rw [frontPart]
  cases h : t.reverse.dropWhile (· ≠ '/') with
  | nil => exact .inl rfl
  | cons c front =>
    have hc := List.head?_dropWhile_not (p := (· ≠ '/')) t.reverse
    rw [h] at hc
    obtain rfl : c = '/' := by simpa using hc
    exact .inr ⟨front.reverse, List.reverse_cons⟩

theorem slash_not_mem_namePart (t : Text) :
  '/' ∉ namePart t
  := by
  intro hmem
  simpa using List.mem_takeWhile_imp (List.mem_reverse.1 hmem)

/-- What holds no slash belongs to the name. -/
theorem namePart_append {tail : Text} (h : '/' ∉ tail) (front : Text) :
  namePart (front ++ tail) = namePart front ++ tail
  := by
  have htail : ∀ c ∈ tail.reverse, decide (c ≠ '/') = true := by
    intro c hc
    simpa using ne_of_mem_of_not_mem (List.mem_reverse.1 hc) h
  rw [namePart, namePart, List.reverse_append, List.takeWhile_append_of_pos htail,
    List.reverse_append, List.reverse_reverse]

/-- A text without slashes that is longer than two dots is one segment. -/
theorem exists_segmentsOf_eq_singleton {name : Text} (hslash : '/' ∉ name) (hlong : 2 < name.length) :
  ∃ s : Segment, s.text = name ∧ segmentsOf name = [s] ∧ s ≠ Segment.up
  := by
  have hsegment : name ≠ [] ∧ name ≠ ['.'] ∧ '/' ∉ name := by
    refine ⟨?_, ?_, hslash⟩
    · rintro rfl
      simp at hlong
    · rintro rfl
      simp at hlong
  use ⟨name, hsegment.1, hsegment.2.1, hsegment.2.2⟩, rfl
  constructor
  · simp [segmentsOf, Text.splitAt_of_not_mem hslash, Segment.ofText?, hsegment]
  · rw [Ne, Segment.ext_iff]
    intro hup
    rw [show name = Segment.up.text from hup] at hlong
    exact absurd hlong (by decide)

/-- The directory of a reference is its front up to slashes. -/
theorem exists_directoryPart_append (t : Text) :
  ∃ slashes, (∀ c ∈ slashes, c = '/') ∧ directoryPart t ++ slashes = frontPart t
  := by
  rw [directoryPart]
  split
  · exact ⟨[], by simp, List.append_nil _⟩
  · use ((frontPart t).reverse.takeWhile (· = '/')).reverse
    constructor
    · intro c hc
      simpa using List.mem_takeWhile_imp (List.mem_reverse.1 hc)
    · rw [Text.dropEndWhile, ← List.reverse_append, List.takeWhile_append_dropWhile,
        List.reverse_reverse]

theorem directoryPart_isPrefix (t : Text) :
  directoryPart t <+: t
  := by
  obtain ⟨slashes, -, hfront⟩ := exists_directoryPart_append t
  use slashes ++ namePart t
  rw [← List.append_assoc, hfront, frontPart_append_namePart]

/-- The segments of a reference are those of its directory and that of its name. -/
theorem segmentsOf_eq_directory_append_name (t : Text) :
  segmentsOf t = segmentsOf (directoryPart t) ++ segmentsOf (namePart t)
  := by
  obtain ⟨slashes, hslashes, hfront⟩ := exists_directoryPart_append t
  rw [← segmentsOf_append_slashes hslashes (directoryPart t), hfront]
  conv => lhs; rw [← frontPart_append_namePart t]
  rcases frontPart_cases t with hnil | ⟨front, hconcat⟩
  · rw [hnil]
    rfl
  · rw [hconcat, List.append_assoc, List.singleton_append, segmentsOf_append_slash,
      segmentsOf_append_slash]
    rw [show segmentsOf [] = [] from rfl, List.append_nil]

/-- The segments of a joined reference are those of the directory and those of the reference. -/
theorem segmentsOf_joinText {t : Text} (h : t.head? ≠ some '/') (directory : Text) :
  segmentsOf (joinText directory t) = segmentsOf directory ++ segmentsOf t
  := by
  rw [joinText, if_neg h]
  split
  case isTrue hend =>
    rcases hend with rfl | hend
    · rfl
    · obtain ⟨front, rfl⟩ := List.getLast?_eq_some_iff.1 hend
      rw [List.append_assoc, List.singleton_append, segmentsOf_append_slash,
        segmentsOf_append_slash, show segmentsOf [] = [] from rfl, List.append_nil]
  case isFalse => rw [segmentsOf_append_slash]

/-- Relative references are joined to a relative reference. -/
theorem head?_joinText_directoryPart
    {t u : Text} (ht : t.head? ≠ some '/') (hu : u.head? ≠ some '/') :
  (joinText (directoryPart t) u).head? ≠ some '/'
  := by
  obtain ⟨rest, hrest⟩ := directoryPart_isPrefix t
  cases hdirectory : directoryPart t with
  | nil => simp [joinText, hu]
  | cons c cs =>
    rw [← hrest, hdirectory] at ht
    rw [joinText, if_neg hu]
    split <;> simpa using ht

/-! ### Walking part by part -/

/-- Walking on with walked segments is walking on with the segments, wherever the walk has come. -/
theorem foldl_walkStep_normalSegments
    (absolute : Bool) (walked segments : List Segment) :
  (normalSegments false segments).foldl (walkStep absolute) walked
    = segments.foldl (walkStep absolute) walked
  := by
  induction segments using List.reverseRecOn with
  | nil => rfl
  | append_singleton segments s ih =>
    rw [List.foldl_append, ← ih]
    by_cases hs : s = Segment.up
    · subst hs
      obtain ⟨n, names, hnormal, hnames, -⟩ := isNormal_normalSegments false segments
      rcases List.eq_nil_or_concat names with rfl | ⟨front, last, rfl⟩
      · rw [List.append_nil] at hnormal
        rw [normalSegments_concat_up_of_ups hnormal, hnormal, List.replicate_succ',
          List.foldl_append]
      · -- The double dot takes back the last name, which the walk has just put on top.
        rw [List.concat_eq_append, List.mem_append, List.mem_singleton, not_or] at hnames
        rw [List.concat_eq_append, ← List.append_assoc] at hnormal
        rw [normalSegments_concat_up_of_name (Ne.symm hnames.2) hnormal, hnormal,
          List.foldl_append]
        simp [walkStep, Ne.symm hnames.2]
    · rw [normalSegments_concat hs, List.foldl_append]

/-- Walking goes on where it has come. -/
theorem normalSegments_append (absolute : Bool) (front rest : List Segment) :
  normalSegments absolute (front ++ rest)
    = (rest.foldl (walkStep absolute) (normalSegments absolute front).reverse).reverse
  := by
  rw [normalSegments, normalSegments, List.foldl_append, List.reverse_reverse]

/-- Segments may be walked before they follow others. -/
theorem normalSegments_append_normalSegments (absolute : Bool) (front rest : List Segment) :
  normalSegments absolute (front ++ normalSegments false rest)
    = normalSegments absolute (front ++ rest)
  := by
  rw [normalSegments_append, foldl_walkStep_normalSegments, ← normalSegments_append]

/-- Segments may be walked before others follow. -/
theorem normalSegments_normalSegments_append (absolute : Bool) (front rest : List Segment) :
  normalSegments absolute (normalSegments absolute front ++ rest)
    = normalSegments absolute (front ++ rest)
  := by
  rw [normalSegments_append, normalSegments_idem, ← normalSegments_append]

/-! ### References in components -/

/-- A relative reference is walked from the directory of its document. -/
theorem resolve_relative {reference : Text} (h : reference.head? ≠ some '/') (base root : Path) :
  resolve reference base root = normalize ⟨base.anchor, base.segments ++ segmentsOf reference⟩
  := by
  rw [resolve, anchorOf_eq_here_iff.2 h]
  exact congrArg (Path.mk base.anchor) (normalSegments_append_normalSegments ..)

/-- The directory of the file that a relative reference denotes is what its directory part leads
to, if it ends in a name. -/
theorem parent_resolve
    {reference : Text} {s : Segment} (h : reference.head? ≠ some '/')
    (hname : segmentsOf (namePart reference) = [s]) (hs : s ≠ Segment.up) (base root : Path) :
  (resolve reference base root).parent
    = normalize ⟨base.anchor, base.segments ++ segmentsOf (directoryPart reference)⟩
  := by
  rw [resolve_relative h, segmentsOf_eq_directory_append_name, hname, ← List.append_assoc]
  simp only [normalize, parent, isAbsolute, normalSegments_concat hs, List.dropLast_concat]

/-- A reference in the file that another one denotes is the two of them joined. -/
theorem resolve_resolve
    {r₁ r₂ : Text} {s : Segment} (h₁ : r₁.head? ≠ some '/') (h₂ : r₂.head? ≠ some '/')
    (hname : segmentsOf (namePart r₁) = [s]) (hs : s ≠ Segment.up) (base root : Path) :
  resolve r₂ (resolve r₁ base root).parent root
    = resolve (joinText (directoryPart r₁) r₂) base root
  := by
  rw [parent_resolve h₁ hname hs, resolve_relative h₂,
    resolve_relative (head?_joinText_directoryPart h₁ h₂), segmentsOf_joinText h₂,
    ← List.append_assoc]
  exact congrArg (Path.mk base.anchor) (normalSegments_normalSegments_append ..)

/-! ### Normal spellings -/

/-- The spelling of a path with nothing to walk: names with single slashes between them, behind a
root or behind double dots.  The current place itself is spelled with a dot. -/
def IsNormalSpelling (t : Text) : Prop :=
  ∃ (anchor : Anchor) (n : Nat) (names : List Text),
    (∀ name ∈ names, name ≠ [] ∧ name ≠ ['.'] ∧ name ≠ ['.', '.'] ∧ '/' ∉ name)
    ∧ (anchor ≠ .here → n = 0)
    ∧ t = if anchor = .here ∧ n = 0 ∧ names = [] then ['.']
        else anchor.text ++ Text.join ['/'] (List.replicate n ['.', '.'] ++ names)

/-- A normal path has a normal spelling. -/
theorem isNormalSpelling_toText {p : Path} (h : IsNormal p.isAbsolute p.segments) :
  IsNormalSpelling p.toText
  := by
  obtain ⟨n, names, hsegments, hnames, hn⟩ := h
  use p.anchor, n, names.map Segment.text
  refine ⟨?_, ?_, ?_⟩
  · intro name hname
    obtain ⟨s, hs, rfl⟩ := List.mem_map.1 hname
    refine ⟨s.text_ne_nil, s.text_ne_dot, ?_, s.slash_not_mem⟩
    intro hup
    rw [show s = Segment.up from Segment.ext_iff.2 hup] at hs
    exact hnames hs
  · intro hanchor
    exact hn (by simpa [isAbsolute] using hanchor)
  · obtain ⟨anchor, segments⟩ := p
    dsimp only at hsegments ⊢
    subst hsegments
    rw [toText]
    split
    case h_1 hanchor hnil =>
      dsimp only at hanchor hnil
      obtain ⟨hups, rfl⟩ := List.append_eq_nil_iff.1 hnil
      rw [if_pos ⟨hanchor, by simpa using hups, rfl⟩]
    case h_2 hne =>
      rw [if_neg]
      · rw [joined, List.map_append, List.map_replicate]
        rfl
      · rintro ⟨hanchor, rfl, hnil⟩
        obtain rfl := List.map_eq_nil_iff.1 hnil
        exact hne hanchor rfl

/-- Whatever is walked has a normal spelling. -/
theorem isNormalSpelling_normalize (p : Path) :
  IsNormalSpelling p.normalize.toText
  := isNormalSpelling_toText (isNormal_normalSegments p.isAbsolute p.segments)

/-- The path that a reference denotes has a normal spelling. -/
theorem isNormalSpelling_resolve (reference : Text) (base root : Path) :
  IsNormalSpelling (resolve reference base root).toText
  := by
  rw [resolve]
  split <;> apply isNormalSpelling_normalize

/-- Relative references compose along a chain of components: if the name of the first reference is
that of a component, the second one, from the directory of that component, denotes the path that
both denote when they are joined.  The path that a reference denotes is always normal. -/
theorem relative_references_compose (base root : Path) :
  (∀ r₁ r₂ : Text, r₁.head? ≠ some '/' → r₂.head? ≠ some '/' → ".comp".toList <:+ namePart r₁ →
    resolve r₂ (resolve r₁ base root).parent root
      = resolve (joinText (directoryPart r₁) r₂) base root)
    ∧ ∀ reference, IsNormalSpelling (resolve reference base root).toText
  := by
  constructor
  · intro r₁ r₂ h₁ h₂ hcomponent
    have hlong : 2 < (namePart r₁).length := Nat.lt_of_lt_of_le (by decide) hcomponent.length_le
    obtain ⟨s, -, hname, hs⟩ := exists_segmentsOf_eq_singleton (slash_not_mem_namePart r₁) hlong
    exact resolve_resolve h₁ h₂ hname hs base root
  · intro reference
    exact isNormalSpelling_resolve reference base root

/-- The reference of a component, and one that climbs out of the directory of the project. -/
theorem climbing_references_compose :
  ".comp".toList <:+ namePart "../b//./c.comp".toList
    ∧ joinText (directoryPart "../b//./c.comp".toList) "./../../y//z.svg".toList
      = "../b//././../../y//z.svg".toList
    ∧ resolve "./../../y//z.svg".toList
        (resolve "../b//./c.comp".toList (ofText "a".toList) ⟨.root, []⟩).parent ⟨.root, []⟩
      = ofText "../y/z.svg".toList
  := by
  have hcomponent : ".comp".toList <:+ namePart "../b//./c.comp".toList := by decide
  have hcompose := (relative_references_compose (ofText "a".toList) ⟨.root, []⟩).1
    "../b//./c.comp".toList "./../../y//z.svg".toList (by decide) (by decide) hcomponent
  refine ⟨hcomponent, by decide, ?_⟩
  rw [hcompose]
  decide +kernel

end Path

end Inlay
