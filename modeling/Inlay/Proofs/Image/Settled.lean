import Inlay.Proofs.Image.Attribute

/-!
# Images that are met again

The text that embedding images leaves holds exactly the image elements that were left alone, if the
text is settled: no image is missing where a source stands open, and no element with a data URI can
be read by another source (`tokens_of_embedAll`).
-/

namespace Inlay.Image

/-! ### Beginnings of elements -/

/-- The opening of an image element, blanks, and whatever does not end the element. -/
inductive IsBeginning : Text → Prop
  | intro {opening blanks skipped : Text}
    (hopening : opening.map Text.foldLetter = "<img".toList)
    (hne : blanks ≠ []) (hblank : ∀ c ∈ blanks, Text.isBlank c = true) (hskipped : '>' ∉ skipped) :
    IsBeginning (opening ++ (blanks ++ skipped))

section

variable {head start more before name source u v t o front : Text} {x y : Element}

/-- A beginning may go on. -/
theorem IsBeginning.append (h : IsBeginning start) (hmore : '>' ∉ more) :
  IsBeginning (start ++ more)
  := by
  obtain @⟨opening, blanks, skipped, hopening, hne, hblank, hskipped⟩ := h
  rw [List.append_assoc, List.append_assoc]
  apply IsBeginning.intro hopening hne hblank
  rw [List.mem_append, not_or]
  exact ⟨hskipped, hmore⟩

theorem IsBeginning.bracket_not_mem (h : IsBeginning start) :
  '>' ∉ start
  := by
  obtain @⟨opening, blanks, skipped, hopening, hne, hblank, hskipped⟩ := h
  rw [List.mem_append, List.mem_append]
  rintro (hmem | hmem | hmem)
  · exact Text.not_mem_of_map_foldLetter hopening (by decide) hmem
  · exact absurd (hblank _ hmem) (by decide)
  · exact hskipped hmem

/-- A head is a beginning with a name. -/
theorem isHead_iff :
  IsHead head
    ↔ ∃ start name, head = start ++ name ∧ IsBeginning start
      ∧ name.map Text.foldLetter = "src=\"".toList
  := by
  constructor
  · rintro @⟨opening, blanks, skipped, name, hopening, hne, hblank, hskipped, hname⟩
    refine ⟨opening ++ (blanks ++ skipped), name, by simp, ?_, hname⟩
    exact .intro hopening hne hblank hskipped
  · rintro ⟨start, name, rfl, @⟨opening, blanks, skipped, hopening, hne, hblank, hskipped⟩, hname⟩
    rw [List.append_assoc, List.append_assoc]
    exact .intro hopening hne hblank hskipped hname

/-- A head is a beginning. -/
theorem IsHead.isBeginning (h : IsHead head) :
  IsBeginning head
  := by
  obtain ⟨start, name, rfl, hstart, hname⟩ := isHead_iff.1 h
  exact hstart.append (bracket_not_mem_name hname)

/-- What stands ahead of a head may belong to it. -/
theorem IsBeginning.append_head (h : IsBeginning start) (hhead : IsHead head) :
  IsHead (start ++ head)
  := by
  obtain ⟨more, name, rfl, hmore, hname⟩ := isHead_iff.1 hhead
  apply isHead_iff.2
  refine ⟨start ++ more, name, by simp, h.append hmore.bracket_not_mem, hname⟩

/-- A beginning starts with a bracket. -/
theorem IsBeginning.exists_eq_cons (h : IsBeginning start) :
  ∃ more, start = '<' :: more
  := by
  obtain @⟨opening, blanks, skipped, hopening, -, -, -⟩ := h
  obtain ⟨c, letters, rfl, hc, -⟩ := List.map_eq_cons_iff.1
    (hopening.trans (show "<img".toList = '<' :: "img".toList from rfl))
  rw [Text.eq_of_foldLetter hc (by decide)]
  exact ⟨_, rfl⟩

/-- A beginning that goes on with a bracket is one without it. -/
theorem IsBeginning.of_append_bracket
    (h : IsBeginning (before ++ '<' :: more)) (hne : before ≠ []) :
  IsBeginning before
  := by
  generalize heq : before ++ '<' :: more = start at h
  obtain @⟨opening, blanks, skipped, hopening, hblanks, hblank, hskipped⟩ := h
  obtain ⟨c, letters, rfl, -, hletters⟩ := List.map_eq_cons_iff.1
    (hopening.trans (show "<img".toList = '<' :: "img".toList from rfl))
  obtain ⟨c', before, rfl⟩ := List.exists_cons_of_ne_nil hne
  obtain ⟨rfl, hafter⟩ := List.cons.inj heq
  have hbracket : '<' ∉ letters ++ blanks := by
    rw [List.mem_append]
    rintro (hmem | hmem)
    · exact Text.not_mem_of_map_foldLetter hletters (by decide) hmem
    · exact absurd (hblank _ hmem) (by decide)
  obtain ⟨between, rfl, rfl⟩ := Text.exists_of_append_eq
    ((List.append_assoc letters blanks skipped).trans hafter.symm) hbracket
  rw [List.append_assoc, ← List.cons_append]
  apply IsBeginning.intro hopening hblanks hblank
  intro hmem
  exact hskipped (List.mem_append_left _ hmem)

/-! ### Reading by a head -/

/-- An image element can be read at the start of a text, up to its source. -/
def Readable (u head : Text) : Prop :=
  ∃ (y : Element) (rest : Text), u = y.text ++ rest ∧ y.IsImage ∧ y.head = head

/-- An element can be read where a source follows a head and a `>` comes behind it. -/
theorem readable_of_isHead
    (hhead : IsHead head) (hquote : '"' ∉ source) (hext : endsInExtension source = true)
    (hv : '>' ∈ v) :
  Readable (head ++ (source ++ '"' :: v)) head
  := by
  obtain ⟨tail, rest, rfl, hbracket⟩ := List.eq_append_cons_of_mem hv
  refine ⟨⟨head, source, tail⟩, rest, ?_, ⟨⟨hquote, hext, hbracket⟩, hhead⟩, rfl⟩
  rw [text_append_eq]

theorem match?_eq_none_of_not_readable (h : ∀ head, ¬ Readable u head) :
  pattern.match? u = none
  := by
  apply match?_eq_none_iff.2
  intro y rest hu hy
  exact h y.head ⟨y, rest, hu, hy, rfl⟩

theorem not_readable_of_match?_eq_none (h : pattern.match? u = none) (head : Text) :
  ¬ Readable u head
  := by
  rintro ⟨y, rest, hu, hy, -⟩
  exact match?_eq_none_iff.1 h y rest hu hy

/-! ### Sources that stand open -/

/-- A source begins in a text and does not end in it. -/
def LeavesOpen (front : Text) : Prop :=
  ∃ start name value, front = start ++ (name ++ value)
    ∧ name.map Text.foldLetter = "src=\"".toList ∧ '"' ∉ value

/-- A source that begins in `front` and ends ahead of `o` ends in the same way ahead of `t`. -/
def ClosesAlike (front o t : Text) : Prop :=
  ∀ start name value source v, front = start ++ (name ++ value) →
    name.map Text.foldLetter = "src=\"".toList → value ++ o = source ++ '"' :: v → '"' ∉ source →
    '>' ∈ v → ∃ v', value ++ t = source ++ '"' :: v' ∧ '>' ∈ v'

theorem LeavesOpen.append_left (h : LeavesOpen front) (before : Text) :
  LeavesOpen (before ++ front)
  := by
  obtain ⟨start, name, value, rfl, hname, hvalue⟩ := h
  exact ⟨before ++ start, name, value, by simp, hname, hvalue⟩

namespace ClosesAlike

theorem refl (front t : Text) :
  ClosesAlike front t t
  := fun _ _ _ _ v _ _ h _ hv => ⟨v, h, hv⟩

/-- What begins in an ending of a text begins in the text. -/
theorem of_append_left (h : ClosesAlike (before ++ front) o t) :
  ClosesAlike front o t
  := by
  rintro start name value source v rfl hname
  exact h (before ++ start) name value source v (by simp) hname

/-- What begins ahead of a gap ends in it or behind it. -/
theorem of_append_right {gap : Text} (h : ClosesAlike (front ++ gap) o t) :
  ClosesAlike front (gap ++ o) (gap ++ t)
  := by
  rintro start name value source v rfl hname hvalue hquote hv
  rw [← List.append_assoc] at hvalue ⊢
  exact h start name (value ++ gap) source v (by simp) hname hvalue hquote hv

end ClosesAlike

/-- A source ends at its first quote, whatever comes later. -/
theorem exists_eq_of_quote_mem
    {q : Text} (hq : '"' ∈ q) (h : q ++ o = source ++ '"' :: v) (hsource : '"' ∉ source) :
  ∃ more, q = source ++ '"' :: more
  := by
  obtain ⟨first, more, rfl, hfirst⟩ := List.eq_append_cons_of_mem hq
  use more
  rw [List.append_assoc, List.cons_append] at h
  obtain ⟨rfl, -⟩ := Text.append_cons_inj h hfirst hsource
  rfl

/-- In the place of an element, a text with the same head closes sources alike, and so does any text
where none stands open. -/
theorem closesAlike_of_element
    {new : Text} (hx : x.IsImage) (hnew : (∃ w, new = x.head ++ w) ∨ ¬ LeavesOpen front) (o t : Text) :
  ClosesAlike front (new ++ o) (x.text ++ t)
  := by
  rintro start name value source v rfl hname hvalue hsource -
  -- The quote that ends the source stands in the value so far or in the head.
  have hbracket : ∀ more, '>' ∈ more ++ (x.text ++ t) := by
    intro more
    simp [Element.text]
  rcases hnew with ⟨w, rfl⟩ | hclosed
  · obtain ⟨start', hhead⟩ := exists_head_eq_concat hx.isHead
    rw [List.append_assoc, ← List.append_assoc value] at hvalue
    obtain ⟨more, hmore⟩ := exists_eq_of_quote_mem (by simp [hhead]) hvalue hsource
    use more ++ (x.source ++ '"' :: (x.tail ++ '>' :: t))
    constructor
    · rw [text_append_eq, ← List.append_assoc, hmore]
      simp
    · simp
  · have hquote : '"' ∈ value := by
      by_contra hquote
      exact hclosed ⟨start, name, value, rfl, hname, hquote⟩
    obtain ⟨more, rfl⟩ := exists_eq_of_quote_mem hquote hvalue hsource
    exact ⟨more ++ (x.text ++ t), by simp, hbracket more⟩

/-- An element whose source ends ahead of `o` can be read ahead of `t` as well. -/
theorem readable_of_closesAlike
    {value : Text} (hcloses : ClosesAlike front o t) (hhead : IsHead head)
    (hfront : front = head ++ value) (hvalue : value ++ o = source ++ '"' :: v) (hv : '>' ∈ v)
    (hquote : '"' ∉ source) (hext : endsInExtension source = true) :
  Readable (front ++ t) head
  := by
  obtain ⟨start, name, rfl, -, hname⟩ := isHead_iff.1 hhead
  rw [List.append_assoc] at hfront
  obtain ⟨v', hvalue', hv'⟩ := hcloses start name value source v hfront hname hvalue hquote hv
  rw [hfront, ← List.append_assoc, List.append_assoc, hvalue']
  exact readable_of_isHead hhead hquote hext hv'

/-! ### The places ahead of an element and in it -/

/-- No element begins in a gap, as none began there before. -/
theorem match?_gap_eq_none
    {gap new : Text} (hx : x.IsImage) (hnew : ∃ w, new = '<' :: w) (hne : gap ≠ [])
    (hcloses : ClosesAlike gap (new ++ o) (x.text ++ t))
    (h : pattern.match? (gap ++ (x.text ++ t)) = none) :
  pattern.match? (gap ++ (new ++ o)) = none
  := by
  apply match?_eq_none_of_not_readable
  rintro head ⟨y, rest, htext, hy, rfl⟩
  have hinside : ∀ value, gap = y.head ++ value →
      value ++ (new ++ o) ≠ y.source ++ '"' :: (y.tail ++ '>' :: rest) := by
    intro value hgap hvalue
    apply not_readable_of_match?_eq_none h y.head
    exact readable_of_closesAlike hcloses hy.isHead hgap hvalue (by simp) hy.quote_not_mem
      hy.endsInExtension_eq
  rw [text_append_eq] at htext
  rcases List.append_eq_append_iff.1 htext with ⟨more, hhead, hmore⟩ | ⟨value, hgap, hvalue⟩
  · cases more with
    | nil => exact hinside [] (by simpa using hhead.symm) hmore
    | cons b more =>
      -- The head goes on behind the gap, so the element that stood there could be read from the gap.
      obtain ⟨w, rfl⟩ := hnew
      obtain ⟨rfl, -⟩ := List.cons.inj hmore
      have hwhole : IsBeginning (gap ++ '<' :: more) := hhead ▸ hy.isHead.isBeginning
      have hbeginning := hwhole.of_append_bracket hne
      apply not_readable_of_match?_eq_none h (gap ++ x.head)
      rw [text_append_eq, ← List.append_assoc]
      apply readable_of_isHead (hbeginning.append_head hx.isHead) hx.quote_not_mem
        hx.endsInExtension_eq
      simp
  · exact hinside value hgap hvalue.symm

/-- No source behind that of a recognised element is read in its tail. -/
theorem not_overtaken
    {value between rest : Text} (hx : pattern.match? (x.text ++ t) = some (x, t))
    (hcloses : ClosesAlike x.text o t) (hy : y.IsImage)
    (hhead : IsHead (x.head ++ (x.source ++ '"' :: between)))
    (hyhead : y.head = x.head ++ (value ++ '"' :: between)) :
  x.head ++ (value ++ '"' :: (x.tail ++ '>' :: o)) ≠ y.text ++ rest
  := by
  intro htext
  have hbracket : '>' ∉ between := by
    intro hmem
    apply hhead.isBeginning.bracket_not_mem
    simp [hmem]
  have hbehind : between ++ (y.source ++ '"' :: (y.tail ++ '>' :: rest)) = x.tail ++ '>' :: o := by
    rw [text_append_eq, hyhead] at htext
    simpa using htext.symm
  obtain ⟨more, hmore, hvalue⟩ := Text.exists_of_append_eq hbehind hbracket
  have hreadable : Readable (x.text ++ t) (x.head ++ (x.source ++ '"' :: between)) := by
    have htext : x.text = x.head ++ (x.source ++ '"' :: between) ++ (more ++ ['>']) := by
      rw [Element.text, hmore]
      simp
    have hsource : more ++ ['>'] ++ o = y.source ++ '"' :: (y.tail ++ '>' :: rest) := by
      rw [hvalue]
      simp
    exact readable_of_closesAlike hcloses hhead htext hsource (by simp) hy.quote_not_mem
      hy.endsInExtension_eq
  obtain ⟨z, r, hz, himage, hzhead⟩ := hreadable
  have hle := (match?_eq_some_iff.1 hx).last z r hz himage
  rw [hzhead] at hle
  simp only [List.length_append, List.length_cons] at hle
  omega

/-- An element that stays is recognised again. -/
theorem match?_kept (hx : pattern.match? (x.text ++ t) = some (x, t)) (hcloses : ClosesAlike x.text o t) :
  pattern.match? (x.text ++ o) = some (x, o)
  := by
  have himage := (match?_eq_some_iff.1 hx).isImage
  apply match?_eq_some_iff.2
  use rfl, himage
  intro y rest htext hy
  by_contra hlt
  obtain ⟨between, hbetween⟩ := overtakes_of_length_lt himage.quote_not_mem hy htext (by omega)
  rw [text_append_eq] at htext
  exact not_overtaken hx hcloses hy (hbetween ▸ hy.isHead) hbetween htext

/-! ### Elements with a data URI -/

/-- With a data URI in the place of its source, the element cannot be read by another source: neither
by one ahead of it, nor by one behind it, nor by one whose name is the end of the URI. -/
structure Element.TakesUri (x : Element) (uri : Text) : Prop where
  single : ∀ (y : Element) (rest : Text), x.text = y.text ++ rest → y.IsImage → y = x
  bracket_not_mem : '>' ∉ x.source
  uri_end : ∀ front word, uri = front ++ word → word.map Text.foldLetter ≠ "src=".toList

/-- A head that goes on behind a data URI goes on behind the source as well. -/
theorem isHead_of_isHead_uri
    {uri between : Text} (hx : IsHead x.head) (htakes : x.TakesUri uri)
    (h : IsHead (x.head ++ (uri ++ '"' :: between))) :
  IsHead (x.head ++ (x.source ++ '"' :: between))
  := by
  obtain ⟨start, name, hsplit, hstart, hname⟩ := isHead_iff.1 h
  obtain ⟨word, rfl, hword⟩ := exists_name_eq_concat hname
  have hquote : '"' ∉ word := Text.not_mem_of_map_foldLetter hword (by decide)
  rw [← List.append_assoc, ← List.append_assoc start] at hsplit
  rcases List.eq_nil_or_concat between with rfl | ⟨inner, last, rfl⟩
  · -- The name would end the URI.
    obtain ⟨front, hfront⟩ := exists_head_eq_concat hx
    obtain ⟨hsplit', -⟩ := List.append_singleton_inj.1 hsplit
    rw [hfront, List.append_assoc, List.singleton_append] at hsplit'
    obtain ⟨before, -, huri⟩ := Text.exists_of_append_cons_eq hsplit' hquote
    exact absurd hword (htakes.uri_end before word huri)
  · rw [List.concat_eq_append, ← List.cons_append, ← List.append_assoc] at hsplit
    obtain ⟨hsplit', rfl⟩ := List.append_singleton_inj.1 hsplit
    obtain ⟨before, rfl, rfl⟩ := Text.exists_of_append_cons_eq hsplit' hquote
    have hbefore : '>' ∉ x.source ++ '"' :: before := by
      rw [List.mem_append, List.mem_cons]
      rintro (hmem | hmem | hmem)
      · exact htakes.bracket_not_mem hmem
      · cases hmem
      · apply hstart.bracket_not_mem
        simp [hmem]
    apply isHead_iff.2
    refine ⟨x.head ++ (x.source ++ '"' :: before), word ++ ['"'], by simp, ?_, hname⟩
    exact hx.isBeginning.append hbefore

/-- What ends ahead of the source of an element is no element, as it could be read in the element. -/
theorem not_read_before
    {uri w rest : Text} (hx : x.IsImage) (htakes : x.TakesUri uri) (hy : y.IsImage)
    (hlt : y.head.length < x.head.length) :
  x.head ++ w ≠ y.text ++ rest
  := by
  intro htext
  rw [text_append_eq] at htext
  obtain ⟨more, hmore⟩ : y.head <+: x.head :=
    List.prefix_of_prefix_length_le ⟨_, htext.symm⟩ ⟨_, rfl⟩ (by omega)
  -- The quote at the end of the head closes the source of the other element.
  obtain ⟨start, hstart⟩ := exists_head_eq_concat hx.isHead
  have hmem : '"' ∈ more := by
    rcases List.eq_nil_or_concat more with rfl | ⟨inner, last, rfl⟩
    · rw [← hmore] at hlt
      simp at hlt
    · rw [List.concat_eq_append, ← List.append_assoc, hstart] at hmore
      obtain ⟨-, rfl⟩ := List.append_singleton_inj.1 hmore
      simp
  rw [← hmore, List.append_assoc] at htext
  obtain ⟨inner, rfl⟩ :=
    exists_eq_of_quote_mem hmem (List.append_cancel_left htext) hy.quote_not_mem
  obtain ⟨z, r, hz, hzimage, hzhead⟩ := readable_of_isHead hy.isHead hy.quote_not_mem
    hy.endsInExtension_eq (show '>' ∈ inner ++ (x.source ++ '"' :: (x.tail ++ ['>'])) by simp)
  have hsame := htakes.single z r (by rw [← hz, Element.text, ← hmore]; simp) hzimage
  rw [← hsame, hzhead] at hlt
  omega

/-- An element with a data URI is not recognised at its beginning. -/
theorem not_readable_embedded
    {uri : Text} (hx : pattern.match? (x.text ++ t) = some (x, t)) (hcloses : ClosesAlike x.text o t)
    (huri : ∀ c ∈ uri, Text.isInert c = true) (htakes : x.TakesUri uri) (head : Text) :
  ¬ Readable (x.head ++ (uri ++ '"' :: (x.tail ++ '>' :: o))) head
  := by
  rintro ⟨y, rest, htext, hy, -⟩
  have himage := (match?_eq_some_iff.1 hx).isImage
  have hquote : '"' ∉ uri := fun hmem => absurd (huri _ hmem) (by decide)
  have hdot : '.' ∉ uri := fun hmem => absurd (huri _ hmem) (by decide)
  rcases Nat.lt_trichotomy x.head.length y.head.length with hlt | heq | hgt
  · -- A source behind the URI, or one whose name ends it.
    have htext' : (⟨x.head, uri, x.tail⟩ : Element).text ++ o = y.text ++ rest := by
      rw [text_append_eq]
      exact htext
    obtain ⟨between, hbetween⟩ : y.Overtakes ⟨x.head, uri, x.tail⟩ :=
      overtakes_of_length_lt hquote hy htext' hlt
    have hhead := isHead_of_isHead_uri himage.isHead htakes (hbetween ▸ hy.isHead)
    exact not_overtaken hx hcloses hy hhead hbetween htext
  · rw [text_append_eq] at htext
    obtain ⟨-, hsource⟩ := List.append_inj htext heq
    obtain ⟨rfl, -⟩ := Text.append_cons_inj hsource hquote hy.quote_not_mem
    exact hdot (dot_mem_of_endsInExtension hy.endsInExtension_eq)
  · exact not_read_before himage htakes hy hgt htext

/-- What stands ahead of a bracket in an element is the beginning of one. -/
theorem isBeginning_of_split
    {value cs : Text} (hx : x.IsImage) (hvalue : '>' ∉ value) (hne : before ≠ [])
    (hsplit : x.head ++ (value ++ '"' :: (x.tail ++ ['>'])) = before ++ '<' :: cs) :
  IsBeginning before
  := by
  have hbracket : '>' ∉ before := by
    intro hmem
    obtain ⟨first, more, rfl, hfirst⟩ := List.eq_append_cons_of_mem hmem
    have hwhole : (x.head ++ (value ++ '"' :: x.tail)) ++ '>' :: [] = first ++ '>' :: (more ++ '<' :: cs) := by
      simpa using hsplit
    have hinside : '>' ∉ x.head ++ (value ++ '"' :: x.tail) := by
      simp [hx.isHead.isBeginning.bracket_not_mem, hvalue, hx.bracket_not_mem]
    simpa using (Text.append_cons_inj hwhole hinside hfirst).2
  rcases List.append_eq_append_iff.1 hsplit with ⟨more, rfl, -⟩ | ⟨more, hhead, hmore⟩
  · apply hx.isHead.isBeginning.append
    rw [List.mem_append, not_or] at hbracket
    exact hbracket.2
  · cases more with
    | nil =>
      rw [List.append_nil] at hhead
      exact hhead ▸ hx.isHead.isBeginning
    | cons c more =>
      obtain ⟨rfl, -⟩ := List.cons.inj hmore
      exact (hhead ▸ hx.isHead.isBeginning).of_append_bracket hne

/-- No element begins within one that has a data URI. -/
theorem match?_embedded_eq_none
    {uri : Text} {c : Char} {cs : Text} (hx : pattern.match? (x.text ++ t) = some (x, t))
    (hcloses : ClosesAlike x.text o t) (huri : ∀ c ∈ uri, Text.isInert c = true)
    (htakes : x.TakesUri uri)
    (hsplit : x.head ++ (uri ++ '"' :: (x.tail ++ ['>'])) = before ++ c :: cs) :
  pattern.match? (c :: cs ++ o) = none
  := by
  apply match?_eq_none_of_not_readable
  rintro head ⟨y, rest, htext, hy, -⟩
  obtain rfl : c = '<' := by
    obtain ⟨more, hmore⟩ := hy.isHead.isBeginning.exists_eq_cons
    rw [text_append_eq, hmore] at htext
    exact (List.cons.inj htext).1
  -- What can be read within the element could be read from its beginning.
  apply not_readable_embedded hx hcloses huri htakes (before ++ y.head)
  have hwhole : x.head ++ (uri ++ '"' :: (x.tail ++ '>' :: o))
      = before ++ y.head ++ (y.source ++ '"' :: (y.tail ++ '>' :: rest)) := by
    rw [List.append_assoc, ← text_append_eq, ← htext]
    simpa using congrArg (· ++ o) hsplit
  rw [hwhole]
  apply readable_of_isHead _ hy.quote_not_mem hy.endsInExtension_eq (by simp)
  by_cases hne : before = []
  · rw [hne, List.nil_append]
    exact hy.isHead
  · apply IsBeginning.append_head _ hy.isHead
    apply isBeginning_of_split (match?_eq_some_iff.1 hx).isImage _ hne hsplit
    exact fun hmem => absurd (huri _ hmem) (by decide)

/-- No element begins in a comment. -/
theorem match?_comment_eq_none
    {body cs : Text} {c : Char} (hbody : '"' ∉ body) (hsplit : body ++ ['>'] = before ++ c :: cs)
    (o : Text) :
  pattern.match? (c :: cs ++ o) = none
  := by
  apply match?_eq_none_of_not_readable
  rintro head ⟨y, rest, htext, hy, -⟩
  obtain ⟨start, hstart⟩ := exists_head_eq_concat hy.isHead
  rcases List.eq_nil_or_concat (c :: cs) with hnil | ⟨inner, last, hinner⟩
  · cases hnil
  · rw [List.concat_eq_append] at hinner
    rw [hinner, ← List.append_assoc] at hsplit
    obtain ⟨rfl, rfl⟩ := List.append_singleton_inj.1 hsplit
    rw [hinner, text_append_eq, List.append_assoc, List.singleton_append] at htext
    obtain ⟨between, rfl, -⟩ :=
      Text.exists_of_append_eq htext.symm hy.isHead.isBeginning.bracket_not_mem
    simp [hstart] at hbody

end

/-! ### Texts that are settled -/

section

variable {d : Disk} {base root : Path} {t out : Text} {events : List Event} {x : Element}
  {ps : List (Piece Element)}

/-- No image is missing where a source stands open, and every element takes its data URI. -/
structure IsSettled (d : Disk) (base root : Path) (ps : List (Piece Element)) : Prop where
  closed : ∀ front x, pattern.Stands ps front x → x.IsMissing d base root → ¬ LeavesOpen front
  takesUri : ∀ x bytes, .token x ∈ ps → x.HasBytes d base root bytes →
    x.TakesUri (dataUri (mediaType x.reference) bytes)

/-- The pieces behind the first element are settled as well. -/
theorem IsSettled.tail {gap : Text} (h : IsSettled d base root (.gap gap :: .token x :: ps)) :
  IsSettled d base root ps
  := by
  constructor
  · intro front y hy hmissing hopen
    apply h.closed _ y (hy.behind gap x) hmissing
    exact hopen.append_left _
  · intro y bytes hy
    exact h.takesUri y bytes (by simp [hy])

/-- A text is settled if all its images are left alone. -/
theorem isSettled_of_isPassedOver (h : ∀ x, .token x ∈ ps → isPassedOver x.reference = true) :
  IsSettled d base root ps
  := by
  constructor
  · rintro front x ⟨before, after, rfl, -⟩ hmissing
    have hpassed := h x (by simp)
    rw [hmissing.1] at hpassed
    cases hpassed
  · intro x bytes hx hbytes
    have hpassed := h x hx
    rw [hbytes.1] at hpassed
    cases hpassed

/-- A comment in the place of an image holds no quote, and ends in its only bracket. -/
theorem exists_missingComment_eq (hx : x.IsImage) :
  ∃ body, missingComment x.reference = body ++ ['>'] ∧ '"' ∉ body
  := by
  use "<!-- Missing image: ".toList ++ x.reference ++ " --".toList
  constructor
  · have hend : " -->".toList = " --".toList ++ ['>'] := rfl
    exact (congrArg ("<!-- Missing image: ".toList ++ x.reference ++ ·) hend).trans
      (List.append_assoc ..).symm
  · intro hmem
    rcases List.mem_append.1 hmem with hmem | hmem
    · rcases List.mem_append.1 hmem with hmem | hmem
      · exact absurd hmem (by decide)
      · exact hx.quote_not_mem (Text.mem_of_mem_trim hmem)
    · exact absurd hmem (by decide)

/-- What is put in the place of an element has its head, or no source stands open there. -/
theorem exists_head_or_closed
    {own : List Event} {new front : Text} (h : embed d base root x = ⟨own, .ok new⟩)
    (hclosed : x.IsMissing d base root → ¬ LeavesOpen front) :
  (∃ w, new = x.head ++ w) ∨ ¬ LeavesOpen front
  := by
  rcases embed_cases h with ⟨-, -, rfl⟩ | ⟨bytes, -, -, rfl⟩ | ⟨hmissing, -, -⟩
  · exact .inl ⟨x.source ++ '"' :: (x.tail ++ ['>']), by simp [Element.text]⟩
  · exact .inl ⟨_, rfl⟩
  · exact .inr (hclosed hmissing)

/-- What is put in the place of an element starts with a bracket. -/
theorem exists_new_eq_cons
    {own : List Event} {new : Text} (hx : x.IsImage) (h : embed d base root x = ⟨own, .ok new⟩) :
  ∃ w, new = '<' :: w
  := by
  obtain ⟨more, hmore⟩ := hx.isHead.isBeginning.exists_eq_cons
  rcases embed_cases h with ⟨-, -, rfl⟩ | ⟨bytes, -, -, rfl⟩ | ⟨-, -, rfl⟩
  · rw [Element.text, hmore]
    exact ⟨_, rfl⟩
  · rw [hmore]
    exact ⟨_, rfl⟩
  · exact ⟨_, rfl⟩

/-- Sources that begin ahead of a text end alike in it and in what comes of it. -/
theorem closesAlike_of_substituted
    {front : Text} (hcut : IsLeftmost pattern.Recognises t ps)
    (hout : Substituted (fun x own new => embed d base root x = ⟨own, .ok new⟩) ps events out)
    (hclosed : ∀ gap x more, ps = .gap gap :: .token x :: more → x.IsMissing d base root →
      ¬ LeavesOpen (front ++ gap)) :
  ClosesAlike front out t
  := by
  cases hcut with
  | last =>
    cases hout with
    | gap _ h =>
      cases h
      rw [List.append_nil]
      exact .refl front t
  | @next gap u x rest more hgap hx hrest =>
    cases hout with
    | gap _ h =>
      cases h with
      | token hnew h =>
        rw [pattern.eq_of_match? hx]
        apply ClosesAlike.of_append_right
        apply closesAlike_of_element (match?_eq_some_iff.1 hx).isImage
        exact exists_head_or_closed hnew (hclosed gap x more rfl)

/-- What is put in the place of an element holds it, if it was left alone, and no other. -/
theorem tokens_new_append
    {own : List Event} {new o rest : Text} (hx : pattern.match? (x.text ++ rest) = some (x, rest))
    (hnew : embed d base root x = ⟨own, .ok new⟩) (hcloses : ClosesAlike x.text o rest)
    (htakes : ∀ bytes, x.HasBytes d base root bytes →
      x.TakesUri (dataUri (mediaType x.reference) bytes)) :
  pattern.tokens (new ++ o)
    = [x].filter (fun x => isPassedOver x.reference) ++ pattern.tokens o
  := by
  have himage := (match?_eq_some_iff.1 hx).isImage
  rcases embed_cases hnew with ⟨hpass, -, rfl⟩ | ⟨bytes, hbytes, -, rfl⟩ | ⟨hmissing, -, rfl⟩
  · rw [Pattern.tokens_of_match? (match?_kept hx hcloses)]
    simp [hpass]
  · rw [Pattern.tokens_append]
    · simp [hbytes.1]
    · intro before c cs hsplit
      exact match?_embedded_eq_none hx hcloses
        (fun _ hc => isInert_of_mem_dataUri himage.endsInExtension_eq hc) (htakes bytes hbytes) hsplit
  · obtain ⟨body, hbody, hquote⟩ := exists_missingComment_eq himage
    rw [Pattern.tokens_append]
    · simp [hmissing.1]
    · intro before c cs hsplit
      rw [hbody] at hsplit
      exact match?_comment_eq_none hquote hsplit o

/-- In what comes of a settled text stand exactly the elements that were left alone. -/
theorem tokens_of_substituted
    (hcut : IsLeftmost pattern.Recognises t ps)
    (hout : Substituted (fun x own new => embed d base root x = ⟨own, .ok new⟩) ps events out)
    (hsettled : IsSettled d base root ps) :
  pattern.tokens out = (ps.filterMap Piece.token?).filter fun x => isPassedOver x.reference
  := by
  induction hcut generalizing events out with
  | @last t hnone =>
    cases hout with
    | gap _ h =>
      cases h
      have hpieces : [Piece.gap t] = pattern.pieces t :=
        Pattern.isLeftmost_iff.1 (IsLeftmost.last hnone)
      rw [List.append_nil, Pattern.tokens, ← hpieces]
      rfl
  | @next gap u x rest more hgap hx hrest ih =>
    cases hout with
    | gap _ h =>
      cases h with
      | @token _ own new _ events o hnew h =>
        have himage := (match?_eq_some_iff.1 hx).isImage
        obtain rfl : u = x.text ++ rest := pattern.eq_of_match? hx
        have hfirst : pattern.Stands (.gap gap :: .token x :: more) gap x :=
          ⟨[.gap gap], more, rfl, by simp [Pattern.pieceText]⟩
        have hgapcloses : ClosesAlike gap (new ++ o) (x.text ++ rest) :=
          closesAlike_of_element himage (exists_head_or_closed hnew (hsettled.closed gap x hfirst)) o rest
        have hcloses : ClosesAlike x.text o rest := by
          apply closesAlike_of_substituted hrest h
          rintro gap' y more' rfl hmissing hopen
          have hsecond : pattern.Stands (.gap gap' :: .token y :: more') gap' y :=
            ⟨[.gap gap'], more', rfl, by simp [Pattern.pieceText]⟩
          apply hsettled.closed _ y (hsecond.behind gap x) hmissing
          rw [List.append_assoc]
          exact hopen.append_left gap
        have hpassed : pattern.tokens (gap ++ (new ++ o)) = pattern.tokens (new ++ o) := by
          apply Pattern.tokens_append
          rintro before c cs rfl
          apply match?_gap_eq_none himage (exists_new_eq_cons himage hnew) (by simp)
            hgapcloses.of_append_left
          exact Pattern.not_recognises_iff.1 (hgap before c cs rfl)
        rw [hpassed, tokens_new_append hx hnew hcloses fun bytes => hsettled.takesUri x bytes (by simp),
          ih h hsettled.tail]
        exact (List.filter_append [x] _).symm

/-- In what embedding images leaves of a settled text stand exactly the elements that were left
alone. -/
theorem tokens_of_embedAll
    (h : embedAll d base root t = ⟨events, .ok out⟩) (hsettled : IsSettled d base root (pieces t)) :
  pattern.tokens out = (pattern.tokens t).filter fun x => isPassedOver x.reference
  := tokens_of_substituted (pattern.isLeftmost_pieces t) (Recorded.substitute_eq_ok_iff.1 h) hsettled

end

end Inlay.Image
