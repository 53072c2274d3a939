import Inlay.Proofs.Image.Embedding

/-!
# Which attribute is captured

The source that is captured at a place is the last suitable one ahead of the first `>`, of whatever
attribute: an element that has a suitable `src` may be overtaken by a later attribute whose name only
ends in `src`.  In an element that is made of attributes, the last one whose name ends in `src` and
whose value names an image is captured (`captured_source_is_last`).
-/

namespace Inlay.Image

/-- The captured attribute is named `src`, in letters of ASCII, and stands behind a blank. -/
def Element.HasOwnSource (x : Element) : Prop :=
  ∃ front blank name, x.head = front ++ blank :: name ∧ Text.isBlank blank = true
    ∧ name.map Char.toLower = "src=\"".toList

/-- The source of `y` stands behind that of `x`, in the same element. -/
def Element.Overtakes (y x : Element) : Prop :=
  ∃ between, y.head = x.head ++ (x.source ++ '"' :: between)

/-- An attribute of an element. -/
structure Attribute where
  name : Text
  value : Text

/-- The text of an attribute, with the blank ahead of it. -/
def Attribute.text (a : Attribute) : Text :=
  ' ' :: (a.name ++ '=' :: '"' :: (a.value ++ ['"']))

/-- The text of attributes one after another. -/
def attributesText (attributes : List Attribute) : Text :=
  attributes.flatMap Attribute.text

/-- The image element that is made of attributes. -/
def elementText (attributes : List Attribute) : Text :=
  "<img".toList ++ (attributesText attributes ++ ['>'])

/-- The attribute stays within its quotes and the element, and its value does not end like the
beginning of an attribute. -/
structure Attribute.IsPlain (a : Attribute) : Prop where
  name_quote : '"' ∉ a.name
  name_bracket : '>' ∉ a.name
  name_blank : ∀ c ∈ a.name, Text.isBlank c = false
  value_quote : '"' ∉ a.value
  value_bracket : '>' ∉ a.value
  value_end : ∀ front word, a.value = front ++ word → word.map Text.foldLetter ≠ "src=".toList

/-- The name of the attribute ends in `src`, and its value names an image. -/
structure Attribute.Suits (a : Attribute) : Prop where
  name_end : ∃ front word, a.name = front ++ word ∧ word.map Text.foldLetter = "src".toList
  endsInExtension_eq : endsInExtension a.value = true

/-- The element as it is read at one of its attributes. -/
def elementAt (before : List Attribute) (a : Attribute) (after : List Attribute) : Element where
  head := "<img".toList ++ (attributesText before ++ ' ' :: (a.name ++ ['=', '"']))
  source := a.value
  tail := attributesText after

section

variable {before after attributes : List Attribute} {a : Attribute} {x y : Element} {t rest r : Text}

/-! ### Reading an element that is made of attributes -/

theorem attributesText_append :
  attributesText (before ++ a :: after)
    = attributesText before ++ (a.text ++ attributesText after)
  := by simp [attributesText]

theorem elementText_eq (h : attributes = before ++ a :: after) (rest : Text) :
  elementText attributes ++ rest = (elementAt before a after).text ++ rest
  := by
  rw [h, elementText, attributesText_append, text_append_eq (elementAt before a after)]
  simp [elementAt, Attribute.text]

theorem bracket_not_mem_attributesText (h : ∀ a ∈ attributes, a.IsPlain) :
  '>' ∉ attributesText attributes
  := by
  rw [attributesText, List.mem_flatMap]
  rintro ⟨a, ha, hmem⟩
  simp [Attribute.text, (h a ha).name_bracket, (h a ha).value_bracket] at hmem

/-- A quote in the text of attributes opens or closes the value of one of them. -/
theorem exists_attribute_of_quote
    {front back : Text} (hplain : ∀ a ∈ attributes, a.IsPlain)
    (h : attributesText attributes = front ++ '"' :: back) :
  ∃ before a after, attributes = before ++ a :: after
    ∧ (front = attributesText before ++ ' ' :: (a.name ++ ['='])
        ∧ back = a.value ++ '"' :: attributesText after
      ∨ front = attributesText before ++ ' ' :: (a.name ++ '=' :: '"' :: a.value))
  := by
  induction attributes generalizing front with
  | nil => simp [attributesText] at h
  | cons a after ih =>
    have ha := hplain a (by simp)
    have hstart : '"' ∉ ' ' :: (a.name ++ ['=']) := by simp [ha.name_quote]
    have htext : (' ' :: (a.name ++ ['='])) ++ '"' :: (a.value ++ '"' :: attributesText after)
        = front ++ '"' :: back := by
      rw [← h]
      simp [attributesText, Attribute.text]
    obtain ⟨behind, rfl, hbehind⟩ := Text.exists_of_append_eq htext hstart
    cases behind with
    | nil =>
      obtain ⟨-, rfl⟩ := List.cons.inj hbehind
      exact ⟨[], a, after, rfl, .inl ⟨by simp [attributesText], rfl⟩⟩
    | cons c behind =>
      obtain ⟨rfl, hvalue⟩ := List.cons.inj hbehind
      obtain ⟨more, rfl, hmore⟩ := Text.exists_of_append_eq hvalue ha.value_quote
      cases more with
      | nil => exact ⟨[], a, after, rfl, .inr (by simp [attributesText])⟩
      | cons c more =>
        obtain ⟨rfl, hlater⟩ := List.cons.inj hmore
        obtain ⟨before, b, after', rfl, hquote⟩ := ih (fun b hb => hplain b (by simp [hb])) hlater
        refine ⟨a :: before, b, after', rfl, ?_⟩
        rcases hquote with ⟨rfl, rfl⟩ | rfl
        · exact .inl ⟨by simp [attributesText, Attribute.text], rfl⟩
        · exact .inr (by simp [attributesText, Attribute.text])

/-- What is read behind the beginning of an attribute that suits is the element at that attribute. -/
theorem isImage_elementAt
    (hplain : ∀ b ∈ before ++ a :: after, b.IsPlain) (ha : a.Suits) :
  (elementAt before a after).IsImage
  := by
  obtain ⟨front, word, hname, hword⟩ := ha.name_end
  have hbefore : '>' ∉ attributesText before :=
    bracket_not_mem_attributesText fun b hb => hplain b (by simp [hb])
  have hafter : '>' ∉ attributesText after :=
    bracket_not_mem_attributesText fun b hb => hplain b (by simp [hb])
  have hfront : '>' ∉ front := by
    have := (hplain a (by simp)).name_bracket
    rw [hname, List.mem_append, not_or] at this
    exact this.1
  -- The first blank belongs to the opening, the rest ahead of the name is skipped.
  obtain ⟨skipped, hskipped, hbracket⟩ : ∃ skipped,
      attributesText before ++ ' ' :: front = ' ' :: skipped ∧ '>' ∉ skipped := by
    have hall : '>' ∉ attributesText before ++ ' ' :: front := by simp [hbefore, hfront]
    cases before with
    | nil => exact ⟨front, rfl, hfront⟩
    | cons b before =>
      refine ⟨_, rfl, fun hmem => hall (List.mem_cons_of_mem _ hmem)⟩
  constructor
  · constructor
    · exact (hplain a (by simp)).value_quote
    · exact ha.endsInExtension_eq
    · exact hafter
  · have hhead : (elementAt before a after).head
        = "<img".toList ++ ([' '] ++ (skipped ++ (word ++ ['=', '"']))) := by
      rw [← List.append_assoc [' '], List.singleton_append, ← hskipped, elementAt, hname]
      simp
    rw [hhead]
    apply IsHead.intro rfl (by simp) (by simp; decide) hbracket
    rw [List.map_append, hword]
    rfl

/-- The beginning of an attribute that suits stands in front of the value. -/
theorem suits_of_word
    {front word : Text} (hword : word.map Text.foldLetter = "src=".toList)
    (h : attributesText before ++ ' ' :: (a.name ++ ['=']) = front ++ word)
    (hext : endsInExtension a.value = true) :
  a.Suits
  := by
  obtain ⟨letters, last, rfl, hletters, hlast⟩ := List.map_eq_append_iff.1
    (hword.trans (show "src=".toList = "src".toList ++ ['='] from rfl))
  obtain ⟨c, rfl, -⟩ := List.map_eq_singleton_iff.1 hlast
  rw [← List.cons_append, ← List.append_assoc, ← List.append_assoc] at h
  obtain ⟨hname, -⟩ := List.append_singleton_inj.1 h
  obtain ⟨between, -, hbetween⟩ := Text.exists_of_append_cons_eq hname
    (Text.not_mem_of_map_foldLetter hletters (by decide))
  exact ⟨⟨between, letters, hbetween, hletters⟩, hext⟩

/-- No attribute begins at the end of a plain value. -/
theorem not_word_of_value
    {front word : Text} (ha : a.IsPlain) (hword : word.map Text.foldLetter = "src=".toList) :
  attributesText before ++ ' ' :: (a.name ++ '=' :: '"' :: a.value) ≠ front ++ word
  := by
  intro h
  have hsplit : (attributesText before ++ ' ' :: (a.name ++ ['='])) ++ '"' :: a.value
      = front ++ word := by
    rw [← h]
    simp
  obtain ⟨between, -, hbetween⟩ := Text.exists_of_append_cons_eq hsplit
    (Text.not_mem_of_map_foldLetter hword (by decide))
  exact ha.value_end between word hbetween hword

/-- What can be read in an element that is made of attributes is the element at one of them that
suits. -/
theorem exists_elementAt_of_isImage
    (hplain : ∀ a ∈ attributes, a.IsPlain) (h : elementText attributes ++ rest = x.text ++ r)
    (hx : x.IsImage) :
  r = rest ∧ ∃ before a after, attributes = before ++ a :: after ∧ a.Suits
    ∧ x = elementAt before a after
  := by
  have hhead := hx.isHead
  generalize heq : x.head = head at hhead
  obtain @⟨opening, blanks, skipped, name, hopening, hne, hblank, hskipped, hname⟩ := hhead
  obtain ⟨word, rfl, hword⟩ := exists_name_eq_concat hname
  rw [elementText, text_append_eq x, heq, List.append_assoc, List.append_assoc, List.append_assoc] at h
  obtain ⟨rfl, hafter⟩ := List.append_inj h (length_opening hopening).symm
  have hstart : '>' ∉ blanks ++ (skipped ++ word) ++ ['"'] := by
    rw [List.append_assoc, List.append_assoc, List.mem_append, List.mem_append]
    rintro (hmem | hmem | hmem)
    · exact absurd (hblank _ hmem) (by decide)
    · exact hskipped hmem
    · exact bracket_not_mem_name hname hmem
  have htext : blanks ++ (skipped ++ word) ++ ['"'] ++ (x.source ++ '"' :: (x.tail ++ '>' :: r))
      = attributesText attributes ++ '>' :: rest := by
    rw [List.singleton_append] at hafter
    rw [hafter]
    simp
  obtain ⟨between, hattributes, hbehind⟩ := Text.exists_of_append_eq htext hstart
  rw [List.append_assoc, List.singleton_append] at hattributes
  obtain ⟨before, a, after, rfl, hquote⟩ := exists_attribute_of_quote hplain hattributes
  rcases hquote with ⟨hfront, rfl⟩ | hfront
  · rw [List.append_assoc, List.cons_append] at hbehind
    obtain ⟨hsource, hbehind⟩ :=
      Text.append_cons_inj hbehind hx.quote_not_mem (hplain a (by simp)).value_quote
    obtain ⟨htail, hrest⟩ := Text.append_cons_inj hbehind hx.bracket_not_mem
      (bracket_not_mem_attributesText fun b hb => hplain b (by simp [hb]))
    have hsuits : a.Suits := by
      rw [← List.append_assoc] at hfront
      exact suits_of_word hword hfront.symm (hsource ▸ hx.endsInExtension_eq)
    refine ⟨hrest, before, a, after, rfl, hsuits, ?_⟩
    have helement : x.head = (elementAt before a after).head := by
      rw [heq, ← List.append_assoc skipped, ← List.append_assoc blanks, hfront, elementAt]
      simp
    obtain ⟨head, source, tail⟩ := x
    rw [Element.mk.injEq]
    exact ⟨helement, hsource, htail⟩
  · rw [← List.append_assoc] at hfront
    exact absurd hfront.symm (not_word_of_value (hplain a (by simp)) hword)

/-- The last attribute that suits is captured. -/
theorem match?_elementText_iff (hplain : ∀ a ∈ attributes, a.IsPlain) :
  pattern.match? (elementText attributes ++ rest) = some (x, r)
    ↔ r = rest ∧ ∃ before a after, attributes = before ++ a :: after ∧ a.Suits
        ∧ (∀ b ∈ after, ¬ b.Suits) ∧ x = elementAt before a after
  := by
  rw [match?_eq_some_iff]
  constructor
  · intro h
    obtain ⟨hrest, before, a, after, rfl, ha, rfl⟩ :=
      exists_elementAt_of_isImage hplain h.text_eq h.isImage
    refine ⟨hrest, before, a, after, rfl, ha, ?_, rfl⟩
    intro b hb hsuits
    obtain ⟨more, later, rfl⟩ := List.append_of_mem hb
    have hsplit : before ++ a :: (more ++ b :: later) = (before ++ a :: more) ++ b :: later := by simp
    have hle := h.last (elementAt (before ++ a :: more) b later) rest (elementText_eq hsplit rest)
      (isImage_elementAt (hsplit ▸ hplain) hsuits)
    simp [elementAt, attributesText, Attribute.text] at hle
  · rintro ⟨rfl, before, a, after, rfl, ha, hlast, rfl⟩
    use elementText_eq rfl r, isImage_elementAt hplain ha
    intro y r' htext hy
    obtain ⟨-, before', a', after', hsplit, ha', rfl⟩ := exists_elementAt_of_isImage hplain htext hy
    rcases List.append_eq_append_iff.1 hsplit with ⟨more, rfl, hmore⟩ | ⟨more, rfl, hmore⟩
    · cases more with
      | nil =>
        obtain ⟨rfl, -⟩ := List.cons.inj hmore
        simp [elementAt]
      | cons b more =>
        obtain ⟨-, rfl⟩ := List.cons.inj hmore
        exact absurd ha' (hlast a' (by simp))
    · cases more with
      | nil =>
        obtain ⟨rfl, -⟩ := List.cons.inj hmore
        simp [elementAt]
      | cons b more =>
        obtain ⟨rfl, -⟩ := List.cons.inj hmore
        simp [elementAt, attributesText, Attribute.text]

/-- The attribute that is captured is named `src` exactly if the captured source is the element's
own. -/
theorem hasOwnSource_elementAt_iff (ha : a.IsPlain) :
  (elementAt before a after).HasOwnSource ↔ a.name.map Char.toLower = "src".toList
  := by
  constructor
  · rintro ⟨front, blank, name, hhead, hblank, hname⟩
    have hspace : ' ' ∉ name := by
      intro hmem
      have := List.mem_map_of_mem (f := Char.toLower) hmem
      rw [hname] at this
      exact absurd this (by decide)
    rw [List.append_cons, elementAt, ← List.append_assoc] at hhead
    obtain ⟨between, hfront, hafter⟩ := Text.exists_of_append_cons_eq hhead hspace
    rcases List.eq_nil_or_concat between with rfl | ⟨inner, last, rfl⟩
    · rw [List.nil_append] at hafter
      rw [← hafter, List.map_append] at hname
      have hsplit : "src=\"".toList = "src".toList ++ ['=', '"'] := rfl
      exact List.append_cancel_right (hname.trans hsplit)
    · -- The character ahead of the name would be a letter of it.
      rw [List.concat_eq_append, ← List.cons_append, ← List.append_assoc] at hfront
      obtain ⟨-, rfl⟩ := List.append_singleton_inj.1 hfront
      have hmem : blank ∈ a.name ++ ['=', '"'] := by
        rw [hafter]
        simp
      rcases List.mem_append.1 hmem with hmem | hmem
      · rw [ha.name_blank blank hmem] at hblank
        cases hblank
      · simp only [List.mem_cons, List.not_mem_nil, or_false] at hmem
        rcases hmem with rfl | rfl <;> exact absurd hblank (by decide)
  · intro hname
    refine ⟨"<img".toList ++ attributesText before, ' ', a.name ++ ['=', '"'], ?_, by decide, ?_⟩
    · rw [elementAt, List.append_assoc]
    · rw [List.map_append, hname]
      rfl

/-! ### Reading any element -/

/-- An element with a longer head overtakes one whose source ends at its first quote. -/
theorem overtakes_of_length_lt
    (hx : '"' ∉ x.source) (hy : y.IsImage) (htext : x.text ++ rest = y.text ++ r)
    (hlt : x.head.length < y.head.length) :
  y.Overtakes x
  := by
  obtain ⟨start, hhead⟩ := exists_head_eq_concat hy.isHead
  have hstart : x.head.length ≤ start.length := by
    rw [hhead, List.length_append, List.length_singleton] at hlt
    omega
  rw [text_append_eq, text_append_eq, hhead, List.append_assoc, List.singleton_append] at htext
  obtain ⟨more, rfl⟩ : x.head <+: start :=
    List.prefix_of_prefix_length_le ⟨_, rfl⟩ ⟨_, htext.symm⟩ hstart
  rw [List.append_assoc] at htext
  obtain ⟨between, rfl, hbetween⟩ := Text.exists_of_append_eq (List.append_cancel_left htext) hx
  cases between with
  | nil =>
    use []
    rw [hhead]
    simp
  | cons c between =>
    obtain ⟨rfl, -⟩ := List.cons.inj hbetween
    use between ++ ['"']
    rw [hhead]
    simp

/-- Where an element can be read, it is recognised, or one that overtakes it. -/
theorem eq_or_overtakes
    (hx : x.IsImage) (h : pattern.match? (x.text ++ rest) = some (y, r)) :
  y = x ∨ y.Overtakes x
  := by
  obtain ⟨htext, hy, hlast⟩ := match?_eq_some_iff.1 h
  rcases Nat.eq_or_lt_of_le (hlast x rest rfl hx) with heq | hlt
  · left
    exact (eq_of_length_head_eq hx.toNamesImage hy.toNamesImage htext heq).1.symm
  · right
    exact overtakes_of_length_lt hx.quote_not_mem hy htext hlt

/-- Where an element can be read, it is one of the elements of the text, or one that overtakes it
is, or an earlier one reaches into it. -/
theorem stands_or_overtaken_or_reached (hx : x.IsImage) (front rest : Text) :
  (∃ y, pattern.Stands (pieces (front ++ (x.text ++ rest))) front y ∧ (y = x ∨ y.Overtakes x))
    ∨ ∃ y, pattern.Reaches (pieces (front ++ (x.text ++ rest))) front y
  := by
  have hne : Element.match? (x.text ++ rest) ≠ none := match?_ne_none rfl hx
  obtain ⟨⟨y, r⟩, hy⟩ := Option.ne_none_iff_exists'.1 hne
  rcases pattern.stands_or_reached hy front with hstands | hreached
  · exact .inl ⟨y, hstands, eq_or_overtakes hx hy⟩
  · exact .inr hreached

end

/-- The source that is captured, and replaced where it denotes a file, is the last suitable one ahead
of the first `>`, of whatever attribute; the rest of the element is kept.  So where an element can be
read by its `src`, this source is captured unless that of a later attribute is, or an earlier element
reaches into it.  In an element that is made of attributes the last one is captured whose name ends
in `src` and whose value names an image; that is the element's own source exactly if its name is
`src`. -/
theorem captured_source_is_last (d : Disk) (base root : Path) (t : Text) :
  IsLeftmost Matches t (pieces t)
    ∧ (∀ events out, embedAll d base root t = ⟨events, .ok out⟩ →
        Substituted (Element.Gives d base root) (pieces t) events out)
    ∧ (∀ front x rest, t = front ++ (x.text ++ rest) → x.IsImage →
        (∃ y, pattern.Stands (pieces t) front y ∧ (y = x ∨ y.Overtakes x))
          ∨ ∃ y, pattern.Reaches (pieces t) front y)
    ∧ ∀ attributes rest x r, (∀ a ∈ attributes, Attribute.IsPlain a) →
        (pattern.match? (elementText attributes ++ rest) = some (x, r)
          ↔ r = rest ∧ ∃ before a after, attributes = before ++ a :: after ∧ a.Suits
              ∧ (∀ b ∈ after, ¬ b.Suits) ∧ x = elementAt before a after
              ∧ (x.HasOwnSource ↔ a.name.map Char.toLower = "src".toList))
  := by
  refine ⟨isLeftmost_matches t, fun _ _ h => substituted_of_embedAll_eq_ok h, ?_, ?_⟩
  · rintro front x rest rfl hx
    exact stands_or_overtaken_or_reached hx front rest
  · intro attributes rest x r hplain
    rw [match?_elementText_iff hplain]
    constructor
    · rintro ⟨rfl, before, a, after, rfl, ha, hlast, rfl⟩
      exact ⟨rfl, before, a, after, rfl, ha, hlast, rfl,
        hasOwnSource_elementAt_iff (hplain a (by simp))⟩
    · rintro ⟨rfl, before, a, after, rfl, ha, hlast, rfl, -⟩
      exact ⟨rfl, before, a, after, rfl, ha, hlast, rfl⟩

/-! ### An attribute behind the source -/

/-- A value without an equals sign does not end like the beginning of an attribute. -/
theorem ne_of_equals_not_mem {value front word : Text} (h : '=' ∉ value) (heq : value = front ++ word) :
  word.map Text.foldLetter ≠ "src=".toList
  := by
  intro hword
  obtain ⟨letters, last, rfl, -, hlast⟩ := List.map_eq_append_iff.1
    (hword.trans (show "src=".toList = "src".toList ++ ['='] from rfl))
  obtain ⟨c, rfl, hc⟩ := List.map_eq_singleton_iff.1 hlast
  rw [heq, Text.eq_of_foldLetter hc (by decide)] at h
  simp at h

theorem isBlank_eq_false_of_all {name : Text} (h : name.all (!Text.isBlank ·) = true) :
  ∀ c ∈ name, Text.isBlank c = false
  := by simpa using h

/-- A disk with two images and nothing else. -/
def twoPortraits : Disk :=
  ((Disk.empty []).add (Path.ofText "/a.png".toList) (.file [0x61])).add (Path.ofText "/b.png".toList)
    (.file [0x62])

/-- The attribute with the source of an element. -/
def ownSource : Attribute :=
  ⟨"src".toList, "a.png".toList⟩

/-- An attribute with a source that is to be used later. -/
def laterSource : Attribute :=
  ⟨"data-src".toList, "b.png".toList⟩

theorem isPlain_ownSource :
  ownSource.IsPlain
  where
  name_quote := by decide
  name_bracket := by decide
  name_blank := isBlank_eq_false_of_all (by decide)
  value_quote := by decide
  value_bracket := by decide
  value_end _ _ heq := ne_of_equals_not_mem (by decide) heq

theorem isPlain_laterSource :
  laterSource.IsPlain
  where
  name_quote := by decide
  name_bracket := by decide
  name_blank := isBlank_eq_false_of_all (by decide)
  value_quote := by decide
  value_bracket := by decide
  value_end _ _ heq := ne_of_equals_not_mem (by decide) heq

theorem match?_ownSource_last :
  pattern.match? (elementText [laterSource, ownSource] ++ [])
    = some (elementAt [laterSource] ownSource [], [])
  := by
  decide +kernel

/-- The source that stands last is captured, and is the element's own. -/
theorem ownSource_is_captured :
  pattern.match? (elementText [laterSource, ownSource] ++ [])
      = some (elementAt [laterSource] ownSource [], [])
    ∧ (∀ a ∈ [laterSource, ownSource], Attribute.IsPlain a)
    ∧ (elementAt [laterSource] ownSource []).HasOwnSource
    ∧ ∃ before a after, [laterSource, ownSource] = before ++ a :: after ∧ a.Suits
        ∧ (∀ b ∈ after, ¬ b.Suits) ∧ elementAt [laterSource] ownSource [] = elementAt before a after
        ∧ ((elementAt [laterSource] ownSource []).HasOwnSource
          ↔ a.name.map Char.toLower = "src".toList)
  := by
  have hplain : ∀ a ∈ [laterSource, ownSource], Attribute.IsPlain a := by
    intro a ha
    simp only [List.mem_cons, List.not_mem_nil, or_false] at ha
    rcases ha with rfl | rfl
    · exact isPlain_laterSource
    · exact isPlain_ownSource
  use match?_ownSource_last, hplain, (hasOwnSource_elementAt_iff isPlain_ownSource).2 (by decide)
  obtain ⟨-, -, -, hattributes⟩ := captured_source_is_last twoPortraits ⟨.root, []⟩ ⟨.root, []⟩ []
  exact ((hattributes [laterSource, ownSource] [] _ _ hplain).1 match?_ownSource_last).2

/-- An attribute behind the source is captured in its place and rewritten, although the file of the
source is there, and no event tells of the source. -/
theorem laterSource_is_captured :
  twoPortraits.isFile (Path.ofText "/a.png".toList) = .ok true
    ∧ pattern.match? (elementText [ownSource, laterSource])
      = some (elementAt [ownSource] laterSource [], [])
    ∧ ¬ (elementAt [ownSource] laterSource []).HasOwnSource
    ∧ embedAll twoPortraits ⟨.root, []⟩ ⟨.root, []⟩ (elementText [ownSource, laterSource])
      = ⟨[⟨.image, "b.png".toList, some (Path.ofText "/b.png".toList), .inlined⟩],
          .ok "<img src=\"a.png\" data-src=\"data:image/png;base64,Yg==\">".toList⟩
  := by
  refine ⟨rfl, by decide +kernel, ?_, ?_⟩
  · rw [hasOwnSource_elementAt_iff isPlain_laterSource]
    decide
  · have hevents : (embedAll twoPortraits ⟨.root, []⟩ ⟨.root, []⟩
        (elementText [ownSource, laterSource])).events
        = [⟨.image, "b.png".toList, some (Path.ofText "/b.png".toList), .inlined⟩] := by
      decide +kernel
    have houtcome : (embedAll twoPortraits ⟨.root, []⟩ ⟨.root, []⟩
        (elementText [ownSource, laterSource])).outcome
        = .ok "<img src=\"a.png\" data-src=\"data:image/png;base64,Yg==\">".toList := by
      decide +kernel
    rw [← hevents, ← houtcome]

end Inlay.Image
