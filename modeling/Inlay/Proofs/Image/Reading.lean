import Inlay.Image.Element
import Inlay.Proofs.Text.Folded
import Inlay.Proofs.Text.Leftmost

/-!
# Which image elements are recognised

An image element can be read at the head of a text wherever, ahead of the first `>`, a `src` with a
suitable value stands in it.  The element that is recognised is the one of these with the longest
head (`match?_eq_some_iff`).
-/

namespace Inlay.Image

/-- The text of an image element up to its source: the opening, blanks, whatever does not end the
element, and the name of the attribute with the quote behind it. -/
inductive IsHead : Text → Prop
  | intro {opening blanks skipped name : Text}
    (hopening : opening.map Text.foldLetter = "<img".toList)
    (hne : blanks ≠ []) (hblank : ∀ c ∈ blanks, Text.isBlank c = true) (hskipped : '>' ∉ skipped)
    (hname : name.map Text.foldLetter = "src=\"".toList) :
    IsHead (opening ++ (blanks ++ (skipped ++ name)))

/-- The source ends at its first quote and in the extension of an image, and the element ends at the
first `>` behind it. -/
structure Element.NamesImage (x : Element) : Prop where
  quote_not_mem : '"' ∉ x.source
  endsInExtension_eq : endsInExtension x.source = true
  bracket_not_mem : '>' ∉ x.tail

/-- What can be read as an image element. -/
structure Element.IsImage (x : Element) : Prop extends x.NamesImage where
  isHead : IsHead x.head

/-- The element `x` stands at the head of `t`, and `rest` behind it: of the elements that can be
read there, it is the one with the longest head. -/
structure Matches (t : Text) (x : Element) (rest : Text) : Prop where
  text_eq : t = x.text ++ rest
  isImage : x.IsImage
  last : ∀ (y : Element) (r : Text), t = y.text ++ r → y.IsImage → y.head.length ≤ x.head.length

/-- The source of `x` stands in a text that follows `before`, ahead of the first `>`, and `rest`
follows the element. -/
inductive Offers : Text → Text → Element → Text → Prop
  | here {before t rest x} (h : sourceAt? before t = some (x, rest)) : Offers before t x rest
  | there {before c cs rest x} (hc : c ≠ '>') (h : Offers (c :: before) cs x rest) :
    Offers before (c :: cs) x rest

section

variable {before t rest name skipped : Text} {c : Char} {x y : Element}

/-! ### Names and openings -/

theorem name_ne_nil (h : name.map Text.foldLetter = "src=\"".toList) :
  name ≠ []
  := by
  rintro rfl
  cases h

theorem length_name (h : name.map Text.foldLetter = "src=\"".toList) :
  name.length = 5
  := by
  rw [← List.length_map (f := Text.foldLetter), h]
  rfl

/-- The first letter of the name is not blank. -/
theorem exists_name_eq_cons (h : name.map Text.foldLetter = "src=\"".toList) :
  ∃ c more, name = c :: more ∧ Text.isBlank c = false
  := by
  obtain ⟨c, more, rfl⟩ := List.exists_cons_of_ne_nil (name_ne_nil h)
  have hc : Text.foldLetter c = 's' := (List.cons.inj h).1
  exact ⟨c, more, rfl, Text.isBlank_eq_false_of_foldLetter hc (by decide)⟩

theorem bracket_not_mem_name (h : name.map Text.foldLetter = "src=\"".toList) :
  '>' ∉ name
  := Text.not_mem_of_map_foldLetter h (by decide)

/-- The name ends in the quote ahead of the value. -/
theorem exists_name_eq_concat (h : name.map Text.foldLetter = "src=\"".toList) :
  ∃ word, name = word ++ ['"'] ∧ word.map Text.foldLetter = "src=".toList
  := by
  obtain ⟨word, last, rfl, hword, hlast⟩ := List.map_eq_append_iff.1
    (h.trans (show "src=\"".toList = "src=".toList ++ ['"'] from rfl))
  obtain ⟨c, rfl, hc⟩ := List.map_eq_singleton_iff.1 hlast
  rw [Text.eq_of_foldLetter hc (by decide)]
  exact ⟨word, rfl, hword⟩

theorem length_opening {opening : Text} (h : opening.map Text.foldLetter = "<img".toList) :
  opening.length = 4
  := by
  rw [← List.length_map (f := Text.foldLetter), h]
  rfl

/-! ### The source at a place -/

theorem text_append_eq (x : Element) (rest : Text) :
  x.text ++ rest = x.head ++ (x.source ++ '"' :: (x.tail ++ '>' :: rest))
  := by simp [Element.text]

/-- An element has its source where a name, a value that suits and a `>` stand one after another. -/
theorem sourceAt?_eq_some_iff :
  sourceAt? before t = some (x, rest)
    ↔ ∃ name, x.head = before.reverse ++ name ∧ name.map Text.foldLetter = "src=\"".toList
        ∧ x.NamesImage ∧ t = name ++ (x.source ++ '"' :: (x.tail ++ '>' :: rest))
  := by
  constructor
  · intro h
    have htext := eq_of_sourceAt? h
    rw [text_append_eq] at htext
    rw [sourceAt?] at h
    split at h
    · cases h
    case h_2 name afterName hname =>
      split at h
      case h_1 afterValue hvalue =>
        dsimp only at h
        split at h
        case isTrue hext =>
          split at h
          case h_1 rest' htail =>
            cases h
            use name, rfl, Text.map_foldLetter_of_cutFolded? hname
            constructor
            · constructor
              · intro hmem
                simpa using List.mem_takeWhile_imp hmem
              · exact hext
              · intro hmem
                simpa using List.mem_takeWhile_imp hmem
            · rw [List.append_assoc] at htext
              exact List.append_cancel_left htext
          · cases h
        · cases h
      · cases h
  · rintro ⟨name, hhead, hname, himage, rfl⟩
    have hquote : ∀ a ∈ x.source, decide (a ≠ '"') = true := by
      intro a ha
      simpa using ne_of_mem_of_not_mem ha himage.quote_not_mem
    have hbracket : ∀ a ∈ x.tail, decide (a ≠ '>') = true := by
      intro a ha
      simpa using ne_of_mem_of_not_mem ha himage.bracket_not_mem
    obtain ⟨htake', hdrop'⟩ := Text.takeWhile_and_dropWhile (c := '>') hbracket (by simp) rest
    obtain ⟨htake, hdrop⟩ :=
      Text.takeWhile_and_dropWhile (c := '"') hquote (by simp) (x.tail ++ '>' :: rest)
    rw [sourceAt?, ← hname, Text.cutFolded?_append]
    simp only [hdrop, htake, himage.endsInExtension_eq, if_true, hdrop', htake', ← hhead]

theorem offers_iff :
  Offers before t x rest
    ↔ ∃ skipped name, x.head = before.reverse ++ (skipped ++ name) ∧ '>' ∉ skipped
        ∧ name.map Text.foldLetter = "src=\"".toList ∧ x.NamesImage
        ∧ t = skipped ++ (name ++ (x.source ++ '"' :: (x.tail ++ '>' :: rest)))
  := by
  constructor
  · intro h
    induction h with
    | here h =>
      obtain ⟨name, hhead, hname, himage, rfl⟩ := sourceAt?_eq_some_iff.1 h
      exact ⟨[], name, hhead, by simp, hname, himage, rfl⟩
    | @there before c cs x rest hc h ih =>
      obtain ⟨skipped, name, hhead, hskipped, hname, himage, rfl⟩ := ih
      refine ⟨c :: skipped, name, ?_, ?_, hname, himage, rfl⟩
      · rw [hhead]
        simp
      · rw [List.mem_cons, not_or]
        exact ⟨Ne.symm hc, hskipped⟩
  · rintro ⟨skipped, name, hhead, hskipped, hname, himage, rfl⟩
    induction skipped generalizing before with
    | nil => exact .here (sourceAt?_eq_some_iff.2 ⟨name, hhead, hname, himage, rfl⟩)
    | cons c skipped ih =>
      rw [List.mem_cons, not_or] at hskipped
      apply Offers.there (Ne.symm hskipped.1)
      apply ih _ hskipped.2
      rw [hhead]
      simp

theorem Offers.length_le (h : Offers before t x rest) :
  before.length + 5 ≤ x.head.length
  := by
  obtain ⟨skipped, name, hhead, -, hname, -⟩ := offers_iff.1 h
  rw [hhead]
  simp only [List.length_append, List.length_reverse, length_name hname]
  omega

theorem length_head_of_sourceAt? (h : sourceAt? before t = some (x, rest)) :
  x.head.length = before.length + 5
  := by
  obtain ⟨name, hhead, hname, -⟩ := sourceAt?_eq_some_iff.1 h
  rw [hhead, List.length_append, List.length_reverse, length_name hname]

theorem not_offers_nil :
  ¬ Offers before [] x rest
  := by
  intro h
  obtain ⟨skipped, name, -, -, hname, -, htext⟩ := offers_iff.1 h
  simp only [List.nil_eq, List.append_eq_nil_iff] at htext
  exact name_ne_nil hname htext.2.1

/-- No source stands behind a `>`. -/
theorem not_offers_bracket {cs : Text} :
  ¬ Offers before ('>' :: cs) x rest
  := by
  intro h
  obtain ⟨skipped, name, -, hskipped, hname, -, htext⟩ := offers_iff.1 h
  cases skipped with
  | nil =>
    obtain ⟨c, more, rfl, -⟩ := exists_name_eq_cons hname
    obtain ⟨rfl, -⟩ := List.cons.inj htext
    exact bracket_not_mem_name hname (by simp)
  | cons c skipped =>
    obtain ⟨rfl, -⟩ := List.cons.inj htext
    simp at hskipped

/-- What is found is the last source that is offered, or what was found before if none is. -/
theorem offers_of_lastSource?
    {found : Option (Element × Text)} (h : lastSource? found before t = some (x, rest)) :
  (Offers before t x rest ∧ ∀ y r, Offers before t y r → y.head.length ≤ x.head.length)
    ∨ (found = some (x, rest) ∧ ∀ y r, ¬ Offers before t y r)
  := by
  fun_induction lastSource? found before t with
  | case1 => exact .inr ⟨h, fun _ _ => not_offers_nil⟩
  | case2 => exact .inr ⟨h, fun _ _ => not_offers_bracket⟩
  | case3 found before c cs hc ih =>
    rcases ih h with ⟨hoffers, hlast⟩ | ⟨hfound, hnone⟩
    · left
      use .there hc hoffers
      intro y r hy
      cases hy with
      | here hy =>
        have hle := hoffers.length_le
        rw [length_head_of_sourceAt? hy]
        rw [List.length_cons] at hle
        omega
      | there _ hy => exact hlast y r hy
    · rcases Option.or_eq_some_iff.1 hfound with hx | ⟨hnot, hx⟩
      · left
        use .here hx
        intro y r hy
        cases hy with
        | here hy =>
          rw [length_head_of_sourceAt? hx, length_head_of_sourceAt? hy]
        | there _ hy => exact absurd hy (hnone y r)
      · right
        use hx
        intro y r hy
        cases hy with
        | here hy =>
          rw [hy] at hnot
          cases hnot
        | there _ hy => exact hnone y r hy

/-- A source that is offered is not passed. -/
theorem lastSource?_ne_none
    {found : Option (Element × Text)} (h : Offers before t x rest ∨ found ≠ none) :
  lastSource? found before t ≠ none
  := by
  fun_induction lastSource? found before t with
  | case1 =>
    rcases h with h | h
    · exact absurd h not_offers_nil
    · exact h
  | case2 =>
    rcases h with h | h
    · exact absurd h not_offers_bracket
    · exact h
  | case3 found before c cs hc ih =>
    apply ih
    rcases h with h | h
    · cases h with
      | here h => simp [h]
      | there _ h => exact .inl h
    · right
      simp [Option.or_eq_none_iff, h]

/-! ### The element -/

/-- What is offered behind an opening and blanks is an image element. -/
theorem isImage_of_offers
    {opening blanks : Text} (hopening : opening.map Text.foldLetter = "<img".toList)
    (hne : blanks ≠ []) (hblank : ∀ c ∈ blanks, Text.isBlank c = true)
    (h : Offers (blanks.reverse ++ opening.reverse) t x rest) :
  x.IsImage
  := by
  obtain ⟨skipped, name, hhead, hskipped, hname, himage, -⟩ := offers_iff.1 h
  use himage
  rw [hhead, List.reverse_append, List.reverse_reverse, List.reverse_reverse, List.append_assoc]
  exact .intro hopening hne hblank hskipped hname

/-- All the blanks ahead of a character that is none are cut off before it. -/
theorem exists_between_of_blanks
    {blanks after more : Text} (hne : blanks ≠ []) (hblank : ∀ c ∈ blanks, Text.isBlank c = true)
    (hc : Text.isBlank c = false) (h : after = blanks ++ (skipped ++ c :: more)) :
  after.takeWhile Text.isBlank ≠ []
    ∧ ∃ between, blanks ++ skipped = after.takeWhile Text.isBlank ++ between
        ∧ after.dropWhile Text.isBlank = between ++ c :: more
  := by
  constructor
  · obtain ⟨b, blanks, rfl⟩ := List.exists_cons_of_ne_nil hne
    rw [h, List.cons_append, List.takeWhile_cons_of_pos (hblank b (by simp))]
    simp
  · apply Text.exists_of_append_eq
    · rw [List.takeWhile_append_dropWhile, h, List.append_assoc]
    · intro hmem
      rw [List.mem_takeWhile_imp hmem] at hc
      cases hc

/-- What can be read as an image element is offered behind the opening and all blanks that follow
it. -/
theorem offers_of_isImage
    {opening after : Text} (hcut : Text.cutFolded? "<img".toList t = some (opening, after))
    (ht : t = x.text ++ rest) (hx : x.IsImage) :
  after.takeWhile Text.isBlank ≠ []
    ∧ Offers ((after.takeWhile Text.isBlank).reverse ++ opening.reverse)
        (after.dropWhile Text.isBlank) x rest
  := by
  have hhead := hx.isHead
  generalize heq : x.head = head at hhead
  obtain @⟨opening', blanks, skipped, name, hopening, hne, hblank, hskipped, hname⟩ := hhead
  rw [ht, text_append_eq, heq, ← hopening, List.append_assoc, Text.cutFolded?_append] at hcut
  obtain ⟨rfl, hafter⟩ := Prod.mk.inj (Option.some.inj hcut)
  obtain ⟨c, more, rfl, hc⟩ := exists_name_eq_cons hname
  obtain ⟨hblanks, between, hbetween, hdrop⟩ := exists_between_of_blanks hne hblank hc
    (show after = blanks ++ (skipped ++ c :: (more ++ (x.source ++ '"' :: (x.tail ++ '>' :: rest))))
      from by rw [← hafter]; simp)
  use hblanks
  apply offers_iff.2
  refine ⟨between, c :: more, ?_, ?_, hname, hx.toNamesImage, hdrop⟩
  · rw [heq, List.reverse_append, List.reverse_reverse, List.reverse_reverse,
      ← List.append_assoc blanks, hbetween]
    simp
  · intro hmem
    have hall : '>' ∈ blanks ++ skipped := by
      rw [hbetween]
      exact List.mem_append_right _ hmem
    rcases List.mem_append.1 hall with hmem | hmem
    · exact absurd (hblank _ hmem) (by decide)
    · exact hskipped hmem

/-- Elements with heads of one length that start alike are the same. -/
theorem eq_of_length_head_eq
    (hx : x.NamesImage) (hy : y.NamesImage) {r : Text} (h : x.text ++ rest = y.text ++ r)
    (hlength : x.head.length = y.head.length) :
  x = y ∧ rest = r
  := by
  rw [text_append_eq, text_append_eq] at h
  obtain ⟨hhead, h⟩ := List.append_inj h hlength
  obtain ⟨hsource, h⟩ := Text.append_cons_inj h hx.quote_not_mem hy.quote_not_mem
  obtain ⟨htail, hrest⟩ := Text.append_cons_inj h hx.bracket_not_mem hy.bracket_not_mem
  obtain ⟨head, source, tail⟩ := x
  cases y
  simp_all

theorem matches_of_match? (h : Element.match? t = some (x, rest)) :
  Matches t x rest
  := by
  have htext := eq_of_match? h
  rw [Element.match?] at h
  split at h
  · cases h
  case h_2 opening after hcut =>
    dsimp only at h
    split at h
    · cases h
    case isFalse hne =>
      rcases offers_of_lastSource? h with ⟨hoffers, hlast⟩ | ⟨hfound, -⟩
      · constructor
        · exact htext
        · exact isImage_of_offers (Text.map_foldLetter_of_cutFolded? hcut) hne
            (fun c hc => List.mem_takeWhile_imp hc) hoffers
        · intro y r hy himage
          exact hlast y r (offers_of_isImage hcut hy himage).2
      · cases hfound

theorem match?_ne_none (ht : t = x.text ++ rest) (hx : x.IsImage) :
  Element.match? t ≠ none
  := by
  obtain ⟨opening, after, hcut⟩ : ∃ opening after,
      Text.cutFolded? "<img".toList t = some (opening, after) := by
    have hhead := hx.isHead
    generalize heq : x.head = head at hhead
    obtain ⟨hopening, -, -, -, -⟩ := hhead
    rw [ht, text_append_eq, heq, ← hopening, List.append_assoc, Text.cutFolded?_append]
    exact ⟨_, _, rfl⟩
  obtain ⟨hne, hoffers⟩ := offers_of_isImage hcut ht hx
  rw [Element.match?, hcut]
  dsimp only
  rw [if_neg hne]
  exact lastSource?_ne_none (.inl hoffers)

/-- The element that is recognised at the head of a text is the one with the longest head. -/
theorem match?_eq_some_iff :
  pattern.match? t = some (x, rest) ↔ Matches t x rest
  := by
  change Element.match? t = some (x, rest) ↔ Matches t x rest
  constructor
  · exact matches_of_match?
  · intro h
    obtain ⟨⟨y, r⟩, hy⟩ := Option.ne_none_iff_exists'.1 (match?_ne_none h.text_eq h.isImage)
    have hmatches := matches_of_match? hy
    have hlength := le_antisymm (hmatches.last x rest h.text_eq h.isImage)
      (h.last y r hmatches.text_eq hmatches.isImage)
    obtain ⟨rfl, rfl⟩ := eq_of_length_head_eq h.isImage.toNamesImage hmatches.isImage.toNamesImage
      (h.text_eq.symm.trans hmatches.text_eq) hlength
    exact hy

/-- Nothing is recognised where no image element can be read. -/
theorem match?_eq_none_iff :
  pattern.match? t = none ↔ ∀ (x : Element) (rest : Text), t = x.text ++ rest → ¬ x.IsImage
  := by
  constructor
  · intro h x rest ht hx
    exact match?_ne_none ht hx h
  · intro h
    rw [Option.eq_none_iff_forall_ne_some]
    rintro ⟨x, rest⟩ hx
    have hmatches := match?_eq_some_iff.1 hx
    exact h x rest hmatches.text_eq hmatches.isImage

theorem isImage_of_mem_pieces (h : .token x ∈ pieces t) :
  x.IsImage
  := by
  obtain ⟨u, rest, hmatch⟩ := pattern.exists_match?_of_mem_pieces h
  exact (match?_eq_some_iff.1 hmatch).isImage

end

end Inlay.Image
