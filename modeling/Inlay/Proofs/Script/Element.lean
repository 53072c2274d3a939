import Inlay.Proofs.Text.Leftmost
import Inlay.Script.Element
import Mathlib.Data.List.Basic

/-!
# Which script elements are recognised

A script element is recognised where blanks and a source stand between its opening and a closing.
Its source goes up to the nearest closing that leaves it a character (`match?_eq_some_iff`), so it
may hold quotes and whole elements.
-/

namespace Inlay

theorem Text.isPrefixOf?_append (lead rest : Text) :
  lead.isPrefixOf? (lead ++ rest) = some rest
  := List.isPrefixOf?_eq_some_iff_append_eq.2 rfl

namespace Script

theorem closing_ne_nil :
  closing ≠ []
  := by
  decide

/-! ### The value -/

/-- A part of a line that goes up to the nearest closing, and what follows the closing. -/
structure GoesUpToClosing (t part rest : Text) : Prop where
  text_eq : t = part ++ closing ++ rest
  newline_not_mem : '\n' ∉ part
  nearest : ∀ part' rest', t = part' ++ closing ++ rest' → part.length ≤ part'.length

section

variable {t part rest : Text} {c : Char}

theorem goesUpToClosing_nil (h : closing.isPrefixOf? t = some rest) :
  GoesUpToClosing t [] rest
  where
  text_eq := Text.eq_of_isPrefixOf? h
  newline_not_mem := by simp
  nearest _ _ _ := Nat.zero_le _

/-- One more character does not end the part, unless a closing stands there. -/
theorem goesUpToClosing_cons
    (h : closing.isPrefixOf? (c :: t) = none) :
  GoesUpToClosing (c :: t) part rest
    ↔ c ≠ '\n' ∧ ∃ more, part = c :: more ∧ GoesUpToClosing t more rest
  := by
  have hne : ∀ rest', c :: t ≠ closing ++ rest' := by
    intro rest' heq
    rw [heq, Text.isPrefixOf?_append] at h
    cases h
  constructor
  · intro hpart
    have htext := hpart.text_eq
    cases part with
    | nil => exact absurd htext (hne rest)
    | cons c' more =>
      obtain ⟨rfl, rfl⟩ := List.cons.inj htext
      have hline := hpart.newline_not_mem
      rw [List.mem_cons, not_or] at hline
      use Ne.symm hline.1, more, rfl
      constructor
      · rfl
      · exact hline.2
      · intro part' rest' heq
        have hle := hpart.nearest (c :: part') rest' (congrArg (c :: ·) heq)
        simpa using hle
  · rintro ⟨hc, more, rfl, hmore⟩
    constructor
    · rw [hmore.text_eq]
      rfl
    · rw [List.mem_cons, not_or]
      exact ⟨Ne.symm hc, hmore.newline_not_mem⟩
    · intro part' rest' heq
      cases part' with
      | nil => exact absurd heq (hne rest')
      | cons c' part' =>
        obtain ⟨-, heq⟩ := List.cons.inj heq
        exact Nat.succ_le_succ (hmore.nearest part' rest' heq)

end

theorem valueFrom?_eq_some_iff {value t found rest : Text} :
  valueFrom? value t = some (found, rest)
    ↔ ∃ more, found = value.reverse ++ more ∧ GoesUpToClosing t more rest
  := by
  fun_induction valueFrom? value t with
  | case1 value t after hclosing =>
    constructor
    · intro h
      cases h
      use []
      simp [goesUpToClosing_nil hclosing]
    · rintro ⟨more, rfl, hmore⟩
      have hlength := hmore.nearest [] after (Text.eq_of_isPrefixOf? hclosing)
      obtain rfl := List.length_eq_zero_iff.1 (Nat.le_zero.1 hlength)
      rw [hmore.text_eq, List.nil_append, Text.isPrefixOf?_append] at hclosing
      cases hclosing
      simp
  | case2 value hclosing =>
    simp only [reduceCtorEq, false_iff]
    rintro ⟨more, -, hmore⟩
    have htext := hmore.text_eq
    simp only [List.nil_eq, List.append_eq_nil_iff] at htext
    exact closing_ne_nil htext.1.2
  | case3 value cs hclosing =>
    simp [goesUpToClosing_cons hclosing]
  | case4 value c cs hc hclosing ih =>
    rw [ih]
    constructor
    · rintro ⟨more, rfl, hmore⟩
      use c :: more
      constructor
      · simp
      · exact (goesUpToClosing_cons hclosing).2 ⟨hc, more, rfl, hmore⟩
    · rintro ⟨part, rfl, hpart⟩
      obtain ⟨-, more, rfl, hmore⟩ := (goesUpToClosing_cons hclosing).1 hpart
      use more
      simp [hmore]

/-- A value has at least one character, goes up to the nearest closing behind that, and stays within
its line. -/
theorem value?_eq_some_iff {t value rest : Text} :
  value? t = some (value, rest)
    ↔ value ≠ [] ∧ '\n' ∉ value ∧ t = value ++ closing ++ rest
      ∧ ∀ value' rest', value' ≠ [] → t = value' ++ closing ++ rest' → value.length ≤ value'.length
  := by
  cases t with
  | nil =>
    simp only [value?, reduceCtorEq, false_iff]
    rintro ⟨-, -, htext, -⟩
    simp only [List.nil_eq, List.append_eq_nil_iff] at htext
    exact closing_ne_nil htext.1.2
  | cons c cs =>
    rw [value?]
    by_cases hc : c = '\n'
    · rw [if_pos hc]
      simp only [reduceCtorEq, false_iff]
      rintro ⟨hne, hline, htext, -⟩
      cases value with
      | nil => exact hne rfl
      | cons c' value =>
        obtain ⟨rfl, -⟩ := List.cons.inj htext
        exact hline (by simp [hc])
    · rw [if_neg hc, valueFrom?_eq_some_iff]
      constructor
      · rintro ⟨more, rfl, hmore⟩
        refine ⟨by simp, ?_, ?_, ?_⟩
        · simpa [Ne.symm hc] using hmore.newline_not_mem
        · rw [hmore.text_eq]
          rfl
        · intro value' rest' hne heq
          cases value' with
          | nil => exact absurd rfl hne
          | cons c' value' =>
            obtain ⟨-, heq⟩ := List.cons.inj heq
            exact Nat.succ_le_succ (hmore.nearest value' rest' heq)
      · rintro ⟨hne, hline, htext, hnearest⟩
        cases value with
        | nil => exact absurd rfl hne
        | cons c' more =>
          obtain ⟨rfl, rfl⟩ := List.cons.inj htext
          use more, rfl
          constructor
          · rfl
          · exact fun hmem => hline (List.mem_cons_of_mem _ hmem)
          · intro part' rest' heq
            have hle := hnearest (c :: part') rest' (by simp) (congrArg (c :: ·) heq)
            simpa using hle

/-! ### The element -/

/-- What can stand between the opening of an element and its closing. -/
structure Element.IsScript (x : Element) : Prop where
  blanks_ne_nil : x.blanks ≠ []
  isBlank_of_mem : ∀ c ∈ x.blanks, Text.isBlank c = true
  source_ne_nil : x.source ≠ []
  newline_not_mem : '\n' ∉ x.source

/-- The element `x` stands at the head of `t`, and `rest` behind it: of the elements that can be
read there, it is the one that is closed first. -/
structure Matches (t : Text) (x : Element) (rest : Text) : Prop where
  text_eq : t = x.text ++ rest
  isScript : x.IsScript
  nearest : ∀ (y : Element) (r : Text), t = y.text ++ r → y.IsScript →
    x.source.length ≤ y.source.length

/-- The blanks before the attribute end where its name begins. -/
theorem cut_blanks
    {blanks t : Text} (hblank : ∀ c ∈ blanks, Text.isBlank c = true) :
  (blanks ++ (sourceName ++ t)).takeWhile Text.isBlank = blanks
    ∧ (blanks ++ (sourceName ++ t)).dropWhile Text.isBlank = sourceName ++ t
  := Text.takeWhile_and_dropWhile hblank (by decide) _

/-- Behind the name of the attribute the value decides. -/
theorem match?_of_blanks
    {blanks : Text} (hne : blanks ≠ []) (hblank : ∀ c ∈ blanks, Text.isBlank c = true) (t : Text) :
  Element.match? (opening ++ (blanks ++ (sourceName ++ t)))
    = (value? t).map fun (source, rest) => (⟨blanks, source⟩, rest)
  := by
  obtain ⟨hblanks, hname⟩ := cut_blanks (t := t) hblank
  rw [Element.match?, Text.isPrefixOf?_append]
  dsimp only
  rw [hblanks, if_neg hne, hname, Text.isPrefixOf?_append]
  dsimp only
  cases value? t <;> rfl

theorem exists_blanks_of_match? {t rest : Text} {x : Element} (h : Element.match? t = some (x, rest)) :
  x.blanks ≠ [] ∧ ∀ c ∈ x.blanks, Text.isBlank c = true
  := by
  rw [Element.match?] at h
  split at h
  · cases h
  case h_2 afterOpening _ =>
    dsimp only at h
    split at h
    · cases h
    case isFalse hne =>
      split at h
      · cases h
      · split at h
        · cases h
        · cases h
          exact ⟨hne, fun c hc => List.mem_takeWhile_imp hc⟩

theorem text_append_eq (x : Element) (rest : Text) :
  x.text ++ rest = opening ++ (x.blanks ++ (sourceName ++ (x.source ++ closing ++ rest)))
  := by simp [Element.text]

/-- Elements with the same start have the same blanks. -/
theorem blanks_eq_of_text_append_eq
    {x y : Element} (hx : x.IsScript) (hy : y.IsScript) {rest rest' : Text}
    (h : x.text ++ rest = y.text ++ rest') :
  x.blanks = y.blanks ∧ x.source ++ closing ++ rest = y.source ++ closing ++ rest'
  := by
  rw [text_append_eq, text_append_eq] at h
  have hafter := List.append_cancel_left h
  obtain ⟨hxblanks, hxname⟩ := cut_blanks (t := x.source ++ closing ++ rest) hx.isBlank_of_mem
  obtain ⟨hyblanks, hyname⟩ := cut_blanks (t := y.source ++ closing ++ rest') hy.isBlank_of_mem
  constructor
  · rw [← hxblanks, hafter, hyblanks]
  · rw [hafter, hyname] at hxname
    exact (List.append_cancel_left hxname).symm

/-- The element that is recognised at the head of a text is the one that is closed first. -/
theorem match?_eq_some_iff {t rest : Text} {x : Element} :
  pattern.match? t = some (x, rest) ↔ Matches t x rest
  := by
  change Element.match? t = some (x, rest) ↔ Matches t x rest
  constructor
  · intro h
    obtain ⟨hne, hblank⟩ := exists_blanks_of_match? h
    have htext : t = x.text ++ rest := pattern.eq_of_match? h
    rw [htext, text_append_eq, match?_of_blanks hne hblank, Option.map_eq_some_iff] at h
    obtain ⟨⟨source, rest'⟩, hvalue, heq⟩ := h
    obtain ⟨hx, rfl⟩ := Prod.mk.inj heq
    obtain rfl : source = x.source := congrArg Element.source hx
    obtain ⟨hsource, hline, -, hnearest⟩ := value?_eq_some_iff.1 hvalue
    have hscript : x.IsScript := ⟨hne, hblank, hsource, hline⟩
    use htext, hscript
    intro y r heq hy
    obtain ⟨-, hvalues⟩ := blanks_eq_of_text_append_eq hscript hy (htext.symm.trans heq)
    exact hnearest y.source r hy.source_ne_nil hvalues
  · rintro ⟨rfl, hscript, hnearest⟩
    have hvalue : value? (x.source ++ closing ++ rest) = some (x.source, rest) := by
      apply value?_eq_some_iff.2
      refine ⟨hscript.source_ne_nil, hscript.newline_not_mem, rfl, ?_⟩
      intro value' rest' hne heq
      -- A closing before the end would leave a source within the line.
      by_contra hlt
      have hfront : value' <+: x.source ++ closing ++ rest :=
        ⟨closing ++ rest', by rw [heq, List.append_assoc]⟩
      have hsource : x.source <+: x.source ++ closing ++ rest :=
        ⟨closing ++ rest, by rw [List.append_assoc]⟩
      have hstart : value' <+: x.source := List.prefix_of_prefix_length_le hfront hsource (by omega)
      apply hlt
      apply hnearest ⟨x.blanks, value'⟩ rest'
      · rw [text_append_eq, text_append_eq, heq]
      · exact ⟨hscript.blanks_ne_nil, hscript.isBlank_of_mem, hne,
          fun hmem => hscript.newline_not_mem (hstart.subset hmem)⟩
    rw [text_append_eq, match?_of_blanks hscript.blanks_ne_nil hscript.isBlank_of_mem, hvalue]
    rfl

end Script

end Inlay
