import Inlay.Json.Lexer
import Inlay.Json.Printer
import Mathlib.Tactic.Use

/-!
# Scanning what was printed

A text within quotes is scanned as that text, and a numeral as its number, whatever follows.  What
follows a numeral must not go on with it (`EndsNumber`), as nothing does in the stable layout.
-/

namespace Inlay.Json

/-! ### Texts within quotes -/

theorem hexValue?_hexDigit {n : Nat} (h : n < 16) :
  hexValue? (Bytes.hexDigit n) = some n
  := by
  have hall : ∀ n < 16, hexValue? (Bytes.hexDigit n) = some n := by decide
  exact hall n h

/-- The escape of a control character is read as that character. -/
theorem unicodeEscape_control
    {c : Char} (hc : c.toNat < 0x20) {u : Text} (hu : u ≠ []) (position : Nat) :
  unicodeEscape position
      ('0' :: '0' :: Bytes.hexDigit (c.toNat / 16) :: Bytes.hexDigit (c.toNat % 16) :: u)
    = .ok (c, 4)
  := by
  have hfour : hexFour? ('0' :: '0' :: Bytes.hexDigit (c.toNat / 16)
      :: Bytes.hexDigit (c.toNat % 16) :: u) = some c.toNat := by
    have hzero : hexValue? '0' = some 0 := rfl
    rw [hexFour?, hzero, hexValue?_hexDigit (by omega), hexValue?_hexDigit (by omega)]
    show some _ = _
    congr 1
    omega
  have hcode : charOfCode c.toNat = c := by
    rw [charOfCode, if_neg (by omega), Char.ofNat_toNat]
  have hempty : u.isEmpty = false := by simpa using hu
  rw [unicodeEscape]
  simp only [List.drop_succ_cons, List.drop_zero, hempty, Bool.false_eq_true, if_false, hfour, hcode]
  rw [if_neg (by omega)]

theorem escape_control
    {c : Char} (hc : c.toNat < 0x20) {u : Text} (hu : u ≠ []) (start position : Nat) :
  escape start position
      ('u' :: '0' :: '0' :: Bytes.hexDigit (c.toNat / 16) :: Bytes.hexDigit (c.toNat % 16) :: u)
    = .ok (c, 5)
  := by
  rw [escape, unicodeEscape_control hc hu]
  rfl

/-- A character within quotes is a letter after a backslash, a control character by its number, or
itself. -/
theorem escapeChar_cases (c : Char) :
  (∃ letter, letter ≠ 'u' ∧ letter ≠ '\r' ∧ simpleEscape? letter = some c
      ∧ escapeChar c = ['\\', letter])
    ∨ (c.toNat < 0x20 ∧ escapeChar c = ['\\', 'u', '0', '0', Bytes.hexDigit (c.toNat / 16),
        Bytes.hexDigit (c.toNat % 16)])
    ∨ (c ≠ '"' ∧ c ≠ '\\' ∧ ¬ c.toNat < 0x20 ∧ escapeChar c = [c])
  := by
  by_cases hsimple : c ∈ ['"', '\\', '\n', '\r', '\t', '\x0C', '\x08']
  · left
    simp only [List.mem_cons, List.not_mem_nil, or_false] at hsimple
    rcases hsimple with rfl | rfl | rfl | rfl | rfl | rfl | rfl <;>
      exact ⟨_, by decide, by decide, rfl, rfl⟩
  · right
    simp only [List.mem_cons, List.not_mem_nil, or_false, not_or] at hsimple
    obtain ⟨hquote, hbackslash, hfeed, hreturn, htab, hform, hback⟩ := hsimple
    simp only [escapeChar, hquote, hbackslash, hfeed, hreturn, htab, hform, hback, if_false]
    split
    case isTrue hcontrol => exact .inl ⟨hcontrol, rfl⟩
    case isFalse hcontrol =>
      exact .inr ⟨hquote, hbackslash, hcontrol, rfl⟩

/-- What is printed of a character within quotes is read as that character. -/
theorem scanString_escapeChar
    {u : Text} (hu : u ≠ []) (c : Char) (start position : Nat) (done : Text) :
  scanString start position done (escapeChar c ++ u)
    = scanString start (position + (escapeChar c).length) (c :: done) u
  := by
  rcases escapeChar_cases c with ⟨letter, hletter, -, hsimple, heq⟩ | ⟨hcontrol, heq⟩ | hplain
  · have hescape : escape start position (letter :: u) = .ok (c, 1) := by
      rw [escape, hsimple]
      rintro rfl
      exact hletter rfl
    rw [heq, List.cons_append, List.singleton_append, scanString, if_neg (by decide), if_pos rfl,
      hescape]
    rfl
  · rw [heq, List.cons_append, scanString, if_neg (by decide), if_pos rfl]
    simp only [List.cons_append, List.nil_append]
    rw [escape_control hcontrol hu]
    rfl
  · obtain ⟨hquote, hbackslash, hcontrol, heq⟩ := hplain
    rw [heq, List.singleton_append, scanString, if_neg hquote, if_neg hbackslash, if_neg hcontrol]
    rfl

/-- What is printed of a text within quotes is read as that text. -/
theorem scanString_flatMap_escapeChar (t rest : Text) (start position : Nat) (done : Text) :
  scanString start position done (t.flatMap escapeChar ++ '"' :: rest)
    = .ok (done.reverse ++ t, position + (t.flatMap escapeChar).length + 1)
  := by
  induction t generalizing position done with
  | nil => simp [scanString]
  | cons c t ih =>
    rw [List.flatMap_cons, List.append_assoc, scanString_escapeChar (by simp), ih]
    simp [Nat.add_assoc]

/-- A text within quotes is a token. -/
theorem tokenAt_quote (position : Nat) (t rest : Text) :
  tokenAt position '"' (t.flatMap escapeChar ++ ['"'] ++ rest)
    = (.string t, (t.flatMap escapeChar ++ ['"']).length)
  := by
  have hscan := scanString_flatMap_escapeChar t rest position (position + 1) []
  rw [List.append_assoc, List.singleton_append]
  simp only [tokenAt, hscan, List.reverse_nil, List.nil_append, List.length_append,
    List.length_singleton]
  congr 1
  omega

/-! ### Numerals -/

/-- A text that does not go on with a number. -/
def EndsNumber (t : Text) : Prop :=
  ∀ c ∈ t.head?, c.isDigit = false ∧ c ≠ '.' ∧ c ≠ 'e' ∧ c ≠ 'E'

theorem isDigit_of_mem_ofNat {n : Nat} {c : Char} (h : c ∈ Text.ofNat n) :
  c.isDigit = true
  := Nat.isDigit_of_mem_toDigits (by decide) (by decide) h

theorem natOfDigits_ofNat (n : Nat) :
  natOfDigits (Text.ofNat n) = n
  := by
  have hvalue : Nat.ofDigitChars 10 (Nat.toDigits 10 n) 0 = n :=
    Nat.ofDigitChars_toDigits (by decide) (by decide)
  rw [Nat.ofDigitChars] at hvalue
  simp only [natOfDigits, Text.ofNat, Nat.mul_comm _ 10]
  exact hvalue

/-- Only the numeral of zero starts with a zero. -/
theorem head?_ofNat_ne_zero {n : Nat} (h : n ≠ 0) :
  (Text.ofNat n).head? ≠ some '0'
  := by
  induction n using Nat.strongRecOn with
  | ind n ih =>
    by_cases hsmall : n < 10
    · rw [Text.ofNat, Nat.toDigits_of_lt_base hsmall]
      have hall : ∀ n < 10, n ≠ 0 → [Nat.digitChar n].head? ≠ some '0' := by decide
      exact hall n hsmall h
    · have hsplit : Text.ofNat n = Text.ofNat (n / 10) ++ Text.ofNat (n % 10) := by
        have happend : Nat.toDigits 10 (n / 10) ++ Nat.toDigits 10 (n % 10)
            = Nat.toDigits 10 (10 * (n / 10) + n % 10) :=
          Nat.toDigits_append_toDigits (by decide) (by omega) (by omega)
        rw [Nat.div_add_mod] at happend
        exact happend.symm
      have hfront := ih (n / 10) (by omega) (by omega)
      rw [hsplit]
      cases hdigits : Text.ofNat (n / 10) with
      | nil => exact absurd hdigits Nat.toDigits_ne_nil
      | cons c cs =>
        rw [hdigits] at hfront
        exact hfront

/-- The digits at the head of a numeral are the numeral. -/
theorem digits_ofNat_append (n : Nat) {rest : Text} (h : EndsNumber rest) :
  digits (Text.ofNat n ++ rest) = Text.ofNat n
  := by
  rw [digits, List.takeWhile_append_of_pos fun c hc => isDigit_of_mem_ofNat hc]
  cases rest with
  | nil => simp
  | cons c cs => simp [(h c rfl).1]

/-- So is the whole part. -/
theorem wholePart_ofNat_append (n : Nat) {rest : Text} (h : EndsNumber rest) :
  wholePart (Text.ofNat n ++ rest) = Text.ofNat n
  := by
  by_cases hn : n = 0
  · subst hn
    rfl
  · rw [wholePart, digits_ofNat_append n h]
    intro cs hcs
    have hhead := head?_ofNat_ne_zero hn
    cases hdigits : Text.ofNat n with
    | nil => exact absurd hdigits Nat.toDigits_ne_nil
    | cons c cs' =>
      rw [hdigits] at hcs hhead
      cases hcs
      exact hhead rfl

theorem fraction_of_endsNumber {rest : Text} (h : EndsNumber rest) :
  fraction rest = []
  := by
  rw [fraction.eq_def]
  split
  case h_1 => exact absurd rfl (h '.' rfl).2.1
  case h_2 => rfl

theorem exponent_of_endsNumber {rest : Text} (h : EndsNumber rest) :
  exponent rest = []
  := by
  cases rest with
  | nil => rfl
  | cons c cs =>
    obtain ⟨-, -, he, hE⟩ := h c rfl
    have hletter : ¬ (c = 'e' ∨ c = 'E') := not_or.2 ⟨he, hE⟩
    unfold exponent
    exact if_neg hletter

/-- An integer that is short enough to be read. -/
def FitsDigits (n : Int) : Prop :=
  (Text.ofNat n.natAbs).length ≤ maxDigits

/-- A numeral is scanned as its number. -/
theorem scanNumber?_ofInt_append {n : Int} (hn : FitsDigits n) {rest : Text} (h : EndsNumber rest) :
  scanNumber? (ofInt n ++ rest) = some (.scalar (.int n), (ofInt n).length)
  := by
  have hne : ∀ m, Text.ofNat m ≠ [] := fun m => Nat.toDigits_ne_nil
  cases n with
  | ofNat n =>
    have hfits : ¬ maxDigits < (Text.ofNat n).length := Nat.not_lt.2 hn
    have hsign : (Text.ofNat n ++ rest).head? ≠ some '-' := by
      cases hdigits : Text.ofNat n with
      | nil => exact absurd hdigits (hne n)
      | cons c cs =>
        have hc : c.isDigit = true := isDigit_of_mem_ofNat (n := n) (by simp [hdigits])
        rw [List.cons_append, List.head?_cons]
        intro heq
        cases heq
        cases hc
    rw [ofInt, scanNumber?]
    simp only [if_neg hsign, List.length_nil, List.drop_zero, wholePart_ofNat_append n h,
      if_neg (hne n), List.drop_left, fraction_of_endsNumber h, Nat.add_zero,
      exponent_of_endsNumber h, and_self, if_true, if_neg hfits, natOfDigits_ofNat,
      List.nil_append, List.append_nil]
    rfl
  | negSucc n =>
    have hfits : ¬ maxDigits < (Text.ofNat (n + 1)).length := Nat.not_lt.2 hn
    rw [ofInt, List.cons_append, scanNumber?]
    simp only [List.head?_cons, if_true, List.length_singleton, List.drop_succ_cons, List.drop_zero,
      wholePart_ofNat_append (n + 1) h, if_neg (hne (n + 1)), List.drop_left,
      fraction_of_endsNumber h, List.length_nil, Nat.add_zero,
      exponent_of_endsNumber h, and_self, if_neg hfits, natOfDigits_ofNat,
      List.append_nil, List.singleton_append]
    rfl

/-- A numeral starts with a digit, or with a minus and a digit. -/
theorem ofInt_cases (n : Int) :
  (∃ c cs, c.isDigit = true ∧ ofInt n = c :: cs)
    ∨ ∃ c cs, c.isDigit = true ∧ ofInt n = '-' :: c :: cs
  := by
  have hcons : ∀ m, ∃ c cs, c.isDigit = true ∧ Text.ofNat m = c :: cs := by
    intro m
    cases hdigits : Text.ofNat m with
    | nil => exact absurd hdigits Nat.toDigits_ne_nil
    | cons c cs => exact ⟨c, cs, isDigit_of_mem_ofNat (n := m) (by simp [hdigits]), rfl⟩
  cases n with
  | ofNat n => exact .inl (hcons n)
  | negSucc n =>
    obtain ⟨c, cs, hc, heq⟩ := hcons (n + 1)
    exact .inr ⟨c, cs, hc, congrArg ('-' :: ·) heq⟩

/-- The first character of a numeral. -/
theorem exists_ofInt_eq_cons (n : Int) :
  ∃ c cs, (c.isDigit = true ∨ c = '-') ∧ ofInt n = c :: cs
  := by
  rcases ofInt_cases n with ⟨c, cs, hc, heq⟩ | ⟨c, cs, -, heq⟩
  · exact ⟨c, cs, .inl hc, heq⟩
  · exact ⟨'-', c :: cs, .inr rfl, heq⟩

/-- No word is spelled like a number. -/
theorem find?_words_eq_none
    {t : Text} (h : (∃ c cs, c.isDigit = true ∧ t = c :: cs)
      ∨ ∃ c cs, c.isDigit = true ∧ t = '-' :: c :: cs) :
  words.find? (·.1.isPrefixOf t) = none
  := by
  have hdigit : ∀ c : Char, c.isDigit = true →
      'n' ≠ c ∧ 't' ≠ c ∧ 'f' ≠ c ∧ 'N' ≠ c ∧ 'I' ≠ c ∧ '-' ≠ c := by
    intro c hc
    refine ⟨?_, ?_, ?_, ?_, ?_, ?_⟩ <;>
    · rintro rfl
      cases hc
  rcases h with ⟨c, cs, hc, rfl⟩ | ⟨c, cs, hc, rfl⟩
  · obtain ⟨hn, ht, hf, hN, hI, hminus⟩ := hdigit c hc
    simp [words, List.isPrefixOf, hn, ht, hf, hN, hI, hminus]
  · obtain ⟨-, -, -, -, hI, -⟩ := hdigit c hc
    simp [words, List.isPrefixOf, hI]

/-- A numeral is a token. -/
theorem tokenAt_ofInt
    {n : Int} (hn : FitsDigits n) {rest : Text} (h : EndsNumber rest) {c : Char} {cs : Text}
    (hcs : ofInt n = c :: cs) (position : Nat) :
  tokenAt position c (cs ++ rest) = (.scalar (.int n), cs.length)
  := by
  have hscan := scanNumber?_ofInt_append hn h
  have hwords : words.find? (·.1.isPrefixOf (c :: (cs ++ rest))) = none := by
    apply find?_words_eq_none
    rw [← List.cons_append, ← hcs]
    rcases ofInt_cases n with ⟨c', cs', hc', heq⟩ | ⟨c', cs', hc', heq⟩
    · exact .inl ⟨c', cs' ++ rest, hc', by rw [heq]; rfl⟩
    · exact .inr ⟨c', cs' ++ rest, hc', by rw [heq]; rfl⟩
  have hhead : c.isDigit = true ∨ c = '-' := by
    obtain ⟨c', cs', hc', heq⟩ := exists_ofInt_eq_cons n
    rw [hcs] at heq
    cases heq
    exact hc'
  rw [hcs, List.cons_append] at hscan
  rw [tokenAt.eq_def]
  split
  case h_8 => simp [hwords, hscan]
  all_goals rcases hhead with hdigit | hminus
  all_goals first | cases hdigit | cases hminus

end Inlay.Json
