import Inlay.Proofs.Text.Utf8
import Mathlib.Algebra.Group.Nat.Defs

/-!
# Strict reading

Strict reading takes the bytes of texts and no others (`decode_strict_eq_ok_iff`).  Reading stands
within a character as long as its bytes so far begin those of every character with their value
(`Begun`); a byte that is no fault keeps this, or completes a character (`feed_of_begun`).
-/

namespace Inlay

namespace Utf8

/-! ### The bytes of a code point -/

/-- The bytes that end a character: the last groups of six bits of its code point. -/
def tail (code : Nat) : Nat → Bytes
  | 0 => []
  | groups + 1 => (0x80 + code / 0x40 ^ groups % 0x40).toUInt8 :: tail code groups

theorem toNat_ofNat {code : Nat} (h : code < 0xD800 ∨ 0xDFFF < code ∧ code < 0x110000) :
  (Char.ofNat code).toNat = code
  := by
  rw [Char.ofNat, dif_pos h]
  rfl

theorem encodeChar_one {code : Nat} (h : code < 0x80) :
  encodeChar (Char.ofNat code) = [code.toUInt8]
  := by
  rw [encodeChar, toNat_ofNat (by omega)]
  exact if_pos h

theorem encodeChar_two {code : Nat} (hlow : 0x80 ≤ code) (hhigh : code < 0x800) :
  encodeChar (Char.ofNat code) = (0xC0 + code / 0x40).toUInt8 :: tail code 1
  := by
  rw [encodeChar, toNat_ofNat (by omega)]
  simp only [Nat.not_lt.2 hlow, hhigh, if_true, if_false, tail, pow_zero, Nat.div_one]

theorem encodeChar_three
    {code : Nat} (hlow : 0x800 ≤ code) (hhigh : code < 0x10000)
    (h : code < 0xD800 ∨ 0xDFFF < code) :
  encodeChar (Char.ofNat code) = (0xE0 + code / 0x1000).toUInt8 :: tail code 2
  := by
  rw [encodeChar, toNat_ofNat (by omega)]
  simp only [show ¬ code < 0x80 by omega, Nat.not_lt.2 hlow, hhigh, if_true, if_false, tail,
    pow_zero, pow_one, Nat.div_one]

theorem encodeChar_four {code : Nat} (hlow : 0x10000 ≤ code) (hhigh : code < 0x110000) :
  encodeChar (Char.ofNat code) = (0xF0 + code / 0x40000).toUInt8 :: tail code 3
  := by
  rw [encodeChar, toNat_ofNat (by omega)]
  simp only [show ¬ code < 0x80 by omega, show ¬ code < 0x800 by omega, Nat.not_lt.2 hlow, if_false,
    tail, pow_zero, pow_one, Nat.div_one, show (0x40 : Nat) ^ 2 = 0x1000 from rfl]

/-! ### Within a character -/

/-- The bytes `read` have led to a state: they are none between characters; and within one, every
code point that has the value ahead and a next byte between the bounds is that of a character whose
bytes begin with them. -/
inductive Begun : State → Bytes → Prop
  | between : Begun .between []
  | within {first value low high owed seen read} (hlow : 0x80 ≤ low) (hhigh : high ≤ 0xBF)
    (h : ∀ code, code / 0x40 ^ (owed + 1) = value → low ≤ 0x80 + code / 0x40 ^ owed % 0x40 →
      0x80 + code / 0x40 ^ owed % 0x40 ≤ high →
      encodeChar (Char.ofNat code) = read ++ tail code (owed + 1)) :
    Begun (.within first value low high (owed + 1) seen) read

theorem toUInt8_eq {n : Nat} {b : UInt8} (h : n = b.toNat) :
  n.toUInt8 = b
  := by
  rw [h]
  exact UInt8.ofNat_toNat

theorem begun_two {b : UInt8} {value : Nat} (hb : b.toNat = 0xC0 + value) (hvalue : 2 ≤ value)
    (hvalue' : value < 0x20) :
  Begun (.within b value 0x80 0xBF 1 1) [b]
  := by
  apply Begun.within (by omega) (by omega)
  intro code hcode _ _
  rw [Nat.zero_add, pow_one] at hcode
  rw [encodeChar_two (by omega) (by omega), toUInt8_eq (b := b) (by omega)]
  rfl

/-- After the least first byte the shorter forms are left out, and after another the surrogates. -/
theorem begun_three
    {b : UInt8} {value low high : Nat} (hb : b.toNat = 0xE0 + value) (hvalue : value < 0x10)
    (hlow : 0x80 ≤ low) (hhigh : high ≤ 0xBF) (hshort : value = 0 → 0xA0 ≤ low)
    (hsurrogate : value = 0xD → high ≤ 0x9F) :
  Begun (.within b value low high 2 1) [b]
  := by
  apply Begun.within hlow hhigh
  intro code hcode hnext hnext'
  rw [show (0x40 : Nat) ^ (1 + 1) = 0x1000 from rfl] at hcode
  rw [pow_one] at hnext hnext'
  rw [encodeChar_three (by omega) (by omega) (by omega), toUInt8_eq (b := b) (by omega)]
  rfl

/-- After the least first byte the shorter forms are left out, and after the greatest what is beyond
the last code point. -/
theorem begun_four
    {b : UInt8} {value low high : Nat} (hb : b.toNat = 0xF0 + value) (hvalue : value < 5)
    (hlow : 0x80 ≤ low) (hhigh : high ≤ 0xBF) (hshort : value = 0 → 0x90 ≤ low)
    (hbeyond : value = 4 → high ≤ 0x8F) :
  Begun (.within b value low high 3 1) [b]
  := by
  apply Begun.within hlow hhigh
  intro code hcode hnext hnext'
  rw [show (0x40 : Nat) ^ (2 + 1) = 0x40000 from rfl] at hcode
  rw [show (0x40 : Nat) ^ 2 = 0x1000 from rfl] at hnext hnext'
  rw [encodeChar_four (by omega) (by omega), toUInt8_eq (b := b) (by omega)]
  rfl

/-- A byte between characters that is no fault is a character or begins one. -/
theorem start_of_no_fault
    {b : UInt8} {next : State} {found : List Item} (h : start b = (next, found))
    (hfound : ∀ item ∈ found, ∃ c, item = .char c) :
  (found = [] ∧ Begun next [b]) ∨ ∃ c, found = [.char c] ∧ next = .between ∧ encodeChar c = [b]
  := by
  have hfault : ∀ {reason length}, found ≠ [.fault reason b length] := by
    rintro reason length rfl
    obtain ⟨c, hc⟩ := hfound _ (List.mem_singleton_self _)
    cases hc
  unfold start at h
  dsimp only at h
  by_cases hone : b.toNat < 0x80
  · rw [if_pos hone] at h
    cases h
    right
    refine ⟨Char.ofNat b.toNat, rfl, rfl, ?_⟩
    rw [encodeChar_one hone, toUInt8_eq rfl]
  · rw [if_neg hone] at h
    left
    have hb := b.toNat_lt
    -- The ranges of first bytes, in their order; the first and the last are faults.
    repeat' split at h
    all_goals cases h
    all_goals first | exact absurd rfl hfault | refine ⟨rfl, ?_⟩
    · apply begun_two <;> omega
    · apply begun_three <;> omega
    · apply begun_three <;> omega
    · apply begun_three <;> omega
    · apply begun_four <;> omega
    · apply begun_four <;> omega
    · apply begun_four <;> omega

/-- A byte that is no fault goes on with the character, or completes it. -/
theorem feed_of_begun
    {state next : State} {read : Bytes} {b : UInt8} {found : List Item} (hstate : Begun state read)
    (h : feed state b = (next, found)) (hfound : ∀ item ∈ found, ∃ c, item = .char c) :
  (found = [] ∧ Begun next (read ++ [b]))
    ∨ ∃ c, found = [.char c] ∧ next = .between ∧ encodeChar c = read ++ [b]
  := by
  cases hstate with
  | between => exact start_of_no_fault h hfound
  | @within first value low high owed seen read hlow hhigh hchar =>
    rw [feed] at h
    split at h
    case isFalse =>
      cases h
      obtain ⟨c, hc⟩ := hfound _ List.mem_cons_self
      cases hc
    case isTrue hnext =>
      cases owed with
      | zero =>
        cases h
        right
        refine ⟨_, rfl, rfl, ?_⟩
        rw [hchar _ (by omega) (by omega) (by omega), tail, tail, toUInt8_eq]
        omega
      | succ owed =>
        rw [if_neg (by omega)] at h
        cases h
        left
        refine ⟨rfl, Begun.within (by omega) (by omega) ?_⟩
        intro code hcode _ _
        have hvalue : code / 0x40 ^ (owed + 1 + 1) = code / 0x40 ^ (owed + 1) / 0x40 := by
          rw [pow_succ, Nat.div_div_eq_div_mul]
        rw [hchar code (by omega) (by omega) (by omega), tail, toUInt8_eq (b := b) (by omega)]
        simp

/-! ### All bytes -/

theorem itemsOnto_eq (done : List Item) (state : State) (bytes : Bytes) :
  itemsOnto done state bytes = done.reverse ++ itemsOnto [] state bytes
  := by
  induction bytes generalizing done state with
  | nil => simp [itemsOnto]
  | cons b bytes ih =>
    rw [itemsOnto_cons rfl, itemsOnto_cons rfl, ih, ih (_ ++ [])]
    simp

/-- Bytes without a fault go on with the character that has begun, and with the bytes of a text. -/
theorem append_eq_encode
    {state : State} {read bytes : Bytes} {t : Text} (hstate : Begun state read)
    (h : itemsOnto [] state bytes = t.map Item.char) :
  read ++ bytes = encode t
  := by
  induction bytes generalizing state read t with
  | nil =>
    cases hstate with
    | between =>
      rw [itemsOnto] at h
      obtain rfl : t = [] := by simpa [finish] using h.symm
      rfl
    | within =>
      cases t <;> cases h
  | cons b bytes ih =>
    obtain ⟨⟨next, found⟩, hfeed⟩ : ∃ result, feed state b = result := ⟨_, rfl⟩
    rw [itemsOnto_cons hfeed, itemsOnto_eq, List.append_nil, List.reverse_reverse] at h
    obtain ⟨front, rest, rfl, hfront, hrest⟩ := List.map_eq_append_iff.1 h.symm
    have hfound : ∀ item ∈ found, ∃ c, item = .char c := by
      rw [← hfront]
      intro item hitem
      obtain ⟨c, -, rfl⟩ := List.mem_map.1 hitem
      exact ⟨c, rfl⟩
    rcases feed_of_begun hstate hfeed hfound with ⟨rfl, hnext⟩ | ⟨c, rfl, rfl, hc⟩
    · obtain rfl := List.map_eq_nil_iff.1 hfront
      rw [List.nil_append, ← ih hnext hrest.symm, List.append_assoc, List.singleton_append]
    · obtain ⟨_, rfl, ⟨⟩⟩ := List.map_eq_singleton_iff.1 hfront
      rw [encode, List.flatMap_append, ← encode, ← encode, ← ih .between hrest.symm]
      simp [encode, hc]

theorem exists_eq_map_char
    {position : Nat} {found : List Item} (h : faultFrom position found = none) :
  ∃ t : Text, found = t.map Item.char
  := by
  induction found generalizing position with
  | nil => exact ⟨[], rfl⟩
  | cons item found ih =>
    cases item with
    | fault reason first length => cases h
    | char c =>
      obtain ⟨t, rfl⟩ := ih h
      exact ⟨c :: t, rfl⟩

/-- Strict reading takes the bytes of texts, and gives the text. -/
theorem decode_strict_eq_ok_iff {bytes : Bytes} {t : Text} :
  decode .strict bytes = .ok t ↔ bytes = encode t
  := by
  constructor
  · intro h
    unfold decode at h
    dsimp only at h
    split at h
    case h_1 => cases h
    case h_2 hfault =>
      obtain ⟨t', hitems⟩ := exists_eq_map_char hfault
      rw [hitems, flatMap_text_map_char] at h
      cases h
      exact append_eq_encode .between hitems
  · rintro rfl
    exact decode_encode .strict t

end Utf8

/-- A file can be read strictly exactly if it holds the bytes of a text. -/
theorem Disk.readText_strict_eq_ok_iff {d : Disk} {p : Path} {t : Text} :
  d.readText .strict p = .ok t
    ↔ ∃ t', d.read p = .ok (Utf8.encode t') ∧ Text.withLineFeeds t' = t
  := by
  constructor
  · intro h
    unfold readText at h
    split at h
    case h_1 => cases h
    case h_2 bytes hbytes =>
      split at h
      case h_1 => cases h
      case h_2 t' hdecode =>
        obtain rfl := Utf8.decode_strict_eq_ok_iff.1 hdecode
        cases h
        exact ⟨t', hbytes, (Text.unifyNewlines_eq t').symm⟩
  · rintro ⟨t', hread, rfl⟩
    exact readText_encode hread .strict

end Inlay
