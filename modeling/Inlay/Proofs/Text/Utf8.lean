import Inlay.Disk.Text
import Inlay.Proofs.Text.Newline

/-!
# Texts through a file

The bytes of a text are those of the standard, and they are read as that text, character by character
(`decode_encode`).  A file that holds them is read as the text with line feeds (`readText_encode`), so
as the text itself if there are no carriage returns in it (`readText_of_read`).
-/

namespace Inlay

namespace Utf8

/-! ### The standard -/

/-- The bytes of a character are those of the standard. -/
theorem encodeChar_eq (c : Char) :
  encodeChar c = String.utf8EncodeChar c
  := by
  have hc : c.toNat < 0x110000 := by
    rcases c.valid with h | h
    · exact Nat.lt_trans h (by decide)
    · exact h.2
  have hbyte : ∀ {m n : Nat}, m = n → m.toUInt8 = UInt8.ofNat n := fun h => congrArg _ h
  unfold encodeChar String.utf8EncodeChar
  rw [show c.val.toNat = c.toNat from rfl]
  generalize c.toNat = n at hc
  dsimp only
  simp only [show ∀ k, (n ≤ k) = (n < k + 1) from fun k => propext Nat.lt_add_one_iff.symm]
  by_cases h : n < 0x80
  · rw [if_pos h, if_pos h]
  · rw [if_neg h, if_neg h]
    by_cases h' : n < 0x800
    · rw [if_pos h', if_pos h', hbyte (n := n / 64 % 0x20 + 0xC0) (by omega),
        hbyte (n := n % 0x40 + 0x80) (by omega)]
    · rw [if_neg h', if_neg h']
      by_cases h'' : n < 0x10000
      · rw [if_pos h'', if_pos h'', hbyte (n := n / 4096 % 0x10 + 0xE0) (by omega),
          hbyte (n := n / 64 % 0x40 + 0x80) (by omega), hbyte (n := n % 0x40 + 0x80) (by omega)]
      · rw [if_neg h'', if_neg h'', hbyte (n := n / 262144 % 8 + 0xF0) (by omega),
          hbyte (n := n / 4096 % 0x40 + 0x80) (by omega),
          hbyte (n := n / 64 % 0x40 + 0x80) (by omega), hbyte (n := n % 0x40 + 0x80) (by omega)]

/-! ### One byte of a character -/

theorem toNat_toUInt8 {n : Nat} (h : n < 0x100) :
  n.toUInt8.toNat = n
  := by
  simp only [Nat.toUInt8, UInt8.toNat_ofNat']
  omega

/-- The first of two bytes. -/
theorem feed_two {m : Nat} (hlow : 2 ≤ m) (hhigh : m < 0x20) :
  feed .between (0xC0 + m).toUInt8 = (.within (0xC0 + m).toUInt8 m 0x80 0xBF 1 1, [])
  := by
  have hall : ∀ m < 0x20, 2 ≤ m →
      feed .between (0xC0 + m).toUInt8 = (.within (0xC0 + m).toUInt8 m 0x80 0xBF 1 1, []) := by decide
  exact hall m hhigh hlow

/-- The first of three bytes: after the least of them the shorter forms are left out, and after
another the surrogates. -/
theorem feed_three {m : Nat} (h : m < 0x10) :
  feed .between (0xE0 + m).toUInt8
    = (.within (0xE0 + m).toUInt8 m (if m = 0 then 0xA0 else 0x80)
        (if m = 0xD then 0x9F else 0xBF) 2 1, [])
  := by
  have hall : ∀ m < 0x10, feed .between (0xE0 + m).toUInt8
      = (.within (0xE0 + m).toUInt8 m (if m = 0 then 0xA0 else 0x80)
          (if m = 0xD then 0x9F else 0xBF) 2 1, []) := by decide
  exact hall m h

/-- The first of four bytes: after the least of them the shorter forms are left out, and after the
greatest what is beyond the last character. -/
theorem feed_four {m : Nat} (h : m < 5) :
  feed .between (0xF0 + m).toUInt8
    = (.within (0xF0 + m).toUInt8 m (if m = 0 then 0x90 else 0x80)
        (if m = 4 then 0x8F else 0xBF) 3 1, [])
  := by
  have hall : ∀ m < 5, feed .between (0xF0 + m).toUInt8
      = (.within (0xF0 + m).toUInt8 m (if m = 0 then 0x90 else 0x80)
          (if m = 4 then 0x8F else 0xBF) 3 1, []) := by decide
  exact hall m h

/-- A byte that continues a character and completes it. -/
theorem feed_last
    (first : UInt8) (value low high seen : Nat) {m : Nat} (hm : m < 0x40) (hlow : low ≤ 0x80 + m)
    (hhigh : 0x80 + m ≤ high) :
  feed (.within first value low high 1 seen) (0x80 + m).toUInt8
    = (.between, [.char (Char.ofNat (value * 0x40 + m))])
  := by
  have hb : (0x80 + m).toUInt8.toNat = 0x80 + m := toNat_toUInt8 (by omega)
  rw [feed, hb, if_pos ⟨hlow, hhigh⟩, if_pos rfl, Nat.add_sub_cancel_left]

/-- A byte that continues a character of which more is owed. -/
theorem feed_more
    (first : UInt8) (value low high owed seen : Nat) {m : Nat} (hm : m < 0x40)
    (hlow : low ≤ 0x80 + m) (hhigh : 0x80 + m ≤ high) :
  feed (.within first value low high (owed + 2) seen) (0x80 + m).toUInt8
    = (.within first (value * 0x40 + m) 0x80 0xBF (owed + 1) (seen + 1), [])
  := by
  have hb : (0x80 + m).toUInt8.toNat = 0x80 + m := toNat_toUInt8 (by omega)
  rw [feed, hb, if_pos ⟨hlow, hhigh⟩, if_neg (by omega), Nat.add_sub_cancel_left]
  rfl

/-! ### The bytes of a character -/

theorem itemsOnto_cons
    {state next : State} {b : UInt8} {items : List Item} (h : feed state b = (next, items))
    (done : List Item) (bytes : Bytes) :
  itemsOnto done state (b :: bytes) = itemsOnto (items.reverse ++ done) next bytes
  := by
  rw [itemsOnto, h]

/-- The bytes of a character are read as that character. -/
theorem itemsOnto_encodeChar (done : List Item) (c : Char) (bytes : Bytes) :
  itemsOnto done .between (encodeChar c ++ bytes) = itemsOnto (.char c :: done) .between bytes
  := by
  have hc : Char.ofNat c.toNat = c := Char.ofNat_toNat c
  have hvalid : c.toNat < 0xD800 ∨ 0xDFFF < c.toNat ∧ c.toNat < 0x110000 := c.valid
  rw [encodeChar]
  generalize c.toNat = n at hc hvalid
  subst hc
  split
  case isTrue h =>
    have hb : n.toUInt8.toNat = n := toNat_toUInt8 (by omega)
    have hstart : feed .between n.toUInt8 = (.between, [.char (Char.ofNat n)]) := by
      simp only [feed, start, hb, h, if_true]
    rw [List.singleton_append, itemsOnto_cons hstart]
    rfl
  case isFalse h =>
    split
    case isTrue h' =>
      have hlast := feed_last (0xC0 + n / 0x40).toUInt8 (n / 0x40) 0x80 0xBF 1
        (m := n % 0x40) (by omega) (by omega) (by omega)
      have hvalue : n / 0x40 * 0x40 + n % 0x40 = n := by omega
      rw [hvalue] at hlast
      rw [List.cons_append, List.singleton_append,
        itemsOnto_cons (feed_two (m := n / 0x40) (by omega) (by omega)), itemsOnto_cons hlast]
      rfl
    case isFalse h' =>
      split
      case isTrue h'' =>
        have hmore := feed_more (0xE0 + n / 0x1000).toUInt8 (n / 0x1000)
          (if n / 0x1000 = 0 then 0xA0 else 0x80) (if n / 0x1000 = 0xD then 0x9F else 0xBF) 0 1
          (m := n / 0x40 % 0x40) (by omega) (by split <;> omega) (by split <;> omega)
        have hlast := feed_last (0xE0 + n / 0x1000).toUInt8
          (n / 0x1000 * 0x40 + n / 0x40 % 0x40) 0x80 0xBF 2
          (m := n % 0x40) (by omega) (by omega) (by omega)
        have hvalue : (n / 0x1000 * 0x40 + n / 0x40 % 0x40) * 0x40 + n % 0x40 = n := by omega
        rw [hvalue] at hlast
        rw [List.cons_append, List.cons_append, List.singleton_append,
          itemsOnto_cons (feed_three (m := n / 0x1000) (by omega)), itemsOnto_cons hmore, itemsOnto_cons hlast]
        rfl
      case isFalse h'' =>
        have hmore := feed_more (0xF0 + n / 0x40000).toUInt8 (n / 0x40000)
          (if n / 0x40000 = 0 then 0x90 else 0x80) (if n / 0x40000 = 4 then 0x8F else 0xBF) 1 1
          (m := n / 0x1000 % 0x40) (by omega) (by split <;> omega) (by split <;> omega)
        have hmore' := feed_more (0xF0 + n / 0x40000).toUInt8
          (n / 0x40000 * 0x40 + n / 0x1000 % 0x40) 0x80 0xBF 0 2
          (m := n / 0x40 % 0x40) (by omega) (by omega) (by omega)
        have hlast := feed_last (0xF0 + n / 0x40000).toUInt8
          ((n / 0x40000 * 0x40 + n / 0x1000 % 0x40) * 0x40 + n / 0x40 % 0x40) 0x80 0xBF 3
          (m := n % 0x40) (by omega) (by omega) (by omega)
        have hvalue : ((n / 0x40000 * 0x40 + n / 0x1000 % 0x40) * 0x40 + n / 0x40 % 0x40) * 0x40
            + n % 0x40 = n := by omega
        rw [hvalue] at hlast
        rw [List.cons_append, List.cons_append, List.cons_append, List.singleton_append,
          itemsOnto_cons (feed_four (m := n / 0x40000) (by omega)), itemsOnto_cons hmore, itemsOnto_cons hmore',
          itemsOnto_cons hlast]
        rfl

/-! ### The bytes of a text -/

theorem itemsOnto_encode (done : List Item) (t : Text) :
  itemsOnto done .between (encode t) = done.reverse ++ t.map Item.char
  := by
  induction t generalizing done with
  | nil => simp [encode, itemsOnto, finish]
  | cons c t ih =>
    have hencode : encode (c :: t) = encodeChar c ++ encode t := List.flatMap_cons
    rw [hencode, itemsOnto_encodeChar, ih]
    simp

/-- The bytes of a text are read as its characters. -/
theorem items_encode (t : Text) :
  items (encode t) = t.map Item.char
  := by
  rw [items, itemsOnto_encode]
  rfl

theorem faultFrom_map_char (position : Nat) (t : Text) :
  faultFrom position (t.map Item.char) = none
  := by
  induction t generalizing position with
  | nil => rfl
  | cons c t ih => apply ih

theorem flatMap_text_map_char (replacement t : Text) :
  (t.map Item.char).flatMap (Item.text replacement) = t
  := by
  induction t with
  | nil => rfl
  | cons c t ih => exact congrArg (c :: ·) ih

/-- A text is read as it was written, whatever is to be done with faults. -/
theorem decode_encode (rule : FaultRule) (t : Text) :
  decode rule (encode t) = .ok t
  := by
  unfold decode
  rw [items_encode]
  cases rule with
  | strict => simp only [faultFrom_map_char, flatMap_text_map_char]
  | replace => simp only [flatMap_text_map_char]
  | ignore => simp only [flatMap_text_map_char]

/-- Different texts have different bytes. -/
theorem encode_injective {t t' : Text} (h : encode t = encode t') :
  t = t'
  := by
  have hdecode := congrArg (decode .ignore) h
  rw [decode_encode, decode_encode] at hdecode
  exact Except.ok.inj hdecode

end Utf8

/-- A file that holds the bytes of a text is read as the text with line feeds at the ends of its
lines. -/
theorem Disk.readText_encode
    {d : Disk} {p : Path} {t : Text} (h : d.read p = .ok (Utf8.encode t)) (rule : Utf8.FaultRule) :
  d.readText rule p = .ok (Text.withLineFeeds t)
  := by
  rw [readText, h]
  dsimp only
  rw [Utf8.decode_encode]
  exact congrArg Except.ok (Text.unifyNewlines_eq t)

/-- A file that holds the bytes of a text without carriage returns is read as that text. -/
theorem Disk.readText_of_read
    {d : Disk} {p : Path} {t : Text} (h : d.read p = .ok (Utf8.encode t)) (ht : '\r' ∉ t)
    (rule : Utf8.FaultRule) :
  d.readText rule p = .ok t
  := by
  rw [readText_encode h, Text.withLineFeeds_of_not_mem ht]

end Inlay
