import Inlay.Base64
import Mathlib.Tactic.Use

/-!
# Decoding base64

The decoder of the standard alphabet gives back exactly the bytes that were encoded
(`decode_encode`), with no, one or two equals signs at the end.
-/

namespace Inlay.Base64

/-! ### Decoding -/

/-- The number of a digit. -/
def value? (c : Char) : Option Nat :=
  if 'A' ≤ c ∧ c ≤ 'Z' then some (c.toNat - 'A'.toNat)
  else if 'a' ≤ c ∧ c ≤ 'z' then some (c.toNat - 'a'.toNat + 26)
  else if '0' ≤ c ∧ c ≤ '9' then some (c.toNat - '0'.toNat + 52)
  else if c = '+' then some 62
  else if c = '/' then some 63
  else none

/-- The byte of two digits ahead of two equals signs. -/
def byteOfTwo? (a b : Char) : Option Bytes := do
  let x ← value? a
  let y ← value? b
  let n := (x * 0x40 + y) / 0x10
  return [UInt8.ofNat n]

/-- The bytes of three digits ahead of an equals sign. -/
def bytesOfThree? (a b c : Char) : Option Bytes := do
  let x ← value? a
  let y ← value? b
  let z ← value? c
  let n := (x * 0x1000 + y * 0x40 + z) / 4
  return [UInt8.ofNat (n / 0x100), UInt8.ofNat (n % 0x100)]

/-- The bytes of four digits. -/
def bytesOfFour? (a b c d : Char) : Option Bytes := do
  let x ← value? a
  let y ← value? b
  let z ← value? c
  let w ← value? d
  let n := x * 0x40000 + y * 0x1000 + z * 0x40 + w
  return [UInt8.ofNat (n / 0x10000), UInt8.ofNat (n / 0x100 % 0x100), UInt8.ofNat (n % 0x100)]

/-- The bytes that digits stand for, four at a time; the last four may end in equals signs. -/
def decode : Text → Option Bytes
  | [] => some []
  | [a, b, '=', '='] => byteOfTwo? a b
  | [a, b, c, '='] => bytesOfThree? a b c
  | a :: b :: c :: d :: rest => do
    let bytes ← bytesOfFour? a b c d
    let more ← decode rest
    return bytes ++ more
  | _ => none

/-! ### Single digits -/

section

variable {n : Nat}

theorem value?_digit (h : n < 0x40) :
  value? (digit n) = some n
  := by
  have hall : ∀ n < 0x40, value? (digit n) = some n := by decide
  exact hall n h

/-- No digit is an equals sign. -/
theorem digit_ne_equals (h : n < 0x40) :
  digit n ≠ '='
  := by
  have hall : ∀ n < 0x40, digit n ≠ '=' := by decide
  exact hall n h

end

/-! ### Groups of digits -/

/-- The digits of the bytes, three bytes after three bytes. -/
def groups : Bytes → Text
  | a :: b :: c :: rest => group a b c ++ groups rest
  | [a, b] => groupOfTwo a b
  | [a] => groupOfOne a
  | [] => []

theorem encodeOnto_eq (done : Text) (bytes : Bytes) :
  encodeOnto done bytes = done.reverse ++ groups bytes
  := by
  fun_induction encodeOnto done bytes with
  | case1 done a b c rest ih => simp [ih, groups]
  | case2 done a b => simp [groups]
  | case3 done a => simp [groups]
  | case4 done => simp [groups]

theorem encode_eq (bytes : Bytes) :
  encode bytes = groups bytes
  := encodeOnto_eq [] bytes

section

variable {n : Nat}

theorem byteOfTwo?_digits (h : n < 0x1000) :
  byteOfTwo? (digit (n / 0x40)) (digit (n % 0x40)) = some [UInt8.ofNat (n / 0x10)]
  := by
  have hsum : n / 0x40 * 0x40 + n % 0x40 = n := by omega
  rw [byteOfTwo?, value?_digit (by omega), value?_digit (by omega)]
  exact congrArg (fun m => some [UInt8.ofNat (m / 0x10)]) hsum

theorem bytesOfThree?_digits (h : n < 0x40000) :
  bytesOfThree? (digit (n / 0x1000)) (digit (n / 0x40 % 0x40)) (digit (n % 0x40))
    = some [UInt8.ofNat (n / 4 / 0x100), UInt8.ofNat (n / 4 % 0x100)]
  := by
  have hsum : n / 0x1000 * 0x1000 + n / 0x40 % 0x40 * 0x40 + n % 0x40 = n := by omega
  rw [bytesOfThree?, value?_digit (by omega), value?_digit (by omega), value?_digit (by omega)]
  exact congrArg (fun m => some [UInt8.ofNat (m / 4 / 0x100), UInt8.ofNat (m / 4 % 0x100)]) hsum

theorem bytesOfFour?_digits (h : n < 0x1000000) :
  bytesOfFour? (digit (n / 0x40000)) (digit (n / 0x1000 % 0x40)) (digit (n / 0x40 % 0x40))
      (digit (n % 0x40))
    = some [UInt8.ofNat (n / 0x10000), UInt8.ofNat (n / 0x100 % 0x100), UInt8.ofNat (n % 0x100)]
  := by
  have hsum : n / 0x40000 * 0x40000 + n / 0x1000 % 0x40 * 0x1000 + n / 0x40 % 0x40 * 0x40
      + n % 0x40 = n := by omega
  rw [bytesOfFour?, value?_digit (by omega), value?_digit (by omega), value?_digit (by omega),
    value?_digit (by omega)]
  exact congrArg (fun m => some [UInt8.ofNat (m / 0x10000), UInt8.ofNat (m / 0x100 % 0x100),
    UInt8.ofNat (m % 0x100)]) hsum

/-- The last digit of a group is no equals sign. -/
theorem digit_mod_ne_equals (n : Nat) :
  digit (n % 0x40) ≠ '='
  := digit_ne_equals (Nat.mod_lt n (by decide))

end

section

variable (a b c : UInt8)

theorem decode_group (rest : Text) :
  decode (group a b c ++ rest) = (decode rest).map ([a, b, c] ++ ·)
  := by
  have ha := a.toNat_lt
  have hb := b.toNat_lt
  have hc := c.toNat_lt
  have hfirst : (a.toNat * 0x10000 + b.toNat * 0x100 + c.toNat) / 0x10000 = a.toNat := by omega
  have hsecond : (a.toNat * 0x10000 + b.toNat * 0x100 + c.toNat) / 0x100 % 0x100 = b.toNat := by
    omega
  have hthird : (a.toNat * 0x10000 + b.toNat * 0x100 + c.toNat) % 0x100 = c.toNat := by omega
  have hlast := digit_mod_ne_equals (a.toNat * 0x10000 + b.toNat * 0x100 + c.toNat)
  rw [group, List.cons_append, List.cons_append, List.cons_append, List.cons_append,
    List.nil_append, decode, bytesOfFour?_digits (by omega), hfirst, hsecond, hthird]
  · simp only [UInt8.ofNat_toNat]
    cases decode rest <;> rfl
  · intro _ heq _
    exact hlast heq
  · intro heq _
    exact hlast heq

theorem decode_groupOfTwo :
  decode (groupOfTwo a b) = some [a, b]
  := by
  have ha := a.toNat_lt
  have hb := b.toNat_lt
  have hfirst : (a.toNat * 0x100 + b.toNat) * 4 / 4 / 0x100 = a.toNat := by omega
  have hsecond : (a.toNat * 0x100 + b.toNat) * 4 / 4 % 0x100 = b.toNat := by omega
  rw [groupOfTwo, decode, bytesOfThree?_digits (by omega), hfirst, hsecond]
  · simp only [UInt8.ofNat_toNat]
  · exact digit_mod_ne_equals _

theorem decode_groupOfOne :
  decode (groupOfOne a) = some [a]
  := by
  have ha := a.toNat_lt
  have hfirst : a.toNat * 0x10 / 0x10 = a.toNat := by omega
  rw [groupOfOne, decode, byteOfTwo?_digits (by omega), hfirst, UInt8.ofNat_toNat]

end

/-- Decoding gives back the bytes that were encoded. -/
theorem decode_encode (bytes : Bytes) :
  decode (encode bytes) = some bytes
  := by
  rw [encode_eq]
  fun_induction groups bytes with
  | case1 a b c rest ih =>
    rw [decode_group, ih]
    rfl
  | case2 a b => exact decode_groupOfTwo a b
  | case3 a => exact decode_groupOfOne a
  | case4 => rfl

/-- Bytes are written in digits and equals signs. -/
theorem mem_encode {bytes : Bytes} {d : Char} (h : d ∈ encode bytes) :
  d = '=' ∨ ∃ n < 0x40, d = digit n
  := by
  rw [encode_eq] at h
  fun_induction groups bytes with
  | case1 a b c rest ih =>
    have ha := a.toNat_lt
    have hb := b.toNat_lt
    have hc := c.toNat_lt
    rcases List.mem_append.1 h with h | h
    · simp only [group, List.mem_cons, List.not_mem_nil, or_false] at h
      right
      rcases h with rfl | rfl | rfl | rfl <;> exact ⟨_, by omega, rfl⟩
    · exact ih h
  | case2 a b =>
    have ha := a.toNat_lt
    have hb := b.toNat_lt
    simp only [groupOfTwo, List.mem_cons, List.not_mem_nil, or_false] at h
    rcases h with rfl | rfl | rfl | rfl
    · exact .inr ⟨_, by omega, rfl⟩
    · exact .inr ⟨_, by omega, rfl⟩
    · exact .inr ⟨_, by omega, rfl⟩
    · exact .inl rfl
  | case3 a =>
    have ha := a.toNat_lt
    simp only [groupOfOne, List.mem_cons, List.not_mem_nil, or_false] at h
    rcases h with rfl | rfl | rfl | rfl
    · exact .inr ⟨_, by omega, rfl⟩
    · exact .inr ⟨_, by omega, rfl⟩
    · exact .inl rfl
    · exact .inl rfl
  | case4 => simp at h

end Inlay.Base64
