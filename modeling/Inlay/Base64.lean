import Inlay.Bytes

/-!
# Base64

Three bytes are written as four digits of six bits each.  One or two bytes at the end are filled
up with zero bits and marked by equals signs in place of the digits that are not needed.
-/

namespace Inlay.Base64

/-- The digit of a number below sixty-four. -/
def digit (n : Nat) : Char :=
  if n < 26 then Char.ofNat ('A'.toNat + n)
  else if n < 52 then Char.ofNat ('a'.toNat + (n - 26))
  else if n < 62 then Char.ofNat ('0'.toNat + (n - 52))
  else if n = 62 then '+'
  else '/'

/-- The digits of three bytes. -/
def group (a b c : UInt8) : Text :=
  let n := a.toNat * 0x10000 + b.toNat * 0x100 + c.toNat
  [digit (n / 0x40000), digit (n / 0x1000 % 0x40), digit (n / 0x40 % 0x40), digit (n % 0x40)]

/-- The digits of two bytes at the end. -/
def groupOfTwo (a b : UInt8) : Text :=
  let n := (a.toNat * 0x100 + b.toNat) * 4
  [digit (n / 0x1000), digit (n / 0x40 % 0x40), digit (n % 0x40), '=']

/-- The digits of one byte at the end. -/
def groupOfOne (a : UInt8) : Text :=
  let n := a.toNat * 0x10
  [digit (n / 0x40), digit (n % 0x40), '=', '=']

/-- Adds the digits of the bytes to `done`, which is given from its end. -/
def encodeOnto (done : Text) : Bytes → Text
  | a :: b :: c :: rest => encodeOnto ((group a b c).reverse ++ done) rest
  | [a, b] => ((groupOfTwo a b).reverse ++ done).reverse
  | [a] => ((groupOfOne a).reverse ++ done).reverse
  | [] => done.reverse

/-- The digits of the bytes. -/
def encode (bytes : Bytes) : Text :=
  encodeOnto [] bytes

end Inlay.Base64
