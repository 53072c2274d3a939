import Inlay.Text.Basic

/-!
# Bytes

The contents of a file are a list of bytes, shown as two hexadecimal digits each.
-/

namespace Inlay

/-- A string of bytes. -/
abbrev Bytes := List UInt8

namespace Bytes

/-- The lower case hexadecimal digit of a number below sixteen. -/
def hexDigit (n : Nat) : Char :=
  if n < 10 then Char.ofNat ('0'.toNat + n) else Char.ofNat ('a'.toNat + (n - 10))

/-- The two hexadecimal digits of a byte. -/
def hexByte (b : UInt8) : Text :=
  [hexDigit (b.toNat / 16), hexDigit (b.toNat % 16)]

/-- The hexadecimal digits of a string of bytes. -/
def toHex (bytes : Bytes) : Text :=
  bytes.flatMap hexByte

end Bytes

end Inlay
