import Inlay.Bytes
import Inlay.Text.Printable

/-!
# Quoted text

How a text is shown within a message.  It stands between single quotes, or between double quotes
when it holds a single quote and no double one.  The quote that encloses it, the backslash and the
characters that do not show as themselves are escaped.
-/

namespace Inlay.Text

/-- The quote that encloses a text. -/
def enclosingQuote (t : Text) : Char :=
  if t.contains '\x27' && !t.contains '"' then '"' else '\x27'

/-- The lower case hexadecimal digits of a number, filled with zeros to a width. -/
def hexPadded : (width : Nat) → Nat → Text
  | 0, _ => []
  | width + 1, n => hexPadded width (n / 16) ++ [Bytes.hexDigit (n % 16)]

/-- A character between quotes. -/
def quoteChar (quote c : Char) : Text :=
  if c = quote ∨ c = '\\' then ['\\', c]
  else if c = '\n' then ['\\', 'n']
  else if c = '\r' then ['\\', 'r']
  else if c = '\t' then ['\\', 't']
  else if isPrintable c then [c]
  else if c.toNat < 0x100 then '\\' :: 'x' :: hexPadded 2 c.toNat
  else if c.toNat < 0x10000 then '\\' :: 'u' :: hexPadded 4 c.toNat
  else '\\' :: 'U' :: hexPadded 8 c.toNat

/-- A text between quotes. -/
def quoted (t : Text) : Text :=
  let quote := enclosingQuote t
  quote :: (t.flatMap (quoteChar quote) ++ [quote])

end Inlay.Text
