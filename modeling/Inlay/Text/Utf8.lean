import Inlay.Bytes

/-!
# UTF-8

`encode` writes a text as bytes.  Reading runs over the bytes one at a time and cuts them into
items: characters, and faults, each of which is a maximal part that begins a character and does
not complete it.  `decode` reads a text from the items; what it does with a fault is the caller's
choice.
-/

namespace Inlay.Utf8

/-- The bytes of a character. -/
def encodeChar (c : Char) : Bytes :=
  let n := c.toNat
  if n < 0x80 then [n.toUInt8]
  else if n < 0x800 then [(0xC0 + n / 0x40).toUInt8, (0x80 + n % 0x40).toUInt8]
  else if n < 0x10000 then
    [(0xE0 + n / 0x1000).toUInt8, (0x80 + n / 0x40 % 0x40).toUInt8, (0x80 + n % 0x40).toUInt8]
  else
    [(0xF0 + n / 0x40000).toUInt8, (0x80 + n / 0x1000 % 0x40).toUInt8,
      (0x80 + n / 0x40 % 0x40).toUInt8, (0x80 + n % 0x40).toUInt8]

/-- The bytes of a text. -/
def encode (t : Text) : Bytes :=
  t.flatMap encodeChar

/-- The number of bytes of a text. -/
def size (t : Text) : Nat :=
  t.foldl (fun n c => n + (encodeChar c).length) 0

/-! ### Items -/

/-- Why bytes are no character. -/
inductive Reason where
  /-- The byte begins no character. -/
  | invalidStart
  /-- The byte that follows does not continue the character. -/
  | invalidContinuation
  /-- The bytes end before the character does. -/
  | unexpectedEnd
deriving DecidableEq, Repr

/-- A part of the bytes: a character, or bytes that are none, the first of them and their number. -/
inductive Item where
  | char (c : Char)
  | fault (reason : Reason) (first : UInt8) (length : Nat)
deriving DecidableEq, Repr

/-- Where reading stands. -/
inductive State where
  /-- Between characters. -/
  | between
  /-- Within the character that began with `first`: `seen` bytes gave `value`, `owed` more follow,
  and the next one lies between `low` and `high`. -/
  | within (first : UInt8) (value low high owed seen : Nat)
deriving DecidableEq, Repr

/-- Reads a byte that stands between characters. -/
def start (b : UInt8) : State × List Item :=
  let n := b.toNat
  if n < 0x80 then (.between, [.char (Char.ofNat n)])
  else if n < 0xC2 then (.between, [.fault .invalidStart b 1])
  else if n < 0xE0 then (.within b (n - 0xC0) 0x80 0xBF 1 1, [])
  else if n = 0xE0 then (.within b 0 0xA0 0xBF 2 1, [])
  else if n = 0xED then (.within b 0xD 0x80 0x9F 2 1, [])
  else if n < 0xF0 then (.within b (n - 0xE0) 0x80 0xBF 2 1, [])
  else if n = 0xF0 then (.within b 0 0x90 0xBF 3 1, [])
  else if n < 0xF4 then (.within b (n - 0xF0) 0x80 0xBF 3 1, [])
  else if n = 0xF4 then (.within b 4 0x80 0x8F 3 1, [])
  else (.between, [.fault .invalidStart b 1])

/-- Reads one byte and yields the items that it completes, in order. -/
def feed : State → UInt8 → State × List Item
  | .between, b => start b
  | .within first value low high owed seen, b =>
    if low ≤ b.toNat ∧ b.toNat ≤ high then
      if owed = 1 then
        (.between, [.char (Char.ofNat (value * 0x40 + (b.toNat - 0x80)))])
      else
        (.within first (value * 0x40 + (b.toNat - 0x80)) 0x80 0xBF (owed - 1) (seen + 1), [])
    else
      let (state, items) := start b
      (state, .fault .invalidContinuation first seen :: items)

/-- The items at the end of the bytes. -/
def finish : State → List Item
  | .between => []
  | .within first _ _ _ _ seen => [.fault .unexpectedEnd first seen]

/-- Adds the items of the bytes to `done`, which holds the items so far, the last one first. -/
def itemsOnto (done : List Item) (state : State) : Bytes → List Item
  | [] => ((finish state).reverse ++ done).reverse
  | b :: bytes =>
    let (next, items) := feed state b
    itemsOnto (items.reverse ++ done) next bytes

/-- The items of the bytes. -/
def items (bytes : Bytes) : List Item :=
  itemsOnto [] .between bytes

/-! ### Reading a text -/

/-- What to do with a fault. -/
inductive FaultRule where
  /-- Refuse the bytes. -/
  | strict
  /-- Write the replacement character. -/
  | replace
  /-- Write nothing. -/
  | ignore
deriving DecidableEq, Repr

/-- The first fault of bytes that are no text: `length` bytes from `position`, the first of them
`first`. -/
structure DecodeError where
  reason : Reason
  first : UInt8
  position : Nat
  length : Nat
deriving DecidableEq, Repr

/-- The first fault among the items, the first of which stands at `position`. -/
def faultFrom : (position : Nat) → List Item → Option DecodeError
  | _, [] => none
  | position, .char c :: rest => faultFrom (position + (encodeChar c).length) rest
  | position, .fault reason first length :: _ => some ⟨reason, first, position, length⟩

/-- The characters that an item stands for. -/
def Item.text (replacement : Text) : Item → Text
  | .char c => [c]
  | .fault .. => replacement

/-- The text of the bytes. -/
def decode (rule : FaultRule) (bytes : Bytes) : Except DecodeError Text :=
  let items := items bytes
  match rule with
  | .strict =>
    match faultFrom 0 items with
    | some error => .error error
    | none => .ok (items.flatMap (Item.text []))
  | .replace => .ok (items.flatMap (Item.text ['\uFFFD']))
  | .ignore => .ok (items.flatMap (Item.text []))

/-- The text of the bytes, with the replacement character for every fault. -/
def decodeReplacing (bytes : Bytes) : Text :=
  (items bytes).flatMap (Item.text ['\uFFFD'])

/-! ### Wording -/

/-- The words for a reason. -/
def Reason.message : Reason → Text
  | .invalidStart => "invalid start byte".toList
  | .invalidContinuation => "invalid continuation byte".toList
  | .unexpectedEnd => "unexpected end of data".toList

/-- The words for a fault: the byte if it is one, else the positions of the first and the last. -/
def DecodeError.message (e : DecodeError) : Text :=
  "'utf-8' codec can't decode ".toList
    ++ (if e.length = 1 then
        "byte 0x".toList ++ Bytes.hexByte e.first ++ " in position ".toList
          ++ Text.ofNat e.position
      else
        "bytes in position ".toList ++ Text.ofNat e.position ++ ['-']
          ++ Text.ofNat (e.position + e.length - 1))
    ++ ": ".toList ++ e.reason.message

end Inlay.Utf8
