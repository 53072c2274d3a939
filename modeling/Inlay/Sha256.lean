import Inlay.Bytes

/-!
# SHA-256

`digest` is the definition: the bytes are padded to whole blocks of 64 and folded into eight words.
A `Hasher` takes the bytes one at a time, so it can be fed a file in chunks of any size; `chunks`
are what is read of a file at a given chunk size, and `digestByChunks` is the digest of the chunks.
-/

namespace Inlay.Sha256

/-- The eight words that are carried from block to block. -/
structure State where
  a : UInt32
  b : UInt32
  c : UInt32
  d : UInt32
  e : UInt32
  f : UInt32
  g : UInt32
  h : UInt32
deriving DecidableEq

/-- The words before the first block. -/
def State.initial : State :=
  ⟨0x6A09E667, 0xBB67AE85, 0x3C6EF372, 0xA54FF53A, 0x510E527F, 0x9B05688C, 0x1F83D9AB, 0x5BE0CD19⟩

/-- The words of two states added one by one. -/
def State.add (s t : State) : State :=
  ⟨s.a + t.a, s.b + t.b, s.c + t.c, s.d + t.d, s.e + t.e, s.f + t.f, s.g + t.g, s.h + t.h⟩

/-- The constants of the sixty-four rounds. -/
def roundConstants : List UInt32 :=
  [0x428A2F98, 0x71374491, 0xB5C0FBCF, 0xE9B5DBA5, 0x3956C25B, 0x59F111F1, 0x923F82A4, 0xAB1C5ED5,
   0xD807AA98, 0x12835B01, 0x243185BE, 0x550C7DC3, 0x72BE5D74, 0x80DEB1FE, 0x9BDC06A7, 0xC19BF174,
   0xE49B69C1, 0xEFBE4786, 0x0FC19DC6, 0x240CA1CC, 0x2DE92C6F, 0x4A7484AA, 0x5CB0A9DC, 0x76F988DA,
   0x983E5152, 0xA831C66D, 0xB00327C8, 0xBF597FC7, 0xC6E00BF3, 0xD5A79147, 0x06CA6351, 0x14292967,
   0x27B70A85, 0x2E1B2138, 0x4D2C6DFC, 0x53380D13, 0x650A7354, 0x766A0ABB, 0x81C2C92E, 0x92722C85,
   0xA2BFE8A1, 0xA81A664B, 0xC24B8B70, 0xC76C51A3, 0xD192E819, 0xD6990624, 0xF40E3585, 0x106AA070,
   0x19A4C116, 0x1E376C08, 0x2748774C, 0x34B0BCB5, 0x391C0CB3, 0x4ED8AA4A, 0x5B9CCA4F, 0x682E6FF3,
   0x748F82EE, 0x78A5636F, 0x84C87814, 0x8CC70208, 0x90BEFFFA, 0xA4506CEB, 0xBEF9A3F7, 0xC67178F2]

/-- A word turned to the right. -/
def rotate (x : UInt32) (n : UInt32) : UInt32 :=
  (x >>> n) ||| (x <<< (32 - n))

/-! ### One block -/

/-- The words of a block, four bytes each, the highest first. -/
def words : Bytes → List UInt32
  | a :: b :: c :: d :: rest =>
    ((a.toUInt32 <<< 24) ||| (b.toUInt32 <<< 16) ||| (c.toUInt32 <<< 8) ||| d.toUInt32) :: words rest
  | _ => []

/-- The word that follows the words of the schedule so far, the last of which comes first. -/
def nextWord (recent : List UInt32) : UInt32 :=
  let x := recent.getD 14 0
  let y := recent.getD 1 0
  recent.getD 15 0 + (rotate x 7 ^^^ rotate x 18 ^^^ (x >>> 3)) + recent.getD 6 0
    + (rotate y 17 ^^^ rotate y 19 ^^^ (y >>> 10))

/-- The words of the schedule so far and the `n` words that follow, the last one first. -/
def extend : (n : Nat) → (recent : List UInt32) → List UInt32
  | 0, recent => recent
  | n + 1, recent => extend n (nextWord recent :: recent)

/-- The words of the sixty-four rounds: those of the block, and the words that follow them. -/
def schedule (block : Bytes) : List UInt32 :=
  (extend 48 (words block).reverse).reverse

/-- One round, with its constant and its word of the schedule. -/
def round (s : State) (constant word : UInt32) : State :=
  let chosen := (s.e &&& s.f) ^^^ (~~~s.e &&& s.g)
  let majority := (s.a &&& s.b) ^^^ (s.a &&& s.c) ^^^ (s.b &&& s.c)
  let t := s.h + (rotate s.e 6 ^^^ rotate s.e 11 ^^^ rotate s.e 25) + chosen + constant + word
  let u := (rotate s.a 2 ^^^ rotate s.a 13 ^^^ rotate s.a 22) + majority
  ⟨t + u, s.a, s.b, s.c, s.d + t, s.e, s.f, s.g⟩

/-- The rounds, with their constants and words. -/
def rounds (s : State) : List UInt32 → List UInt32 → State
  | constant :: constants, word :: words => rounds (round s constant word) constants words
  | _, _ => s

/-- Folds a block into the state. -/
def compress (s : State) (block : Bytes) : State :=
  s.add (rounds s roundConstants (schedule block))

/-! ### The digest -/

/-- The `n` lowest bytes of a number, the highest first. -/
def bigEndian : (n : Nat) → Nat → Bytes
  | 0, _ => []
  | n + 1, value => bigEndian n (value / 0x100) ++ [(value % 0x100).toUInt8]

/-- What fills up a message of `n` bytes to whole blocks: a one bit, zeros, and the number of bits
in eight bytes. -/
def padding (n : Nat) : Bytes :=
  0x80 :: (List.replicate ((119 - n % 64) % 64) 0 ++ bigEndian 8 (8 * n))

/-- The blocks of 64 bytes; a rest that fills no block is left out. -/
def blocks (bytes : Bytes) : List Bytes :=
  if 64 ≤ bytes.length then
    bytes.take 64 :: blocks (bytes.drop 64)
  else
    []
termination_by bytes.length
decreasing_by simp; omega

/-- The bytes of a word. -/
def wordBytes (x : UInt32) : Bytes :=
  bigEndian 4 x.toNat

/-- The bytes of a state. -/
def State.bytes (s : State) : Bytes :=
  [s.a, s.b, s.c, s.d, s.e, s.f, s.g, s.h].flatMap wordBytes

/-- The digest of a message. -/
def digest (bytes : Bytes) : Bytes :=
  ((blocks (bytes ++ padding bytes.length)).foldl compress State.initial).bytes

/-! ### Taking the bytes one at a time -/

/-- A digest in the making: the state after the whole blocks, the bytes since then, the last one
first, and the number of bytes in all. -/
structure Hasher where
  state : State
  pending : Bytes
  length : Nat

/-- Before the first byte. -/
def Hasher.empty : Hasher :=
  ⟨State.initial, [], 0⟩

/-- Takes a byte; the last byte of a block folds the block into the state. -/
def Hasher.feed (h : Hasher) (b : UInt8) : Hasher :=
  if (h.length + 1) % 64 = 0 then
    ⟨compress h.state (b :: h.pending).reverse, [], h.length + 1⟩
  else
    ⟨h.state, b :: h.pending, h.length + 1⟩

/-- Takes bytes in order. -/
def Hasher.update (h : Hasher) (bytes : Bytes) : Hasher :=
  bytes.foldl Hasher.feed h

/-- The digest of all that was taken. -/
def Hasher.finish (h : Hasher) : Bytes :=
  (h.update (padding h.length)).state.bytes

/-! ### Chunks -/

/-- How much of a file is read at a time: all that is left, or at most a number of bytes. -/
inductive ChunkSize where
  | all
  | atMost (n : Nat)

/-- Reads one chunk; what is left comes second. -/
def ChunkSize.read : ChunkSize → Bytes → Bytes × Bytes
  | .all, bytes => (bytes, [])
  | .atMost n, bytes => (bytes.take n, bytes.drop n)

theorem ChunkSize.length_read_snd_lt
    {size : ChunkSize} {bytes : Bytes} (h : (size.read bytes).1 ≠ []) :
  (size.read bytes).2.length < bytes.length
  := by
  cases size with
  | all =>
    have : bytes ≠ [] := h
    simpa [ChunkSize.read] using List.length_pos_iff.2 this
  | atMost n =>
    simp only [ChunkSize.read, ne_eq, List.take_eq_nil_iff, not_or] at h
    have := List.length_pos_iff.2 h.2
    simp only [ChunkSize.read, List.length_drop]
    omega

/-- Adds the chunks of a file up to the first empty one to `done`, the last one first. -/
def chunksOnto (size : ChunkSize) (done : List Bytes) (bytes : Bytes) : List Bytes :=
  if (size.read bytes).1 = [] then
    done.reverse
  else
    chunksOnto size ((size.read bytes).1 :: done) (size.read bytes).2
termination_by bytes.length
decreasing_by exact ChunkSize.length_read_snd_lt (by assumption)

/-- The chunks of a file up to the first empty one. -/
def chunks (size : ChunkSize) (bytes : Bytes) : List Bytes :=
  chunksOnto size [] bytes

/-- The digest of a file that is read in chunks. -/
def digestByChunks (size : ChunkSize) (bytes : Bytes) : Bytes :=
  ((chunks size bytes).foldl Hasher.update Hasher.empty).finish

/-- The chunk size when none is asked for: a mebibyte. -/
def defaultChunkSize : ChunkSize :=
  .atMost 0x100000

/-- The digest of a file in hexadecimal digits. -/
def hexDigest (bytes : Bytes) : Text :=
  Bytes.toHex (digestByChunks defaultChunkSize bytes)

end Inlay.Sha256
