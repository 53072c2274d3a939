import Inlay.Disk.Walk
import Inlay.Sha256

/-!
# Digests of files

The digest of a file is that of its bytes, however large the chunks are in which they are read.  Not
every number is a size of chunks, and whether there is memory for a chunk is told from outside.
-/

namespace Inlay

/-- Why a file cannot be read in chunks of a size. -/
inductive ChunkSizeError where
  /-- The size is below minus one. -/
  | negative
  /-- The size does not fit into a signed word of 64 bits. -/
  | noWord
  /-- No chunk of the size can be counted together with what is kept beside its bytes. -/
  | tooLarge
  /-- There is no memory for a chunk of the size. -/
  | noMemory
deriving DecidableEq, Repr

/-- The words for a size that no chunk has. -/
def ChunkSizeError.message : ChunkSizeError → Text
  | .negative => "read length must be non-negative or -1".toList
  | .noWord => "cannot fit 'int' into an index-sized integer".toList
  | .tooLarge => "byte string is too large".toList
  | .noMemory => []

/-- Why a file has no digest. -/
inductive DigestError where
  | file (e : FileError)
  | chunkSize (e : ChunkSizeError)

/-- The words for a file that has no digest. -/
def DigestError.message : DigestError → Text
  | .file e => e.message
  | .chunkSize e => e.message

namespace Sha256.ChunkSize

/-- The bytes that are kept beside those of a chunk. -/
def headBytes : Nat := 33

/-- The chunk size that a number asks for: minus one asks for all at once.  `fits` tells whether there
is memory for so many bytes. -/
def ofInt (fits : Nat → Bool) (n : Int) : Except ChunkSizeError Sha256.ChunkSize :=
  if n < -0x8000000000000000 ∨ 0x8000000000000000 ≤ n then .error .noWord
  else
    match n with
    | .negSucc 0 => .ok .all
    | .negSucc _ => .error .negative
    | .ofNat n =>
      if 0x8000000000000000 ≤ n + headBytes then .error .tooLarge
      else if fits n then .ok (.atMost n)
      else .error .noMemory

end Sha256.ChunkSize

namespace Disk

/-- The digest of the file that a path leads to, in hexadecimal digits. -/
def digest (d : Disk) (p : Path) : Except FileError Text :=
  (d.read p).map Sha256.hexDigest

/-- The digest of the file that a path leads to, read in chunks of a size. -/
def digestByChunks (d : Disk) (fits : Nat → Bool) (size : Int) (p : Path) :
    Except DigestError Text :=
  match d.read p with
  | .error e => .error (.file e)
  | .ok bytes =>
    match Sha256.ChunkSize.ofInt fits size with
    | .error e => .error (.chunkSize e)
    | .ok size => .ok (Bytes.toHex (Sha256.digestByChunks size bytes))

end Disk

end Inlay
