import Inlay.Schema.Check
import Inlay.Sha256
import Mathlib.Tactic.Use

/-!
# Digests

A hasher that takes the bytes one at a time ends with the digest of all of them, and so does one that
takes the chunks of a file (`digestByChunks_eq`).  A digest is shown as 64 lower case hexadecimal
digits (`matchesHex_hexDigest`).
-/

namespace Inlay.Sha256

/-! ### Blocks -/

theorem blocks_of_short {bytes : Bytes} (h : bytes.length < 64) :
  blocks bytes = []
  := by
  rw [blocks, if_neg (by omega)]

/-- A block at the front is one of the blocks. -/
theorem blocks_append_of_length {block : Bytes} (h : block.length = 64) (bytes : Bytes) :
  blocks (block ++ bytes) = block :: blocks bytes
  := by
  rw [blocks, if_pos (by simp [h]), List.take_left' h, List.drop_left' h]

/-- The blocks of whole blocks and of what follows them. -/
theorem blocks_append {front : Bytes} (h : front.length % 64 = 0) (back : Bytes) :
  blocks (front ++ back) = blocks front ++ blocks back
  := by
  induction hlength : front.length using Nat.strongRecOn generalizing front with
  | ind n ih =>
    by_cases hn : n < 64
    · have hfront : front = [] := List.length_eq_zero_iff.1 (by omega)
      have hnone : blocks [] = [] := blocks_of_short (by decide)
      rw [hfront, hnone]
      rfl
    · have hsplit : front = front.take 64 ++ front.drop 64 := (List.take_append_drop 64 front).symm
      have hblock : (front.take 64).length = 64 := by
        rw [List.length_take]
        omega
      have hrest : (front.drop 64).length = n - 64 := by
        rw [List.length_drop, hlength]
      rw [hsplit, List.append_assoc, blocks_append_of_length hblock,
        ih (n - 64) (by omega) (by omega) hrest, blocks_append_of_length hblock, List.cons_append]

/-- A single block. -/
theorem blocks_singleton {block : Bytes} (h : block.length = 64) :
  blocks block = [block]
  := by
  rw [← List.append_nil block, blocks_append_of_length h, blocks_of_short (by simp),
    List.append_nil]

/-! ### Taking the bytes one at a time -/

/-- A hasher has taken whole blocks and the bytes that follow them. -/
structure Hasher.Took (h : Hasher) (front back : Bytes) : Prop where
  whole : front.length % 64 = 0
  short : back.length < 64
  state : h.state = (blocks front).foldl compress State.initial
  pending : h.pending = back.reverse
  length : h.length = front.length + back.length

namespace Hasher

variable {h : Hasher} {front back : Bytes}

theorem took_empty :
  Hasher.empty.Took [] []
  := ⟨rfl, by decide, by rw [blocks_of_short (by decide)]; rfl, rfl, rfl⟩

/-- A byte completes a block or is one of those that follow. -/
theorem Took.feed (ht : h.Took front back) (b : UInt8) :
  ∃ front' back', (h.feed b).Took front' back' ∧ front' ++ back' = front ++ back ++ [b]
  := by
  have hwhole := ht.whole
  have hshort := ht.short
  rw [Hasher.feed]
  split
  case isTrue hfull =>
    rw [ht.length] at hfull
    have hblock : (back ++ [b]).length = 64 := by
      rw [List.length_append, List.length_singleton]
      omega
    use front ++ (back ++ [b]), []
    constructor
    · constructor
      · rw [List.length_append, hblock]
        omega
      · decide
      · rw [blocks_append ht.whole, blocks_singleton hblock, List.foldl_append, ← ht.state,
          ht.pending, List.reverse_cons, List.reverse_reverse]
        rfl
      · rfl
      · simp [ht.length, Nat.add_assoc]
    · simp
  case isFalse hfull =>
    rw [ht.length] at hfull
    use front, back ++ [b]
    constructor
    · constructor
      · exact ht.whole
      · rw [List.length_append, List.length_singleton]
        omega
      · exact ht.state
      · simp [ht.pending]
      · simp [ht.length, Nat.add_assoc]
    · simp

theorem Took.update (ht : h.Took front back) (bytes : Bytes) :
  ∃ front' back', (h.update bytes).Took front' back' ∧ front' ++ back' = front ++ back ++ bytes
  := by
  induction bytes generalizing h front back with
  | nil => exact ⟨front, back, ht, by simp⟩
  | cons b bytes ih =>
    obtain ⟨front', back', ht', heq⟩ := ht.feed b
    obtain ⟨front'', back'', ht'', heq'⟩ := ih ht'
    use front'', back'', ht''
    rw [heq', heq, List.append_assoc, List.singleton_append]

theorem length_bigEndian (n value : Nat) :
  (bigEndian n value).length = n
  := by
  induction n generalizing value with
  | zero => rfl
  | succ n ih => simp [bigEndian, ih]

/-- A message is filled up to whole blocks. -/
theorem length_append_padding (bytes : Bytes) :
  (bytes ++ padding bytes.length).length % 64 = 0
  := by
  simp only [padding, List.length_append, List.length_cons, List.length_replicate, length_bigEndian]
  omega

/-- A hasher that has taken a message ends with its digest. -/
theorem Took.finish_eq (ht : h.Took front back) :
  h.finish = digest (front ++ back)
  := by
  have hlength : h.length = (front ++ back).length := by rw [ht.length, List.length_append]
  obtain ⟨front', back', ht', heq⟩ := ht.update (padding h.length)
  rw [hlength] at heq
  -- The padding completes the last block, so nothing is pending.
  have hback : back' = [] := by
    have hmod := length_append_padding (front ++ back)
    have hwhole := ht'.whole
    have hshort := ht'.short
    rw [← heq, List.length_append] at hmod
    exact List.length_eq_zero_iff.1 (by omega)
  rw [hback, List.append_nil] at heq
  rw [finish, ht'.state, digest, heq]

end Hasher

/-! ### Chunks -/

/-- Reading a chunk loses nothing. -/
theorem ChunkSize.read_append (size : ChunkSize) (bytes : Bytes) :
  (size.read bytes).1 ++ (size.read bytes).2 = bytes
  := by
  cases size with
  | all => exact List.append_nil bytes
  | atMost n => exact List.take_append_drop n bytes

theorem flatten_chunksOnto
    {size : ChunkSize} (hsize : size ≠ .atMost 0) (done : List Bytes) (bytes : Bytes) :
  (chunksOnto size done bytes).flatten = done.reverse.flatten ++ bytes
  := by
  induction hlength : bytes.length using Nat.strongRecOn generalizing done bytes with
  | ind n ih =>
    rw [chunksOnto]
    split
    case isTrue hempty =>
      have hbytes : bytes = [] := by
        cases size with
        | all => exact hempty
        | atMost n =>
          apply (List.take_eq_nil_iff.1 hempty).resolve_left
          rintro rfl
          exact hsize rfl
      rw [hbytes, List.append_nil]
    case isFalse hne =>
      have hlt := ChunkSize.length_read_snd_lt hne
      rw [ih _ (hlength ▸ hlt) _ _ rfl, List.reverse_cons, List.flatten_append, List.append_assoc]
      simp [size.read_append]

/-- The chunks of a file are its bytes. -/
theorem flatten_chunks {size : ChunkSize} (hsize : size ≠ .atMost 0) (bytes : Bytes) :
  (chunks size bytes).flatten = bytes
  := by
  rw [chunks, flatten_chunksOnto hsize]
  rfl

/-- A file that is read in chunks has the digest of its bytes. -/
theorem digestByChunks_eq {size : ChunkSize} (hsize : size ≠ .atMost 0) (bytes : Bytes) :
  digestByChunks size bytes = digest bytes
  := by
  have hupdate : (chunks size bytes).foldl Hasher.update Hasher.empty = Hasher.empty.update bytes := by
    conv => rhs; rw [← flatten_chunks hsize bytes, Hasher.update, List.foldl_flatten]
    rfl
  obtain ⟨front, back, ht, heq⟩ := Hasher.took_empty.update bytes
  rw [digestByChunks, hupdate, ht.finish_eq, heq]
  rfl

/-- The digest of a file in hexadecimal digits is that of its bytes. -/
theorem hexDigest_eq (bytes : Bytes) :
  hexDigest bytes = Bytes.toHex (digest bytes)
  := by
  rw [hexDigest, digestByChunks_eq]
  rw [defaultChunkSize]
  simp

/-! ### Hexadecimal digits -/

theorem length_digest (bytes : Bytes) :
  (digest bytes).length = 32
  := by
  simp [digest, State.bytes, wordBytes, Hasher.length_bigEndian]

theorem isLowerHex_hexDigit {n : Nat} (h : n < 16) :
  isLowerHex (Bytes.hexDigit n) = true
  := by
  have hall : ∀ n < 16, isLowerHex (Bytes.hexDigit n) = true := by decide
  exact hall n h

theorem length_toHex (bytes : Bytes) :
  (Bytes.toHex bytes).length = 2 * bytes.length
  := by
  induction bytes with
  | nil => rfl
  | cons b bytes ih =>
    rw [Bytes.toHex, List.flatMap_cons, List.length_append, ← Bytes.toHex, ih, Bytes.hexByte,
      List.length_cons]
    simp
    omega

theorem isLowerHex_of_mem_toHex {bytes : Bytes} {c : Char} (h : c ∈ Bytes.toHex bytes) :
  isLowerHex c = true
  := by
  obtain ⟨b, -, hc⟩ := List.mem_flatMap.1 h
  have hb := b.toNat_lt
  rcases List.mem_cons.1 hc with rfl | hc
  · exact isLowerHex_hexDigit (by omega)
  · rcases List.mem_singleton.1 hc with rfl
    exact isLowerHex_hexDigit (by omega)

/-- A digest is shown as it is asked for. -/
theorem matchesHex_hexDigest (bytes : Bytes) :
  matchesHex 64 (hexDigest bytes) = true
  := by
  have hlength : (hexDigest bytes).length = 64 := by
    rw [hexDigest_eq, length_toHex, length_digest]
  have hall : (hexDigest bytes).all isLowerHex = true := by
    rw [hexDigest_eq, List.all_eq_true]
    intro c hc
    exact isLowerHex_of_mem_toHex hc
  simp [matchesHex, ← hlength, hall]

end Inlay.Sha256
