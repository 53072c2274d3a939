import Inlay.Disk.Digest
import Inlay.Disk.Write
import Inlay.Proofs.Schema.Meaning
import Inlay.Proofs.Sha256

/-!
# Digests of files that are read in chunks

A file is read in chunks until one is empty, and each chunk is fed to a hasher.  The loop ends, and
in one way only (`feeds_iff`).  The digest is that of all the bytes, however large the chunks are, as
long as the reader can make chunks of the size (`digest_is_that_of_all_bytes`).
-/

namespace Inlay

namespace Sha256

/-! ### The loop -/

/-- The loop that feeds a file to a hasher: with the hasher `h`, and `rest` of the file to come, it
feeds the chunks `fed` up to the first empty one, and leaves the hasher `last`. -/
inductive Feeds (size : ChunkSize) : Hasher → Bytes → List Bytes → Hasher → Prop
  /-- The chunk is empty. -/
  | stop {h rest} (hempty : (size.read rest).1 = []) : Feeds size h rest [] h
  /-- The chunk is fed, and the loop goes on. -/
  | feed {h rest fed last} (hchunk : (size.read rest).1 ≠ [])
    (hfeeds : Feeds size (h.update (size.read rest).1) (size.read rest).2 fed last) :
    Feeds size h rest ((size.read rest).1 :: fed) last

variable {size : ChunkSize} {h last : Hasher} {bytes : Bytes} {fed : List Bytes}

/-- What is fed are the chunks of the file, one after another. -/
theorem Feeds.chunksOnto_eq (hfeeds : Feeds size h bytes fed last) (done : List Bytes) :
  chunksOnto size done bytes = done.reverse ++ fed ∧ last = fed.foldl Hasher.update h
  := by
  induction hfeeds generalizing done with
  | stop hempty =>
    rw [chunksOnto, if_pos hempty, List.append_nil]
    exact ⟨rfl, rfl⟩
  | feed hchunk _ ih =>
    obtain ⟨hchunks, hlast⟩ := ih (_ :: done)
    rw [chunksOnto, if_neg hchunk, hchunks, List.reverse_cons, List.append_assoc]
    exact ⟨rfl, hlast⟩

/-- The loop ends: every chunk that is fed leaves less of the file. -/
theorem exists_feeds (size : ChunkSize) (h : Hasher) (bytes : Bytes) :
  ∃ fed last, Feeds size h bytes fed last
  := by
  induction hlength : bytes.length using Nat.strongRecOn generalizing h bytes with
  | ind n ih =>
    by_cases hempty : (size.read bytes).1 = []
    · exact ⟨[], h, .stop hempty⟩
    · have hlt := ChunkSize.length_read_snd_lt hempty
      obtain ⟨fed, last, hfeeds⟩ := ih _ (hlength ▸ hlt) (h.update (size.read bytes).1) _ rfl
      exact ⟨_, last, .feed hempty hfeeds⟩

/-- The loop feeds the chunks of the file, and nothing else. -/
theorem feeds_iff :
  Feeds size h bytes fed last ↔ fed = chunks size bytes ∧ last = fed.foldl Hasher.update h
  := by
  have hunique : ∀ {fed last}, Feeds size h bytes fed last →
      fed = chunks size bytes ∧ last = fed.foldl Hasher.update h := by
    intro fed last hfeeds
    obtain ⟨hchunks, hlast⟩ := hfeeds.chunksOnto_eq []
    exact ⟨hchunks.symm, hlast⟩
  constructor
  · exact hunique
  · rintro ⟨rfl, rfl⟩
    obtain ⟨fed, last, hfeeds⟩ := exists_feeds size h bytes
    obtain ⟨rfl, rfl⟩ := hunique hfeeds
    exact hfeeds

/-! ### Sizes of chunks -/

namespace ChunkSize

variable {fits : Nat → Bool}

/-- The reader can make chunks of a size: all at once, or of so many bytes, if there is memory for them
and they can be counted together with what is kept beside them. -/
def IsAvailable (fits : Nat → Bool) (n : Int) : Prop :=
  n = -1 ∨ ∃ k : Nat, n = k ∧ k + headBytes < 0x8000000000000000 ∧ fits k = true

/-- Which size a natural number asks for. -/
theorem ofInt_natCast (k : Nat) :
  ofInt fits k =
    if 0x8000000000000000 ≤ k then .error .noWord
    else if 0x8000000000000000 ≤ k + headBytes then .error .tooLarge
    else if fits k then .ok (.atMost k)
    else .error .noMemory
  := by
  rw [ofInt.eq_def]
  have hword : ((k : Int) < -0x8000000000000000 ∨ 0x8000000000000000 ≤ (k : Int))
      ↔ 0x8000000000000000 ≤ k := by omega
  simp only [hword]

/-- A size of which the reader can make chunks is not refused. -/
theorem IsAvailable.exists_ofInt_eq_ok
    {n : Int} (h : IsAvailable fits n) (hn : n = -1 ∨ 1 ≤ n) :
  ∃ size, ofInt fits n = .ok size ∧ size ≠ .atMost 0
  := by
  rcases h with rfl | ⟨k, rfl, hhead, hfits⟩
  · use .all, rfl
    simp
  · use .atMost k
    constructor
    · rw [ofInt_natCast, if_neg (by omega), if_neg (by omega), if_pos hfits]
    · rw [ne_eq, atMost.injEq]
      omega

/-- A size that cannot be counted together with what is kept beside the bytes is refused, whatever
memory there is. -/
theorem exists_ofInt_eq_error {n : Int} (hn : 0x8000000000000000 ≤ n + headBytes) :
  ∃ e ∈ [ChunkSizeError.noWord, .tooLarge], ofInt fits n = .error e
  := by
  obtain ⟨k, rfl⟩ := Int.eq_ofNat_of_zero_le (by simp only [headBytes] at hn; omega : 0 ≤ n)
  rw [ofInt_natCast, if_pos (by omega : 0x8000000000000000 ≤ k + headBytes)]
  split
  · exact ⟨.noWord, by simp, rfl⟩
  · exact ⟨.tooLarge, by simp, rfl⟩

end ChunkSize

/-- The loop ends and has fed the bytes of the file, and its hasher ends with their digest. -/
theorem exists_feeds_flatten_eq (hsize : size ≠ .atMost 0) (bytes : Bytes) :
  ∃ fed last, (∀ fed' last', Feeds size .empty bytes fed' last' ↔ fed' = fed ∧ last' = last)
    ∧ fed.flatten = bytes ∧ last.finish = digest bytes
  := by
  use chunks size bytes, (chunks size bytes).foldl Hasher.update Hasher.empty
  refine ⟨?_, flatten_chunks hsize bytes, digestByChunks_eq hsize bytes⟩
  intro fed' last'
  rw [feeds_iff]
  constructor
  · rintro ⟨rfl, rfl⟩
    exact ⟨rfl, rfl⟩
  · rintro ⟨rfl, rfl⟩
    exact ⟨rfl, rfl⟩

/-- A digest is shown in 64 characters. -/
theorem length_toHex_digest (bytes : Bytes) :
  (Bytes.toHex (digest bytes)).length = 64
  := by
  rw [length_toHex, length_digest]

/-- They are lower case hexadecimal digits. -/
theorem mem_of_mem_toHex {bytes : Bytes} {c : Char} (h : c ∈ Bytes.toHex bytes) :
  c ∈ "0123456789abcdef".toList
  := isLowerHex_iff.1 (isLowerHex_of_mem_toHex h)

end Sha256

open Sha256 (ChunkSize Feeds Hasher)

/-! ### The digest of a file -/

namespace Disk

variable {d : Disk} {fits : Nat → Bool} {p : Path} {bytes : Bytes} {n : Int}

theorem digestByChunks_of_ok
    {size : ChunkSize} (hread : d.read p = .ok bytes)
    (hsize : ChunkSize.ofInt fits n = .ok size) :
  d.digestByChunks fits n p = .ok (Bytes.toHex (Sha256.digestByChunks size bytes))
  := by
  simp only [digestByChunks, hread, hsize]

theorem digestByChunks_of_error
    {e : ChunkSizeError} (hread : d.read p = .ok bytes)
    (hsize : ChunkSize.ofInt fits n = .error e) :
  d.digestByChunks fits n p = .error (.chunkSize e)
  := by
  simp only [digestByChunks, hread, hsize]

/-- The digest for which no size is asked for is that of the bytes. -/
theorem digest_of_read (hread : d.read p = .ok bytes) :
  d.digest p = .ok (Bytes.toHex (Sha256.digest bytes))
  := by
  rw [digest, hread, ← Sha256.hexDigest_eq]
  rfl

/-- A file is read all at once, or in chunks of any size but zero.  If the reader can make chunks of the
size, the loop ends, in one way only; the chunks that it feeds are the bytes of the file, and the digest
is that of the bytes, whatever the size is, in 64 lower case hexadecimal digits.  A size that is no word
of the machine, or is none together with what is kept beside a chunk, is refused whatever memory there
is. -/
theorem digest_is_that_of_all_bytes (hread : d.read p = .ok bytes) (hn : n = -1 ∨ 1 ≤ n) :
  (ChunkSize.IsAvailable fits n →
      d.digestByChunks fits n p = .ok (Bytes.toHex (Sha256.digest bytes))
        ∧ ∃ size fed last, ChunkSize.ofInt fits n = .ok size
          ∧ (∀ fed' last', Feeds size .empty bytes fed' last' ↔ fed' = fed ∧ last' = last)
          ∧ fed.flatten = bytes ∧ last.finish = Sha256.digest bytes)
    ∧ (0x8000000000000000 ≤ n + ChunkSize.headBytes →
      ∃ e ∈ [ChunkSizeError.noWord, .tooLarge],
        d.digestByChunks fits n p = .error (.chunkSize e))
    ∧ d.digest p = .ok (Bytes.toHex (Sha256.digest bytes))
    ∧ (Bytes.toHex (Sha256.digest bytes)).length = 64
    ∧ ∀ c ∈ Bytes.toHex (Sha256.digest bytes), c ∈ "0123456789abcdef".toList
  := by
  refine ⟨?_, ?_, digest_of_read hread, Sha256.length_toHex_digest bytes,
    fun c => Sha256.mem_of_mem_toHex⟩
  · intro havailable
    obtain ⟨size, hsize, hne⟩ := havailable.exists_ofInt_eq_ok hn
    obtain ⟨fed, last, hfeeds, hfed, hlast⟩ := Sha256.exists_feeds_flatten_eq hne bytes
    constructor
    · rw [digestByChunks_of_ok hread hsize, Sha256.digestByChunks_eq hne]
    · exact ⟨size, fed, last, hsize, hfeeds, hfed, hlast⟩
  · intro hhead
    obtain ⟨e, hmem, he⟩ := ChunkSize.exists_ofInt_eq_error hhead
    exact ⟨e, hmem, digestByChunks_of_error hread he⟩

/-! ### A file of three bytes -/

/-- A disk with nothing but a file of three bytes. -/
def letters : Disk :=
  (Disk.empty []).add (Path.ofText "/f".toList) (.file (Utf8.encode "abc".toList))

theorem read_letters :
  letters.read (Path.ofText "/f".toList) = .ok (Utf8.encode "abc".toList)
  := by
  decide +kernel

/-- The digest of the three bytes. -/
def lettersDigest : Text :=
  "ba7816bf8f01cfea414140de5dae2223b00361a396177a9cb410ff61f20015ad".toList

theorem toHex_digest_letters :
  Bytes.toHex (Sha256.digest (Utf8.encode "abc".toList)) = lettersDigest
  := by
  decide +kernel

/-- Read two bytes at a time, where there is memory for no more, it is fed in two chunks, and has the
digest of the three bytes. -/
theorem letters_have_one_digest :
  letters.read (Path.ofText "/f".toList) = .ok (Utf8.encode "abc".toList)
    ∧ (1 : Int) ≤ 2 ∧ ChunkSize.IsAvailable (fun k => k ≤ 2) 2
    ∧ letters.digestByChunks (fun k => k ≤ 2) 2 (Path.ofText "/f".toList) = .ok lettersDigest
    ∧ ∀ fed last, Feeds (.atMost 2) .empty (Utf8.encode "abc".toList) fed last →
      fed = [[0x61, 0x62], [0x63]]
  := by
  have hn : (1 : Int) ≤ 2 := by decide
  have havailable : ChunkSize.IsAvailable (fun k => k ≤ 2) 2 := .inr ⟨2, rfl, by decide, by decide⟩
  obtain ⟨hchunks, -⟩ := digest_is_that_of_all_bytes read_letters (.inr hn)
  obtain ⟨hdigest, size, fed, last, hsize, hfeeds, -⟩ := hchunks havailable
  have hsize' : ChunkSize.ofInt (fun k => k ≤ 2) 2 = .ok (.atMost 2) := rfl
  obtain rfl : ChunkSize.atMost 2 = size := Except.ok.inj (hsize'.symm.trans hsize)
  have hfed : Feeds (.atMost 2) .empty (Utf8.encode "abc".toList) [[0x61, 0x62], [0x63]] _ :=
    .feed (by decide) (.feed (by decide) (.stop (by decide)))
  refine ⟨read_letters, hn, havailable, ?_, ?_⟩
  · rw [hdigest, toHex_digest_letters]
  · intro fed' last' hfeeds'
    rw [((hfeeds _ _).1 hfeeds').1, ((hfeeds _ _).1 hfed).1]

/-- A size that is no word of the machine is refused, although the file is there, whatever memory there
is. -/
theorem letters_have_no_digest_in_huge_chunks :
  letters.read (Path.ofText "/f".toList) = .ok (Utf8.encode "abc".toList)
    ∧ (1 : Int) ≤ 0x8000000000000000
    ∧ ∀ fits, letters.digestByChunks fits 0x8000000000000000 (Path.ofText "/f".toList)
      = .error (.chunkSize .noWord)
  := ⟨read_letters, by decide, fun _ => digestByChunks_of_error read_letters rfl⟩

end Disk

end Inlay
