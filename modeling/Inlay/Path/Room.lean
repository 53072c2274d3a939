import Inlay.Path.Spelling
import Inlay.Text.Utf8

/-!
# The room that is left for paths

A path whose spelling fits a limit of bytes is one of finitely many.  The room of a list of paths
counts those that are not in the list; it shrinks when such a path is added.
-/

namespace Inlay

/-- The characters are finitely many. -/
theorem exists_list_of_chars :
  ∃ chars : List Char, ∀ c, c ∈ chars
  := by
  refine ⟨(List.range 0x110000).map Char.ofNat, fun c => List.mem_map.2 ⟨c.toNat, ?_, ?_⟩⟩
  · rw [List.mem_range]
    have := c.valid
    simp only [UInt32.isValidChar, Nat.isValidChar] at this
    show c.val.toNat < 0x110000
    omega
  · exact Char.ofNat_toNat c

/-- The texts of at most a number of characters are finitely many. -/
theorem exists_list_of_texts (n : Nat) :
  ∃ texts : List Text, ∀ t : Text, t.length ≤ n → t ∈ texts
  := by
  induction n with
  | zero => exact ⟨[[]], fun t h => by simp [List.length_eq_zero_iff.1 (Nat.le_zero.1 h)]⟩
  | succ n ih =>
    obtain ⟨texts, htexts⟩ := ih
    obtain ⟨chars, hchars⟩ := exists_list_of_chars
    refine ⟨[] :: chars.flatMap fun c => texts.map (c :: ·), fun t h => ?_⟩
    cases t with
    | nil => simp
    | cons c cs =>
      apply List.mem_cons_of_mem
      exact List.mem_flatMap.2
        ⟨c, hchars c, List.mem_map.2 ⟨cs, htexts cs (Nat.le_of_succ_le_succ h), rfl⟩⟩

namespace Utf8

theorem foldl_size (t : Text) (n : Nat) :
  t.foldl (fun n c => n + (encodeChar c).length) n = n + size t
  := by
  unfold size
  induction t generalizing n with
  | nil => simp
  | cons c cs ih =>
    simp only [List.foldl_cons]
    rw [ih, ih (0 + _)]
    omega

theorem size_cons (c : Char) (t : Text) :
  size (c :: t) = (encodeChar c).length + size t
  := by
  conv => lhs; unfold size
  rw [List.foldl_cons, foldl_size]
  omega

theorem encodeChar_ne_nil (c : Char) :
  encodeChar c ≠ []
  := by
  unfold encodeChar
  simp only
  split
  · simp
  · split
    · simp
    · split <;> simp

/-- A text has no more characters than bytes. -/
theorem length_le_size (t : Text) :
  t.length ≤ size t
  := by
  induction t with
  | nil => simp
  | cons c cs ih =>
    have := List.length_pos_iff.2 (encodeChar_ne_nil c)
    rw [size_cons, List.length_cons]
    omega

end Utf8

namespace Path

/-- The paths that fit a limit are finitely many. -/
theorem exists_list_of_paths (limit : Nat) :
  ∃ paths : List Path, ∀ p : Path, Utf8.size p.toText ≤ limit → p ∈ paths
  := by
  obtain ⟨texts, htexts⟩ := exists_list_of_texts limit
  refine ⟨texts.map ofText, fun p h => List.mem_map.2 ⟨p.toText, htexts _ ?_, ofText_toText p⟩⟩
  exact Nat.le_trans (Utf8.length_le_size _) h

/-- A list of all paths that fit a limit. -/
noncomputable def listing (limit : Nat) : List Path :=
  Classical.choose (exists_list_of_paths limit)

theorem mem_listing {limit : Nat} {p : Path} (h : Utf8.size p.toText ≤ limit) :
  p ∈ listing limit
  := Classical.choose_spec (exists_list_of_paths limit) p h

/-- The number of paths that fit a limit and are not in a list, as they are counted in the listing
of all of them. -/
noncomputable def room (limit : Nat) (paths : List Path) : Nat :=
  ((listing limit).filter (· ∉ paths)).length

theorem length_filter_lt_of_mem
    {α : Type} [DecidableEq α] {a : α} {all taken : List α} (ha : a ∈ all) (hnew : a ∉ taken) :
  (all.filter (· ∉ a :: taken)).length < (all.filter (· ∉ taken)).length
  := by
  have hsub : (all.filter (· ∉ a :: taken)) = (all.filter (· ∉ taken)).filter (· ≠ a) := by
    rw [List.filter_filter]
    congr 1
    funext b
    by_cases hb : b = a <;> simp [hb]
  rw [hsub]
  apply Nat.lt_of_le_of_ne (List.length_filter_le ..)
  intro heq
  have := List.length_filter_eq_length_iff.1 heq a (by simp [ha, hnew])
  simp at this

/-- A new path that fits the limit takes room. -/
theorem room_cons_lt
    {limit : Nat} {p : Path} {paths : List Path} (h : Utf8.size p.toText ≤ limit)
    (hnew : p ∉ paths) :
  room limit (p :: paths) < room limit paths
  := length_filter_lt_of_mem (mem_listing h) hnew

end Path

end Inlay
