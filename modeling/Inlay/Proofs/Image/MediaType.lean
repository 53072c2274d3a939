import Inlay.Image.Embedding
import Inlay.Proofs.Base64
import Inlay.Proofs.Image.Element
import Inlay.Proofs.Path.Composition

/-!
# Data URIs hold nothing that markup reads

The media type of an image comes from the end of its source, which is one of a few extensions
without regard to case.  So a data URI holds no quote, no `>`, no dot and no blank
(`isInert_of_mem_dataUri`), and is not the source of an image element.
-/

namespace Inlay

/-! ### Lower case -/

namespace Text

variable {c d : Char} {t before after tail : Text}

/-- Whether a character is none of those that end a value, an element or a word, and no dot. -/
def isInert (c : Char) : Bool :=
  c ≠ '"' && c ≠ '>' && c ≠ '.' && !isBlank c

/-- Only the small letter of sigma depends on what stands around it. -/
theorem lowerBetween_eq (h : c ≠ 'Σ') (before after : Text) :
  lowerBetween before c after = lowerBetween [] c []
  := by
  simp [lowerBetween, h]

theorem mem_lowerOnto {done : Text} (h : d ∈ lowerOnto done before t) :
  d ∈ done ∨ ∃ c ∈ t, ∃ before after, d ∈ lowerBetween before c after
  := by
  fun_induction lowerOnto done before t with
  | case1 => exact .inl (List.mem_reverse.1 h)
  | case2 done before c cs ih =>
    rcases ih h with hdone | ⟨c', hc', hlower⟩
    · rcases List.mem_append.1 hdone with hlower | hdone
      · exact .inr ⟨c, by simp, _, _, List.mem_reverse.1 hlower⟩
      · exact .inl hdone
    · exact .inr ⟨c', List.mem_cons_of_mem _ hc', hlower⟩

/-- The characters of a text in lower case come from those of the text. -/
theorem exists_of_mem_lower (h : d ∈ lower t) :
  ∃ c ∈ t, ∃ before after, d ∈ lowerBetween before c after
  := by
  rcases mem_lowerOnto h with hnil | hmem
  · cases hnil
  · exact hmem

/-- What folds to a small letter is among the first characters. -/
theorem toNat_lt_of_isSmall (h : isSmall (foldLetter c) = true) :
  c.toNat < 0x180
  := by
  rw [foldLetter] at h
  split at h
  case isTrue hc => exact Nat.lt_of_le_of_lt hc.2 (by decide)
  case isFalse =>
    split at h
    case isTrue hc => rcases hc with rfl | rfl <;> decide
    case isFalse =>
      split at h
      case isTrue hc =>
        subst hc
        decide
      case isFalse =>
        rw [isSmall, Bool.and_eq_true, decide_eq_true_eq, decide_eq_true_eq] at h
        exact Nat.lt_of_le_of_lt h.2 (by decide)

/-- A property of what folds to small letters, checked character by character. -/
theorem of_isSmall_foldLetter {P : Char → Prop}
    (hall : ∀ n < 0x180, isSmall (foldLetter (Char.ofNat n)) = true → P (Char.ofNat n))
    (h : isSmall (foldLetter c) = true) :
  P c
  := by
  have hletter := hall c.toNat (toNat_lt_of_isSmall h)
  rw [Char.ofNat_toNat] at hletter
  exact hletter h

/-- Letters have inert letters in lower case. -/
theorem isInert_of_mem_lower
    (hsmall : ∀ c ∈ t, isSmall (foldLetter c) = true) (h : d ∈ lower t) :
  isInert d = true
  := by
  obtain ⟨c, hc, before, after, hlower⟩ := exists_of_mem_lower h
  obtain ⟨hsigma, hinert⟩ := of_isSmall_foldLetter
    (P := fun c => c ≠ 'Σ' ∧ (lowerBetween [] c []).all isInert = true) (by decide +kernel)
    (hsmall c hc)
  rw [lowerBetween_eq hsigma] at hlower
  exact List.all_eq_true.1 hinert d hlower

end Text

/-! ### Suffixes -/

namespace Path

/-- What follows the last dot of a text, read from the end. -/
theorem takeWhile_reverse_append {ext : Text} (front : Text) (hdot : '.' ∉ ext) :
  (front ++ '.' :: ext).reverse.takeWhile (· ≠ '.') = ext.reverse
  := by
  have hreverse : (front ++ '.' :: ext).reverse = ext.reverse ++ '.' :: front.reverse := by simp
  rw [hreverse]
  apply (Text.takeWhile_and_dropWhile _ (by simp) _).1
  intro c hc
  simpa using ne_of_mem_of_not_mem (List.mem_reverse.1 hc) hdot

/-- The suffix of a name that ends in a dot and something without dots. -/
theorem suffixOf_append {ext : Text} (front : Text) (hne : ext ≠ []) (hdot : '.' ∉ ext) :
  suffixOf (front ++ '.' :: ext) = if front = [] then [] else '.' :: ext
  := by
  rw [suffixOf, takeWhile_reverse_append front hdot]
  cases front with
  | nil => simp
  | cons c front => simp [hne]; omega

/-- A text that ends in a dot and something without dots and slashes has this ending as its suffix,
unless the ending is all of its name. -/
theorem suffix_ofText {t ext : Text} (h : '.' :: ext <:+ t) (hlong : 1 < ext.length)
    (hdot : '.' ∉ ext) (hslash : '/' ∉ ext) :
  (ofText t).suffix = if namePart t = '.' :: ext then [] else '.' :: ext
  := by
  obtain ⟨front, rfl⟩ := h
  have hname : namePart (front ++ '.' :: ext) = namePart front ++ '.' :: ext :=
    namePart_append (by simpa using hslash) front
  have hlength : 2 < (namePart (front ++ '.' :: ext)).length := by
    rw [hname, List.length_append, List.length_cons]
    omega
  obtain ⟨s, hs, hsegment, -⟩ := exists_segmentsOf_eq_singleton (slash_not_mem_namePart _) hlength
  have hsuffix : (ofText (front ++ '.' :: ext)).suffix = suffixOf s.text := by
    rw [suffix, ofText, segmentsOf_eq_directory_append_name, hsegment]
    simp
  have hne : ext ≠ [] := by
    rintro rfl
    simp at hlong
  rw [hsuffix, hs, hname, suffixOf_append _ hne hdot]
  simp only [List.append_left_eq_self]

end Path

/-! ### Values that name an image -/

namespace Image

variable {x : Element}

/-- The extension of an image element: what follows the last dot of its source. -/
def Element.extension (x : Element) : Text :=
  (x.source.reverse.takeWhile (· ≠ '.')).reverse

/-- An extension is a few letters. -/
theorem small_of_extension {ext : Text} (h : ext.map Text.foldLetter ∈ extensions) :
  1 < ext.length ∧ ∀ c ∈ ext, Text.isSmall (Text.foldLetter c) = true
  := by
  have hall : ∀ extension ∈ extensions,
      1 < extension.length ∧ extension.all Text.isSmall = true := by decide
  obtain ⟨hlong, hsmall⟩ := hall _ h
  rw [List.length_map] at hlong
  exact ⟨hlong, fun c hc => List.all_eq_true.1 hsmall _ (List.mem_map_of_mem hc)⟩

theorem not_mem_of_extension {ext : Text} (h : ext.map Text.foldLetter ∈ extensions) {c : Char}
    (hc : Text.isSmall (Text.foldLetter c) = false) :
  c ∉ ext
  := by
  intro hmem
  rw [(small_of_extension h).2 c hmem] at hc
  cases hc

/-- A source that suits ends in a dot and the extension, which is that of an image without regard to
case, with something ahead of the dot. -/
theorem Element.exists_source_eq (h : endsInExtension x.source = true) :
  ∃ front, x.source = front ++ '.' :: x.extension ∧ front ≠ []
    ∧ x.extension.map Text.foldLetter ∈ extensions
  := by
  obtain ⟨front, ext, hsource, hfront, hext⟩ := endsInExtension_iff.1 h
  have heq : x.extension = ext := by
    rw [extension, hsource, Path.takeWhile_reverse_append front (not_mem_of_extension hext (by decide)),
      List.reverse_reverse]
  use front
  rw [heq]
  exact ⟨hsource, hfront, hext⟩

/-- A reference ends as the source does. -/
theorem Element.isSuffix_reference (h : endsInExtension x.source = true) :
  '.' :: x.extension <:+ x.reference
  := by
  obtain ⟨front, hsource, -, hext⟩ := exists_source_eq h
  apply Text.isSuffix_trim
  · use front
    exact hsource.symm
  · simp
  · intro c hc hblank
    rcases List.mem_cons.1 hc with rfl | hc
    · exact absurd hblank (by decide)
    · rw [Text.isBlank_eq_false_of_isSmall ((small_of_extension hext).2 c hc)] at hblank
      cases hblank

/-- The suffix of a reference is the dot and the extension, unless they are all of its name. -/
theorem Element.suffix_reference (h : endsInExtension x.source = true) :
  (Path.ofText x.reference).suffix
    = if Path.namePart x.reference = '.' :: x.extension then [] else '.' :: x.extension
  := by
  obtain ⟨-, -, -, hext⟩ := exists_source_eq h
  apply Path.suffix_ofText (isSuffix_reference h) (small_of_extension hext).1
  · exact not_mem_of_extension hext (by decide)
  · exact not_mem_of_extension hext (by decide)

/-- The suffix of a reference whose source suits is a dot and letters, or nothing. -/
theorem small_of_mem_suffix (h : endsInExtension x.source = true) :
  ∀ c ∈ (Path.ofText x.reference).suffix.drop 1, Text.isSmall (Text.foldLetter c) = true
  := by
  obtain ⟨-, -, -, hext⟩ := Element.exists_source_eq h
  rw [Element.suffix_reference h]
  split
  · simp
  · exact (small_of_extension hext).2

/-- The media type of an image holds inert characters only. -/
theorem isInert_of_mem_mediaType {c : Char} (h : endsInExtension x.source = true)
    (hc : c ∈ mediaType x.reference) :
  Text.isInert c = true
  := by
  have hwords := List.all_eq_true.1
    (show ("image/".toList ++ "image/svg+xml".toList).all Text.isInert = true by decide)
  rw [mediaType] at hc
  split at hc
  · exact hwords c (List.mem_append_right _ hc)
  · rcases List.mem_append.1 hc with hc | hc
    · exact hwords c (List.mem_append_left _ hc)
    · exact Text.isInert_of_mem_lower (small_of_mem_suffix h) hc

/-- The data URI of an image holds inert characters only. -/
theorem isInert_of_mem_dataUri {c : Char} {bytes : Bytes} (h : endsInExtension x.source = true)
    (hc : c ∈ dataUri (mediaType x.reference) bytes) :
  Text.isInert c = true
  := by
  have hwords := List.all_eq_true.1
    (show ("data:".toList ++ ";base64,".toList ++ ['=']).all Text.isInert = true by decide)
  have hdigits : ∀ n < 0x40, Text.isInert (Base64.digit n) = true := by decide
  rcases List.mem_append.1 hc with hc | hc
  · rcases List.mem_append.1 hc with hc | hc
    · rcases List.mem_append.1 hc with hc | hc
      · exact hwords c (List.mem_append_left _ (List.mem_append_left _ hc))
      · exact isInert_of_mem_mediaType h hc
    · exact hwords c (List.mem_append_left _ (List.mem_append_right _ hc))
  · rcases Base64.mem_encode hc with rfl | ⟨n, hn, rfl⟩
    · exact hwords _ (List.mem_append_right _ (by simp))
    · exact hdigits n hn

end Image

end Inlay
