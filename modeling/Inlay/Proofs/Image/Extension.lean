import Inlay.Proofs.Image.Embedding

/-!
# Media types and extensions

An image element is recognised by the extension of its source, whose letters count without regard to
case, and its media type is that of the suffix of its reference in lower case.  The two agree exactly
if there is a name ahead of the extension and the extension is spelled in ASCII
(`mediaType_agrees_iff`).  A name that is nothing but a dot and an extension has no suffix
(`bareName_has_no_mediaType`), and the letters beyond ASCII that are taken for an i or an s stay
beyond ASCII in lower case.
-/

namespace Inlay

/-! ### Letters in lower case -/

namespace Text

variable {c : Char} {t : Text}

/-- Whether a text is spelled in ASCII. -/
def isAscii (t : Text) : Bool :=
  t.all (·.toNat < 0x80)

/-- In a text without capital sigmas every character has a lower case of its own. -/
theorem lowerOnto_eq (h : 'Σ' ∉ t) (done before : Text) :
  lowerOnto done before t = done.reverse ++ t.flatMap fun c => lowerBetween [] c []
  := by
  induction t generalizing done before with
  | nil => simp [lowerOnto]
  | cons c cs ih =>
    rw [List.mem_cons, not_or] at h
    rw [lowerOnto, ih h.2, lowerBetween_eq (Ne.symm h.1)]
    simp

/-- What folds to a small letter has that letter as its lower case if it is of ASCII, and otherwise
stays beyond ASCII. -/
theorem lowerBetween_of_isSmall (h : isSmall (foldLetter c) = true) :
  c ≠ 'Σ' ∧ isAscii (lowerBetween [] c []) = isAscii [c]
    ∧ (isAscii [c] = true → lowerBetween [] c [] = [foldLetter c])
  := by
  exact of_isSmall_foldLetter
    (P := fun c => c ≠ 'Σ' ∧ isAscii (lowerBetween [] c []) = isAscii [c]
      ∧ (isAscii [c] = true → lowerBetween [] c [] = [foldLetter c]))
    (by decide +kernel) h

theorem lower_of_isSmall (h : ∀ c ∈ t, isSmall (foldLetter c) = true) :
  lower t = t.flatMap fun c => lowerBetween [] c []
  := by
  have hsigma : 'Σ' ∉ t := fun hmem => (lowerBetween_of_isSmall (h _ hmem)).1 rfl
  exact lowerOnto_eq hsigma [] []

theorem isAscii_append (t u : Text) :
  isAscii (t ++ u) = (isAscii t && isAscii u)
  := List.all_append

theorem isAscii_of_mem (h : isAscii t = true) (hc : c ∈ t) :
  isAscii [c] = true
  := by
  rw [isAscii, List.all_eq_true] at h ⊢
  simpa using h c hc

/-- The lower case of letters of ASCII is what they fold to. -/
theorem lower_of_isAscii
    (h : ∀ c ∈ t, isSmall (foldLetter c) = true) (hascii : isAscii t = true) :
  lower t = t.map foldLetter
  := by
  rw [lower_of_isSmall h, List.map_eq_flatMap]
  apply List.flatMap_congr
  intro c hc
  obtain ⟨-, -, hletter⟩ := lowerBetween_of_isSmall (h c hc)
  exact hletter (isAscii_of_mem hascii hc)

/-- Letters are spelled in ASCII just if they are in lower case. -/
theorem isAscii_lower (h : ∀ c ∈ t, isSmall (foldLetter c) = true) :
  isAscii (lower t) = isAscii t
  := by
  rw [lower_of_isSmall h]
  induction t with
  | nil => rfl
  | cons c cs ih =>
    obtain ⟨-, hascii, -⟩ := lowerBetween_of_isSmall (h c List.mem_cons_self)
    rw [List.flatMap_cons, isAscii_append, hascii, ih fun d hd => h d (List.mem_cons_of_mem c hd),
      ← isAscii_append, List.singleton_append]

end Text

/-! ### Media types -/

namespace Image

variable {t extension : Text} {x : Element}

/-- The media type that an extension stands for. -/
def typeFor (extension : Text) : Text :=
  if extension = "svg".toList then "image/svg+xml".toList else "image/".toList ++ extension

/-- The name of the image is nothing but a dot and the extension. -/
def Element.HasBareName (x : Element) : Prop :=
  Path.namePart x.reference = '.' :: x.extension

/-- The media types of the extensions are spelled in ASCII, and name more than an image. -/
theorem typeFor_of_mem (h : extension ∈ extensions) :
  typeFor extension ≠ "image/".toList ∧ Text.isAscii (typeFor extension) = true
  := by
  have hall : ∀ extension ∈ extensions,
      typeFor extension ≠ "image/".toList ∧ Text.isAscii (typeFor extension) = true := by decide
  exact hall extension h

/-- A media type is spelled in ASCII just if the extension is. -/
theorem isAscii_typeFor (extension : Text) :
  Text.isAscii (typeFor extension) = Text.isAscii extension
  := by
  rw [typeFor]
  split
  case isTrue h =>
    rw [h]
    decide
  case isFalse =>
    rw [Text.isAscii_append, show Text.isAscii "image/".toList = true by decide, Bool.true_and]

/-- A name that is nothing but an extension has no suffix to tell the media type by. -/
theorem mediaType_of_bareName (h : endsInExtension x.source = true) (hbare : x.HasBareName) :
  mediaType x.reference = "image/".toList
  := by
  have hsuffix : (Path.ofText x.reference).suffix = [] := by
    rw [Element.suffix_reference h]
    exact if_pos hbare
  rw [mediaType, hsuffix]
  rfl

/-- The media type is that of the extension in lower case, if there is a name ahead of it. -/
theorem mediaType_of_name (h : endsInExtension x.source = true) (hname : ¬ x.HasBareName) :
  mediaType x.reference = typeFor (Text.lower x.extension)
  := by
  have hsuffix : (Path.ofText x.reference).suffix = '.' :: x.extension := by
    rw [Element.suffix_reference h]
    exact if_neg hname
  rw [mediaType, hsuffix]
  rfl

/-- Every image element that stands in a text ends its source in an extension, in any case of its
letters.  Its media type is that of the extension if the name of the image does not consist of the
extension alone and the extension is spelled in ASCII, and only then: a name that consists of it has
no media type, and any other has that of the extension in lower case. -/
theorem mediaType_agrees_iff (h : .token x ∈ pieces t) :
  '.' :: x.extension <:+ x.source ∧ x.extension.map Text.foldLetter ∈ extensions
    ∧ (x.HasBareName → mediaType x.reference = "image/".toList)
    ∧ (¬ x.HasBareName → mediaType x.reference = typeFor (Text.lower x.extension))
    ∧ (mediaType x.reference = typeFor (x.extension.map Text.foldLetter)
      ↔ ¬ x.HasBareName ∧ Text.isAscii x.extension = true)
  := by
  have hends := (isImage_of_mem_pieces h).endsInExtension_eq
  obtain ⟨front, hsource, -, hext⟩ := Element.exists_source_eq hends
  obtain ⟨-, hsmall⟩ := small_of_extension hext
  obtain ⟨hmore, hascii⟩ := typeFor_of_mem hext
  refine ⟨⟨front, hsource.symm⟩, hext, mediaType_of_bareName hends, mediaType_of_name hends, ?_⟩
  constructor
  · intro hagrees
    have hname : ¬ x.HasBareName := by
      intro hbare
      rw [mediaType_of_bareName hends hbare] at hagrees
      exact hmore hagrees.symm
    use hname
    rw [← hagrees, mediaType_of_name hends hname] at hascii
    rwa [isAscii_typeFor, Text.isAscii_lower hsmall] at hascii
  · rintro ⟨hname, hletters⟩
    rw [mediaType_of_name hends hname, Text.lower_of_isAscii hsmall hletters]

/-- An image with a dot in its directory and an extension in capitals. -/
def capitalImage : Element :=
  ⟨"<img src=\"".toList, " a.b/Logo.SvG".toList, []⟩

/-- Its media type is that of the extension. -/
theorem capitalImage_has_mediaType :
  .token capitalImage ∈ pieces capitalImage.text ∧ ¬ capitalImage.HasBareName
    ∧ mediaType capitalImage.reference = typeFor "svg".toList
  := by
  have hmem : .token capitalImage ∈ pieces capitalImage.text := by decide +kernel
  have hname : ¬ capitalImage.HasBareName := by
    rw [Element.HasBareName]
    decide +kernel
  have hfolded : capitalImage.extension.map Text.foldLetter = "svg".toList := by decide +kernel
  obtain ⟨-, -, -, -, hagrees⟩ := mediaType_agrees_iff hmem
  rw [hfolded] at hagrees
  exact ⟨hmem, hname, hagrees.2 ⟨hname, by decide +kernel⟩⟩

/-- An image whose name is a dot and an extension. -/
def bareImage : Element :=
  ⟨"<img src=\"".toList, "/.png".toList, []⟩

/-- A disk with that image and nothing else. -/
def bareDisk : Disk :=
  (Disk.empty []).add (Path.ofText "/.png".toList) (.file (Utf8.encode "a".toList))

/-- The image is embedded, and its data URI names no kind of image. -/
theorem bareName_has_no_mediaType :
  .token bareImage ∈ pieces bareImage.text ∧ bareImage.extension = "png".toList
    ∧ mediaType bareImage.reference ≠ typeFor "png".toList
    ∧ embedAll bareDisk ⟨.root, []⟩ ⟨.root, []⟩ bareImage.text
      = ⟨[⟨.image, "/.png".toList, some (Path.ofText "/.png".toList), .inlined⟩],
          .ok "<img src=\"data:image/;base64,YQ==\">".toList⟩
  := by
  refine ⟨by decide +kernel, by decide +kernel, by decide +kernel, ?_⟩
  have hevents : (embedAll bareDisk ⟨.root, []⟩ ⟨.root, []⟩ bareImage.text).events
      = [⟨.image, "/.png".toList, some (Path.ofText "/.png".toList), .inlined⟩] := by
    decide +kernel
  have houtcome : (embedAll bareDisk ⟨.root, []⟩ ⟨.root, []⟩ bareImage.text).outcome
      = .ok "<img src=\"data:image/;base64,YQ==\">".toList := by
    decide +kernel
  rw [← hevents, ← houtcome]

end Image

end Inlay
