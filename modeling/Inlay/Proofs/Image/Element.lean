import Inlay.Proofs.Image.Reading

/-!
# Sources of image elements

The source of an element that stands in a text ends in the extension of an image, so it holds a dot,
and its reference is not empty.
-/

namespace Inlay.Image

variable {t value : Text} {x : Element}

/-- A value that suits ends in a dot and an extension without regard to case, with something ahead
of the dot. -/
theorem endsInExtension_iff :
  endsInExtension value = true
    ↔ ∃ front ext, value = front ++ '.' :: ext ∧ front ≠ []
        ∧ ext.map Text.foldLetter ∈ extensions
  := by
  rw [endsInExtension, List.any_eq_true]
  constructor
  · rintro ⟨extension, hextension, h⟩
    split at h
    case h_1 start rest hcut =>
      obtain ⟨hvalue, hfold⟩ := Text.cutFolded?_eq_some_iff.1 hcut
      have hstart : start.reverse.map Text.foldLetter = '.' :: extension := by
        rw [List.map_reverse, hfold, List.reverse_reverse]
      obtain ⟨c, ext, heq, hc, hext⟩ := List.map_eq_cons_iff.1 hstart
      use rest.reverse, ext
      refine ⟨?_, by simpa using h, hext ▸ hextension⟩
      rw [← List.reverse_reverse value, hvalue, List.reverse_append, heq,
        Text.eq_of_foldLetter hc (by decide)]
    case h_2 => cases h
  · rintro ⟨front, ext, rfl, hne, hext⟩
    use ext.map Text.foldLetter, hext
    have hfold : ('.' :: ext.map Text.foldLetter).reverse
        = (('.' :: ext).reverse).map Text.foldLetter := by
      rw [List.map_reverse, List.map_cons]
      rfl
    rw [hfold, List.reverse_append, Text.cutFolded?_append]
    simpa using hne

/-- What ends in an extension holds a dot. -/
theorem dot_mem_of_endsInExtension (h : endsInExtension value = true) :
  '.' ∈ value
  := by
  obtain ⟨front, ext, rfl, -⟩ := endsInExtension_iff.1 h
  simp

theorem dot_mem_source_of_mem_pieces (h : .token x ∈ pieces t) :
  '.' ∈ x.source
  := dot_mem_of_endsInExtension (isImage_of_mem_pieces h).endsInExtension_eq

/-- The source of an element that names an image is not empty. -/
theorem Element.NamesImage.source_ne_nil (hx : x.NamesImage) :
  x.source ≠ []
  := List.ne_nil_of_mem (dot_mem_of_endsInExtension hx.endsInExtension_eq)

/-- The reference of an element that stands in a text is not empty. -/
theorem reference_ne_nil_of_mem_pieces (h : .token x ∈ pieces t) :
  x.reference ≠ []
  := by
  intro hnil
  have hblank := Text.trim_eq_nil_iff.1 hnil '.' (dot_mem_source_of_mem_pieces h)
  exact absurd hblank (by decide)

end Inlay.Image
