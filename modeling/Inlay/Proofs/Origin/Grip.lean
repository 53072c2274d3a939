import Inlay.Image.Element
import Inlay.Proofs.Script.Plain
import Inlay.Proofs.Text.Apart

/-!
# What an event takes hold of

The passes for scripts and images find their references in texts of a certain shape: the element of
a script, the element of a missing image, or else the source of an image with its quotes.  None of
them shares a place with the block of a script that holds no quotes, if images are there and their
references hold no opening angle brackets (`apart_block_of_grips`).
-/

namespace Inlay

/-- The texts that the event of a script or an image may take hold of. -/
inductive Event.Grips : Event → Text → Prop
  | script {reference path status} {x : Script.Element} (hx : x.IsScript) :
    Grips ⟨.script, reference, path, status⟩ x.text
  | element {reference path} {x : Image.Element} :
    Grips ⟨.image, reference, path, .missing⟩ x.text
  | source {path status} {x : Image.Element} :
    Grips ⟨.image, x.reference, path, status⟩ ('"' :: (x.source ++ ['"']))

namespace Script

variable {x : Element} {content : Text}

theorem block_eq_opening (content : Text) :
  block content = opening ++ (">\n".toList ++ (content ++ "\n</script>".toList))
  := by
  have hopening : "<script>\n".toList = opening ++ ">\n".toList := by decide
  calc block content
    _ = "<script>\n".toList ++ (content ++ "\n</script>".toList) := List.append_assoc ..
    _ = opening ++ ">\n".toList ++ (content ++ "\n</script>".toList) := congrArg (· ++ _) hopening
    _ = _ := List.append_assoc ..

theorem block_eq_cons (content : Text) :
  ∃ t, block content = '<' :: t
  := by
  have hopening : opening = '<' :: "script".toList := by decide
  rw [block_eq_opening, hopening, List.cons_append]
  exact ⟨_, rfl⟩

theorem block_eq_concat (content : Text) :
  ∃ t, block content = t ++ ['>']
  := by
  have hclosing : "\n</script>".toList = "\n</script".toList ++ ['>'] := by decide
  use "<script>\n".toList ++ content ++ "\n</script".toList
  calc block content
    _ = "<script>\n".toList ++ content ++ ("\n</script".toList ++ ['>']) :=
      congrArg (_ ++ ·) hclosing
    _ = _ := (List.append_assoc ..).symm

theorem quote_not_mem_block (hquote : '"' ∉ content) :
  '"' ∉ block content
  := by
  intro hmem
  rcases List.mem_append.1 hmem with hmem | hmem
  · rcases List.mem_append.1 hmem with hmem | hmem
    · exact absurd hmem (by decide)
    · exact hquote hmem
  · exact absurd hmem (by decide)

/-- No line feed follows an angle bracket in a script element: blanks follow the opening, and the
source is within its line. -/
theorem not_infix_text (hx : x.IsScript) :
  ¬ ">\n".toList <:+: x.text
  := by
  rintro ⟨before, behind, h⟩
  have hcut : x.beginning ++ '"' :: (x.source ++ closing)
      = before ++ '>' :: ('\n' :: behind) := by
    rw [← text_eq_beginning, ← h]
    simp
  obtain ⟨between, -, hbehind⟩ := Text.exists_of_append_eq hcut
    (not_mem_beginning hx.isBlank_of_mem (by decide) (by decide) (by decide))
  have hmem : '\n' ∈ '"' :: (x.source ++ closing) := by
    rw [hbehind]
    simp
  rw [List.mem_cons, List.mem_append] at hmem
  rcases hmem with hmem | hmem | hmem
  · exact absurd hmem (by decide)
  · exact hx.newline_not_mem hmem
  · exact absurd hmem (by decide)

/-- A script element is apart from a block without quotes. -/
theorem apart_text_block (hx : x.IsScript) (hquote : '"' ∉ content) :
  Apart x.text (block content)
  := by
  have hblock := quote_not_mem_block hquote
  constructor
  · intro hwithin
    apply hblock
    apply hwithin.subset
    rw [text_eq_beginning]
    simp
  · intro hwithin
    apply not_infix_text hx
    apply List.IsInfix.trans _ hwithin
    exact ⟨opening, content ++ "\n</script>".toList, by rw [block_eq_opening, List.append_assoc]⟩
  · intro shared hne hends hbegins
    -- An end without a quote lies within the closing, and no opening begins there.
    have hshared : '"' ∉ shared := fun hmem => hblock (hbegins.subset hmem)
    obtain ⟨before, hbefore⟩ := hends
    have hcut : x.beginning ++ '"' :: x.source ++ '"' :: "></script>".toList
        = before ++ shared := by
      rw [hbefore, text_eq_beginning, closing_eq, List.append_assoc, List.cons_append]
    obtain ⟨start, -, hclosing⟩ := Text.exists_of_append_cons_eq hcut hshared
    obtain ⟨c, shared, rfl⟩ := List.exists_cons_of_ne_nil hne
    obtain ⟨rest, hrest⟩ := hbegins
    rw [block_eq_opening] at hrest
    obtain rfl : c = '<' := (List.cons.inj hrest).1
    have hstart : closing = ('"' :: start) ++ '<' :: shared := by
      rw [closing_eq, hclosing, List.cons_append]
    exact ne_of_closing_eq hstart hrest
  · intro shared hne hbegins hends
    obtain ⟨rest, hrest⟩ := hbegins
    have hshared : '"' ∉ shared := fun hmem => hblock (hends.subset hmem)
    rw [text_eq_beginning] at hrest
    obtain ⟨between, hbeginning, -⟩ := Text.exists_of_append_eq hrest hshared
    obtain ⟨front, hlast⟩ := block_eq_concat content
    rw [hlast] at hends
    rcases List.suffix_concat_iff.1 hends with rfl | ⟨front, rfl, -⟩
    · exact hne rfl
    · have hbracket : '>' ∉ x.beginning :=
        not_mem_beginning hx.isBlank_of_mem (by decide) (by decide) (by decide)
      apply hbracket
      rw [hbeginning]
      simp

end Script

/-- What an event takes hold of is apart from the block of a script without quotes, unless the event
is of an image that is missing, or has an opening angle bracket in its reference. -/
theorem apart_block_of_grips
    {e : Event} {t content : Text} (h : e.Grips t) (hquote : '"' ∉ content)
    (himage : e.kind = .image → e.status ≠ .missing ∧ '<' ∉ e.reference) :
  Apart t (Script.block content)
  := by
  cases h with
  | script hx => exact Script.apart_text_block hx hquote
  | element => exact absurd rfl (himage rfl).1
  | @source _ _ x =>
    apply Apart.of_not_mem_cons _ _ ⟨_, rfl⟩ (Script.block_eq_cons content)
    · exact Script.quote_not_mem_block hquote
    · intro hmem
      have hsource : '<' ∈ x.source := by simpa using hmem
      exact (himage rfl).2 (Text.mem_trim hsource (by decide))

end Inlay
