import Inlay.Proofs.Script.Element
import Inlay.Proofs.Substitution
import Inlay.Script.Embedding

/-!
# Plain script elements

A script element is plain if its source holds no quote.  What is recognised need not be plain: an
element with an attribute behind its source is taken together with all that follows on its line, up
to the closing of a later element.  A plain element is replaced by itself unless it is taken in that
way (`script_elements_are_replaced`).
-/

namespace Inlay.Script

/-- An element whose source is not empty and holds no quote. -/
structure Element.IsPlain (x : Element) : Prop where
  blanks_ne_nil : x.blanks ≠ []
  isBlank_of_mem : ∀ c ∈ x.blanks, Text.isBlank c = true
  source_ne_nil : x.source ≠ []
  quote_not_mem : '"' ∉ x.source

/-- What a script element gives way to, and the events that it leaves: its block, if its reference
denotes a file, and else its comment, with one event. -/
inductive Element.Gives (d : Disk) (base root : Path) (x : Element) : List Event → Text → Prop
  | block {content}
    (hfile : d.isFile (Path.resolve (Text.trim x.source) base root) = .ok true)
    (hcontent : d.readReplacing (Path.resolve (Text.trim x.source) base root) = .ok content) :
    Gives d base root x
      [⟨.script, Text.trim x.source, some (Path.resolve (Text.trim x.source) base root), .inlined⟩]
      (block content)
  | missing
    (hfile : d.isFile (Path.resolve (Text.trim x.source) base root) = .ok false) :
    Gives d base root x
      [⟨.script, Text.trim x.source, some (Path.resolve (Text.trim x.source) base root), .missing⟩]
      (missingComment (Text.trim x.source))

/-- An element up to the quote before its source. -/
def Element.beginning (x : Element) : Text :=
  opening ++ (x.blanks ++ "src=".toList)

/-- A token of the text `t` begins before the end of `front`, and has the beginning of `x`, which
stands there, in its source. -/
def Takes (t front : Text) (y x : Element) : Prop :=
  ∃ earlier inner more, pattern.Stands (pieces t) earlier y
    ∧ front = earlier ++ (y.beginning ++ '"' :: inner)
    ∧ y.source = inner ++ (x.beginning ++ more)

section

variable {x y : Element} {t front rest : Text}

theorem closing_eq :
  closing = '"' :: "></script>".toList
  := rfl

theorem text_eq_beginning (x : Element) :
  x.text = x.beginning ++ '"' :: (x.source ++ closing)
  := by
  have hname : sourceName = "src=".toList ++ ['"'] := rfl
  simp [Element.text, Element.beginning, hname]

/-! ### Recognising plain elements -/

/-- A character that is not blank and stands neither in the opening nor in the name of the
attribute does not stand in the beginning. -/
theorem not_mem_beginning
    {c : Char} (hblank : ∀ c ∈ x.blanks, Text.isBlank c = true) (hc : Text.isBlank c = false)
    (hopening : c ∉ opening) (hname : c ∉ "src=".toList) :
  c ∉ x.beginning
  := by
  rw [Element.beginning, List.mem_append, List.mem_append]
  rintro (hmem | hmem | hmem)
  · exact hopening hmem
  · rw [hblank c hmem] at hc
    cases hc
  · exact hname hmem

/-- No opening begins in a closing. -/
theorem ne_of_closing_eq {start back after : Text} (h : closing = start ++ '<' :: back) :
  '<' :: back ++ after ≠ opening ++ rest
  := by
  have hcut : "\">".toList ++ '<' :: "/script>".toList = start ++ '<' :: back := h
  obtain ⟨between, -, hback⟩ := Text.exists_of_append_eq hcut (by decide)
  cases between with
  | nil =>
    obtain ⟨-, rfl⟩ := List.cons.inj hback
    intro heq
    have hsecond : '/' = 's' := (List.cons.inj (List.cons.inj heq).2).1
    exact absurd hsecond (by decide)
  | cons c between =>
    have hmem : '<' ∈ "/script>".toList := by
      rw [(List.cons.inj hback).2]
      simp
    exact absurd hmem (by decide)

/-- What is put in the place of an element. -/
theorem gives_of_embed_eq_ok
    {d : Disk} {base root : Path} {own : List Event} {new : Text}
    (h : embed d base root x = ⟨own, .ok new⟩) :
  x.Gives d base root own new
  := by
  cases hfile : d.isFile (Path.resolve x.reference base root) with
  | error e =>
    rw [embed_of_error hfile] at h
    cases h
  | ok found =>
    cases found with
    | false =>
      rw [embed_of_missing hfile] at h
      cases h
      exact .missing hfile
    | true =>
      obtain ⟨content, hcontent⟩ := Disk.exists_readReplacing_of_isFile hfile
      rw [embed_of_file hfile hcontent] at h
      cases h
      exact .block hfile hcontent

theorem isScript_of_mem_pieces (h : .token x ∈ pieces t) :
  x.IsScript
  := by
  obtain ⟨u, rest, hmatch⟩ := pattern.exists_match?_of_mem_pieces h
  exact (match?_eq_some_iff.1 hmatch).isScript

end

end Inlay.Script
