import Inlay.Proofs.Component.Token
import Inlay.Proofs.Text.Leftmost

/-!
# Where component tokens stand

A component token is an opening bracket, a stem of at least one character, `.comp` and a closing
bracket.  Between the brackets there is no bracket, so no token reaches into another one, and the
tokens of a text are all that can be read anywhere in it, whatever brackets and parts of tokens stand
before them (`mem_places_iff_occurs`).
-/

namespace Inlay.Component

/-- What may stand ahead of `.comp`: word characters, slashes, dots, hyphens and blanks, at least
one. -/
structure IsStem (stem : Text) : Prop where
  ne_nil : stem ≠ []
  of_mem : ∀ c ∈ stem, Text.isWord c = true ∨ c ∈ ['/', '.', '-'] ∨ Text.isBlank c = true

/-- A stem and `.comp` stand between the brackets. -/
def Token.IsProper (x : Token) : Prop :=
  ∃ stem, IsStem stem ∧ x.inner = stem ++ ".comp".toList

/-- A token stands in a text behind `front`. -/
def Occurs (t front : Text) (x : Token) : Prop :=
  x.IsProper ∧ ∃ rest, t = front ++ ('[' :: (x.inner ++ ']' :: rest))

section

variable {t u front front' rest stem : Text} {x y : Token}

theorem isReferenceChar_iff {c : Char} :
  isReferenceChar c = true
    ↔ Text.isWord c = true ∨ c ∈ ['/', '.', '-'] ∨ Text.isBlank c = true
  := by
  simp [isReferenceChar, or_assoc]

/-- Neither bracket stands between the brackets. -/
theorem isReferenceChar_bracket :
  isReferenceChar '[' = false ∧ isReferenceChar ']' = false
  := by
  decide

/-- Only reference characters stand between the brackets of a token. -/
theorem Token.IsProper.isReferenceChar_of_mem (hx : x.IsProper) {c : Char} (hc : c ∈ x.inner) :
  isReferenceChar c = true
  := by
  obtain ⟨stem, hstem, hinner⟩ := hx
  rw [hinner, List.mem_append] at hc
  rcases hc with hc | hc
  · exact isReferenceChar_iff.2 (hstem.of_mem c hc)
  · have hending : (".comp".toList).all isReferenceChar = true := by decide
    exact List.all_eq_true.1 hending c hc

theorem Token.IsProper.opening_not_mem (hx : x.IsProper) :
  '[' ∉ x.inner ++ [']']
  := by
  intro hmem
  rcases List.mem_append.1 hmem with hmem | hmem
  · have hbracket := hx.isReferenceChar_of_mem hmem
    rw [isReferenceChar_bracket.1] at hbracket
    cases hbracket
  · exact absurd hmem (by decide)

theorem namesComponent_iff {inner : Text} :
  namesComponent inner = true ↔ ∃ stem, stem ≠ [] ∧ inner = stem ++ ".comp".toList
  := by
  rw [namesComponent, Bool.and_eq_true, List.isSuffixOf_iff_suffix, decide_eq_true_eq]
  constructor
  · rintro ⟨⟨stem, rfl⟩, hlength⟩
    use stem
    constructor
    · rintro rfl
      simp at hlength
    · rfl
  · rintro ⟨stem, hne, rfl⟩
    have hpos := List.length_pos_iff.2 hne
    use ⟨stem, rfl⟩
    rw [List.length_append]
    show ending.length < stem.length + ending.length
    omega

theorem isReferenceChar_of_match?
    (h : Token.match? t = some (x, rest)) {c : Char} (hc : c ∈ x.inner) :
  isReferenceChar c = true
  := by
  unfold Token.match? at h
  split at h
  · split at h
    · dsimp only at h
      split at h
      · cases h
        exact List.mem_takeWhile_imp hc
      · cases h
    · cases h
  · cases h

theorem isProper_of_match? (h : Token.match? t = some (x, rest)) :
  x.IsProper
  := by
  obtain ⟨stem, hne, hinner⟩ := namesComponent_iff.1 (namesComponent_of_match? h)
  use stem
  constructor
  · use hne
    intro c hc
    apply isReferenceChar_iff.1
    apply isReferenceChar_of_match? h
    rw [hinner]
    exact List.mem_append_left _ hc
  · exact hinner

/-- A token is recognised at the head of a text exactly if it stands there. -/
theorem match?_eq_some_iff :
  pattern.match? t = some (x, rest) ↔ x.IsProper ∧ t = '[' :: (x.inner ++ ']' :: rest)
  := by
  change Token.match? t = some (x, rest) ↔ _
  constructor
  · intro h
    have htext : t = pattern.text x ++ rest := pattern.eq_of_match? h
    constructor
    · exact isProper_of_match? h
    · rw [htext]
      simp [pattern]
  · rintro ⟨hx, rfl⟩
    obtain ⟨hinner, hrest⟩ := Text.takeWhile_and_dropWhile (fun c => hx.isReferenceChar_of_mem)
      isReferenceChar_bracket.2 rest
    obtain ⟨stem, hstem, heq⟩ := hx
    have hnames : namesComponent x.inner = true := namesComponent_iff.2 ⟨stem, hstem.ne_nil, heq⟩
    simp only [Token.match?, hinner, hrest, hnames, if_true]

/-- A token that stands in a text is recognised there. -/
theorem occurs_iff :
  Occurs t front x ↔ ∃ rest u, t = front ++ u ∧ pattern.match? u = some (x, rest)
  := by
  constructor
  · rintro ⟨hx, rest, rfl⟩
    exact ⟨rest, _, rfl, match?_eq_some_iff.2 ⟨hx, rfl⟩⟩
  · rintro ⟨rest, u, rfl, hmatch⟩
    obtain ⟨hx, rfl⟩ := match?_eq_some_iff.1 hmatch
    exact ⟨hx, rest, rfl⟩

/-! ### Tokens do not overlap -/

/-- No token of a text reaches into one that stands behind `front`: there is no bracket in it. -/
theorem not_reaches (h : pattern.match? u = some (x, rest)) :
  ¬ pattern.Reaches (pieces (front ++ u)) front y
  := by
  rintro ⟨earlier, start, back, hstands, rfl, htext, hstart, hback⟩
  obtain ⟨after, hall, hmatch⟩ := hstands.exists_rest
  obtain ⟨hy, -⟩ := match?_eq_some_iff.1 hmatch
  obtain ⟨-, rfl⟩ := match?_eq_some_iff.1 h
  -- What the token has left begins with the opening bracket.
  rw [htext] at hall
  have hrest : back ++ after = '[' :: (x.inner ++ ']' :: rest) := by simpa using hall.symm
  obtain ⟨c, back, rfl⟩ := List.exists_cons_of_ne_nil hback
  obtain ⟨rfl, -⟩ := List.cons.inj (hrest.symm.trans (List.cons_append ..))
  obtain ⟨c, start, rfl⟩ := List.exists_cons_of_ne_nil hstart
  obtain ⟨-, hinner⟩ := List.cons.inj htext
  apply hy.opening_not_mem
  rw [hinner]
  simp

/-- The tokens of a text are those that stand in it. -/
theorem mem_places_iff_occurs :
  (front, x) ∈ pattern.places t ↔ Occurs t front x
  := by
  rw [Pattern.mem_places_iff, occurs_iff]
  constructor
  · intro hstands
    obtain ⟨rest, htext, hmatch⟩ := hstands.exists_rest
    exact ⟨rest, _, htext, hmatch⟩
  · rintro ⟨rest, u, rfl, hmatch⟩
    rcases pattern.stands_or_reached hmatch front with hstands | ⟨y, hreaches⟩
    · exact hstands
    · exact absurd hreaches (not_reaches hmatch)

end

end Inlay.Component
