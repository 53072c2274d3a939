import Inlay.Text.Basic

/-!
# Patterns

A pattern recognises a token at the head of a text.  `pieces` cuts a text into the tokens that the
pattern recognises, from the left and without overlap, and the gaps between them.  Main statement:
`flatMap_text_pieces`, the pieces in order give the text back.
-/

namespace Inlay

/-- A way to recognise tokens: a token has a text, which is what was recognised. -/
structure Pattern (τ : Type) where
  /-- The token at the head of a text and what follows it. -/
  match? : Text → Option (τ × Text)
  /-- The text of a token. -/
  text : τ → Text
  text_ne_nil : ∀ x, text x ≠ []
  eq_of_match? : ∀ {t x rest}, match? t = some (x, rest) → t = text x ++ rest

/-- A part of a text: characters that belong to no token, or a token. -/
inductive Piece (τ : Type) where
  | gap (t : Text)
  | token (x : τ)
deriving DecidableEq

namespace Pattern

variable {τ : Type} (P : Pattern τ)

/-- What follows a token is shorter than the text. -/
theorem length_lt_of_match? {t rest : Text} {x : τ} (h : P.match? t = some (x, rest)) :
  rest.length < t.length
  := by
  have := List.length_pos_iff.2 (P.text_ne_nil x)
  rw [P.eq_of_match? h, List.length_append]
  omega

/-- Nothing is recognised in the empty text. -/
theorem match?_nil :
  P.match? [] = none
  := by
  cases h : P.match? [] with
  | none => rfl
  | some found =>
    have := P.length_lt_of_match? h
    simp at this

/-- Adds a gap, given from its end, to the pieces before it, the last one first. -/
def closeGap (done : List (Piece τ)) (gap : Text) : List (Piece τ) :=
  .gap gap.reverse :: done

/-- Adds the pieces of a text to `done`, the last one first; `gap` are the characters since the
last token, the last one first. -/
def piecesOnto (done : List (Piece τ)) (gap : Text) : Text → List (Piece τ)
  | [] => (closeGap done gap).reverse
  | c :: cs =>
    match _h : P.match? (c :: cs) with
    | some (x, rest) => piecesOnto (.token x :: closeGap done gap) [] rest
    | none => piecesOnto done (c :: gap) cs
termination_by t => t.length
decreasing_by
  · exact P.length_lt_of_match? _h
  · simp

/-- The tokens of a text and the gaps between them, in order. -/
def pieces (t : Text) : List (Piece τ) :=
  P.piecesOnto [] [] t

/-- The text of a piece. -/
def pieceText : Piece τ → Text
  | .gap t => t
  | .token x => P.text x

theorem flatMap_text_piecesOnto (done : List (Piece τ)) (gap t : Text) :
  (P.piecesOnto done gap t).flatMap P.pieceText
    = done.reverse.flatMap P.pieceText ++ gap.reverse ++ t
  := by
  fun_induction P.piecesOnto done gap t with
  | case1 done gap => simp [closeGap, pieceText]
  | case2 done gap c cs x rest h ih =>
    rw [ih, P.eq_of_match? h]
    simp [closeGap, pieceText]
  | case3 done gap c cs h ih => simp [ih]

/-- The pieces of a text, in order, give the text back. -/
theorem flatMap_text_pieces (t : Text) :
  (P.pieces t).flatMap P.pieceText = t
  := by
  simp [pieces, flatMap_text_piecesOnto]

end Pattern

end Inlay
