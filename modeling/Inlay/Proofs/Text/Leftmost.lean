import Inlay.Proofs.Text.Pattern

/-!
# Leftmost tokens

The pieces of a text are its leftmost tokens, without overlap, and the gaps between them: in a gap
no token begins, and nothing else is cut in that way (`Pattern.isLeftmost_iff`).  A token that can be
recognised somewhere in a text is one of these, or an earlier one reaches into it
(`Pattern.stands_or_reached`).  `places` lists the tokens with the places where they stand.
-/

namespace Inlay

variable {τ : Type}

/-- The pieces of a text are its leftmost tokens without overlap, and the gaps between them.
`Matches u x rest` tells that the token `x` stands at the head of `u`, and `rest` behind it. -/
inductive IsLeftmost (Matches : Text → τ → Text → Prop) : Text → List (Piece τ) → Prop
  /-- No token begins in the text. -/
  | last {t} (h : ∀ front u, t = front ++ u → ∀ x rest, ¬ Matches u x rest) :
    IsLeftmost Matches t [.gap t]
  /-- No token begins in the gap, and one stands behind it. -/
  | next {gap u x rest pieces}
    (hgap : ∀ front c cs, gap = front ++ c :: cs → ∀ y r, ¬ Matches (c :: cs ++ u) y r)
    (h : Matches u x rest) (hrest : IsLeftmost Matches rest pieces) :
    IsLeftmost Matches (gap ++ u) (.gap gap :: .token x :: pieces)

/-- Two relations that tell the same tokens cut alike. -/
theorem IsLeftmost.congr
    {Matches Matches' : Text → τ → Text → Prop} {t : Text} {pieces : List (Piece τ)}
    (h : IsLeftmost Matches t pieces) (hiff : ∀ u x rest, Matches u x rest ↔ Matches' u x rest) :
  IsLeftmost Matches' t pieces
  := by
  obtain rfl : Matches = Matches' := by
    funext u x rest
    exact propext (hiff u x rest)
  exact h

/-- The token of a piece, if it is one. -/
def Piece.token? : Piece τ → Option τ
  | .gap _ => none
  | .token x => some x

namespace Pattern

variable (P : Pattern τ)

/-- The token is recognised at the head of a text. -/
def Recognises (u : Text) (x : τ) (rest : Text) : Prop :=
  P.match? u = some (x, rest)

/-- The tokens of a text, in order. -/
def tokens (t : Text) : List τ :=
  (P.pieces t).filterMap Piece.token?

variable {P} {t u rest front : Text} {x : τ}

theorem not_recognises_iff :
  (∀ x rest, ¬ P.Recognises u x rest) ↔ P.match? u = none
  := by
  rw [Option.eq_none_iff_forall_ne_some]
  simp [Recognises]

/-! ### The pieces -/

variable (P) in
theorem isLeftmost_piecesOnto
    (done : List (Piece τ)) (gap t : Text)
    (hgap : ∀ front c cs, gap.reverse = front ++ c :: cs → P.match? (c :: cs ++ t) = none) :
  ∃ pieces, P.piecesOnto done gap t = done.reverse ++ pieces
    ∧ IsLeftmost P.Recognises (gap.reverse ++ t) pieces
  := by
  fun_induction P.piecesOnto done gap t with
  | case1 done gap =>
    use [.gap gap.reverse]
    constructor
    · simp [closeGap]
    · rw [List.append_nil]
      apply IsLeftmost.last
      intro front u hu
      apply not_recognises_iff.2
      cases u with
      | nil => exact P.match?_nil
      | cons c cs => simpa using hgap front c cs hu
  | case2 done gap c cs x rest h ih =>
    obtain ⟨more, hpieces, hleftmost⟩ := ih (by simp)
    use .gap gap.reverse :: .token x :: more
    constructor
    · rw [hpieces]
      simp [closeGap]
    · apply IsLeftmost.next _ h (by simpa using hleftmost)
      intro front c' cs' heq
      exact not_recognises_iff.2 (hgap front c' cs' heq)
  | case3 done gap c cs h ih =>
    have hlonger : ∀ front c' cs', (c :: gap).reverse = front ++ c' :: cs' →
        P.match? (c' :: cs' ++ cs) = none := by
      intro front c' cs' heq
      rw [List.reverse_cons] at heq
      rcases List.eq_nil_or_concat cs' with rfl | ⟨inner, last, rfl⟩
      · obtain ⟨-, rfl⟩ := List.append_singleton_inj.1 heq
        exact h
      · rw [List.concat_eq_append, ← List.cons_append, ← List.append_assoc] at heq
        obtain ⟨hfront, rfl⟩ := List.append_singleton_inj.1 heq
        simpa using hgap front c' inner hfront
    obtain ⟨more, hpieces, hleftmost⟩ := ih hlonger
    use more, hpieces
    simpa using hleftmost

variable (P) in
theorem isLeftmost_pieces (t : Text) :
  IsLeftmost P.Recognises t (P.pieces t)
  := by
  obtain ⟨more, hpieces, hleftmost⟩ := P.isLeftmost_piecesOnto [] [] t (by simp)
  rw [Pattern.pieces, hpieces]
  simpa using hleftmost

/-- Where a token follows a gap, no other cut has a shorter one. -/
theorem gap_eq_of_recognises
    {gap gap' u' : Text} (heq : gap ++ u = gap' ++ u')
    (hgap : ∀ front c cs, gap = front ++ c :: cs → ∀ y r, ¬ P.Recognises (c :: cs ++ u) y r)
    (hgap' : ∀ front c cs, gap' = front ++ c :: cs → ∀ y r, ¬ P.Recognises (c :: cs ++ u') y r)
    {x' : τ} {rest' : Text} (h : P.Recognises u x rest) (h' : P.Recognises u' x' rest') :
  gap = gap'
  := by
  rcases List.append_eq_append_iff.1 heq with ⟨more, rfl, rfl⟩ | ⟨more, rfl, rfl⟩
  · cases more with
    | nil => rw [List.append_nil]
    | cons c cs => exact absurd h (hgap' gap c cs rfl _ _)
  · cases more with
    | nil => rw [List.append_nil]
    | cons c cs => exact absurd h' (hgap gap' c cs rfl _ _)

/-- A text is cut in one way only. -/
theorem eq_of_isLeftmost
    {pieces pieces' : List (Piece τ)} (h : IsLeftmost P.Recognises t pieces)
    (h' : IsLeftmost P.Recognises t pieces') :
  pieces = pieces'
  := by
  induction h generalizing pieces' with
  | last hnone =>
    cases h' with
    | last => rfl
    | next _ h _ => exact absurd h (hnone _ _ rfl _ _)
  | @next gap u x rest pieces hgap h _ ih =>
    generalize ht : gap ++ u = t at h'
    cases h' with
    | last hnone => exact absurd h (hnone _ _ ht.symm _ _)
    | @next gap' u' x' rest' pieces' hgap' h' hrest' =>
      obtain rfl := gap_eq_of_recognises ht hgap hgap' h h'
      obtain rfl := List.append_cancel_left ht
      obtain ⟨rfl, rfl⟩ : x = x' ∧ rest = rest' := by simpa [Recognises] using h.symm.trans h'
      rw [ih hrest']

/-- The pieces of a text are its leftmost tokens, without overlap, and the gaps between them. -/
theorem isLeftmost_iff {pieces : List (Piece τ)} :
  IsLeftmost P.Recognises t pieces ↔ pieces = P.pieces t
  := by
  constructor
  · intro h
    exact eq_of_isLeftmost h (P.isLeftmost_pieces t)
  · rintro rfl
    exact P.isLeftmost_pieces t

/-- The pieces of a cut make up the text. -/
theorem flatMap_text_of_isLeftmost {pieces : List (Piece τ)} (h : IsLeftmost P.Recognises t pieces) :
  pieces.flatMap P.pieceText = t
  := by
  rw [isLeftmost_iff.1 h]
  apply P.flatMap_text_pieces

/-! ### Single tokens -/

/-- A token of a cut is recognised where it stands. -/
theorem recognises_of_isLeftmost
    {pieces before after : List (Piece τ)} (h : IsLeftmost P.Recognises t pieces)
    (hsplit : pieces = before ++ .token x :: after) :
  P.Recognises (P.text x ++ after.flatMap P.pieceText) x (after.flatMap P.pieceText)
  := by
  induction h generalizing before with
  | last => cases before <;> simp at hsplit
  | @next gap u y rest pieces hgap hy hrest ih =>
    match before with
    | [] => simp at hsplit
    | [_] =>
      obtain ⟨-, rfl, rfl⟩ : _ ∧ y = x ∧ pieces = after := by simpa using hsplit
      rw [flatMap_text_of_isLeftmost hrest, ← P.eq_of_match? hy]
      exact hy
    | _ :: _ :: before => exact ih (by simpa using (List.cons.inj (List.cons.inj hsplit).2).2)

/-- A token of a text is recognised where it stands. -/
theorem match?_of_pieces_eq
    {before after : List (Piece τ)} (h : P.pieces t = before ++ .token x :: after) :
  P.match? (P.text x ++ after.flatMap P.pieceText) = some (x, after.flatMap P.pieceText)
  := recognises_of_isLeftmost (P.isLeftmost_pieces t) h

/-- A token is one of the pieces, behind the text `front`. -/
def Stands (P : Pattern τ) (pieces : List (Piece τ)) (front : Text) (x : τ) : Prop :=
  ∃ before after, pieces = before ++ .token x :: after ∧ before.flatMap P.pieceText = front

/-- A token among the pieces begins in the text `front` and ends behind it. -/
def Reaches (P : Pattern τ) (pieces : List (Piece τ)) (front : Text) (x : τ) : Prop :=
  ∃ earlier start back, P.Stands pieces earlier x ∧ front = earlier ++ start
    ∧ P.text x = start ++ back ∧ start ≠ [] ∧ back ≠ []

/-- A token that is one of the pieces is recognised where it stands. -/
theorem Stands.exists_rest (h : P.Stands (P.pieces t) front x) :
  ∃ rest, t = front ++ (P.text x ++ rest) ∧ P.match? (P.text x ++ rest) = some (x, rest)
  := by
  obtain ⟨before, after, hpieces, rfl⟩ := h
  use after.flatMap P.pieceText
  constructor
  · rw [← P.flatMap_text_pieces t, hpieces]
    simp [pieceText]
  · exact P.match?_of_pieces_eq hpieces

theorem Stands.behind
    {pieces : List (Piece τ)} (h : P.Stands pieces front x) (gap : Text) (y : τ) :
  P.Stands (.gap gap :: .token y :: pieces) (gap ++ P.text y ++ front) x
  := by
  obtain ⟨before, after, rfl, rfl⟩ := h
  use .gap gap :: .token y :: before, after, rfl
  simp [pieceText]

theorem Reaches.behind
    {pieces : List (Piece τ)} (h : P.Reaches pieces front x) (gap : Text) (y : τ) :
  P.Reaches (.gap gap :: .token y :: pieces) (gap ++ P.text y ++ front) x
  := by
  obtain ⟨earlier, start, back, hstands, rfl, htext, hparts⟩ := h
  use gap ++ P.text y ++ earlier, start, back, hstands.behind gap y
  constructor
  · simp
  · exact ⟨htext, hparts⟩

theorem stands_or_reached_of_isLeftmost
    {pieces : List (Piece τ)} (h : IsLeftmost P.Recognises t pieces) (ht : t = front ++ u)
    (hx : P.Recognises u x rest) :
  P.Stands pieces front x ∨ ∃ y, P.Reaches pieces front y
  := by
  induction h generalizing front with
  | last hnone => exact absurd hx (hnone _ _ ht _ _)
  | @next gap u' y rest' pieces hgap hy hrest ih =>
    -- The place lies behind the first token, in it, at it, or in the gap.
    have hbehind : ∀ more, rest' = more ++ u →
        P.Stands (.gap gap :: .token y :: pieces) (gap ++ P.text y ++ more) x
          ∨ ∃ z, P.Reaches (.gap gap :: .token y :: pieces) (gap ++ P.text y ++ more) z := by
      intro more hmore
      rcases ih hmore with hstands | ⟨z, hreaches⟩
      · exact .inl (hstands.behind gap y)
      · exact .inr ⟨z, hreaches.behind gap y⟩
    have hfirst : P.Stands (.gap gap :: .token y :: pieces) gap y :=
      ⟨[.gap gap], pieces, rfl, by simp [pieceText]⟩
    rcases List.append_eq_append_iff.1 ht with ⟨more, rfl, hu⟩ | ⟨more, rfl, rfl⟩
    · cases more with
      | nil =>
        obtain rfl : u' = u := hu
        obtain ⟨rfl, -⟩ : y = x ∧ rest' = rest := by simpa [Recognises] using hy.symm.trans hx
        rw [List.append_nil]
        exact .inl hfirst
      | cons c cs =>
        have htext := P.eq_of_match? hy
        rw [hu] at htext
        rcases List.append_eq_append_iff.1 htext.symm with ⟨more, hmore, hrest'⟩ | ⟨back, hback, rfl⟩
        · rw [hmore, ← List.append_assoc]
          exact hbehind more hrest'
        · cases back with
          | nil =>
            rw [List.append_nil] at hback
            rw [← hback]
            simpa using hbehind [] rfl
          | cons c' cs' =>
            exact .inr ⟨y, gap, c :: cs, c' :: cs', hfirst, rfl, hback, by simp, by simp⟩
    · cases more with
      | nil =>
        obtain ⟨rfl, -⟩ : y = x ∧ rest' = rest := by simpa [Recognises] using hy.symm.trans hx
        rw [List.append_nil] at hfirst ⊢
        exact .inl hfirst
      | cons c cs => exact absurd hx (hgap front c cs rfl _ _)

/-- A token that can be recognised somewhere in a text is one of its tokens, or an earlier one
reaches into it. -/
theorem stands_or_reached (hx : P.match? u = some (x, rest)) (front : Text) :
  P.Stands (P.pieces (front ++ u)) front x ∨ ∃ y, P.Reaches (P.pieces (front ++ u)) front y
  := stands_or_reached_of_isLeftmost (P.isLeftmost_pieces _) rfl hx

/-! ### Places -/

/-- The tokens among pieces that follow the text `front`, each with all that stands before it. -/
def placesFrom (P : Pattern τ) (front : Text) : List (Piece τ) → List (Text × τ)
  | [] => []
  | .gap t :: pieces => placesFrom P (front ++ t) pieces
  | .token x :: pieces => (front, x) :: placesFrom P (front ++ P.text x) pieces

/-- The tokens of a text, in order, each with all that stands before it. -/
def places (P : Pattern τ) (t : Text) : List (Text × τ) :=
  P.placesFrom [] (P.pieces t)

/-- A token is the first of the pieces, or one of those behind it. -/
theorem stands_cons_iff {piece : Piece τ} {pieces : List (Piece τ)} :
  P.Stands (piece :: pieces) front x
    ↔ (piece = .token x ∧ front = [])
      ∨ ∃ behind, front = P.pieceText piece ++ behind ∧ P.Stands pieces behind x
  := by
  constructor
  · rintro ⟨before, after, hpieces, rfl⟩
    cases before with
    | nil =>
      cases hpieces
      exact .inl ⟨rfl, rfl⟩
    | cons _ before =>
      cases hpieces
      exact .inr ⟨before.flatMap P.pieceText, rfl, before, after, rfl, rfl⟩
  · rintro (⟨rfl, rfl⟩ | ⟨behind, rfl, before, after, rfl, rfl⟩)
    · exact ⟨[], pieces, rfl, rfl⟩
    · exact ⟨piece :: before, after, rfl, rfl⟩

theorem mem_placesFrom_iff {pieces : List (Piece τ)} {start : Text} :
  (front, x) ∈ P.placesFrom start pieces ↔ ∃ behind, front = start ++ behind ∧ P.Stands pieces behind x
  := by
  induction pieces generalizing start with
  | nil => simp [placesFrom, Stands]
  | cons piece pieces ih =>
    simp only [stands_cons_iff]
    cases piece with
    | gap t =>
      rw [placesFrom, ih]
      constructor
      · rintro ⟨behind, rfl, hstands⟩
        exact ⟨t ++ behind, List.append_assoc .., .inr ⟨behind, rfl, hstands⟩⟩
      · rintro ⟨_, rfl, ⟨hgap, -⟩ | ⟨behind, rfl, hstands⟩⟩
        · cases hgap
        · exact ⟨behind, (List.append_assoc ..).symm, hstands⟩
    | token y =>
      rw [placesFrom, List.mem_cons, ih]
      constructor
      · rintro (heq | ⟨behind, rfl, hstands⟩)
        · cases heq
          exact ⟨[], (List.append_nil _).symm, .inl ⟨rfl, rfl⟩⟩
        · exact ⟨P.text y ++ behind, List.append_assoc .., .inr ⟨behind, rfl, hstands⟩⟩
      · rintro ⟨_, rfl, ⟨hy, rfl⟩ | ⟨behind, rfl, hstands⟩⟩
        · cases hy
          left
          rw [List.append_nil]
        · exact .inr ⟨behind, (List.append_assoc ..).symm, hstands⟩

theorem mem_places_iff :
  (front, x) ∈ P.places t ↔ P.Stands (P.pieces t) front x
  := by
  rw [places, mem_placesFrom_iff]
  simp

theorem map_snd_placesFrom (pieces : List (Piece τ)) (start : Text) :
  (P.placesFrom start pieces).map Prod.snd = pieces.filterMap Piece.token?
  := by
  induction pieces generalizing start with
  | nil => rfl
  | cons piece pieces ih =>
    cases piece with
    | gap t => exact ih _
    | token y =>
      rw [placesFrom, List.map_cons, ih]
      rfl

/-- The tokens at the places are those of the text, in order. -/
theorem map_snd_places (t : Text) :
  (P.places t).map Prod.snd = P.tokens t
  := map_snd_placesFrom _ _

theorem pairwise_placesFrom (pieces : List (Piece τ)) (start : Text) :
  (P.placesFrom start pieces).Pairwise fun a b => a.1 ++ P.text a.2 <+: b.1
  := by
  induction pieces generalizing start with
  | nil => exact .nil
  | cons piece pieces ih =>
    cases piece with
    | gap t => exact ih _
    | token y =>
      apply List.Pairwise.cons _ (ih _)
      rintro ⟨front, x⟩ hmem
      obtain ⟨behind, rfl, -⟩ := mem_placesFrom_iff.1 hmem
      exact List.prefix_append _ _

/-- Each token ends before the next one begins. -/
theorem pairwise_places (t : Text) :
  (P.places t).Pairwise fun a b => a.1 ++ P.text a.2 <+: b.1
  := pairwise_placesFrom _ _

/-! ### Tokens one after another -/

/-- The tokens of a text that starts with one. -/
theorem tokens_of_match? (h : P.match? u = some (x, rest)) :
  P.tokens u = x :: P.tokens rest
  := by
  have hcut : IsLeftmost P.Recognises ([] ++ u) (.gap [] :: .token x :: P.pieces rest) := by
    apply IsLeftmost.next _ h (P.isLeftmost_pieces rest)
    intro front c cs heq
    simp at heq
  rw [List.nil_append] at hcut
  rw [tokens, ← isLeftmost_iff.1 hcut]
  rfl

/-- A character at which no token begins is passed. -/
theorem tokens_cons {c : Char} {cs : Text} (h : P.match? (c :: cs) = none) :
  P.tokens (c :: cs) = P.tokens cs
  := by
  have hnone : ∀ y r, ¬ P.Recognises (c :: cs) y r := not_recognises_iff.2 h
  have hcut := P.isLeftmost_pieces cs
  rw [tokens, tokens]
  generalize P.pieces cs = pieces at hcut
  cases hcut with
  | last hlast =>
    have hcut' : IsLeftmost P.Recognises (c :: cs) [.gap (c :: cs)] := by
      apply IsLeftmost.last
      intro front u heq
      cases front with
      | nil =>
        obtain rfl : c :: cs = u := heq
        exact hnone
      | cons _ front =>
        obtain ⟨-, heq⟩ := List.cons.inj heq
        exact hlast front u heq
    rw [← isLeftmost_iff.1 hcut']
    rfl
  | @next gap u x rest pieces hgap hx hrest =>
    have hcut' : IsLeftmost P.Recognises (c :: gap ++ u) (.gap (c :: gap) :: .token x :: pieces) := by
      apply IsLeftmost.next _ hx hrest
      intro front c' cs' heq
      cases front with
      | nil =>
        obtain ⟨rfl, rfl⟩ := List.cons.inj heq
        exact hnone
      | cons _ front =>
        obtain ⟨-, heq⟩ := List.cons.inj heq
        exact hgap front c' cs' heq
    rw [List.cons_append] at hcut'
    rw [← isLeftmost_iff.1 hcut']
    rfl

/-- A start in which no token begins is passed. -/
theorem tokens_append
    (h : ∀ before c cs, front = before ++ c :: cs → P.match? (c :: cs ++ u) = none) :
  P.tokens (front ++ u) = P.tokens u
  := by
  induction front with
  | nil => rfl
  | cons c cs ih =>
    rw [List.cons_append, tokens_cons (by simpa using h [] c cs rfl)]
    apply ih
    intro before c' cs' heq
    exact h (c :: before) c' cs' (by rw [heq, List.cons_append])

end Pattern

end Inlay
