import Inlay.Proofs.Json.RoundTrip

/-!
# Numerals that are read

A number that is no integer is kept as it is spelled.  Where it has been read, it is spelled as a
number is: no reading makes one of another word (`spelled_of_read`).
-/

namespace Inlay.Json

/-- A number begins with its sign or a digit, or it is the word for one that is not finite. -/
def IsNumeral (t : Text) : Prop :=
  ∃ c, t.head? = some c ∧ (c.isDigit = true ∨ c ∈ "-NI".toList)

/-- A value in which the numbers that are no integers are spelled as numbers. -/
inductive Spelled : Json → Prop
  | null : Spelled .null
  | bool {b} : Spelled (.bool b)
  | int {n} : Spelled (.int n)
  | real {spelling} (h : IsNumeral spelling) : Spelled (.real spelling)
  | str {t} : Spelled (.str t)
  | arr {items} (h : ∀ v ∈ items, Spelled v) : Spelled (.arr items)
  | obj {members} (h : ∀ m ∈ members, Spelled m.2) : Spelled (.obj members)

/-! ### Tokens -/

theorem isDigit_of_wholePart_eq_cons {t rest : Text} {c : Char} (h : wholePart t = c :: rest) :
  c.isDigit = true
  := by
  unfold wholePart at h
  split at h
  · cases h
    rfl
  · have hc : c ∈ digits t := by
      rw [h]
      exact List.mem_cons_self
    exact List.all_eq_true.1 List.all_takeWhile c hc

theorem spelled_of_scanNumber?
    {t : Text} {v : Json} {n : Nat} (h : scanNumber? t = some (.scalar v, n)) :
  Spelled v
  := by
  unfold scanNumber? at h
  dsimp only at h
  have hsign : (if t.head? = some '-' then ['-'] else []) = ['-']
      ∨ (if t.head? = some '-' then ['-'] else []) = [] := by
    split
    · exact .inl rfl
    · exact .inr rfl
  generalize (if t.head? = some '-' then ['-'] else []) = sign at h hsign
  split at h
  case isTrue => cases h
  case isFalse hwhole =>
    split at h
    case isTrue =>
      split at h
      · cases h
      · cases h
        exact .int
    case isFalse =>
      cases h
      obtain ⟨c, rest, hcons⟩ := List.exists_cons_of_ne_nil hwhole
      apply Spelled.real
      rw [hcons]
      rcases hsign with rfl | rfl
      · exact ⟨'-', rfl, .inr (by decide)⟩
      · exact ⟨c, rfl, .inl (isDigit_of_wholePart_eq_cons hcons)⟩

theorem spelled_of_mem_words {word : Text} {v : Json} (h : (word, v) ∈ words) :
  Spelled v
  := by
  have hcases : v = .null ∨ v = .bool true ∨ v = .bool false ∨ v = .real "NaN".toList
      ∨ v = .real "Infinity".toList ∨ v = .real "-Infinity".toList := by
    simp only [words, List.mem_cons, Prod.mk.injEq, List.not_mem_nil, or_false] at h
    tauto
  rcases hcases with rfl | rfl | rfl | rfl | rfl | rfl
  · exact .null
  · exact .bool
  · exact .bool
  · exact .real ⟨'N', rfl, by decide⟩
  · exact .real ⟨'I', rfl, by decide⟩
  · exact .real ⟨'-', rfl, by decide⟩

/-- A token that is a value is spelled as one. -/
theorem spelled_of_tokenAt
    {position : Nat} {c : Char} {cs : Text} {v : Json} (h : (tokenAt position c cs).1 = .scalar v) :
  Spelled v
  := by
  unfold tokenAt at h
  split at h
  case h_8 =>
    split at h
    case h_1 word u hword =>
      cases h
      exact spelled_of_mem_words (List.mem_of_find?_eq_some hword)
    case h_2 =>
      split at h
      case h_1 hnumber =>
        cases h
        exact spelled_of_scanNumber? hnumber
      case h_2 => cases h
  case h_7 => split at h <;> cases h
  all_goals cases h

theorem spelled_of_mem_tokensOnto
    {position : Nat} {text : Text} {t : PlacedToken} {v : Json}
    (ht : t ∈ tokensOnto [] position text) (h : t.token = .scalar v) :
  Spelled v
  := by
  induction hlength : text.length using Nat.strongRecOn generalizing position text with
  | ind n ih =>
    cases text with
    | nil => simp [tokensOnto] at ht
    | cons c cs =>
      rw [tokensOnto] at ht
      have hn : cs.length < n := by
        rw [← hlength]
        simp
      dsimp only at ht
      split at ht
      case isTrue => exact ih _ hn ht rfl
      case isFalse =>
        split at ht
        case isTrue =>
          obtain rfl := List.mem_singleton.1 ht
          exact spelled_of_tokenAt h
        case isFalse =>
          rw [tokensOnto_eq] at ht
          rcases List.mem_cons.1 ht with rfl | ht
          · exact spelled_of_tokenAt h
          · have hdrop : (cs.drop (tokenAt position c cs).2).length < n := by
              rw [List.length_drop]
              omega
            exact ih _ hdrop ht rfl

/-! ### Reading -/

/-- The values in an open container are spelled. -/
def Open.Spelled : Open → Prop
  | .array items => ∀ v ∈ items, Json.Spelled v
  | .object members _ => ∀ m ∈ members, Json.Spelled m.2

/-- The values that have been read are spelled. -/
def Expecting.Spelled : Expecting → Prop
  | .value stack | .item stack => ∀ o ∈ stack, o.Spelled
  | .key members _ stack | .colon members _ stack | .afterMember members stack =>
    (∀ m ∈ members, Json.Spelled m.2) ∧ ∀ o ∈ stack, o.Spelled
  | .afterItem items stack => (∀ v ∈ items, Json.Spelled v) ∧ ∀ o ∈ stack, o.Spelled
  | .done v => Json.Spelled v

theorem spelled_put
    {members : Members} {key : Text} {v : Json} (hmembers : ∀ m ∈ members, Spelled m.2)
    (hv : Spelled v) :
  ∀ m ∈ members.put key v, Spelled m.2
  := by
  induction members with
  | nil => simpa [Members.put] using hv
  | cons m members ih =>
    obtain ⟨hm, hmembers⟩ := List.forall_mem_cons.1 hmembers
    rw [Members.put]
    split
    · exact List.forall_mem_cons.2 ⟨hv, hmembers⟩
    · exact List.forall_mem_cons.2 ⟨hm, ih hmembers⟩

theorem spelled_complete
    {v : Json} {stack : List Open} (hv : Spelled v) (hstack : ∀ o ∈ stack, o.Spelled) :
  (complete v stack).Spelled
  := by
  cases stack with
  | nil => exact hv
  | cons o stack =>
    obtain ⟨ho, hrest⟩ := List.forall_mem_cons.1 hstack
    cases o with
    | array items => exact ⟨List.forall_mem_cons.2 ⟨hv, ho⟩, hrest⟩
    | object members key => exact ⟨spelled_put ho hv, hrest⟩

theorem spelled_beginValue
    {maxDepth : Nat} {stack : List Open} {t : PlacedToken} {next : Expecting}
    (hstack : ∀ o ∈ stack, o.Spelled) (ht : ∀ v, t.token = .scalar v → Spelled v)
    (h : beginValue maxDepth stack t = .ok next) :
  next.Spelled
  := by
  have hopen : ∀ {container}, openContainer maxDepth container stack = .ok next → next.Spelled := by
    intro container hcontainer
    unfold openContainer at hcontainer
    split at hcontainer
    · cases hcontainer
    · cases container with
      | array =>
        cases hcontainer
        exact hstack
      | object =>
        cases hcontainer
        exact ⟨List.forall_mem_nil _, hstack⟩
  unfold beginValue at h
  split at h
  case h_1 => exact hopen h
  case h_2 => exact hopen h
  case h_3 v hv =>
    cases h
    exact spelled_complete (ht v hv) hstack
  case h_4 =>
    cases h
    exact spelled_complete .str hstack
  all_goals cases h

/-- A step of reading keeps the values spelled. -/
theorem spelled_step
    {maxDepth : Nat} {e next : Expecting} {t : PlacedToken} (he : e.Spelled)
    (ht : ∀ v, t.token = .scalar v → Spelled v) (h : e.step maxDepth t = .ok next) :
  next.Spelled
  := by
  cases e with
  | value stack => exact spelled_beginValue he ht h
  | item stack =>
    rw [Expecting.step] at h
    split at h
    · cases h
      exact spelled_complete (.arr (List.forall_mem_nil _)) he
    · have hopened : (Open.array []).Spelled := List.forall_mem_nil _
      exact spelled_beginValue (List.forall_mem_cons.2 ⟨hopened, he⟩) ht h
  | key members justOpened stack =>
    rw [Expecting.step] at h
    split at h
    · cases h
      exact he
    · cases h
    · split at h
      · cases h
        exact spelled_complete (.obj (List.forall_mem_nil _)) he.2
      · cases h
    · cases h
  | colon members name stack =>
    rw [Expecting.step] at h
    split at h
    · cases h
      exact List.forall_mem_cons.2 he
    · cases h
  | afterItem items stack =>
    rw [Expecting.step] at h
    split at h
    · cases h
      exact List.forall_mem_cons.2 he
    · cases h
      exact spelled_complete (.arr fun v hv => he.1 v (List.mem_reverse.1 hv)) he.2
    · cases h
  | afterMember members stack =>
    rw [Expecting.step] at h
    split at h
    · cases h
      exact he
    · cases h
      exact spelled_complete (.obj he.1) he.2
    · cases h
  | done v => cases h

theorem spelled_parse
    {maxDepth length : Nat} {e : Expecting} {ts : List PlacedToken} {v : Json} (he : e.Spelled)
    (hts : ∀ t ∈ ts, ∀ v, t.token = .scalar v → Spelled v) (h : parse maxDepth length e ts = .ok v) :
  Spelled v
  := by
  induction ts generalizing e with
  | nil =>
    cases e with
    | done w =>
      cases h
      exact he
    | _ => cases h
  | cons t ts ih =>
    obtain ⟨ht, hts⟩ := List.forall_mem_cons.1 hts
    rw [parse] at h
    split at h
    case h_1 => cases h
    case h_2 next hstep => exact ih (spelled_step he ht hstep) hts h

/-- A value that is read is spelled. -/
theorem spelled_of_read {maxDepth : Nat} {t : Text} {v : Json} (h : read maxDepth t = .ok v) :
  Spelled v
  := by
  unfold read at h
  split at h
  case isTrue => cases h
  case isFalse =>
    split at h
    case h_1 hparse =>
      cases h
      have hstart : (Expecting.value []).Spelled := List.forall_mem_nil _
      exact spelled_parse hstart (fun _ ht _ => spelled_of_mem_tokensOnto ht) hparse
    case h_2 => cases h

end Inlay.Json
