import Inlay.Json.Reader
import Inlay.Proofs.Json.Scan
import Mathlib.Data.List.Nodup
import Mathlib.Data.List.Perm.Basic
import Mathlib.Tactic.Use

/-!
# Reading what was printed

`Reads` says what reading a text comes to from a point on, one token at a time.  A value is read
back from its layout, and so from the stable layout, where its members come in the order of their
keys (`read_print`).
-/

namespace Inlay.Json

/-- A value that is read back: at most `room` containers stand within one another, no object has a
key twice, no integer is too long, and there are no other numbers. -/
inductive Readable : (room : Nat) → Json → Prop
  | null {room} : Readable room .null
  | bool {room b} : Readable room (.bool b)
  | int {room n} (h : FitsDigits n) : Readable room (.int n)
  | str {room t} : Readable room (.str t)
  | arr {room items} (h : ∀ v ∈ items, Readable room v) : Readable (room + 1) (.arr items)
  | obj {room members} (hkeys : (members.map Prod.fst).Nodup) (h : ∀ m ∈ members, Readable room m.2) :
    Readable (room + 1) (.obj members)

/-! ### One token at a time -/

/-- The tokens found so far stand before the others. -/
theorem tokensOnto_eq (done : List PlacedToken) (position : Nat) (t : Text) :
  tokensOnto done position t = done.reverse ++ tokensOnto [] position t
  := by
  induction hlength : t.length using Nat.strongRecOn generalizing done position t with
  | ind n ih =>
    cases t with
    | nil => simp [tokensOnto]
    | cons c cs =>
      conv => lhs; rw [tokensOnto]
      conv => rhs; rw [tokensOnto]
      have hn : cs.length < n := by
        rw [← hlength]
        simp
      dsimp only
      split
      case isTrue => exact ih _ hn _ _ _ rfl
      case isFalse =>
        split
        case isTrue => simp
        case isFalse =>
          have hdrop : (cs.drop (tokenAt position c cs).2).length < n := by
            rw [List.length_drop]
            omega
          rw [ih _ hdrop _ _ _ rfl, ih _ hdrop [_] _ _ rfl]
          simp

/-- Reading a text where something is expected comes to a value, with at most `maxDepth` containers
open within one another. -/
def Reads (maxDepth : Nat) (e : Expecting) (t : Text) (w : Json) : Prop :=
  ∀ position length, parse maxDepth length e (tokensOnto [] position t) = .ok w

namespace Reads

variable {maxDepth : Nat} {e next : Expecting} {t : Text} {w : Json}

theorem done (v : Json) :
  Reads maxDepth (.done v) [] v
  := by
  intro position length
  rw [tokensOnto]
  rfl

theorem space {c : Char} (hc : isSpace c = true) (h : Reads maxDepth e t w) :
  Reads maxDepth e (c :: t) w
  := by
  intro position length
  rw [tokensOnto, if_pos hc]
  apply h

theorem token
    {c : Char} {token : Token} {cs rest : Text} (hc : isSpace c = false)
    (htoken : ∀ position, tokenAt position c (cs ++ rest) = (token, cs.length))
    (hlast : token.isLast = false)
    (hstep : ∀ position, e.step maxDepth ⟨position, token⟩ = .ok next)
    (h : Reads maxDepth next rest w) :
  Reads maxDepth e (c :: (cs ++ rest)) w
  := by
  intro position length
  have hdrop : (cs ++ rest).drop cs.length = rest := List.drop_left
  rw [tokensOnto, if_neg (by simp [hc]), htoken]
  simp only [hlast, Bool.false_eq_true, if_false, hdrop]
  rw [tokensOnto_eq]
  show parse maxDepth length e (_ :: _) = _
  rw [parse, hstep]
  apply h

/-- A token of a single character. -/
theorem mark
    {c : Char} {token : Token} {rest : Text} (hc : isSpace c = false)
    (htoken : ∀ position cs, tokenAt position c cs = (token, 0))
    (hlast : token.isLast = false)
    (hstep : ∀ position, e.step maxDepth ⟨position, token⟩ = .ok next)
    (h : Reads maxDepth next rest w) :
  Reads maxDepth e (c :: rest) w
  := by
  rw [← List.nil_append rest]
  apply Reads.token hc (fun position => htoken position _) hlast hstep h

theorem lineStart (depth : Nat) (h : Reads maxDepth e t w) :
  Reads maxDepth e (lineStart depth ++ t) w
  := by
  rw [Json.lineStart, List.cons_append]
  apply space rfl
  induction 2 * depth with
  | zero => exact h
  | succ n ih => exact space rfl ih

end Reads

theorem isSpace_of_startsNumber {c : Char} (hc : c.isDigit = true ∨ c = '-') :
  isSpace c = false
  := by
  rcases hc with hdigit | rfl
  · by_contra hspace
    simp only [isSpace, Bool.not_eq_false, Bool.or_eq_true, decide_eq_true_eq] at hspace
    rcases hspace with ((rfl | rfl) | rfl) | rfl <;> cases hdigit
  · rfl

/-! ### Values -/

theorem layoutItems_cons (depth : Nat) (rest : Text) (v : Json) (items : List Json) :
  layoutItems depth false rest (v :: items)
    = ',' :: (lineStart (depth + 1)
        ++ layout (depth + 1) (layoutItems depth false rest items) v)
  := rfl

theorem layoutMembers_cons
    (depth : Nat) (rest key : Text) (v : Json) (members : Members) :
  layoutMembers depth false rest ((key, v) :: members)
    = ',' :: (lineStart (depth + 1)
        ++ (quote key ++ ": ".toList
          ++ layout (depth + 1) (layoutMembers depth false rest members) v))
  := by
  rw [layoutMembers]
  simp

theorem endsNumber_cons
    {c : Char} (hc : c.isDigit = false ∧ c ≠ '.' ∧ c ≠ 'e' ∧ c ≠ 'E') (t : Text) :
  EndsNumber (c :: t)
  := by
  intro c' hc'
  cases hc'
  exact hc

theorem endsNumber_layoutItems (depth : Nat) (rest : Text) (items : List Json) :
  EndsNumber (layoutItems depth false rest items)
  := by
  cases items with
  | nil => exact endsNumber_cons (by decide) _
  | cons v items => exact endsNumber_cons (by decide) _

theorem endsNumber_layoutMembers (depth : Nat) (rest : Text) (members : Members) :
  EndsNumber (layoutMembers depth false rest members)
  := by
  cases members with
  | nil => exact endsNumber_cons (by decide) _
  | cons m members => exact endsNumber_cons (by decide) _

/-- A value is read back where one is expected within the containers of `stack`. -/
def ReadsBack (maxDepth room : Nat) (v : Json) : Prop :=
  ∀ (stack : List Open) {depth rest w e}, stack.length + room ≤ maxDepth → EndsNumber rest →
    (∀ position token, token ≠ .closeArray →
      e.step maxDepth ⟨position, token⟩ = beginValue maxDepth stack ⟨position, token⟩) →
    Reads maxDepth (complete v stack) rest w → Reads maxDepth e (layout depth rest v) w

/-- The items of an array that follow others. -/
theorem reads_layoutItems
    {maxDepth room depth : Nat} {rest : Text} {w : Json} {stack : List Open} {items : List Json}
    (hitems : ∀ v ∈ items, ReadsBack maxDepth room v)
    (hroom : stack.length + (room + 1) ≤ maxDepth) (before : List Json)
    (h : Reads maxDepth (complete (.arr (before.reverse ++ items)) stack) rest w) :
  Reads maxDepth (.afterItem before stack) (layoutItems depth false rest items) w
  := by
  induction items generalizing before with
  | nil =>
    rw [List.append_nil] at h
    rw [layoutItems]
    apply Reads.lineStart
    exact .mark rfl (fun _ _ => rfl) rfl (fun _ => rfl) h
  | cons v items ih =>
    obtain ⟨hv, hitems⟩ := List.forall_mem_cons.1 hitems
    rw [layoutItems_cons]
    apply Reads.mark rfl (fun _ _ => rfl) rfl (fun _ => rfl)
    apply Reads.lineStart
    apply hv (.array before :: stack) (by simp; omega) (endsNumber_layoutItems depth rest items)
      (fun _ _ _ => rfl)
    apply ih hitems
    simpa using h

/-- A member is read by its key, a colon and its value. -/
theorem reads_member
    {maxDepth : Nat} {key : Text} {members : Members} {justOpened : Bool} {stack : List Open}
    {t : Text} {w : Json}
    (h : Reads maxDepth (.value (.object members key :: stack)) t w) :
  Reads maxDepth (.key members justOpened stack) (quote key ++ ": ".toList ++ t) w
  := by
  rw [List.append_assoc, quote, List.cons_append]
  apply Reads.token rfl (fun position => tokenAt_quote position key _) rfl (fun _ => rfl)
  apply Reads.mark rfl (fun _ _ => rfl) rfl (fun _ => rfl)
  exact .space rfl h

/-- A new key comes behind the others. -/
theorem put_of_not_mem {members : Members} {key : Text} (h : key ∉ members.map Prod.fst) (v : Json) :
  members.put key v = members ++ [(key, v)]
  := by
  induction members with
  | nil => rfl
  | cons m members ih =>
    obtain ⟨k, u⟩ := m
    obtain ⟨hk, hrest⟩ : key ≠ k ∧ key ∉ members.map Prod.fst := by simpa using h
    have hsame : Text.same k key ≠ true := fun hsame => hk (Text.same_iff.1 hsame).symm
    rw [Members.put, if_neg hsame, ih hrest]
    rfl

/-- The members of an object that follow others. -/
theorem reads_layoutMembers
    {maxDepth room depth : Nat} {rest : Text} {w : Json} {stack : List Open} {members : Members}
    (hmembers : ∀ m ∈ members, ReadsBack maxDepth room m.2)
    (hroom : stack.length + (room + 1) ≤ maxDepth) (before : Members)
    (hkeys : ((before ++ members).map Prod.fst).Nodup)
    (h : Reads maxDepth (complete (.obj (before ++ members)) stack) rest w) :
  Reads maxDepth (.afterMember before stack) (layoutMembers depth false rest members) w
  := by
  induction members generalizing before with
  | nil =>
    rw [List.append_nil] at h
    rw [layoutMembers]
    apply Reads.lineStart
    exact .mark rfl (fun _ _ => rfl) rfl (fun _ => rfl) h
  | cons m members ih =>
    obtain ⟨key, v⟩ := m
    obtain ⟨hv, hmembers⟩ := List.forall_mem_cons.1 hmembers
    have hnew : key ∉ before.map Prod.fst := by
      rw [List.map_append, List.nodup_append] at hkeys
      intro hmem
      exact hkeys.2.2 key hmem key (by simp) rfl
    rw [layoutMembers_cons]
    apply Reads.mark rfl (fun _ _ => rfl) rfl (fun _ => rfl)
    apply Reads.lineStart
    apply reads_member
    apply hv (.object before key :: stack) (by simp; omega) (endsNumber_layoutMembers depth rest members)
      (fun _ _ _ => rfl)
    rw [complete, put_of_not_mem hnew]
    apply ih hmembers
    · simpa using hkeys
    · simpa using h

/-- What is printed of a value is read as that value. -/
theorem Readable.readsBack {maxDepth room : Nat} {v : Json} (hv : Readable room v) :
  ReadsBack maxDepth room v
  := by
  induction hv with
  | null =>
    intro stack depth rest w e hroom hrest hbegin h
    exact .token rfl (fun _ => rfl) rfl (fun _ => hbegin _ _ (by simp)) h
  | @bool _ b =>
    intro stack depth rest w e hroom hrest hbegin h
    cases b with
    | false => exact .token rfl (fun _ => rfl) rfl (fun _ => hbegin _ _ (by simp)) h
    | true => exact .token rfl (fun _ => rfl) rfl (fun _ => hbegin _ _ (by simp)) h
  | @int _ n hn =>
    intro stack depth rest w e hroom hrest hbegin h
    obtain ⟨c, cs, hc, hcs⟩ := exists_ofInt_eq_cons n
    rw [layout, hcs, List.cons_append]
    exact .token (isSpace_of_startsNumber hc) (tokenAt_ofInt hn hrest hcs) rfl
      (fun _ => hbegin _ _ (by simp)) h
  | @str _ t =>
    intro stack depth rest w e hroom hrest hbegin h
    rw [layout, quote, List.cons_append]
    exact .token rfl (fun position => tokenAt_quote position t rest) rfl
      (fun _ => hbegin _ _ (by simp)) h
  | @arr room items _ ih =>
    intro stack depth rest w e hroom hrest hbegin h
    have hopen : openContainer maxDepth .array stack = .ok (.item stack) := by
      rw [openContainer, if_neg (by omega)]
    rw [layout]
    apply Reads.mark rfl (fun _ _ => rfl) rfl
      (fun position => (hbegin position .openArray (by simp)).trans hopen)
    cases items with
    | nil => exact .mark rfl (fun _ _ => rfl) rfl (fun _ => rfl) h
    | cons v items =>
      obtain ⟨hv, hitems⟩ := List.forall_mem_cons.1 ih
      rw [layoutItems]
      apply Reads.lineStart
      apply hv (.array [] :: stack) (by simp; omega) (endsNumber_layoutItems depth rest items)
      · intro position token htoken
        cases token <;> first | rfl | exact absurd rfl htoken
      · exact reads_layoutItems hitems hroom [v] h
  | @obj room members hkeys _ ih =>
    intro stack depth rest w e hroom hrest hbegin h
    have hopen : openContainer maxDepth .object stack = .ok (.key [] true stack) := by
      rw [openContainer, if_neg (by omega)]
    rw [layout]
    apply Reads.mark rfl (fun _ _ => rfl) rfl
      (fun position => (hbegin position .openObject (by simp)).trans hopen)
    cases members with
    | nil => exact .mark rfl (fun _ _ => rfl) rfl (fun _ => rfl) h
    | cons m members =>
      obtain ⟨key, v⟩ := m
      obtain ⟨hv, hmembers⟩ := List.forall_mem_cons.1 ih
      rw [layoutMembers]
      simp only [if_true, List.nil_append, List.append_assoc]
      apply Reads.lineStart
      rw [← List.append_assoc]
      apply reads_member
      apply hv (.object [] key :: stack) (by simp; omega)
        (endsNumber_layoutMembers depth rest members) (fun _ _ _ => rfl)
      exact reads_layoutMembers hmembers hroom [(key, v)] hkeys h

/-! ### The stable layout -/

theorem sortedItems_eq (items : List Json) :
  sortedItems items = items.map sorted
  := by
  induction items with
  | nil => rw [sortedItems, List.map_nil]
  | cons v items ih => rw [sortedItems, List.map_cons, ih]

theorem sortedMembers_eq (members : Members) :
  sortedMembers members = members.map fun m => (m.1, m.2.sorted)
  := by
  induction members with
  | nil => rw [sortedMembers, List.map_nil]
  | cons m members ih => rw [sortedMembers, List.map_cons, ih]

/-- The members of an object that has been sorted. -/
def sortMembers (members : Members) : Members :=
  (members.map fun m => (m.1, m.2.sorted)).mergeSort fun m n => keyLe m.1 n.1

theorem sorted_arr (items : List Json) :
  (arr items).sorted = .arr (items.map sorted)
  := by
  rw [sorted, sortedItems_eq]

theorem sorted_obj (members : Members) :
  (obj members).sorted = .obj (sortMembers members)
  := by
  rw [sorted, sortedMembers_eq]
  rfl

theorem sortMembers_perm (members : Members) :
  (sortMembers members).Perm (members.map fun m => (m.1, m.2.sorted))
  := List.mergeSort_perm ..

theorem keys_sortMembers_perm (members : Members) :
  ((sortMembers members).map Prod.fst).Perm (members.map Prod.fst)
  := by
  have hperm := (sortMembers_perm members).map Prod.fst
  rwa [List.map_map] at hperm

/-- Sorting changes nothing about whether a value is read back. -/
theorem Readable.sorted {room : Nat} {v : Json} (hv : Readable room v) :
  Readable room v.sorted
  := by
  induction hv with
  | null => exact .null
  | bool => exact .bool
  | int hn => exact .int hn
  | str => exact .str
  | arr _ ih =>
    rw [sorted_arr]
    apply Readable.arr
    intro v hv
    obtain ⟨u, hu, rfl⟩ := List.mem_map.1 hv
    exact ih u hu
  | @obj room members hkeys _ ih =>
    rw [sorted_obj]
    apply Readable.obj ((keys_sortMembers_perm members).nodup_iff.2 hkeys)
    intro m hm
    obtain ⟨n, hn, rfl⟩ := List.mem_map.1 ((sortMembers_perm members).mem_iff.1 hm)
    exact ih n hn

/-- A layout starts with a character that is no byte order mark. -/
theorem Readable.head?_layout_ne
    {room : Nat} {v : Json} (hv : Readable room v) (depth : Nat) (rest : Text) :
  (layout depth rest v).head? ≠ some '\uFEFF'
  := by
  cases hv with
  | null => simp [layout]
  | @bool _ b => cases b <;> simp [layout]
  | @int _ n hn =>
    obtain ⟨c, cs, hc, hcs⟩ := exists_ofInt_eq_cons n
    rw [layout, hcs]
    rintro heq
    cases heq
    rcases hc with hc | hc <;> cases hc
  | str => simp [layout, quote]
  | arr => simp [layout]
  | obj => simp [layout]

/-- What is printed of a value in the stable layout is read as that value, with its members in the
order of their keys. -/
theorem read_print
    {maxDepth room : Nat} {v : Json} (hv : Readable room v) (hroom : room ≤ maxDepth) :
  read maxDepth v.print = .ok v.sorted
  := by
  have hreads : Reads maxDepth (.value []) v.print v.sorted := by
    apply hv.sorted.readsBack [] (by simpa using hroom) (endsNumber_cons (by decide) [])
      (fun _ _ _ => rfl)
    exact .space rfl (.done v.sorted)
  have hhead : v.print.head? ≠ some '\uFEFF' := hv.sorted.head?_layout_ne 0 ['\n']
  have hparse : parse maxDepth v.print.length (.value []) (tokens v.print) = .ok v.sorted := hreads 0 _
  rw [read, if_neg hhead, hparse]

/-! ### Line ends -/

theorem return_not_mem_escapeChar (c : Char) :
  '\r' ∉ escapeChar c
  := by
  have hdigit : ∀ n < 16, '\r' ≠ Bytes.hexDigit n := by decide
  rcases escapeChar_cases c with ⟨letter, -, hletter, -, heq⟩ | ⟨hcontrol, heq⟩ | ⟨-, -, hplain, heq⟩
  · simp [heq, hletter.symm]
  · simp [heq, hdigit (c.toNat / 16) (by omega), hdigit (c.toNat % 16) (by omega)]
  · rw [heq, List.mem_singleton]
    rintro rfl
    exact hplain (by decide)

theorem return_not_mem_quote (t : Text) :
  '\r' ∉ quote t
  := by
  simp [quote, return_not_mem_escapeChar]

theorem return_not_mem_ofInt (n : Int) :
  '\r' ∉ ofInt n
  := by
  have hnumeral : ∀ m, '\r' ∉ Text.ofNat m := by
    intro m hmem
    cases isDigit_of_mem_ofNat hmem
  cases n with
  | ofNat n => exact hnumeral n
  | negSucc n => simpa [ofInt] using hnumeral (n + 1)

theorem return_not_mem_lineStart (depth : Nat) :
  '\r' ∉ lineStart depth
  := by
  simp [lineStart]

/-- A value that is read back is printed without carriage returns. -/
theorem Readable.return_not_mem_layout
    {room : Nat} {v : Json} (hv : Readable room v) (depth : Nat) {rest : Text} (hrest : '\r' ∉ rest) :
  '\r' ∉ layout depth rest v
  := by
  induction hv generalizing depth rest with
  | null => simpa [layout] using hrest
  | @bool _ b => cases b <;> simpa [layout] using hrest
  | int => simpa [layout, return_not_mem_ofInt] using hrest
  | str => simpa [layout, return_not_mem_quote] using hrest
  | @arr _ items _ ih =>
    have hitems : ∀ first, '\r' ∉ layoutItems depth first rest items := by
      clear * - ih hrest
      induction items with
      | nil => intro first; cases first <;> simp [layoutItems, return_not_mem_lineStart, hrest]
      | cons v items ihItems =>
        obtain ⟨hv, hitems⟩ := List.forall_mem_cons.1 ih
        have hvalue := hv (depth + 1) (ihItems hitems false)
        intro first
        cases first <;> simp [layoutItems, return_not_mem_lineStart, hvalue]
    simpa [layout] using hitems true
  | @obj _ members _ _ ih =>
    have hmembers : ∀ first, '\r' ∉ layoutMembers depth first rest members := by
      clear * - ih hrest
      induction members with
      | nil => intro first; cases first <;> simp [layoutMembers, return_not_mem_lineStart, hrest]
      | cons m members ihMembers =>
        obtain ⟨hv, hmembers⟩ := List.forall_mem_cons.1 ih
        have hvalue := hv (depth + 1) (ihMembers hmembers false)
        intro first
        cases first <;>
          simp [layoutMembers, return_not_mem_lineStart, return_not_mem_quote, hvalue]
    simpa [layout] using hmembers true

theorem Readable.return_not_mem_print {room : Nat} {v : Json} (hv : Readable room v) :
  '\r' ∉ v.print
  := hv.sorted.return_not_mem_layout 0 (by decide)

end Inlay.Json
