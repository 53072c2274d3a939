import Inlay.Disk.Text
import Inlay.Event
import Inlay.Proofs.Origin.Grip
import Inlay.Proofs.Origin.Marked
import Inlay.Script.Embedding

/-!
# Edits

What an event does to the text around its reference is an edit: a part gives way to a new text.  A
list of edits accounts for a text (`Account`) when every character that an edit put in either stands
in the text still or was removed by a later edit, what no later edit removes from stands in one
piece, and what is apart from all that later events take hold of is not touched.  Main statement:
`Account.insert`, one more edit keeps the account.
-/

namespace Inlay

/-- What one event did to a text. -/
structure Edit where
  event : Event
  /-- The reference as it was found in the text. -/
  found : Marked
  /-- The part of the text that gave way. -/
  removed : Marked
  /-- The text that was put in its place. -/
  inserted : Text

namespace Edit

/-- The text that a script put in is its block. -/
def HoldsScript (d : Disk) (e : Edit) : Prop :=
  ∀ reference path, e.event = ⟨.script, reference, some path, .inlined⟩ →
    ∃ content, d.readReplacing path = .ok content ∧ e.inserted = Script.block content

/-- All characters were there before any of the edits, or were put in by one of a component. -/
def Authored (edits : List Edit) (u : Marked) : Prop :=
  ∀ c ∈ u, ∀ n, c.2 = some n → ∃ e, edits[n]? = some e ∧ e.event.kind = .component

/-- What may be taken hold of by an event after some edits: a text of the shape that its pass looks
for, or one that is authored. -/
def Tangible (edits : List Edit) (event : Event) (held : Marked) : Prop :=
  event.Grips (Marked.text held) ∨ Authored edits held

/-- After some edits, another one took hold of a part of the text `u`: its reference was found
there, and nothing else was removed. -/
def TakesHold (edits : List Edit) (e : Edit) (u : Marked) : Prop :=
  ∃ front held back, u = front ++ held ++ back ∧ Tangible edits e.event held
    ∧ e.found ⊆ held ∧ e.removed ⊆ held

section

variable {d : Disk} {kind : Kind} {reference inserted : Text} {path : Option Path} {status : Status}
  {found removed : Marked}

/-- An event that is not of a script is no promise. -/
theorem holdsScript_of_kind_ne (h : kind ≠ .script) :
  HoldsScript d ⟨⟨kind, reference, path, status⟩, found, removed, inserted⟩
  := by
  intro _ _ hevent
  cases hevent
  exact absurd rfl h

/-- A script that is not put in place is no promise. -/
theorem holdsScript_of_status_ne (h : status ≠ .inlined) :
  HoldsScript d ⟨⟨kind, reference, path, status⟩, found, removed, inserted⟩
  := by
  intro _ _ hevent
  cases hevent
  exact absurd rfl h

end

section

variable {edits : List Edit} {e : Edit} {u : Marked} {n : Nat}

theorem Authored.append (h : Authored edits u) (more : List Edit) :
  Authored (edits ++ more) u
  := by
  intro c hc n hn
  obtain ⟨e, he, hkind⟩ := h c hc n hn
  use e
  constructor
  · rw [List.getElem?_append_left (List.getElem?_eq_some_iff.1 he).1]
    exact he
  · exact hkind

theorem Authored.of_subset {v : Marked} (h : Authored edits u) (hsubset : v ⊆ u) :
  Authored edits v
  := fun c hc => h c (hsubset hc)

theorem authored_plain (edits : List Edit) (t : Text) :
  Authored edits (Marked.plain t)
  := by
  intro c hc n hn
  obtain ⟨x, -, rfl⟩ := List.mem_map.1 hc
  cases hn

/-- What a component has just put in is authored. -/
theorem authored_brought (hkind : e.event.kind = .component) (t : Text) :
  Authored (edits ++ [e]) (Marked.brought edits.length t)
  := by
  intro c hc n hn
  obtain ⟨x, -, rfl⟩ := List.mem_map.1 hc
  obtain rfl := Option.some.inj hn
  exact ⟨e, by simp, hkind⟩

/-- No script put in any of what is authored. -/
theorem Authored.freeOf
    (h : Authored edits u) (he : edits[n]? = some e) (hkind : e.event.kind = .script) :
  Marked.FreeOf n u
  := by
  intro c hc hn
  obtain ⟨e', he', hkind'⟩ := h c hc n hn
  rw [he] at he'
  cases he'
  rw [hkind] at hkind'
  cases hkind'

/-- An edit that takes hold of a part of a text does so in a longer text. -/
theorem TakesHold.append (h : TakesHold edits e u) (front back : Marked) :
  TakesHold edits e (front ++ u ++ back)
  := by
  obtain ⟨front', held, back', rfl, h⟩ := h
  use front ++ front', held, back' ++ back
  constructor
  · simp only [List.append_assoc]
  · exact h

/-- An edit takes hold of a text that it removes as a whole. -/
theorem takesHold_of_removed
    (htangible : Tangible edits e.event e.removed) (hfound : e.found ⊆ e.removed) :
  TakesHold edits e e.removed
  := ⟨[], e.removed, [], by simp, htangible, hfound, List.Subset.refl _⟩

end

/-- How much of what the event `n` put in is removed by edits. -/
def removedOf (n : Nat) : List Edit → Nat
  | [] => 0
  | e :: edits => Marked.count n e.removed + removedOf n edits

/-- Nothing that the event `n` put in is removed by edits. -/
def Spare (n : Nat) (edits : List Edit) : Prop :=
  ∀ e ∈ edits, Marked.FreeOf n e.removed

theorem removedOf_concat (n : Nat) (edits : List Edit) (e : Edit) :
  removedOf n (edits ++ [e]) = removedOf n edits + Marked.count n e.removed
  := by
  induction edits with
  | nil => simp [removedOf]
  | cons e' edits ih => rw [List.cons_append, removedOf, ih, removedOf, Nat.add_assoc]

theorem removedOf_eq_zero_iff {n : Nat} {edits : List Edit} :
  removedOf n edits = 0 ↔ Spare n edits
  := by
  induction edits with
  | nil => simp [removedOf, Spare]
  | cons e edits ih =>
    rw [removedOf, Nat.add_eq_zero_iff, ih, Marked.count_eq_zero_iff]
    simp only [Spare, List.forall_mem_cons]

theorem spare_concat {n : Nat} {edits : List Edit} {e : Edit} :
  Spare n (edits ++ [e]) ↔ Spare n edits ∧ Marked.FreeOf n e.removed
  := by simp [Spare, or_imp, forall_and]

end Edit

/-! ### Accounts -/

open Edit Marked

/-- What became of the text `t` that the event `n` put in, when the edits `later` came after it and
`u` is the text now. -/
structure Fate (n : Nat) (t : Text) (later : List Edit) (u : Marked) : Prop where
  count_add_removed : count n u + removedOf n later = t.length
  stands : Spare n later → brought n t <:+: u

/-- What an event put in stands in one piece exactly if no later edit removes any of it. -/
theorem Fate.stands_iff
    {n : Nat} {t : Text} {later : List Edit} {u : Marked} (h : Fate n t later u) :
  brought n t <:+: u ↔ Spare n later
  := by
  constructor
  · intro hstands
    apply removedOf_eq_zero_iff.1
    have hlength := length_le_count hstands
    have hcount := h.count_add_removed
    omega
  · exact h.stands

/-- When something else gives way, nothing is lost. -/
theorem Fate.insert
    {n m : Nat} {t : Text} {later : List Edit} {front back : Marked} {e : Edit}
    (h : Fate n t later (front ++ e.removed ++ back)) (hne : m ≠ n)
    (hinserted : e.removed = [] → e.inserted = []) :
  Fate n t (later ++ [e]) (front ++ brought m e.inserted ++ back)
  := by
  constructor
  · have hcount := h.count_add_removed
    have hnew := count_eq_zero_iff.2 (freeOf_brought hne e.inserted)
    simp only [count_append] at hcount ⊢
    rw [removedOf_concat]
    omega
  · intro hspare
    obtain ⟨hlater, hfree⟩ := spare_concat.1 hspare
    apply infix_of_infix_replace _ _ (h.stands hlater)
    · intro c hc hmem
      obtain ⟨x, -, rfl⟩ := List.mem_map.1 hmem
      exact hfree _ hc rfl
    · intro hremoved
      rw [hinserted hremoved]
      rfl

/-- What an event has just put in stands in one piece. -/
theorem Fate.start
    {n : Nat} {t : Text} {front back : Marked} (hfront : FreeOf n front) (hback : FreeOf n back) :
  Fate n t [] (front ++ brought n t ++ back)
  := by
  constructor
  · have hfront := count_eq_zero_iff.2 hfront
    have hback := count_eq_zero_iff.2 hback
    simp only [count_append, count_brought, removedOf]
    omega
  · intro _
    apply List.infix_append

/-- A part of the text holds nothing of what an event put in, if it is apart from that. -/
theorem Fate.freeOf_of_apart
    {n : Nat} {t : Text} {later : List Edit} {front held back : Marked}
    (h : Fate n t later (front ++ held ++ back)) (hspare : Spare n later)
    (hapart : Apart (text held) t) :
  FreeOf n held
  := by
  obtain ⟨before, behind, hstands⟩ := h.stands hspare
  have hcount := h.count_add_removed
  rw [← hstands, removedOf_eq_zero_iff.2 hspare] at hcount
  simp only [count_append, count_brought] at hcount
  have hbefore : FreeOf n before := count_eq_zero_iff.1 (by omega)
  have hbehind : FreeOf n behind := count_eq_zero_iff.1 (by omega)
  have hmarked : Apart held (brought n t) := by
    apply Apart.of_map (f := Prod.fst)
    change Apart (text held) (text (brought n t))
    rw [text_brought]
    exact hapart
  rcases hmarked.stands_before_or_behind hstands with hfront | hback
  · intro c hc
    apply hbefore c (hfront.subset (List.mem_append_right _ hc))
  · intro c hc
    apply hbehind c (hback.subset (List.mem_append_left _ hc))

/-- Nothing of the text `t` that the event `n` put in is found or removed by the edits `later`, if
their events take hold only of what is apart from it. -/
def Untouched (n : Nat) (t : Text) (later : List Edit) : Prop :=
  (∀ e ∈ later, ∀ held, e.event.Grips held → Apart held t) →
    ∀ e ∈ later, FreeOf n e.found ∧ FreeOf n e.removed

/-- One more edit takes hold of a part of the text, after that of a script. -/
theorem Untouched.concat
    {n : Nat} {edits later : List Edit} {u : Marked} {script e : Edit}
    (h : Untouched n script.inserted later) (hfate : Fate n script.inserted later u)
    (hn : edits[n]? = some script) (hkind : script.event.kind = .script)
    (htakes : TakesHold edits e u) :
  Untouched n script.inserted (later ++ [e])
  := by
  intro hapart
  simp only [List.forall_mem_append, List.forall_mem_singleton] at hapart ⊢
  obtain ⟨hlater, hlast⟩ := hapart
  have hearlier := h hlater
  obtain ⟨front, held, back, rfl, htangible, hfound, hremoved⟩ := htakes
  have hspare : Spare n later := fun e' he' => (hearlier e' he').2
  have hheld : FreeOf n held := by
    rcases htangible with hgrips | hauthored
    · exact hfate.freeOf_of_apart hspare (hlast _ hgrips)
    · exact hauthored.freeOf hn hkind
  constructor
  · exact hearlier
  · constructor
    · intro c hc
      exact hheld c (hfound hc)
    · intro c hc
      exact hheld c (hremoved hc)

/-- The edits account for a text: its marks are of their events, every edit of a script holds the
script, and of each edit it is known what became of its text, and of a script what does not touch
it. -/
structure Account (d : Disk) (edits : List Edit) (u : Marked) : Prop where
  freeOf : ∀ n, edits.length ≤ n → FreeOf n u
  holdsScript : ∀ e ∈ edits, e.HoldsScript d
  fate : ∀ before e later, edits = before ++ e :: later → Fate before.length e.inserted later u
  untouched : ∀ before e later, edits = before ++ e :: later → e.event.kind = .script →
    Untouched before.length e.inserted later

namespace Account

variable {d : Disk} {edits : List Edit}

/-- Before any event nothing has to be accounted for. -/
theorem start (d : Disk) (t : Text) :
  Account d [] (plain t)
  := by
  constructor
  · intro n _
    apply freeOf_plain
  · intro e he
    cases he
  · intro before e later h
    simp at h
  · intro before e later h
    simp at h

/-- One more edit keeps the account. -/
theorem insert
    {front back : Marked} {e : Edit} (h : Account d edits (front ++ e.removed ++ back))
    (hscript : e.HoldsScript d) (htakes : TakesHold edits e (front ++ e.removed ++ back))
    (hinserted : e.removed = [] → e.inserted = []) :
  Account d (edits ++ [e]) (front ++ brought edits.length e.inserted ++ back)
  := by
  have hparts : ∀ n, edits.length ≤ n → FreeOf n front ∧ FreeOf n back := by
    intro n hn
    obtain ⟨hfront, hback⟩ := freeOf_append.1 (h.freeOf n hn)
    exact ⟨(freeOf_append.1 hfront).1, hback⟩
  -- An edit is the new one, or there is an account of it already.
  have hedits : ∀ before e' later, edits ++ [e] = before ++ e' :: later →
      before = edits ∧ e' = e ∧ later = []
        ∨ ∃ earlier, later = earlier ++ [e] ∧ edits = before ++ e' :: earlier := by
    intro before e' later heq
    rcases List.eq_nil_or_concat later with rfl | ⟨earlier, last, rfl⟩
    · obtain ⟨rfl, rfl⟩ := List.append_singleton_inj.1 heq
      exact .inl ⟨rfl, rfl, rfl⟩
    · rw [List.concat_eq_append, ← List.cons_append, ← List.append_assoc] at heq
      obtain ⟨rfl, rfl⟩ := List.append_singleton_inj.1 heq
      exact .inr ⟨earlier, List.concat_eq_append, rfl⟩
  constructor
  · intro n hn
    rw [List.length_append, List.length_singleton] at hn
    obtain ⟨hfront, hback⟩ := hparts n (by omega)
    apply freeOf_append.2 ⟨freeOf_append.2 ⟨hfront, freeOf_brought (by omega) _⟩, hback⟩
  · intro e' he'
    rcases List.mem_append.1 he' with he' | he'
    · exact h.holdsScript e' he'
    · rw [List.mem_singleton.1 he']
      exact hscript
  · intro before e' later heq
    rcases hedits before e' later heq with ⟨rfl, rfl, rfl⟩ | ⟨earlier, rfl, rfl⟩
    · obtain ⟨hfront, hback⟩ := hparts _ (Nat.le_refl _)
      apply Fate.start hfront hback
    · apply (h.fate _ _ _ rfl).insert _ hinserted
      simp
  · intro before e' later heq hkind
    rcases hedits before e' later heq with ⟨rfl, rfl, rfl⟩ | ⟨earlier, rfl, rfl⟩
    · intro _ e' he'
      cases he'
    · exact (h.untouched _ _ _ rfl hkind).concat (h.fate _ _ _ rfl) (by simp) hkind htakes

/-- Of a script that was put in, its text is known, what became of its block, and what does not
touch it. -/
theorem exists_block
    {u : Marked} {n : Nat} {reference : Text} {path : Path} (h : Account d edits u)
    (hn : (edits.map Edit.event)[n]? = some ⟨.script, reference, some path, .inlined⟩) :
  ∃ content, d.readReplacing path = .ok content
    ∧ Fate n (Script.block content) (edits.drop (n + 1)) u
    ∧ Untouched n (Script.block content) (edits.drop (n + 1))
  := by
  rw [List.getElem?_map, Option.map_eq_some_iff] at hn
  obtain ⟨e, he, hevent⟩ := hn
  obtain ⟨hlength, rfl⟩ := List.getElem?_eq_some_iff.1 he
  obtain ⟨content, hcontent, hinserted⟩ := h.holdsScript _ (List.getElem_mem hlength) _ _ hevent
  have hcut : edits = edits.take n ++ edits[n] :: edits.drop (n + 1) := by simp
  have hfate := h.fate _ _ _ hcut
  have huntouched := h.untouched _ _ _ hcut (by rw [hevent])
  rw [hinserted, List.length_take_of_le (Nat.le_of_lt hlength)] at hfate huntouched
  exact ⟨content, hcontent, hfate, huntouched⟩

end Account

end Inlay
