import Inlay.Build
import Inlay.Proofs.Component.Nested
import Inlay.Proofs.Image.Element
import Inlay.Proofs.Image.Embedding
import Inlay.Proofs.Origin.Followed
import Inlay.Proofs.Page

/-!
# Following a page

Scripts, images and components are put in place as in a build, with the marks of the text and an
edit for every event.  A script element and an element whose image is missing give way as a whole;
of an image that is a file only the source does, and a source that is passed over stays.  A
component token gives way to the text of its component, which is then rewritten itself.

Main statement: `exists_follow_of_compose`, a page that is composed can be followed, and the edits
account for it.
-/

namespace Inlay

/-! ### Scripts -/

namespace Script

/-- The reference in an element that stands in the text as `w`. -/
def Element.foundIn (x : Element) (w : Marked) : Marked :=
  (w.drop (opening ++ x.blanks ++ sourceName).length).take x.source.length

/-- What is put in the place of the element `x`, which stands in the text as `w`. -/
def follow (d : Disk) (base root : Path) (x : Element) (w : Marked) : Followed Marked := do
  let reference := x.reference
  let path := Path.resolve reference base root
  if ← Followed.lift (d.isFile path) then
    let content ← Followed.lift (d.readReplacing path)
    Followed.replace ⟨.script, reference, some path, .inlined⟩ (x.foundIn w) w (block content)
  else
    Followed.replace ⟨.script, reference, some path, .missing⟩ (x.foundIn w) w
      (missingComment reference)

/-- The marked text with its scripts embedded. -/
def followAll (d : Disk) (base root : Path) (u : Marked) : Followed Marked :=
  Followed.substitute pattern (follow d base root) (pieces (Marked.text u)) u

section

variable {d : Disk} {base root : Path} {edits : List Edit} {x : Element} {w : Marked}

theorem follow_of_missing (h : d.isFile (Path.resolve x.reference base root) = .ok false) :
  follow d base root x w
    = Followed.replace
        ⟨.script, x.reference, some (Path.resolve x.reference base root), .missing⟩ (x.foundIn w) w
        (missingComment x.reference)
  := by
  simp only [follow, h]
  rfl

theorem follow_of_file
    {content : Text} (h : d.isFile (Path.resolve x.reference base root) = .ok true)
    (hcontent : d.readReplacing (Path.resolve x.reference base root) = .ok content) :
  follow d base root x w
    = Followed.replace
        ⟨.script, x.reference, some (Path.resolve x.reference base root), .inlined⟩ (x.foundIn w) w
        (block content)
  := by
  simp only [follow, h, hcontent]
  rfl

theorem rewrites_follow (hx : x.IsScript) (hw : Marked.text w = x.text) :
  Rewrites d edits w (follow d base root x w) (embed d base root x)
  := by
  have hne := Marked.ne_nil_of_text_eq pattern hw
  have hfound : x.foundIn w ⊆ w := Marked.take_drop_subset _ _ _
  have htangible : ∀ path status, Edit.Tangible edits ⟨.script, x.reference, path, status⟩ w := by
    intro path status
    left
    rw [hw]
    exact .script hx
  cases hfile : d.isFile (Path.resolve x.reference base root) with
  | error e =>
    rw [embed_of_error hfile]
    apply Rewrites.of_error
  | ok found =>
    cases found with
    | false =>
      rw [embed_of_missing hfile, follow_of_missing hfile]
      exact Rewrites.replace (Edit.holdsScript_of_status_ne (by simp)) (htangible _ _) hfound hne
    | true =>
      obtain ⟨content, hcontent⟩ := Disk.exists_readReplacing_of_isFile hfile
      rw [embed_of_file hfile hcontent, follow_of_file hfile hcontent]
      apply Rewrites.replace _ (htangible _ _) hfound hne
      intro reference path hevent
      cases hevent
      exact ⟨content, hcontent, rfl⟩

end

theorem rewrites_followAll (d : Disk) (base root : Path) (edits : List Edit) (u : Marked) :
  Rewrites d edits u (followAll d base root u) (embedAll d base root (Marked.text u))
  := by
  apply Rewrites.substitute
  · intro x hx edits w hw
    apply rewrites_follow (isScript_of_mem_pieces hx) hw
  · exact (pattern.flatMap_text_pieces _).symm

end Script

/-! ### Images -/

namespace Image

/-- The reference in an element that stands in the text as `w`. -/
def Element.foundIn (x : Element) (w : Marked) : Marked :=
  (w.drop x.head.length).take x.source.length

/-- What is put in the place of the element `x`, which stands in the text as `w`. -/
def follow (d : Disk) (base root : Path) (x : Element) (w : Marked) : Followed Marked := do
  let reference := x.reference
  if isPassedOver reference then
    Followed.leave ⟨.image, reference, none, .skipped⟩ (x.foundIn w)
    return w
  else
    let path := Path.resolve reference base root
    if ← Followed.lift (d.isFile path) then
      let bytes ← Followed.lift (d.read path)
      Followed.replaceWithin ⟨.image, reference, some path, .inlined⟩ (x.foundIn w)
        (w.take x.head.length) (x.foundIn w) ((w.drop x.head.length).drop x.source.length)
        (dataUri (mediaType reference) bytes)
    else
      Followed.replace ⟨.image, reference, some path, .missing⟩ (x.foundIn w) w
        (missingComment reference)

/-- The marked text with its images embedded. -/
def followAll (d : Disk) (base root : Path) (u : Marked) : Followed Marked :=
  Followed.substitute pattern (follow d base root) (pieces (Marked.text u)) u

section

variable {d : Disk} {base root : Path} {edits : List Edit} {x : Element} {w : Marked}

theorem follow_of_passedOver (h : isPassedOver x.reference = true) :
  follow d base root x w
    = (Followed.leave ⟨.image, x.reference, none, .skipped⟩
        (x.foundIn w)).bind fun _ => Followed.pure w
  := by
  simp only [follow, h, if_true]
  rfl

theorem follow_of_missing
    (hpass : isPassedOver x.reference = false)
    (h : d.isFile (Path.resolve x.reference base root) = .ok false) :
  follow d base root x w
    = Followed.replace
        ⟨.image, x.reference, some (Path.resolve x.reference base root), .missing⟩
        (x.foundIn w) w (missingComment x.reference)
  := by
  simp only [follow, hpass, h]
  rfl

theorem follow_of_file
    {bytes : Bytes} (hpass : isPassedOver x.reference = false)
    (h : d.isFile (Path.resolve x.reference base root) = .ok true)
    (hread : d.read (Path.resolve x.reference base root) = .ok bytes) :
  follow d base root x w
    = Followed.replaceWithin
        ⟨.image, x.reference, some (Path.resolve x.reference base root), .inlined⟩ (x.foundIn w)
        (w.take x.head.length) (x.foundIn w) ((w.drop x.head.length).drop x.source.length)
        (dataUri (mediaType x.reference) bytes)
  := by
  simp only [follow, hpass, h, hread]
  rfl

/-- The source of an image and its quotes are a part of the text that holds it. -/
theorem takesHold_of_source
    {path : Option Path} {status : Status} {removed : Marked} {inserted : Text} (hx : x.IsImage)
    (hw : Marked.text w = x.text) (hremoved : removed ⊆ x.foundIn w) :
  Edit.TakesHold edits ⟨⟨.image, x.reference, path, status⟩, x.foundIn w, removed, inserted⟩ w
  := by
  obtain ⟨front, hhead⟩ := exists_head_eq_concat hx.isHead
  have hcut : w.map Prod.fst = front ++ ('"' :: (x.source ++ ['"']) ++ (x.tail ++ ['>'])) := by
    change Marked.text w = _
    rw [hw, Element.text, hhead]
    simp
  obtain ⟨before, rest, rfl, rfl, hrest⟩ := List.map_eq_append_iff.1 hcut
  obtain ⟨held, behind, rfl, hheld, -⟩ := List.map_eq_append_iff.1 hrest
  have hfound : x.foundIn (before ++ (held ++ behind)) ⊆ held := by
    have hlength : x.head.length = before.length + 1 := by simp [hhead]
    have hquotes : held.length = x.source.length + 2 := by
      rw [← List.length_map Prod.fst, hheld]
      simp
    rw [Element.foundIn, hlength, List.drop_length_add_append,
      List.drop_append_of_le_length (by omega),
      List.take_append_of_le_length (by rw [List.length_drop]; omega)]
    apply Marked.take_drop_subset
  use before, held, behind, (List.append_assoc ..).symm
  constructor
  · left
    change Event.Grips _ (held.map Prod.fst)
    rw [hheld]
    exact .source
  · exact ⟨hfound, List.Subset.trans hremoved hfound⟩

theorem rewrites_follow (hx : x.IsImage) (hw : Marked.text w = x.text) :
  Rewrites d edits w (follow d base root x w) (embed d base root x)
  := by
  have hkind : Kind.image ≠ .script := by simp
  cases hpass : isPassedOver x.reference with
  | true =>
    rw [embed_of_passedOver hpass, follow_of_passedOver hpass, ← hw]
    apply Rewrites.leave (Edit.holdsScript_of_kind_ne hkind)
    apply takesHold_of_source hx hw (List.nil_subset _)
  | false =>
    cases hfile : d.isFile (Path.resolve x.reference base root) with
    | error e =>
      rw [embed_of_error hpass hfile]
      apply Rewrites.of_error
    | ok found =>
      cases found with
      | false =>
        rw [embed_of_missing hpass hfile, follow_of_missing hpass hfile]
        apply Rewrites.replace (Edit.holdsScript_of_kind_ne hkind)
        · left
          rw [hw]
          exact .element
        · apply Marked.take_drop_subset
        · apply Marked.ne_nil_of_text_eq pattern hw
      | true =>
        obtain ⟨bytes, hread⟩ := Disk.exists_read_of_isFile hfile
        rw [embed_of_file hpass hfile hread, follow_of_file hpass hfile hread]
        have hcut : Marked.text w = x.head ++ (x.source ++ '"' :: (x.tail ++ ['>'])) := by
          rw [hw, Element.text, List.append_assoc]
        obtain ⟨hhead, hafter⟩ := Marked.text_take_and_drop hcut
        obtain ⟨hfound, htail⟩ := Marked.text_take_and_drop hafter
        apply Rewrites.replaceWithin (Edit.holdsScript_of_kind_ne hkind)
        · apply takesHold_of_source hx hw (List.Subset.refl _)
        · apply Marked.ne_nil_of_text
          rw [Element.foundIn, hfound]
          exact hx.source_ne_nil
        · rw [Element.foundIn, List.take_append_drop, List.take_append_drop]
        · rw [hhead, htail, Element.text, List.append_assoc]

end

theorem rewrites_followAll (d : Disk) (base root : Path) (edits : List Edit) (u : Marked) :
  Rewrites d edits u (followAll d base root u) (embedAll d base root (Marked.text u))
  := by
  apply Rewrites.substitute
  · intro x hx edits w hw
    apply rewrites_follow (isImage_of_mem_pieces hx) hw
  · exact (pattern.flatMap_text_pieces _).symm

end Image

/-! ### Components -/

namespace Component

/-- The scripts and images of a marked text. -/
def followAssets (d : Disk) (base root : Path) (u : Marked) : Followed Marked := do
  Image.followAll d base root (← Script.followAll d base root u)

theorem rewrites_followAssets (d : Disk) (base root : Path) (edits : List Edit) (u : Marked) :
  Rewrites d edits u (followAssets d base root u) (embedAssets d base root (Marked.text u))
  := by
  apply (Script.rewrites_followAll d base root edits u).bind
  intro new v _ _
  apply Image.rewrites_followAll

/-- The reference in a token that stands in the text as `w`. -/
def Token.foundIn (x : Token) (w : Marked) : Marked :=
  (w.drop 1).take x.inner.length

/-- The components of the pieces of a marked text in the directory `base`, when those in `visited`
are being expanded. -/
def follow (d : Disk) (root base : Path) (visited : List Path) :
    List (Piece Token) → Marked → Followed Marked
  | [], _ => Followed.pure []
  | .gap t :: pending, u =>
    Followed.append (Followed.pure (u.take t.length))
      (follow d root base visited pending (u.drop t.length))
  | .token x :: pending, u =>
    let path := Path.resolve x.reference base root
    let w := u.take (pattern.text x).length
    let inPlace : Followed Marked :=
      match _hvisit : visit d visited x.reference path with
      | .error e => Followed.fail e
      | .ok (.leave status comment) =>
        Followed.replace ⟨.component, x.reference, some path, status⟩ (x.foundIn w) w comment
      | .ok (.enter body) => do
        let opened ← Followed.replace ⟨.component, x.reference, some path, .inlined⟩ (x.foundIn w) w
          body
        let expanded ← follow d root path.parent (path :: visited) (pieces body) opened
        followAssets d path.parent root expanded
    Followed.append inPlace
      (follow d root base visited pending (u.drop (pattern.text x).length))
termination_by pending => (Path.room maxPathBytes visited, pending.length)
decreasing_by
  · exact Prod.Lex.right _ (by simp)
  · obtain ⟨hfile, hnew⟩ := of_visit_eq_enter _hvisit
    exact Prod.Lex.left _ _ (Path.room_cons_lt (Disk.size_le_of_isFile hfile) hnew)
  · exact Prod.Lex.right _ (by simp)

/-- What is put in the place of the token `x`, which stands in the text as `w`. -/
def followInPlace (d : Disk) (root base : Path) (visited : List Path) (x : Token) (w : Marked) :
    Followed Marked :=
  let path := Path.resolve x.reference base root
  match visit d visited x.reference path with
  | .error e => Followed.fail e
  | .ok (.leave status comment) =>
    Followed.replace ⟨.component, x.reference, some path, status⟩ (x.foundIn w) w comment
  | .ok (.enter body) =>
    (Followed.replace ⟨.component, x.reference, some path, .inlined⟩ (x.foundIn w) w body).bind
      fun opened => (follow d root path.parent (path :: visited) (pieces body) opened).bind
        (followAssets d path.parent root)

theorem follow_token
    (d : Disk) (root base : Path) (visited : List Path) (x : Token) (pending : List (Piece Token))
    (u : Marked) :
  follow d root base visited (.token x :: pending) u
    = Followed.append
        (followInPlace d root base visited x (u.take (pattern.text x).length))
        (follow d root base visited pending (u.drop (pattern.text x).length))
  := by
  rw [follow, followInPlace]
  apply congrArg fun m => Followed.append m _
  split
  case h_1 e hvisit => rw [hvisit]
  case h_2 status comment hvisit => rw [hvisit]
  case h_3 body hvisit =>
    rw [hvisit]
    rfl

/-- Whatever becomes of a token, it gives way as a whole. -/
theorem rewrites_replace
    {d : Disk} {edits : List Edit} {x : Token} {w : Marked} (hauthored : Edit.Authored edits w)
    (hw : Marked.text w = pattern.text x) (path : Path) (status : Status) (inserted : Text) :
  Rewrites d edits w
    (Followed.replace ⟨.component, x.reference, some path, status⟩ (x.foundIn w) w inserted)
    ⟨[⟨.component, x.reference, some path, status⟩], .ok inserted⟩
  := by
  apply Rewrites.replace (Edit.holdsScript_of_kind_ne (by simp)) (.inr hauthored)
  · apply Marked.take_drop_subset
  · apply Marked.ne_nil_of_text_eq pattern hw

/-- The components of an authored text are put in place as in a build. -/
theorem rewrites_follow
    {d : Disk} (root base : Path) (visited : List Path) (pending : List (Piece Token)) :
  ∀ edits u, Edit.Authored edits u → Marked.text u = pending.flatMap pattern.pieceText →
    Rewrites d edits u (follow d root base visited pending u) (nested d root base visited pending)
  := by
  induction base, visited, pending using nested.induct d root with
  | case1 base visited =>
    intro edits u _ hu
    obtain rfl : u = [] := List.map_eq_nil_iff.1 hu
    rw [nested_nil, follow]
    apply Rewrites.keep rfl
  | case2 base visited t pending ih =>
    intro edits u hauthored hu
    have hcut : Marked.text u = t ++ pending.flatMap pattern.pieceText := hu
    obtain ⟨hhere, hthere⟩ := Marked.text_take_and_drop hcut
    rw [nested_gap, follow]
    apply (Rewrites.keep hhere).append_take_drop
    intro new
    exact ih _ _ ((hauthored.append new).of_subset (List.drop_subset _ _)) hthere
  | case3 base visited x pending reference path ihBody ih =>
    intro edits u hauthored hu
    have hcut : Marked.text u = pattern.text x ++ pending.flatMap pattern.pieceText := hu
    obtain ⟨hhere, hthere⟩ := Marked.text_take_and_drop hcut
    rw [nested_token, follow_token]
    apply Rewrites.append_take_drop
    · have htoken := hauthored.of_subset (List.take_subset (pattern.text x).length u)
      rw [followInPlace, inPlace_eq_visit]
      cases hvisit : visit d visited x.reference (Path.resolve x.reference base root) with
      | error e => apply Rewrites.of_error
      | ok called =>
        cases called with
        | leave status comment => exact rewrites_replace htoken hhere _ status comment
        | enter body =>
          obtain ⟨hfile, hnew⟩ := of_visit_eq_enter hvisit
          apply (rewrites_replace htoken hhere _ .inlined body).bind
          intro new v hrun hv
          -- The text of the component is what its event has put in.
          have hopened : Edit.Authored (edits ++ new) v := by
            cases hrun
            apply Edit.authored_brought rfl
          obtain rfl : body = Marked.text v := Except.ok.inj hv
          apply (ihBody hfile hnew _ _ v hopened (pattern.flatMap_text_pieces _).symm).bind
          intro new' v' _ _
          apply rewrites_followAssets
    · intro new
      exact ih _ _ ((hauthored.append new).of_subset (List.drop_subset _ _)) hthere

end Component

/-! ### Pages -/

/-- The components, then the scripts and images of a document, with marks. -/
def followAssemble (d : Disk) (root : Path) (document : Text) : Followed Marked := do
  let expanded ←
    Component.follow d root root [] (Component.pieces document) (Marked.plain document)
  Component.followAssets d root root expanded

theorem rewrites_followAssemble (d : Disk) (root : Path) (edits : List Edit) (document : Text) :
  Rewrites d edits (Marked.plain document) (followAssemble d root document)
    (assemble d root document)
  := by
  have hcover : Marked.text (Marked.plain document)
      = (Component.pieces document).flatMap Component.pattern.pieceText := by
    rw [Marked.text_plain]
    exact (Component.pattern.flatMap_text_pieces document).symm
  have hauthored := Edit.authored_plain edits document
  rw [assemble_eq]
  apply (Component.rewrites_follow root root [] _ edits _ hauthored hcover).bind
  intro new v _ _
  apply Component.rewrites_followAssets

namespace Build

/-- The marked page of a document and the edits on the way. -/
def follow (d : Disk) (input : Path) : Except TextError (List Edit × Marked) :=
  match d.readText .strict (inputPath d input) with
  | .error e => .error e
  | .ok document =>
    match followAssemble d (inputPath d input).parent document 0 with
    | .error e => .error (.file e)
    | .ok followed => .ok followed

/-- A page that is composed can be followed: the marked page has its characters, there is an edit
for every event, and the edits account for the page. -/
theorem exists_follow_of_compose
    {d : Disk} {input : Path} {page : Text} {events : List Event}
    (h : compose d input = .ok (page, events)) :
  ∃ edits u, follow d input = .ok (edits, u) ∧ edits.map Edit.event = events
    ∧ Marked.text u = page ∧ Account d edits u
  := by
  obtain ⟨document, hread, hassemble⟩ := compose_eq_ok_iff.1 h
  have hstart : Account d [] ([] ++ Marked.plain document ++ []) := by
    simpa using Account.start d document
  obtain ⟨edits, u, hrun, hevents, htext, haccount⟩ :=
    rewrites_followAssemble d _ [] document hstart hassemble
  rw [List.length_nil] at hrun
  use edits, u
  constructor
  · rw [follow, hread]
    dsimp only
    rw [hrun]
  · use hevents, htext
    simpa using haccount

end Build

end Inlay
