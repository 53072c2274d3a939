import Inlay.Proofs.Page
import Mathlib.Tactic.Use

/-!
# The events as a record of dependencies

Every question that a computation asks the disk is about a path that it records.  So two disks that
give the same answers at the recorded paths of a run give the same run (`SameRun`): the property
goes through sequences, through the tokens of a text, and so through scripts, images and nested
components, up to whole pages.
-/

namespace Inlay

/-- Two disks answer alike at the paths of the events: the same paths are files, and these hold the
same bytes. -/
def Disk.AgreeOn (d₁ d₂ : Disk) (events : List Event) : Prop :=
  ∀ e ∈ events, ∀ p, e.path = some p →
    d₁.isFile p = d₂.isFile p ∧ (d₁.isFile p = .ok true → d₁.read p = d₂.read p)

namespace Disk.AgreeOn

variable {d₁ d₂ : Disk} {events events' : List Event}

theorem of_append (h : AgreeOn d₁ d₂ (events ++ events')) :
  AgreeOn d₁ d₂ events ∧ AgreeOn d₁ d₂ events'
  := by
  constructor
  · intro e he
    apply h e (List.mem_append_left _ he)
  · intro e he
    apply h e (List.mem_append_right _ he)

theorem isFile_eq {e : Event} {p : Path} (h : AgreeOn d₁ d₂ (e :: events)) (hp : e.path = some p) :
  d₂.isFile p = d₁.isFile p
  := (h e (by simp) p hp).1.symm

theorem read_eq
    {e : Event} {p : Path} (h : AgreeOn d₁ d₂ (e :: events)) (hp : e.path = some p)
    (hfile : d₁.isFile p = .ok true) :
  d₂.read p = d₁.read p
  := ((h e (by simp) p hp).2 hfile).symm

theorem readReplacing_eq
    {e : Event} {p : Path} (h : AgreeOn d₁ d₂ (e :: events)) (hp : e.path = some p)
    (hfile : d₁.isFile p = .ok true) :
  d₂.readReplacing p = d₁.readReplacing p
  := by
  rw [Disk.readReplacing, Disk.readReplacing, h.read_eq hp hfile]

end Disk.AgreeOn

/-- If the first run succeeds, and the second disk answers alike at the paths that it records, then
the second run is the same. -/
def SameRun {α : Type} (d₁ d₂ : Disk) (x₁ x₂ : Recorded α) : Prop :=
  ∀ events a, x₁ = ⟨events, .ok a⟩ → Disk.AgreeOn d₁ d₂ events → x₂ = ⟨events, .ok a⟩

namespace SameRun

variable {d₁ d₂ : Disk} {α β : Type}

theorem refl (x : Recorded α) :
  SameRun d₁ d₂ x x
  := fun _ _ h _ => h

/-- A run that fails is no promise. -/
theorem of_error (events : List Event) (e : FileError) (x : Recorded α) :
  SameRun d₁ d₂ ⟨events, .error e⟩ x
  := by
  intro events' a h
  cases h

/-- What a run records, the disks may be taken to answer alike. -/
theorem of_agreeOn
    {x₁ x₂ : Recorded α} (h : Disk.AgreeOn d₁ d₂ x₁.events → SameRun d₁ d₂ x₁ x₂) :
  SameRun d₁ d₂ x₁ x₂
  := by
  intro events a hx hagree
  subst hx
  exact h hagree _ _ rfl hagree

/-- Two runs are the same if their beginnings are, and what comes after each value. -/
theorem bind
    {x₁ x₂ : Recorded α} {f₁ f₂ : α → Recorded β} (hx : SameRun d₁ d₂ x₁ x₂)
    (hf : ∀ a, SameRun d₁ d₂ (f₁ a) (f₂ a)) :
  SameRun d₁ d₂ (x₁.bind f₁) (x₂.bind f₂)
  := by
  intro events b h hagree
  obtain ⟨events₁, outcome⟩ := x₁
  cases outcome with
  | error e => cases h
  | ok a =>
    cases hrest : f₁ a with
    | mk events₂ outcome₂ =>
      rw [Recorded.bind_ok, hrest] at h
      cases h
      obtain ⟨hbefore, hafter⟩ := hagree.of_append
      rw [hx _ _ rfl hbefore, Recorded.bind_ok, hf a _ _ hrest hafter]

/-- Two substitutions are the same if what they put in the place of each token is. -/
theorem substitute
    {τ : Type} {f₁ f₂ : τ → Recorded Text} (hf : ∀ x, SameRun d₁ d₂ (f₁ x) (f₂ x))
    (pieces : List (Piece τ)) :
  SameRun d₁ d₂ (Recorded.substitute f₁ pieces) (Recorded.substitute f₂ pieces)
  := by
  induction pieces with
  | nil => apply refl
  | cons piece pieces ih =>
    cases piece with
    | gap t =>
      rw [Recorded.substitute_gap, Recorded.substitute_gap]
      apply ih.bind
      intro rest
      apply refl
    | token x =>
      rw [Recorded.substitute_token, Recorded.substitute_token]
      apply (hf x).bind
      intro t
      apply ih.bind
      intro rest
      apply refl

end SameRun

/-! ### Scripts and images -/

variable (d₁ d₂ : Disk)

theorem Script.sameRun_embed (base root : Path) (x : Element) :
  SameRun d₁ d₂ (embed d₁ base root x) (embed d₂ base root x)
  := by
  apply SameRun.of_agreeOn
  cases hfile : d₁.isFile (Path.resolve x.reference base root) with
  | error e =>
    rw [embed_of_error hfile]
    intro _
    apply SameRun.of_error
  | ok found =>
    cases found with
    | false =>
      rw [embed_of_missing hfile]
      intro hagree
      rw [embed_of_missing ((hagree.isFile_eq rfl).trans hfile)]
      apply SameRun.refl
    | true =>
      obtain ⟨content, hcontent⟩ := Disk.exists_readReplacing_of_isFile hfile
      rw [embed_of_file hfile hcontent]
      intro hagree
      rw [embed_of_file ((hagree.isFile_eq rfl).trans hfile)
        ((hagree.readReplacing_eq rfl hfile).trans hcontent)]
      apply SameRun.refl

theorem Image.sameRun_embed (base root : Path) (x : Element) :
  SameRun d₁ d₂ (embed d₁ base root x) (embed d₂ base root x)
  := by
  apply SameRun.of_agreeOn
  cases hpass : isPassedOver x.reference with
  | true =>
    rw [embed_of_passedOver hpass, embed_of_passedOver hpass]
    intro _
    apply SameRun.refl
  | false =>
    cases hfile : d₁.isFile (Path.resolve x.reference base root) with
    | error e =>
      rw [embed_of_error hpass hfile]
      intro _
      apply SameRun.of_error
    | ok found =>
      cases found with
      | false =>
        rw [embed_of_missing hpass hfile]
        intro hagree
        rw [embed_of_missing hpass ((hagree.isFile_eq rfl).trans hfile)]
        apply SameRun.refl
      | true =>
        obtain ⟨bytes, hread⟩ := Disk.exists_read_of_isFile hfile
        rw [embed_of_file hpass hfile hread]
        intro hagree
        rw [embed_of_file hpass ((hagree.isFile_eq rfl).trans hfile)
          ((hagree.read_eq rfl hfile).trans hread)]
        apply SameRun.refl

namespace Component

/-- The scripts and images of a text. -/
theorem sameRun_embedAssets (base root : Path) (t : Text) :
  SameRun d₁ d₂ (embedAssets d₁ base root t) (embedAssets d₂ base root t)
  := by
  apply SameRun.bind
  · apply SameRun.substitute
    apply Script.sameRun_embed
  · intro t'
    apply SameRun.substitute
    apply Image.sameRun_embed

/-! ### Components -/

variable {d₁ d₂}

/-- What a token calls for depends on the answers at its path. -/
theorem visit_congr
    {visited : List Path} {reference : Text} {path : Path} (hfile : d₂.isFile path = d₁.isFile path)
    (hread : d₁.isFile path = .ok true → d₂.readReplacing path = d₁.readReplacing path) :
  visit d₂ visited reference path = visit d₁ visited reference path
  := by
  rw [visit, visit, hfile]
  cases h : d₁.isFile path with
  | error e => rfl
  | ok found =>
    cases found with
    | false => rfl
    | true => rw [hread h]

theorem sameRun_nested
    (root base : Path) (visited : List Path) (pending : List (Piece Token)) :
  SameRun d₁ d₂ (nested d₁ root base visited pending) (nested d₂ root base visited pending)
  := by
  induction base, visited, pending using nested.induct d₁ root with
  | case1 base visited =>
    rw [nested_nil, nested_nil]
    apply SameRun.refl
  | case2 base visited t pending ih =>
    rw [nested_gap, nested_gap]
    apply ih.bind
    intro rest
    apply SameRun.refl
  | case3 base visited x pending reference path ihBody ih =>
    rw [nested_token, nested_token]
    apply SameRun.bind
    · apply SameRun.of_agreeOn
      have hvisit₂ : ∀ status, Disk.AgreeOn d₁ d₂ [⟨.component, reference, some path, status⟩] →
          visit d₂ visited reference path = visit d₁ visited reference path :=
        fun status hagree => visit_congr (hagree.isFile_eq rfl) (hagree.readReplacing_eq rfl)
      rw [inPlace_eq_visit, inPlace_eq_visit]
      cases hvisit : visit d₁ visited x.reference (Path.resolve x.reference base root) with
      | error e =>
        intro _
        apply SameRun.of_error
      | ok called =>
        cases called with
        | leave status comment =>
          intro hagree
          rw [hvisit₂ status hagree, hvisit]
          apply SameRun.refl
        | enter body =>
          obtain ⟨hfile, hnew⟩ := of_visit_eq_enter hvisit
          intro hagree
          rw [hvisit₂ .inlined hagree.of_append.1, hvisit]
          apply (SameRun.refl _).bind
          intro _
          apply (ihBody hfile hnew body).bind
          intro t
          apply sameRun_embedAssets
    · intro t
      apply ih.bind
      intro rest
      apply SameRun.refl

end Component

/-! ### Pages -/

theorem sameRun_assemble (root : Path) (document : Text) :
  SameRun d₁ d₂ (assemble d₁ root document) (assemble d₂ root document)
  := by
  rw [assemble_eq, assemble_eq]
  apply SameRun.bind
  · apply Component.sameRun_nested
  · intro expanded
    apply Component.sameRun_embedAssets

/-- The events of a page are a complete record of what it depends on: on a second disk with the same
current directory, the same document, and the same answers at all recorded paths, the same page
comes out, with the same events. -/
theorem compose_eq_of_agreeOn
    {d₁ d₂ : Disk} {input : Path} {page : Text} {events : List Event}
    (hcurrent : d₁.current = d₂.current) (h : Build.compose d₁ input = .ok (page, events))
    (hinput : d₁.read (Build.inputPath d₁ input) = d₂.read (Build.inputPath d₂ input))
    (hagree : d₁.AgreeOn d₂ events) :
  Build.compose d₂ input = .ok (page, events)
  := by
  obtain ⟨document, hread, hassemble⟩ := compose_eq_ok_iff.1 h
  have hpath : Build.inputPath d₂ input = Build.inputPath d₁ input := by
    simp only [Build.inputPath, Disk.currentPath, hcurrent]
  rw [hpath] at hinput
  apply compose_eq_ok_iff.2
  use document
  rw [hpath]
  constructor
  · rw [Disk.readText, ← hinput]
    exact hread
  · exact sameRun_assemble d₁ d₂ _ _ _ _ hassemble hagree

/-- The names of a document and of two scripts. -/
def documentName : Segment :=
  ⟨"page".toList, by decide, by decide, by decide⟩

def scriptName : Segment :=
  ⟨"a.js".toList, by decide, by decide, by decide⟩

def strayName : Segment :=
  ⟨"b.js".toList, by decide, by decide, by decide⟩

/-- A disk with a document that asks for a script, and with the script. -/
def oneScript : Disk :=
  ⟨.node none
    [(documentName, .node (some (.file (Utf8.encode "<script src=\"a.js\"></script>".toList))) []),
      (scriptName, .node (some (.file (Utf8.encode "1".toList))) [])], []⟩

theorem compose_oneScript :
  Build.compose oneScript ⟨.here, [documentName]⟩
    = .ok ("<script>\n1\n</script>".toList,
        [⟨.script, "a.js".toList, some ⟨.root, [scriptName]⟩, .inlined⟩])
  := by
  have hcomponents : Component.pieces "<script src=\"a.js\"></script>".toList
      = [.gap "<script src=\"a.js\"></script>".toList] := by decide +kernel
  have hscripts : Script.pieces "<script src=\"a.js\"></script>".toList
      = [.gap [], .token ⟨" ".toList, "a.js".toList⟩, .gap []] := by decide +kernel
  have hscript : Script.embedAll oneScript ⟨.root, []⟩ ⟨.root, []⟩
      "<script src=\"a.js\"></script>".toList
      = ⟨[⟨.script, "a.js".toList, some ⟨.root, [scriptName]⟩, .inlined⟩],
          .ok "<script>\n1\n</script>".toList⟩ := by
    rw [Script.embedAll, hscripts]
    rfl
  apply compose_eq_ok_iff.2
  use "<script src=\"a.js\"></script>".toList, rfl
  show assemble oneScript ⟨.root, []⟩ _ = _
  rw [assemble_of_pieces_eq_gap hcomponents]
  apply Component.embedAssets_of_pieces_eq_gap hscript
  decide +kernel

/-- A second script that the document does not ask for does not change the page. -/
theorem compose_oneScript_set_stray :
  Build.compose (oneScript.set [strayName] (.file [])) ⟨.here, [documentName]⟩
    = .ok ("<script>\n1\n</script>".toList,
        [⟨.script, "a.js".toList, some ⟨.root, [scriptName]⟩, .inlined⟩])
  := by
  apply compose_eq_of_agreeOn _ compose_oneScript
  · rfl
  · intro e he p hp
    obtain rfl := List.mem_singleton.1 he
    cases hp
    constructor
    · rfl
    · intro _
      rfl
  · rfl

end Inlay
