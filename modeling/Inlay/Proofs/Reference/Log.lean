import Inlay.Proofs.Component.Steps
import Inlay.Proofs.Reference.Site

/-!
# The log of a build

Every event of a build is backed by those before it (`events_are_backed`): its path is that of the
reference, from the root of the project or from the directory of a component that was opened before,
and its status is what the disk says of that path.  A log is coherent if each of its events is
backed, and so the log of a run is put together from those of its parts.
-/

namespace Inlay

/-! ### Coherent logs -/

/-- The event of a component that was opened at a path. -/
def Event.Opens (e : Event) (p : Path) : Prop :=
  e.kind = .component ∧ e.status = .inlined ∧ e.path = some p

/-- A directory from which references start after some events: that of the project, or that of a
component that was opened. -/
def StartsFrom (root : Path) (earlier : List Event) (base : Path) : Prop :=
  base = root ∨ ∃ e ∈ earlier, ∃ p, e.Opens p ∧ base = p.parent

/-- What a disk and the earlier events say of an event. -/
structure Event.IsBacked (d : Disk) (root : Path) (earlier : List Event) (e : Event) : Prop where
  path_eq_none_iff : e.path = none ↔ e.status = .skipped
  skipped : e.status = .skipped →
    e.kind = .image ∧ ∃ start ∈ Image.passedOver, start <+: Text.lower e.reference
  inlined : e.status = .inlined → ∃ p, e.path = some p ∧ d.isFile p = .ok true
  missing : e.status = .missing → ∃ p, e.path = some p ∧ d.isFile p = .ok false
  circular : e.status = .circular →
    e.kind = .component ∧ ∃ p, e.path = some p ∧ ∃ opened ∈ earlier, opened.Opens p
  path_eq : ∀ p, e.path = some p →
    ∃ base, StartsFrom root earlier base ∧ p = Path.resolve e.reference base root

/-- Each event of a log is backed by those before it, if `earlier` came before the log. -/
def IsCoherent (d : Disk) (root : Path) (earlier events : List Event) : Prop :=
  ∀ before e after, events = before ++ e :: after → e.IsBacked d root (earlier ++ before)

variable {d : Disk} {root : Path} {earlier earlier' : List Event}

namespace IsCoherent

theorem nil :
  IsCoherent d root earlier []
  := by
  intro before e after h
  simp at h

theorem singleton {e : Event} (h : e.IsBacked d root earlier) :
  IsCoherent d root earlier [e]
  := by
  intro before e' after heq
  obtain ⟨rfl, rfl, rfl⟩ : before = [] ∧ e' = e ∧ after = [] := by
    cases before with
    | nil => simpa [eq_comm] using heq
    | cons _ before => simp at heq
  rwa [List.append_nil]

/-- A log goes on with one that is coherent after it. -/
theorem append
    {events events' : List Event} (h : IsCoherent d root earlier events)
    (h' : IsCoherent d root (earlier ++ events) events') :
  IsCoherent d root earlier (events ++ events')
  := by
  intro before e after heq
  rcases List.append_eq_append_iff.1 heq with ⟨between, rfl, hlater⟩ | ⟨between, hearlier, hlater⟩
  · rw [← List.append_assoc]
    exact h' between e after hlater
  · cases between with
    | nil =>
      rw [List.append_nil] at hearlier
      subst hearlier
      rw [List.nil_append] at hlater
      simpa using h' [] e after hlater.symm
    | cons first between =>
      cases hlater
      exact h before _ between hearlier

/-- A computation in two parts has a coherent log if both parts do. -/
theorem bind
    {α β : Type} {x : Recorded α} {f : α → Recorded β} (hx : IsCoherent d root earlier x.events)
    (hf : ∀ a, IsCoherent d root (earlier ++ x.events) (f a).events) :
  IsCoherent d root earlier (x.bind f).events
  := by
  obtain ⟨events, outcome⟩ := x
  cases outcome with
  | error e => exact hx
  | ok a => exact hx.append (hf a)

/-- A substitution has a coherent log if what is put in the place of each token does, whatever
events come before. -/
theorem substitute
    {τ : Type} {f : τ → Recorded Text} {pieces : List (Piece τ)}
    (hf : ∀ x, .token x ∈ pieces → ∀ earlier', earlier ⊆ earlier' →
      IsCoherent d root earlier' (f x).events) :
  IsCoherent d root earlier (Recorded.substitute f pieces).events
  := by
  induction pieces generalizing earlier with
  | nil => apply nil
  | cons piece pieces ih =>
    cases piece with
    | gap t =>
      rw [Recorded.substitute_gap]
      apply bind (ih fun x hx => hf x (List.mem_cons_of_mem _ hx))
      intro rest
      apply nil
    | token x =>
      rw [Recorded.substitute_token]
      apply bind (hf x (by simp) earlier (List.Subset.refl _))
      intro t
      apply bind
      · apply ih
        intro y hy earlier' hsub
        apply hf y (List.mem_cons_of_mem _ hy)
        exact List.Subset.trans (List.subset_append_left _ _) hsub
      · intro rest
        apply nil

end IsCoherent

/-! ### References -/

theorem StartsFrom.mono {base : Path} (h : StartsFrom root earlier base) (hsub : earlier ⊆ earlier') :
  StartsFrom root earlier' base
  := by
  rcases h with rfl | ⟨e, he, hopens⟩
  · exact .inl rfl
  · exact .inr ⟨e, hsub he, hopens⟩

/-- The components at some paths were opened. -/
def WereOpened (earlier : List Event) (visited : List Path) : Prop :=
  ∀ p ∈ visited, ∃ e ∈ earlier, e.Opens p

theorem WereOpened.mono
    {visited : List Path} (h : WereOpened earlier visited) (hsub : earlier ⊆ earlier') :
  WereOpened earlier' visited
  := by
  intro p hp
  obtain ⟨e, he, hopens⟩ := h p hp
  exact ⟨e, hsub he, hopens⟩

namespace Site

variable {s : Site}

/-- A reference stands where references start from, and within components that were opened. -/
def IsGrounded (root : Path) (earlier : List Event) : Site → Prop
  | .component base visited _ => StartsFrom root earlier base ∧ WereOpened earlier visited
  | .script base _ => StartsFrom root earlier base
  | .image base _ => StartsFrom root earlier base

theorem IsGrounded.startsFrom (h : s.IsGrounded root earlier) :
  StartsFrom root earlier s.base
  := by
  cases s with
  | component => exact h.1
  | script => exact h
  | image => exact h

/-- A reference to an open component has been opened before. -/
theorem IsGrounded.of_isOpen (h : s.IsGrounded root earlier) (hopen : s.isOpen root = true) :
  s.kind = .component ∧ ∃ e ∈ earlier, e.Opens (s.path root)
  := by
  cases s with
  | component base visited x => exact ⟨rfl, h.2 _ (of_decide_eq_true hopen)⟩
  | script => cases hopen
  | image => cases hopen

/-- What a status says of its reference. -/
theorem of_status_eq_ok {status : Status} (h : s.status d root = .ok status) :
  match status with
  | .inlined => d.isFile (s.path root) = .ok true
  | .missing => d.isFile (s.path root) = .ok false
  | .circular => s.isOpen root = true
  | .skipped => s.isPassedOver = true
  := by
  cases hpass : s.isPassedOver with
  | true =>
    rw [status_of_passedOver hpass] at h
    cases h
    rfl
  | false =>
    cases hfile : d.isFile (s.path root) with
    | error e =>
      have herror : s.status d root = .error e := by
        rw [Site.status, if_neg (by simp [hpass]), hfile]
      rw [herror] at h
      cases h
    | ok found =>
      rw [status_of_isFile hpass hfile] at h
      cases found with
      | false =>
        cases h
        rfl
      | true =>
        cases hopen : s.isOpen root with
        | true =>
          rw [hopen] at h
          cases h
          rfl
        | false =>
          rw [hopen] at h
          cases h
          rfl

/-- Only the start of an image's source can have it left alone. -/
theorem exists_isPrefix_of_isPassedOver (h : s.isPassedOver = true) :
  s.kind = .image ∧ ∃ start ∈ Image.passedOver, start <+: Text.lower s.reference
  := by
  cases s with
  | component => cases h
  | script => cases h
  | image base x =>
    obtain ⟨start, hmem, hprefix⟩ := List.any_eq_true.1 h
    exact ⟨rfl, start, hmem, List.isPrefixOf_iff_prefix.1 hprefix⟩

/-- The event of a reference is backed by the events before it. -/
theorem IsGrounded.isBacked_event
    (h : s.IsGrounded root earlier) {status : Status} (hstatus : s.status d root = .ok status) :
  (s.event root status).IsBacked d root earlier
  where
  path_eq_none_iff := by simp [event]
  skipped := by
    rintro rfl
    exact exists_isPrefix_of_isPassedOver (of_status_eq_ok hstatus)
  inlined := by
    rintro rfl
    exact ⟨_, rfl, of_status_eq_ok hstatus⟩
  missing := by
    rintro rfl
    exact ⟨_, rfl, of_status_eq_ok hstatus⟩
  circular := by
    rintro rfl
    obtain ⟨hkind, hopened⟩ := h.of_isOpen (of_status_eq_ok hstatus)
    exact ⟨hkind, _, rfl, hopened⟩
  path_eq := by
    intro p hp
    rw [event] at hp
    split at hp
    case isTrue => cases hp
    case isFalse =>
      cases hp
      exact ⟨s.base, h.startsFrom, rfl⟩

/-- What is put in the place of a reference has a coherent log, if this holds of the text of a
component that it opens. -/
theorem IsGrounded.isCoherent_inPlace
    (h : s.IsGrounded root earlier)
    (hbody : ∀ base visited x body, s = .component base visited x →
      Component.visit d visited x.reference (s.path root) = .ok (.enter body) →
      IsCoherent d root (earlier ++ [s.event root .inlined])
        (Pass.runAll d root (Pass.ofBody (s.path root).parent (s.path root :: visited)) body).events) :
  IsCoherent d root earlier (s.inPlace d root).events
  := by
  cases hstatus : s.status d root with
  | error e =>
    rw [inPlace_of_status_error hstatus]
    exact .nil
  | ok status =>
    have hown := IsCoherent.singleton (h.isBacked_event hstatus)
    rcases inPlace_cases hstatus with ⟨t, ht⟩ | ⟨base, visited, x, body, rfl, rfl, hvisit⟩
    · rw [ht]
      exact hown
    · rw [inPlace_of_enter hvisit]
      apply IsCoherent.bind hown
      intro _
      exact hbody base visited x body rfl hvisit

end Site

/-! ### Runs -/

namespace Component

/-- The scripts and images of a text have a coherent log. -/
theorem isCoherent_embedAssets {base : Path} (h : StartsFrom root earlier base) (t : Text) :
  IsCoherent d root earlier (embedAssets d base root t).events
  := by
  rw [embedAssets_eq]
  apply IsCoherent.bind
  · apply IsCoherent.substitute
    intro x _ earlier' hsub
    have hscript : Site.IsGrounded root earlier' (.script base x) := h.mono hsub
    apply hscript.isCoherent_inPlace
    intro _ _ _ _ heq
    cases heq
  · intro t'
    apply IsCoherent.substitute
    intro x _ earlier' hsub
    have himage : Site.IsGrounded root earlier' (.image base x) :=
      h.mono (List.Subset.trans (List.subset_append_left _ _) hsub)
    apply himage.isCoherent_inPlace
    intro _ _ _ _ heq
    cases heq

/-- The components of a text have a coherent log, if those that are being expanded were opened. -/
theorem isCoherent_nested
    (base : Path) (visited : List Path) (pending : List (Piece Token)) (earlier : List Event)
    (hbase : StartsFrom root earlier base) (hvisited : WereOpened earlier visited) :
  IsCoherent d root earlier (nested d root base visited pending).events
  := by
  induction base, visited, pending using nested.induct d root generalizing earlier with
  | case1 base visited =>
    rw [nested_nil]
    exact .nil
  | case2 base visited t pending ih =>
    rw [nested_gap]
    apply IsCoherent.bind (ih earlier hbase hvisited)
    intro rest
    exact .nil
  | case3 base visited x pending reference path ihBody ih =>
    rw [nested_token]
    apply IsCoherent.bind
    · have hsite : Site.IsGrounded root earlier (.component base visited x) := ⟨hbase, hvisited⟩
      apply hsite.isCoherent_inPlace
      rintro _ _ _ body heq hvisit
      cases heq
      obtain ⟨hfile, hnew⟩ := of_visit_eq_enter hvisit
      -- From here on the component is open, and its text starts from its directory.
      have hopens : (Site.event root (.component base visited x) .inlined).Opens path :=
        ⟨rfl, rfl, rfl⟩
      generalize Site.event root (.component base visited x) .inlined = opened at hopens ⊢
      have hstart : StartsFrom root (earlier ++ [opened]) path.parent :=
        .inr ⟨opened, by simp, path, hopens, rfl⟩
      have hopened : WereOpened (earlier ++ [opened]) (path :: visited) := by
        intro p hp
        rcases List.mem_cons.1 hp with rfl | hp
        · exact ⟨opened, by simp, hopens⟩
        · exact hvisited.mono (List.subset_append_left _ _) p hp
      rw [Pass.runAll_ofBody]
      apply IsCoherent.bind (ihBody hfile hnew body _ hstart hopened)
      intro t
      exact isCoherent_embedAssets (hstart.mono (List.subset_append_left _ _)) t
    · intro t
      apply IsCoherent.bind
      · exact ih _ (hbase.mono (List.subset_append_left _ _))
          (hvisited.mono (List.subset_append_left _ _))
      · intro rest
        exact .nil

end Component

/-- A document leaves a coherent log, whether a page comes of it or not. -/
theorem isCoherent_assemble (d : Disk) (root : Path) (document : Text) :
  IsCoherent d root [] (assemble d root document).events
  := by
  have hstart : ∀ earlier, StartsFrom root earlier root := fun _ => .inl rfl
  rw [assemble_eq]
  apply IsCoherent.bind
  · apply Component.isCoherent_nested _ _ _ _ (hstart [])
    intro p hp
    cases hp
  · intro expanded
    exact Component.isCoherent_embedAssets (hstart _) expanded

/-- Every event of a page is backed by the disk and by the events before it.  It has no path exactly
if it was left alone, as only an image on the network or within the text is; otherwise its path is
that of its reference, from the root of the project or from the directory of a component that was
opened before.  There is a file if it was inlined, and none if it is missing; and if it is circular,
then it is of a component that was opened before under the same path. -/
theorem events_are_backed
    {d : Disk} {input : Path} {page : Text} {events : List Event}
    (h : Build.compose d input = .ok (page, events)) :
  ∀ before e after, events = before ++ e :: after →
    e.IsBacked d (Build.inputPath d input).parent before
  := by
  obtain ⟨document, -, hassemble⟩ := compose_eq_ok_iff.1 h
  have hcoherent := isCoherent_assemble d (Build.inputPath d input).parent document
  rw [hassemble] at hcoherent
  exact hcoherent

/-! ### A component in a directory -/

/-- A disk with a document that asks for a component in a directory, and with the component, which
asks for itself and for an image that is not there. -/
def gallery : Disk :=
  ((Disk.empty []).add (Path.ofText "/index.html".toList)
    (.file (Utf8.encode "[c/a.comp]".toList))).add (Path.ofText "/c/a.comp".toList)
      (.file (Utf8.encode "[a.comp]<img src=\"x.png\">".toList))

/-- The path of the component. -/
def galleryPath : Path :=
  Path.ofText "/c/a.comp".toList

/-- The page of the document. -/
def galleryPage : Text :=
  "<!-- Circular reference prevented: a.comp --><!-- Missing image: x.png -->".toList

/-- The events of the document. -/
def galleryEvents : List Event := [
  ⟨.component, "c/a.comp".toList, some galleryPath, .inlined⟩,
  ⟨.component, "a.comp".toList, some galleryPath, .circular⟩,
  ⟨.image, "x.png".toList, some (Path.ofText "/c/x.png".toList), .missing⟩]

theorem compose_gallery :
  Build.compose gallery (Path.ofText "index.html".toList) = .ok (galleryPage, galleryEvents)
  := by
  have hexpand : Component.expand gallery ⟨.root, []⟩ ⟨.root, []⟩ [] "[c/a.comp]".toList
      = ⟨[], ⟨galleryEvents, .ok galleryPage⟩⟩ := by
    apply Component.Expansion.run_of_after_eq_finished (n := 8)
    with_unfolding_all rfl
  exact compose_of_expand rfl rfl hexpand (by decide +kernel) (by decide +kernel)

/-- The component has been opened when it asks for itself, and the image starts from its
directory. -/
theorem gallery_events_are_backed :
  Build.compose gallery (Path.ofText "index.html".toList) = .ok (galleryPage, galleryEvents)
    ∧ Event.IsBacked gallery ⟨.root, []⟩ (galleryEvents.take 1)
        ⟨.component, "a.comp".toList, some galleryPath, .circular⟩
    ∧ Event.IsBacked gallery ⟨.root, []⟩ (galleryEvents.take 2)
        ⟨.image, "x.png".toList, some (Path.ofText "/c/x.png".toList), .missing⟩
  := by
  have hbacked := events_are_backed compose_gallery
  exact ⟨compose_gallery, hbacked _ _ _ rfl, hbacked _ _ _ rfl⟩

end Inlay
