import Inlay.Build
import Inlay.Proofs.Component.Nested
import Inlay.Proofs.Host

/-!
# The page of a document

A page comes of a document by the recursion over its components, after which its own scripts and
images are put in place.  A build composes its page, writes it, and then writes the manifest
(`Build.exists_of_run_eq_ok`).
-/

namespace Inlay

/-- The components by the recursion, then the scripts and the images. -/
theorem assemble_eq (d : Disk) (root : Path) (document : Text) :
  assemble d root document
    = (Component.nested d root root [] (Component.pieces document)).bind
        (Component.embedAssets d root root)
  := by
  rw [assemble, Component.expand_eq]
  rfl

/-- Without component tokens only the scripts and the images are put in place. -/
theorem assemble_of_pieces_eq_gap
    {document : Text} (h : Component.pieces document = [.gap document]) (d : Disk) (root : Path) :
  assemble d root document = Component.embedAssets d root root document
  := by
  rw [assemble_eq, h, Component.nested_gap, Component.nested_nil, Recorded.bind_ok, List.append_nil]
  rfl

/-- Where there are no script elements, the text stays. -/
theorem Script.embedAll_of_pieces_eq_gap
    {t : Text} (h : pieces t = [.gap t]) (d : Disk) (base root : Path) :
  embedAll d base root t = ⟨[], .ok t⟩
  := by
  rw [embedAll, h, Recorded.substitute_gap, Recorded.substitute_nil]
  simp [Recorded.pure]

namespace Component

/-- The images of what the scripts of a text leave. -/
theorem embedAssets_eq (d : Disk) (base root : Path) (t : Text) :
  embedAssets d base root t = (Script.embedAll d base root t).bind (Image.embedAll d base root)
  := rfl

/-- Where the scripts leave no image elements, the images change nothing. -/
theorem embedAssets_of_pieces_eq_gap
    {d : Disk} {base root : Path} {t t' : Text} {events : List Event}
    (hscripts : Script.embedAll d base root t = ⟨events, .ok t'⟩)
    (himages : Image.pieces t' = [.gap t']) :
  embedAssets d base root t = ⟨events, .ok t'⟩
  := by
  rw [embedAssets_eq, hscripts, Recorded.bind_ok, Image.embedAll, himages, Recorded.substitute_gap,
    Recorded.substitute_nil]
  simp [Recorded.pure]

end Component

/-- A document that is the token of a component without components of its own gives way to what comes
of that component. -/
theorem assemble_of_component
    {d : Disk} {root path base : Path} {document body t page : Text} {x : Component.Token}
    {own events : List Event} (hdocument : Component.pieces document = [.gap [], .token x, .gap []])
    (hpath : Path.resolve x.reference root root = path) (hparent : path.parent = base)
    (hvisit : Component.visit d [] x.reference path = .ok (.enter body))
    (hbody : Component.pieces body = [.gap body])
    (hcomponent : Component.embedAssets d base root body = ⟨own, .ok t⟩)
    (hpage : Component.embedAssets d root root t = ⟨events, .ok page⟩) :
  assemble d root document
    = ⟨⟨.component, x.reference, some path, .inlined⟩ :: (own ++ events), .ok page⟩
  := by
  rw [assemble_eq, hdocument, Component.nested_gap, Component.nested_token,
    Component.inPlace_eq_visit, hpath, hvisit]
  dsimp only
  rw [hparent, hbody]
  simp [Component.nested_gap, Component.nested_nil, Recorded.pure, hcomponent, hpage]

/-- A page is composed exactly if its document can be read and assembled. -/
theorem compose_eq_ok_iff {d : Disk} {input : Path} {page : Text} {events : List Event} :
  Build.compose d input = .ok (page, events)
    ↔ ∃ document, d.readText .strict (Build.inputPath d input) = .ok document
      ∧ assemble d (Build.inputPath d input).parent document = ⟨events, .ok page⟩
  := by
  rw [Build.compose]
  constructor
  · intro h
    split at h
    · cases h
    · rename_i document hread
      split at h
      · cases h
      · rename_i events' page' hassemble
        cases h
        exact ⟨document, hread, hassemble⟩
  · rintro ⟨document, hread, hassemble⟩
    rw [hread]
    dsimp only
    rw [hassemble]

/-- Where the components leave no script or image elements, theirs is the page. -/
theorem compose_of_expand
    {d : Disk} {input root : Path} {document page : Text} {events : List Event} {visited : List Path}
    (hroot : (Build.inputPath d input).parent = root)
    (hread : d.readText .strict (Build.inputPath d input) = .ok document)
    (hexpand : Component.expand d root root [] document = ⟨visited, ⟨events, .ok page⟩⟩)
    (hscripts : Script.pieces page = [.gap page]) (himages : Image.pieces page = [.gap page]) :
  Build.compose d input = .ok (page, events)
  := by
  have hscript := Script.embedAll_of_pieces_eq_gap hscripts d root root
  apply compose_eq_ok_iff.2
  refine ⟨document, hread, ?_⟩
  rw [hroot, assemble, hexpand]
  show Recorded.bind ⟨events, .ok page⟩ (Component.embedAssets d root root) = _
  rw [Recorded.bind_ok, Component.embedAssets_of_pieces_eq_gap hscript himages, List.append_nil]

/-! ### The steps of a build -/

namespace Build

/-- What a build comes to whose page leaves the given events. -/
def resultOf (d : Disk) (input output : Path) (events : List Event) : Result :=
  ⟨inputPath d input, output, (inputPath d input).parent, events⟩

variable {host : Host} {d written finished : Disk} {input output : Path} {page : Text}
  {events : List Event}

/-- A build whose page has been written ends as the writing of the manifest does. -/
theorem run_of_written
    (hcompose : compose d input = .ok (page, events))
    (hwritten : d.writeText host.maxMissing output page = (written, .ok ()))
    (target : Manifest.Target) :
  run host d ⟨input, output, target⟩ =
    match Manifest.write host written (resultOf d input output events).record target with
    | (finished, .ok ()) => (finished, .ok (resultOf d input output events))
    | (finished, .error e) => (finished, .error (.manifest e))
  := by
  simp only [run, hcompose, hwritten]
  rfl

/-- A build that succeeds has composed its page and written it and the manifest. -/
theorem exists_of_run_eq_ok
    {target : Manifest.Target} {result : Result}
    (h : run host d ⟨input, output, target⟩ = (finished, .ok result)) :
  ∃ page events written, compose d input = .ok (page, events)
    ∧ d.writeText host.maxMissing output page = (written, .ok ())
    ∧ result = resultOf d input output events
    ∧ Manifest.write host written result.record target = (finished, .ok ())
  := by
  cases hcompose : compose d input with
  | error e =>
    simp only [run, hcompose] at h
    cases h
  | ok composed =>
    obtain ⟨page, events⟩ := composed
    cases hwrite : d.writeText host.maxMissing output page with
    | mk written outcome =>
      cases outcome with
      | error e =>
        simp only [run, hcompose, hwrite] at h
        cases h
      | ok _ =>
        rw [run_of_written hcompose hwrite] at h
        split at h
        case h_1 hmanifest =>
          cases h
          exact ⟨page, events, written, rfl, hwrite, rfl, hmanifest⟩
        case h_2 => cases h

end Build

end Inlay
