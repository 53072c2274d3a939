import Inlay.Proofs.Component.Visited
import Inlay.Proofs.Disk.Linkless
import Inlay.Proofs.Reference.Met
import Inlay.Proofs.Text.Utf8

/-!
# Diagnosing references

A reference that no file can be put in the place of gives way to a comment with its event, and the
pass goes on behind it.  The one exception is a path that is too long for the disk: there it cannot
be told whether there is a file, and the run fails (`references_are_diagnosed`).
-/

namespace Inlay

namespace Site

/-- The path of the reference is too long for the disk. -/
def IsTooLong (d : Disk) (root : Path) (s : Site) : Prop :=
  s.isPassedOver = false ∧ d.locate (s.path root) = .error .nameTooLong

/-- No file can be put in the place of the reference. -/
def IsBad (d : Disk) (root : Path) (s : Site) : Prop :=
  s.isPassedOver = false ∧ (d.isFile (s.path root) ≠ .ok true ∨ s.isOpen root = true)

/-- A comment is put in the place of the reference, with its event. -/
def IsDiagnosed (d : Disk) (root : Path) (s : Site) (status : Status) : Prop :=
  s.inPlace d root = ⟨[s.event root status], .ok (s.comment root status)⟩

variable {d : Disk} {root : Path} {s : Site}

theorem isTooLong_iff :
  s.IsTooLong d root ↔ s.status d root = .error ⟨.nameTooLong, s.path root⟩
  := by
  rw [status_eq_error_iff, IsTooLong]
  simp

/-- What is bad is too long or diagnosed, by the status that it has. -/
theorem IsBad.diagnosed (h : s.IsBad d root) (hlong : ¬ s.IsTooLong d root) :
  ∃ status, (status = .missing ∨ status = .circular)
    ∧ s.status d root = .ok status ∧ s.IsDiagnosed d root status
  := by
  obtain ⟨hpass, hbad⟩ := h
  cases hfile : d.isFile (s.path root) with
  | error e =>
    obtain ⟨hlocate, -⟩ := Disk.isFile_eq_error_iff.1 hfile
    exact absurd ⟨hpass, hlocate⟩ hlong
  | ok found =>
    rw [status_of_isFile hpass hfile]
    cases found with
    | false => exact ⟨.missing, .inl rfl, rfl, inPlace_of_missing hpass hfile⟩
    | true =>
      have hopen : s.isOpen root = true := hbad.resolve_left fun hne => hne hfile
      rw [hopen]
      exact ⟨.circular, .inr rfl, rfl, inPlace_of_open hfile hopen⟩

end Site

variable {d : Disk} {root : Path} {passes : List Pass} {t : Text}

/-- A run ends in an error exactly if it meets a reference whose path is too long. -/
theorem Pass.exists_error_iff :
  (∃ e, (Pass.runAll d root passes t).outcome = .error e)
    ↔ ∃ s, Meets d root passes t s ∧ s.IsTooLong d root
  := by
  constructor
  · rintro ⟨e, he⟩
    obtain ⟨s, hmeets, hstatus⟩ := (from_runAll d root passes t).error e he
    obtain ⟨hpass, hlocate, -⟩ := Site.status_eq_error_iff.1 hstatus
    exact ⟨s, hmeets, hpass, hlocate⟩
  · rintro ⟨s, hmeets, hlong⟩
    cases hrun : Pass.runAll d root passes t with
    | mk events outcome =>
      cases outcome with
      | error e => exact ⟨e, rfl⟩
      | ok out =>
        obtain ⟨status, hstatus, -⟩ := hmeets.exists_event hrun
        rw [Site.isTooLong_iff.1 hlong] at hstatus
        cases hstatus

/-- Paths that are short enough do not lead to an error. -/
theorem Pass.exists_ok_of_fits
    (hd : d.LinksFit) (hfits : ∀ s, Meets d root passes t s → (s.path root).Fits) :
  ∃ out, (Pass.runAll d root passes t).outcome = .ok out
  := by
  cases houtcome : (Pass.runAll d root passes t).outcome with
  | ok out => exact ⟨out, rfl⟩
  | error e =>
    obtain ⟨s, hmeets, -, hlong⟩ := Pass.exists_error_iff.1 ⟨e, houtcome⟩
    exact absurd hlong (Disk.locate_ne_nameTooLong hd (hfits s hmeets))

/-- Passes over a text, on any disk, put what belongs there in the place of each site, one after
another.  They end in an error exactly if they meet a reference whose path is too long, and the
error names that path; they do not if all paths and links are short enough.  Any other reference
that no file can be put in the place of, at any depth, gives way to a comment with an event that it
is missing or circular, and the events of the run tell of it. -/
theorem references_are_diagnosed (d : Disk) (root : Path) (passes : List Pass) (t : Text) :
  (∀ (pass : Pass) (t : Text),
      pass.run d root t = Recorded.substitute (Site.inPlace d root) (pass.sites t))
    ∧ ((∃ e, (Pass.runAll d root passes t).outcome = .error e)
        ↔ ∃ s, Meets d root passes t s ∧ s.IsTooLong d root)
    ∧ (∀ e, (Pass.runAll d root passes t).outcome = .error e →
        ∃ s, Meets d root passes t s ∧ s.IsTooLong d root ∧ e = ⟨.nameTooLong, s.path root⟩)
    ∧ (d.LinksFit → (∀ s, Meets d root passes t s → (s.path root).Fits) →
        ∃ out, (Pass.runAll d root passes t).outcome = .ok out)
    ∧ ∀ s, s.IsBad d root → ¬ s.IsTooLong d root →
        ∃ status, (status = .missing ∨ status = .circular) ∧ s.IsDiagnosed d root status
          ∧ (Meets d root passes t s → ∀ events out,
              Pass.runAll d root passes t = ⟨events, .ok out⟩ → s.event root status ∈ events)
  := by
  refine ⟨Pass.run_eq_substitute d root, Pass.exists_error_iff, ?_, Pass.exists_ok_of_fits, ?_⟩
  · intro e he
    obtain ⟨s, hmeets, hstatus⟩ := (from_runAll d root passes t).error e he
    obtain ⟨hpass, hlocate, heq⟩ := Site.status_eq_error_iff.1 hstatus
    exact ⟨s, hmeets, ⟨hpass, hlocate⟩, heq⟩
  · intro s hbad hlong
    obtain ⟨status, hkind, hstatus, hdiagnosed⟩ := hbad.diagnosed hlong
    use status, hkind, hdiagnosed
    intro hmeets events out hrun
    obtain ⟨status', hstatus', hmem⟩ := hmeets.exists_event hrun
    rw [hstatus] at hstatus'
    cases hstatus'
    exact hmem

/-! ### A disk without files -/

/-- A disk with nothing on it. -/
def Disk.bare : Disk :=
  ⟨.empty, []⟩

theorem Disk.linksFit_bare :
  Disk.bare.LinksFit
  := by
  intro location target hlink
  rw [lookup] at hlink
  split at hlink
  · cases hlink
  · rw [show bare.tree = .empty from rfl, Tree.get?_empty] at hlink
    cases hlink

/-- A script element. -/
def scriptA : Site :=
  .script ⟨.root, []⟩ ⟨" ".toList, "a.js".toList⟩

theorem sites_scriptA :
  Pass.sites (.scripts ⟨.root, []⟩) "<script src=\"a.js\"></script>!".toList
    = [.gap [], .token scriptA, .gap "!".toList]
  := by
  have hpieces : Script.pieces "<script src=\"a.js\"></script>!".toList
      = [.gap [], .token ⟨" ".toList, "a.js".toList⟩, .gap "!".toList] := by decide +kernel
  rw [Pass.sites, hpieces]
  rfl

theorem meets_scriptA_iff {s : Site} :
  Meets Disk.bare ⟨.root, []⟩ [.scripts ⟨.root, []⟩] "<script src=\"a.js\"></script>!".toList s
    ↔ s = scriptA
  := by
  constructor
  · intro hmeets
    cases hmeets with
    | here hmem =>
      rw [sites_scriptA] at hmem
      simpa using hmem
    | inside hmem => cases Pass.eq_of_component_mem_sites hmem
    | later _ hlater => cases hlater
  · rintro rfl
    apply Meets.here
    rw [sites_scriptA]
    simp

/-- Where no file is, a script is missing: a comment takes its place, and the pass goes on. -/
theorem scriptA_is_diagnosed :
  (∃ out, (Pass.runAll Disk.bare ⟨.root, []⟩ [.scripts ⟨.root, []⟩]
      "<script src=\"a.js\"></script>!".toList).outcome = .ok out)
    ∧ scriptA.IsDiagnosed Disk.bare ⟨.root, []⟩ .missing
    ∧ Pass.runAll Disk.bare ⟨.root, []⟩ [.scripts ⟨.root, []⟩]
        "<script src=\"a.js\"></script>!".toList
      = ⟨[⟨.script, "a.js".toList, some (Path.ofText "/a.js".toList), .missing⟩],
          .ok "<!-- Missing script: a.js -->!".toList⟩
  := by
  obtain ⟨hrun, -, -, hok, hbad⟩ := references_are_diagnosed Disk.bare ⟨.root, []⟩
    [.scripts ⟨.root, []⟩] "<script src=\"a.js\"></script>!".toList
  have hplace : scriptA.IsBad Disk.bare ⟨.root, []⟩ := by
    refine ⟨rfl, .inl ?_⟩
    decide +kernel
  have hshort : ¬ scriptA.IsTooLong Disk.bare ⟨.root, []⟩ := by
    rintro ⟨-, hlocate⟩
    cases hlocate
  obtain ⟨status, hkind, hdiagnosed, -⟩ := hbad scriptA hplace hshort
  have hstatus : status = .missing := by
    rcases hkind with rfl | rfl
    · rfl
    · cases hdiagnosed
  subst hstatus
  refine ⟨hok Disk.linksFit_bare ?_, hdiagnosed, ?_⟩
  · intro s hs
    rw [meets_scriptA_iff.1 hs]
    decide +kernel
  · rw [Pass.runAll_singleton, hrun, sites_scriptA, Recorded.substitute_gap,
      Recorded.substitute_token, hdiagnosed]
    rfl

/-! ### A name that is too long -/

/-- A disk with nothing but a document that asks for a script with a name that is too long. -/
def longPage : Disk :=
  (Disk.empty []).add (Path.ofText "/index.html".toList)
    (.file (Utf8.encode Component.longScript))

/-- No page comes of that document, although nothing is amiss but a script that is not there. -/
theorem run_longPage :
  Build.run .small longPage ⟨Path.ofText "index.html".toList, Path.ofText "out".toList, .none⟩
    = (longPage, .error (.text (.file ⟨.nameTooLong, ⟨.root, [Component.longName]⟩⟩)))
  := by
  have hread : longPage.readText .strict (Path.ofText "/index.html".toList)
      = .ok Component.longScript :=
    Disk.readText_of_read (by decide +kernel) (by decide +kernel) _
  have hpieces : Component.pieces Component.longScript = [.gap Component.longScript] := by
    decide +kernel
  have hassemble : assemble longPage ⟨.root, []⟩ Component.longScript
      = ⟨[], .error ⟨.nameTooLong, ⟨.root, [Component.longName]⟩⟩⟩ := by
    rw [assemble_of_pieces_eq_gap hpieces, Component.embedAssets_longScript]
  have hcompose : Build.compose longPage (Path.ofText "index.html".toList)
      = .error (.file ⟨.nameTooLong, ⟨.root, [Component.longName]⟩⟩) := by
    have hinput : Build.inputPath longPage (Path.ofText "index.html".toList)
        = Path.ofText "/index.html".toList := rfl
    have hroot : (Path.ofText "/index.html".toList).parent = ⟨.root, []⟩ := rfl
    rw [Build.compose, hinput, hread, hroot]
    dsimp only
    rw [hassemble]
  rw [Build.run, hcompose]

end Inlay
