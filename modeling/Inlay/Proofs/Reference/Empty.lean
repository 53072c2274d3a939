import Inlay.Proofs.Component.Token
import Inlay.Proofs.Image.Element
import Inlay.Proofs.Path.Normal
import Inlay.Proofs.Reference.Met

/-!
# Empty references

Only a script element can have a reference that is empty: one whose source is blank.  Such a
reference denotes the directory of the document, which is no file, so the script is missing
(`mem_events_and_empty_iff`).
-/

namespace Inlay

/-! ### Which references are empty -/

theorem Component.Token.reference_ne_nil {x : Token} (h : namesComponent x.inner = true) :
  x.reference ≠ []
  := by
  intro hnil
  have hending := ending_isSuffix_reference h
  rw [hnil, List.suffix_nil] at hending
  exact absurd hending (by decide)

namespace Site

/-- A script whose source is blank. -/
def IsBlankScript : Site → Prop
  | .script _ x => ∀ c ∈ x.source, Text.isBlank c = true
  | _ => False

/-- A reference that stands in a text is empty exactly if it is that of a script whose source is
blank. -/
theorem reference_eq_nil_iff {pass : Pass} {t : Text} {s : Site} (h : .token s ∈ pass.sites t) :
  s.reference = [] ↔ s.IsBlankScript
  := by
  cases pass with
  | components base visited =>
    obtain ⟨x, hx, rfl⟩ := Piece.token_mem_map.1 h
    have hreference := Component.Token.reference_ne_nil (Component.namesComponent_of_mem_pieces hx)
    exact iff_of_false hreference id
  | scripts base =>
    obtain ⟨x, -, rfl⟩ := Piece.token_mem_map.1 h
    exact Text.trim_eq_nil_iff
  | images base =>
    obtain ⟨x, hx, rfl⟩ := Piece.token_mem_map.1 h
    exact iff_of_false (Image.reference_ne_nil_of_mem_pieces hx) id

theorem IsBlankScript.isPassedOver {s : Site} (h : s.IsBlankScript) :
  s.isPassedOver = false
  := by
  cases s with
  | script => rfl
  | component => cases h
  | image => cases h

end Site

/-! ### Where documents lie -/

/-- The directory of a document of a project: it starts where the root of the project does, has no
double dots, and is there. -/
structure Disk.IsBase (d : Disk) (root base : Path) : Prop where
  anchor_eq : base.anchor = root.anchor
  up_not_mem : Segment.up ∉ base.segments
  there : ∃ found, d.Walks .find maxLinks (d.start base) ⟨base.segments, false⟩ (.directory found)

namespace Disk

variable {d : Disk} {root base p : Path}

/-- A document lies in the directory above its path. -/
theorem isBase_parent
    (habs : root.isAbsolute = true) (hanchor : p.anchor = root.anchor)
    (hup : Segment.up ∉ p.segments) {location : Location} {bytes : Bytes}
    (h : d.locate p = .ok (.file location bytes)) :
  d.IsBase root p.parent
  := by
  obtain ⟨-, hwalks⟩ := locate_eq_ok_iff.1 h
  have hstart : ∀ q : Path, q.anchor = root.anchor → d.start q = [] := by
    intro q hq
    rw [start, if_pos]
    rwa [Path.isAbsolute, hq]
  rw [hstart p hanchor] at hwalks
  rcases List.eq_nil_or_concat p.segments with hnil | ⟨segments, s, hsegments⟩
  · -- The root itself is a directory.
    rw [hnil] at hwalks
    have hroot : d.Walks .find maxLinks [] ⟨[], false⟩ (.directory []) :=
      .place (.directory d.lookup_nil) fun _ => ⟨[], rfl⟩
    cases hwalks.place_unique hroot
  · rw [List.concat_eq_append] at hsegments
    have hparent : p.parent = ⟨p.anchor, segments⟩ := by
      rw [Path.parent, hsegments, List.dropLast_concat]
    rw [hsegments, List.mem_append, List.mem_singleton, not_or] at hup
    rw [hsegments] at hwalks
    rw [hparent]
    constructor
    · exact hanchor
    · exact hup.1
    · rw [hstart ⟨p.anchor, segments⟩ hanchor]
      exact hwalks.above false

/-- The directory of a document is no file. -/
theorem IsBase.isFile_ne (h : d.IsBase root base) :
  d.isFile base ≠ .ok true
  := by
  intro hfile
  obtain ⟨location, bytes, hlocate⟩ := isFile_eq_true_iff.1 hfile
  obtain ⟨-, hwalks⟩ := locate_eq_ok_iff.1 hlocate
  obtain ⟨found, hfound⟩ := h.there
  cases hwalks.place_unique hfound

end Disk

/-! ### Meeting them -/

variable {d : Disk} {root : Path} {passes : List Pass} {t : Text} {s : Site}

/-- Whatever is met stands in a text, so its reference is empty exactly if it is that of a script
whose source is blank. -/
theorem Meets.reference_eq_nil_iff (h : Meets d root passes t s) :
  s.reference = [] ↔ s.IsBlankScript
  := by
  induction h with
  | here h => exact Site.reference_eq_nil_iff h
  | inside _ _ _ ih => exact ih
  | later _ _ ih => exact ih

/-- Whatever is met stands in a document whose directory is there. -/
theorem Meets.isBase
    (h : Meets d root passes t s) (habs : root.isAbsolute = true)
    (hpasses : ∀ pass ∈ passes, d.IsBase root pass.base) :
  d.IsBase root s.base
  := by
  induction h with
  | here h =>
    rw [Pass.base_of_mem_sites h]
    exact hpasses _ (by simp)
  | @inside pass passes t base visited x body s h hvisit _ ih =>
    have hpass := hpasses pass (by simp)
    rw [Pass.eq_of_component_mem_sites h] at hpass
    have hanchor : base.anchor = root.anchor := hpass.anchor_eq
    obtain ⟨hfile, -⟩ := Component.of_visit_eq_enter hvisit
    obtain ⟨location, bytes, hlocate⟩ := Disk.isFile_eq_true_iff.1 hfile
    have hbase := Disk.isBase_parent habs (Path.anchor_resolve hanchor)
      (Path.up_not_mem_resolve hanchor habs) hlocate
    apply ih
    intro pass' hpass'
    rw [Pass.base_of_mem_ofBody hpass']
    exact hbase
  | later _ _ ih => exact ih fun pass hpass => hpasses pass (List.mem_cons_of_mem _ hpass)

/-- A reference that denotes the directory of the document is missing. -/
theorem Site.status_of_base
    {status : Status} (hbase : d.IsBase root s.base) (hpath : s.path root = s.base)
    (hpass : s.isPassedOver = false) (h : s.status d root = .ok status) :
  status = .missing
  := by
  rw [Site.status, hpass, hpath] at h
  cases hfile : d.isFile s.base with
  | error e =>
    rw [hfile] at h
    cases h
  | ok found =>
    rw [hfile] at h
    cases found with
    | true => exact absurd hfile hbase.isFile_ne
    | false =>
      cases h
      rfl

/-- A script whose source is blank is missing. -/
theorem Meets.status_of_blank
    {status : Status} (h : Meets d root passes t s) (habs : root.isAbsolute = true)
    (hpasses : ∀ pass ∈ passes, d.IsBase root pass.base) (hblank : s.IsBlankScript)
    (hstatus : s.status d root = .ok status) :
  status = .missing
  := by
  have hbase := h.isBase habs hpasses
  have hpath : s.path root = s.base := by
    rw [Site.path, h.reference_eq_nil_iff.2 hblank, Path.resolve_nil hbase.up_not_mem]
  exact Site.status_of_base hbase hpath hblank.isPassedOver hstatus

/-- The events with an empty reference are those of the scripts whose source is blank, which are
missing. -/
theorem mem_events_and_empty_iff
    {events : List Event} {out : Text} (habs : root.isAbsolute = true)
    (hpasses : ∀ pass ∈ passes, d.IsBase root pass.base)
    (hrun : Pass.runAll d root passes t = ⟨events, .ok out⟩) (e : Event) :
  e ∈ events ∧ e.reference = []
    ↔ ∃ s, Meets d root passes t s ∧ s.IsBlankScript ∧ e = s.event root .missing
  := by
  constructor
  · rintro ⟨he, hreference⟩
    have hfrom := from_runAll d root passes t
    rw [hrun] at hfrom
    obtain ⟨s, status, hmeets, hstatus, rfl⟩ := hfrom.event e he
    have hblank := hmeets.reference_eq_nil_iff.1 hreference
    use s, hmeets, hblank
    rw [hmeets.status_of_blank habs hpasses hblank hstatus]
  · rintro ⟨s, hmeets, hblank, rfl⟩
    obtain ⟨status, hstatus, hevent⟩ := hmeets.exists_event hrun
    obtain rfl := hmeets.status_of_blank habs hpasses hblank hstatus
    exact ⟨hevent, hmeets.reference_eq_nil_iff.2 hblank⟩

end Inlay
