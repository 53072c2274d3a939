import Inlay.Proofs.Disk.Walk
import Inlay.Proofs.Page

/-!
# References where they stand

A site is a reference together with all that decides what becomes of it.  A pass over a text puts
what belongs there in the place of each of its sites, one after another (`Pass.run_eq_substitute`).
The text of a component, like a document, goes through three passes: `Pass.ofBody`.
-/

namespace Inlay

/-- The piece with a function applied to its token. -/
def Piece.map {τ σ : Type} (f : τ → σ) : Piece τ → Piece σ
  | .gap t => .gap t
  | .token x => .token (f x)

theorem Piece.token_mem_map {τ σ : Type} {f : τ → σ} {pieces : List (Piece τ)} {y : σ} :
  .token y ∈ pieces.map (Piece.map f) ↔ ∃ x, .token x ∈ pieces ∧ f x = y
  := by
  rw [List.mem_map]
  constructor
  · rintro ⟨piece, hpiece, hy⟩
    cases piece with
    | gap t => cases hy
    | token x =>
      cases hy
      exact ⟨x, hpiece, rfl⟩
  · rintro ⟨x, hx, rfl⟩
    exact ⟨.token x, hx, rfl⟩

theorem Recorded.substitute_map
    {τ σ : Type} (g : τ → σ) (f : σ → Recorded Text) (pieces : List (Piece τ)) :
  Recorded.substitute f (pieces.map (Piece.map g)) = Recorded.substitute (fun x => f (g x)) pieces
  := by
  induction pieces with
  | nil => rfl
  | cons piece pieces ih =>
    cases piece with
    | gap t => rw [List.map_cons, Piece.map, substitute_gap, substitute_gap, ih]
    | token x => rw [List.map_cons, Piece.map, substitute_token, substitute_token, ih]

/-- A reference where it stands: in a document of the directory `base`, and that of a component
within the components in `visited`. -/
inductive Site where
  | component (base : Path) (visited : List Path) (x : Component.Token)
  | script (base : Path) (x : Script.Element)
  | image (base : Path) (x : Image.Element)

namespace Site

/-- What the reference asks for. -/
def kind : Site → Kind
  | .component .. => .component
  | .script .. => .script
  | .image .. => .image

/-- The reference. -/
def reference : Site → Text
  | .component _ _ x => x.reference
  | .script _ x => x.reference
  | .image _ x => x.reference

/-- The directory of the document. -/
def base : Site → Path
  | .component base _ _ => base
  | .script base _ => base
  | .image base _ => base

/-- The path that the reference denotes. -/
def path (root : Path) (s : Site) : Path :=
  Path.resolve s.reference s.base root

/-- Whether the reference is left alone. -/
def isPassedOver : Site → Bool
  | .image _ x => Image.isPassedOver x.reference
  | _ => false

/-- Whether the reference is to a component that is being expanded. -/
def isOpen (root : Path) : Site → Bool
  | .component base visited x => Path.resolve x.reference base root ∈ visited
  | _ => false

/-- What becomes of the reference, if it can be told whether there is a file. -/
def status (d : Disk) (root : Path) (s : Site) : Except FileError Status :=
  if s.isPassedOver then .ok .skipped
  else
    match d.isFile (s.path root) with
    | .error e => .error e
    | .ok false => .ok .missing
    | .ok true => .ok (if s.isOpen root then .circular else .inlined)

/-- The event of the reference, of which something has become. -/
def event (root : Path) (s : Site) (status : Status) : Event :=
  ⟨s.kind, s.reference, if status = .skipped then none else some (s.path root), status⟩

/-- The comment in the place of a reference that no file is put in the place of. -/
def comment (root : Path) (s : Site) (status : Status) : Text :=
  match s with
  | .component .. =>
    if status = .circular then Component.circularComment s.reference
    else Component.missingComment s.reference (s.path root)
  | .script .. => Script.missingComment s.reference
  | .image .. => Image.missingComment s.reference

/-- What is put in the place of the reference. -/
def inPlace (d : Disk) (root : Path) : Site → Recorded Text
  | .component base visited x => Component.inPlace d root base visited x
  | .script base x => Script.embed d base root x
  | .image base x => Image.embed d base root x

end Site

/-! ### Passes -/

/-- A pass over a text in the directory `base`. -/
inductive Pass where
  /-- Its components are expanded, but for those in `visited`. -/
  | components (base : Path) (visited : List Path)
  | scripts (base : Path)
  | images (base : Path)

namespace Pass

/-- The directory of the document. -/
def base : Pass → Path
  | .components base _ => base
  | .scripts base => base
  | .images base => base

/-- The sites of a text for a pass, and the gaps between them. -/
def sites : Pass → Text → List (Piece Site)
  | .components base visited, t => (Component.pieces t).map (Piece.map (.component base visited))
  | .scripts base, t => (Script.pieces t).map (Piece.map (.script base))
  | .images base, t => (Image.pieces t).map (Piece.map (.image base))

/-- What a pass makes of a text. -/
def run (d : Disk) (root : Path) : Pass → Text → Recorded Text
  | .components base visited, t => (Component.expand d base root visited t).recorded
  | .scripts base, t => Script.embedAll d base root t
  | .images base, t => Image.embedAll d base root t

/-- What passes make of a text, one after another. -/
def runAll (d : Disk) (root : Path) : List Pass → Text → Recorded Text
  | [], t => Recorded.pure t
  | pass :: passes, t => (pass.run d root t).bind (runAll d root passes)

/-- The passes over the text of a component or over a document. -/
def ofBody (base : Path) (visited : List Path) : List Pass :=
  [.components base visited, .scripts base, .images base]

end Pass

theorem Component.nested_eq_substitute
    (d : Disk) (root base : Path) (visited : List Path) (pending : List (Piece Token)) :
  nested d root base visited pending
    = Recorded.substitute (inPlace d root base visited) pending
  := by
  induction pending with
  | nil => rw [nested_nil, Recorded.substitute_nil, Recorded.pure]
  | cons piece pending ih =>
    cases piece with
    | gap t => rw [nested_gap, Recorded.substitute_gap, ih]
    | token x => rw [nested_token, Recorded.substitute_token, ih]

namespace Pass

/-- A site of a text stands in the directory of the text. -/
theorem base_of_mem_sites {pass : Pass} {t : Text} {s : Site} (h : .token s ∈ pass.sites t) :
  s.base = pass.base
  := by
  cases pass <;>
  · obtain ⟨x, -, rfl⟩ := Piece.token_mem_map.1 h
    rfl

/-- The passes over a text are in its directory. -/
theorem base_of_mem_ofBody {pass : Pass} {base : Path} {visited : List Path}
    (h : pass ∈ ofBody base visited) :
  pass.base = base
  := by
  simp only [ofBody, List.mem_cons, List.not_mem_nil, or_false] at h
  rcases h with rfl | rfl | rfl <;> rfl

/-- A pass puts what belongs there in the place of each site. -/
theorem run_eq_substitute (d : Disk) (root : Path) (pass : Pass) (t : Text) :
  pass.run d root t = Recorded.substitute (Site.inPlace d root) (pass.sites t)
  := by
  cases pass with
  | components base visited =>
    rw [run, Component.expand_eq, Component.nested_eq_substitute, sites, Recorded.substitute_map]
    rfl
  | scripts base =>
    rw [run, sites, Recorded.substitute_map]
    rfl
  | images base =>
    rw [run, sites, Recorded.substitute_map]
    rfl

/-- A single pass. -/
theorem runAll_singleton (d : Disk) (root : Path) (pass : Pass) (t : Text) :
  runAll d root [pass] t = pass.run d root t
  := by
  rw [runAll]
  obtain ⟨events, outcome⟩ := pass.run d root t
  cases outcome with
  | error e => rfl
  | ok t' => simp [runAll, Recorded.pure]

/-- The passes over the scripts and over the images of a text. -/
theorem runAll_assets (d : Disk) (root base : Path) (t : Text) :
  runAll d root [.scripts base, .images base] t = Component.embedAssets d base root t
  := by
  rw [Component.embedAssets_eq, runAll]
  apply congrArg
  funext t'
  apply runAll_singleton

theorem runAll_ofBody (d : Disk) (root base : Path) (visited : List Path) (t : Text) :
  runAll d root (ofBody base visited) t
    = (Component.nested d root base visited (Component.pieces t)).bind
        (Component.embedAssets d base root)
  := by
  have hassets : runAll d root [.scripts base, .images base] = Component.embedAssets d base root :=
    funext (runAll_assets d root base)
  rw [ofBody, runAll, hassets, run, Component.expand_eq]

/-- A document goes through the passes of a component that is in no other. -/
theorem assemble_eq_runAll (d : Disk) (root : Path) (document : Text) :
  assemble d root document = runAll d root (ofBody root []) document
  := by
  rw [assemble_eq, runAll_ofBody]

end Pass

/-! ### What is put in the place of a site -/

namespace Site

variable {d : Disk} {root : Path} {s : Site}

theorem status_of_passedOver (h : s.isPassedOver = true) :
  s.status d root = .ok .skipped
  := by
  rw [status, if_pos h]

theorem status_of_isFile {found : Bool} (hpass : s.isPassedOver = false)
    (h : d.isFile (s.path root) = .ok found) :
  s.status d root
    = .ok (if found then if s.isOpen root then .circular else .inlined else .missing)
  := by
  rw [status, if_neg (by simp [hpass]), h]
  cases found <;> rfl

/-- It cannot be told what becomes of a reference exactly if it is not left alone and its path is
too long. -/
theorem status_eq_error_iff {e : FileError} :
  s.status d root = .error e
    ↔ s.isPassedOver = false ∧ d.locate (s.path root) = .error .nameTooLong
      ∧ e = ⟨.nameTooLong, s.path root⟩
  := by
  rw [← Disk.isFile_eq_error_iff, status]
  cases s.isPassedOver with
  | true => simp
  | false =>
    cases hfile : d.isFile (s.path root) with
    | error e' => simp
    | ok found => cases found <;> simp

/-! ### What is put in the place of a site -/

/-- Where it cannot be told what becomes of a reference, the pass fails. -/
theorem inPlace_of_status_error {e : FileError} (h : s.status d root = .error e) :
  s.inPlace d root = ⟨[], .error e⟩
  := by
  obtain ⟨hpass, hlocate, rfl⟩ := status_eq_error_iff.1 h
  have hfile : d.isFile (s.path root) = .error ⟨.nameTooLong, s.path root⟩ :=
    Disk.isFile_eq_error_iff.2 ⟨hlocate, rfl⟩
  cases s with
  | component base visited x =>
    have hvisit : Component.visit d visited x.reference (Path.resolve x.reference base root) = _ :=
      Component.visit_of_error hfile
    rw [inPlace, Component.inPlace_eq_visit, hvisit]
  | script base x => exact Script.embed_of_error hfile
  | image base x => exact Image.embed_of_error hpass hfile

/-- A reference whose file is missing gives way to a comment. -/
theorem inPlace_of_missing (hpass : s.isPassedOver = false) (h : d.isFile (s.path root) = .ok false) :
  s.inPlace d root = ⟨[s.event root .missing], .ok (s.comment root .missing)⟩
  := by
  cases s with
  | component base visited x =>
    have hvisit : Component.visit d visited x.reference (Path.resolve x.reference base root) = _ :=
      Component.visit_of_missing h
    rw [inPlace, Component.inPlace_eq_visit, hvisit]
    rfl
  | script base x => exact Script.embed_of_missing h
  | image base x => exact Image.embed_of_missing hpass h

/-- A reference to a component that is being expanded gives way to a comment. -/
theorem inPlace_of_open (h : d.isFile (s.path root) = .ok true) (hopen : s.isOpen root = true) :
  s.inPlace d root = ⟨[s.event root .circular], .ok (s.comment root .circular)⟩
  := by
  cases s with
  | component base visited x =>
    have hvisit : Component.visit d visited x.reference (Path.resolve x.reference base root) = _ :=
      Component.visit_of_open h (of_decide_eq_true hopen)
    rw [inPlace, Component.inPlace_eq_visit, hvisit]
    rfl
  | script => cases hopen
  | image => cases hopen

/-- A component that is opened goes through the passes of its text. -/
theorem inPlace_of_enter
    {base : Path} {visited : List Path} {x : Component.Token} {body : Text}
    (h : Component.visit d visited x.reference (Path.resolve x.reference base root)
      = .ok (.enter body)) :
  inPlace d root (.component base visited x)
    = Recorded.bind ⟨[event root (.component base visited x) .inlined], .ok ()⟩ fun _ =>
        Pass.runAll d root
          (Pass.ofBody (Path.resolve x.reference base root).parent
            (Path.resolve x.reference base root :: visited)) body
  := by
  rw [Pass.runAll_ofBody, inPlace, Component.inPlace_eq_visit, h]
  rfl

/-- What is put in the place of a script or an image that is a file. -/
theorem exists_inPlace_of_file
    (hkind : s.kind ≠ .component) (hpass : s.isPassedOver = false)
    (h : d.isFile (s.path root) = .ok true) :
  ∃ t, s.inPlace d root = ⟨[s.event root .inlined], .ok t⟩
  := by
  cases s with
  | component => exact absurd rfl hkind
  | script base x =>
    obtain ⟨content, hcontent⟩ := Disk.exists_readReplacing_of_isFile h
    exact ⟨_, Script.embed_of_file h hcontent⟩
  | image base x =>
    obtain ⟨bytes, hread⟩ := Disk.exists_read_of_isFile h
    exact ⟨_, Image.embed_of_file hpass h hread⟩

/-- A reference that is left alone stays as it is. -/
theorem exists_inPlace_of_passedOver (h : s.isPassedOver = true) :
  ∃ t, s.inPlace d root = ⟨[s.event root .skipped], .ok t⟩
  := by
  cases s with
  | component => cases h
  | script => cases h
  | image base x => exact ⟨_, Image.embed_of_passedOver h⟩

/-- What is put in the place of a reference: a text with the event of the reference alone, or the
text of a component that is opened. -/
theorem inPlace_cases {status : Status} (h : s.status d root = .ok status) :
  (∃ t, s.inPlace d root = ⟨[s.event root status], .ok t⟩)
    ∨ ∃ base visited x body, s = .component base visited x ∧ status = .inlined
      ∧ Component.visit d visited x.reference (Path.resolve x.reference base root)
        = .ok (.enter body)
  := by
  cases hpass : s.isPassedOver with
  | true =>
    rw [status_of_passedOver hpass] at h
    cases h
    exact .inl (exists_inPlace_of_passedOver hpass)
  | false =>
    cases hfile : d.isFile (s.path root) with
    | error e =>
      obtain ⟨hlocate, rfl⟩ := Disk.isFile_eq_error_iff.1 hfile
      rw [status_eq_error_iff.2 ⟨hpass, hlocate, rfl⟩] at h
      cases h
    | ok found =>
      rw [status_of_isFile hpass hfile] at h
      cases h
      cases found with
      | false => exact .inl ⟨_, inPlace_of_missing hpass hfile⟩
      | true =>
        cases hopen : s.isOpen root with
        | true => exact .inl ⟨_, inPlace_of_open hfile hopen⟩
        | false =>
          cases s with
          | component base visited x =>
            obtain ⟨body, hbody⟩ := Disk.exists_readReplacing_of_isFile hfile
            have hvisit : Component.visit d visited x.reference (Path.resolve x.reference base root)
                = .ok (.enter body) :=
              Component.visit_of_file hfile (of_decide_eq_false hopen) hbody
            exact .inr ⟨base, visited, x, body, rfl, rfl, hvisit⟩
          | script => exact .inl (exists_inPlace_of_file (by simp [kind]) hpass hfile)
          | image => exact .inl (exists_inPlace_of_file (by simp [kind]) hpass hfile)

end Site

end Inlay
