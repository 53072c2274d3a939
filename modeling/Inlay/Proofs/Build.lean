import Inlay.Proofs.Disk.Confined
import Inlay.Proofs.Manifest.Digests

/-!
# What a build changes

A build that cannot compose its page leaves the disk as it is.  Any other build changes the disk only
where the paths of the page and of the manifest lead, however it ends; one that succeeds leaves the
page where its path leads, unless the manifest has been written there
(`Build.changes_are_where_told`).
-/

namespace Inlay

namespace Manifest

/-- All that the writing of a manifest does to a disk is to write it to its path. -/
theorem fst_write (host : Host) (d : Disk) (b : BuildRecord) (target : Target) :
  (write host d b target).1 = d
    ∨ ∃ p manifest, target = .file p
      ∧ (write host d b target).1 = (d.writeJson host.maxMissing p manifest).1
  := by
  unfold write
  split
  case h_1 => exact .inl rfl
  case h_2 =>
    split
    case h_1 => exact .inl rfl
    case h_2 manifest _ =>
      split
      case h_1 => exact .inl rfl
      case h_2 =>
        split
        case h_1 p _ =>
          right
          use p, manifest, rfl
          split
          case h_1 h => rw [h]
          case h_2 h => rw [h]
        case h_2 => exact .inl rfl

theorem confined_write (host : Host) (d : Disk) (b : BuildRecord) (target : Target) :
  d.Confined {p | target = .file p} (write host d b target).1
  := by
  rcases fst_write host d b target with hsame | ⟨p, manifest, rfl, hwrite⟩
  · rw [hsame]
    apply Disk.Confined.refl
  · rw [hwrite]
    exact (d.confined_write host.maxMissing p (Utf8.encode manifest.print)).mono (by simp)

end Manifest

namespace Build

/-- The paths to which something is to be written. -/
def Request.targets (r : Request) : Set Path :=
  {p | p = r.output ∨ r.manifest = .file p}

/-- However a build ends, it changes the disk only where something is to be written. -/
theorem confined_run (host : Host) (d : Disk) (r : Request) :
  d.Confined r.targets (run host d r).1
  := by
  cases hcompose : compose d r.input with
  | error e =>
    simp only [run, hcompose]
    apply Disk.Confined.refl
  | ok composed =>
    obtain ⟨page, events⟩ := composed
    have hpage : d.Confined r.targets (d.writeText host.maxMissing r.output page).1 :=
      (d.confined_write host.maxMissing r.output (Utf8.encode page)).mono (by simp [Request.targets])
    cases hwrite : d.writeText host.maxMissing r.output page with
    | mk written outcome =>
      rw [hwrite] at hpage
      cases outcome with
      | error e =>
        simp only [run, hcompose, hwrite]
        exact hpage
      | ok _ =>
        have hmanifest : written.Confined r.targets _ :=
          (Manifest.confined_write host written (resultOf d r.input r.output events).record
            r.manifest).mono fun p hp => .inr hp
        rw [run_of_written hcompose hwrite r.manifest]
        split
        all_goals
          rename_i hfinished
          rw [hfinished] at hmanifest
          exact hpage.trans hmanifest

/-- If the page of a build cannot be composed, the disk is as before.  However a build ends, what it
has changed are files to which the path of the page or that of the manifest leads, and new
directories to which proper fronts of these paths lead.  If it succeeds, the path of the page leads
to a file with the page, unless the path of the manifest leads to this file as well. -/
theorem changes_are_where_told (host : Host) (d : Disk) (r : Request) :
  (∀ e, compose d r.input = .error e → run host d r = (d, .error (.text e)))
    ∧ d.Confined r.targets (run host d r).1
    ∧ ∀ result, (run host d r).2 = .ok result →
      ∃ page out bytes, compose d r.input = .ok (page, result.events)
        ∧ (run host d r).1.locate r.output = .ok (.file out bytes)
        ∧ (bytes = Utf8.encode page
          ∨ ∃ p, r.manifest = .file p ∧ (run host d r).1.locate p = .ok (.file out bytes))
  := by
  refine ⟨?_, confined_run host d r, ?_⟩
  · intro e hcompose
    simp only [run, hcompose]
  · intro result hresult
    obtain ⟨page, events, written, hcompose, hpage, rfl, hmanifest⟩ :=
      exists_of_run_eq_ok (Prod.ext rfl hresult : run host d r = ((run host d r).1, .ok result))
    obtain ⟨out, -, hout⟩ := Disk.of_write_eq_ok hpage
    have hconfined : written.Confined {p | r.manifest = .file p} (run host d r).1 := by
      have hwrite := Manifest.confined_write host written
        (resultOf d r.input r.output events).record r.manifest
      rwa [hmanifest] at hwrite
    obtain ⟨bytes, hbytes, hsame⟩ := hconfined.keeps.locate_file hout
    use page, out, bytes, hcompose, hbytes
    by_cases hwritten : written.IsWritten {p | r.manifest = .file p} (run host d r).1 out
    · right
      obtain ⟨p, hp, bytes', hlocate⟩ := hwritten.after
      have hlookup : some (Entry.file bytes') = some (.file bytes) :=
        (Disk.lookup_of_locate hlocate).symm.trans (Disk.lookup_of_locate hbytes)
      cases hlookup
      exact ⟨p, hp, hlocate⟩
    · exact .inl (hsame hwritten)

/-- A page that is written over its document, without a manifest, is found there. -/
theorem page_of_crlf_is_where_told :
  run .small crlf ⟨crlfPath, crlfPath, .none⟩ = (crlfWritten, .ok crlfResult)
    ∧ ∃ out, crlfWritten.locate crlfPath = .ok (.file out (Utf8.encode crlfPage))
  := by
  have hrun : run .small crlf ⟨crlfPath, crlfPath, .none⟩ = (crlfWritten, .ok crlfResult) :=
    run_of_written compose_crlf writeText_crlf .none
  obtain ⟨-, -, hpage⟩ := changes_are_where_told .small crlf ⟨crlfPath, crlfPath, .none⟩
  obtain ⟨page, out, bytes, hcompose, hlocate, hbytes⟩ := hpage crlfResult (by rw [hrun])
  rw [compose_crlf] at hcompose
  cases hcompose
  rw [hrun] at hlocate
  rcases hbytes with rfl | ⟨p, hp, -⟩
  · exact ⟨hrun, out, hlocate⟩
  · cases hp

end Build

end Inlay
