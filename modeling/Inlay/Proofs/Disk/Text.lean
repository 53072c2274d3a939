import Inlay.Proofs.Disk.Confined
import Inlay.Proofs.Disk.Document

/-!
# Texts written and read

A text that is written is read with its line ends made line feeds, whatever is to be done with faults,
and what was read is written and read as it is (`texts_are_read_with_line_feeds`).  Where a path has
been written, it can be written again.
-/

namespace Inlay

namespace Disk

/-! ### Writing again -/

section

variable {d d' made : Disk} {p : Path}

/-- What has been ensured is a directory. -/
theorem exists_locate_of_ensureDirectory (h : d.ensureDirectory p = (made, .ok ())) :
  ∃ location, made.locate p = .ok (.directory location)
  := by
  rw [ensureDirectory] at h
  split at h
  case h_1 hmade =>
    cases h
    obtain ⟨-, location, -, -, -, hlocate⟩ := exists_set_of_makeDirectory_eq_ok hmade
    exact ⟨location, hlocate⟩
  case h_2 => cases h
  case h_3 => cases h
  case h_4 =>
    rw [acceptExisting] at h
    split at h
    case h_1 hdirectory =>
      cases h
      rw [isDirectory] at hdirectory
      split at hdirectory
      case h_1 location hlocate => exact ⟨location, hlocate⟩
      case h_2 => cases hdirectory
      case h_3 => cases hdirectory
    case h_2 => cases h
    case h_3 => cases h

theorem exists_locate_of_ensureFrom
    {anchor : Anchor} {maxMissing : Nat} {segments : List Segment}
    (h : d.ensureFrom anchor maxMissing segments = (made, .ok ())) :
  ∃ location, made.locate ⟨anchor, segments.reverse⟩ = .ok (.directory location)
  := by
  rw [ensureFrom.eq_def] at h
  cases segments with
  | nil => exact exists_locate_of_ensureDirectory h
  | cons s above =>
    cases maxMissing with
    | zero => cases h
    | succ maxMissing =>
      dsimp only at h
      split at h
      case h_1 =>
        split at h
        case h_1 => exact exists_locate_of_ensureDirectory h
        case h_2 => cases h
      case h_2 => exact exists_locate_of_ensureDirectory h

theorem exists_locate_of_ensureDirectories
    {maxMissing : Nat} (h : d.ensureDirectories maxMissing p = (made, .ok ())) :
  ∃ location, made.locate p = .ok (.directory location)
  := by
  obtain ⟨location, hlocate⟩ := exists_locate_of_ensureFrom h
  rw [List.reverse_reverse] at hlocate
  exact ⟨location, hlocate⟩

/-- Where a path leads to a directory, what is above it is found when the directory is to be made. -/
theorem makeDirectory_of_locate {location : Location} (h : d.locate p = .ok (.directory location)) :
  d.makeDirectory p ≠ .error .notFound ∧ d.makeDirectory p ≠ .error .nullCharacter
  := by
  obtain ⟨hunfit, hwalks⟩ := locate_eq_ok_iff.1 h
  rw [makeDirectory, hunfit]
  dsimp only
  split
  case h_1 => simp
  case h_2 last hlast =>
    obtain ⟨above, hsegments⟩ := List.getLast?_eq_some_iff.1 hlast
    rw [hsegments] at hwalks
    obtain ⟨found, hfound⟩ := hwalks.above false
    rw [hsegments, List.dropLast_concat, hfound.walk_eq]
    dsimp only [Except.bind, Place.asDirectory]
    split
    · simp
    · split
      · simp
      · split <;> simp

/-- A directory that is there can be ensured. -/
theorem exists_ensureDirectory_of_locate
    {location : Location} (h : d.locate p = .ok (.directory location)) :
  ∃ made, d.ensureDirectory p = (made, .ok ())
  := by
  obtain ⟨hfound, hfit⟩ := makeDirectory_of_locate h
  rw [ensureDirectory]
  split
  case h_1 made _ => exact ⟨made, rfl⟩
  case h_2 hmake => exact absurd hmake hfound
  case h_3 hmake => exact absurd hmake hfit
  case h_4 =>
    rw [acceptExisting, isDirectory, h]
    exact ⟨d, rfl⟩

/-- What has been ensured on one disk can be ensured on any on which it is a directory. -/
theorem exists_ensureDirectories_of_locate
    {e : Disk} {maxMissing : Nat} {location : Location}
    (h : d.ensureDirectories maxMissing p = (made, .ok ()))
    (hlocate : e.locate p = .ok (.directory location)) :
  ∃ made', e.ensureDirectories maxMissing p = (made', .ok ())
  := by
  have hensure := exists_ensureDirectory_of_locate hlocate
  rw [ensureDirectories, ensureFrom.eq_def] at h ⊢
  cases hsegments : p.segments.reverse with
  | nil =>
    have hp : p = ⟨p.anchor, []⟩ := by rw [← List.reverse_eq_nil_iff.1 hsegments]
    rwa [← hp]
  | cons s above =>
    rw [hsegments] at h
    have hp : p = ⟨p.anchor, (s :: above).reverse⟩ := by rw [← hsegments, List.reverse_reverse]
    cases maxMissing with
    | zero => cases h
    | succ maxMissing =>
      dsimp only
      rw [← hp]
      split
      case h_1 hmake => exact absurd hmake (makeDirectory_of_locate hlocate).1
      case h_2 => exact hensure

/-- A path that has been written can be written again. -/
theorem exists_write_of_written
    {maxMissing : Nat} {bytes : Bytes} (h : d.write maxMissing p bytes = (d', .ok ()))
    (again : Bytes) :
  ∃ d'', d'.write maxMissing p again = (d'', .ok ())
  := by
  rw [write] at h
  split at h
  case h_1 made hensure =>
    obtain ⟨location, hparent⟩ := exists_locate_of_ensureDirectories hensure
    obtain ⟨out, hk, -⟩ := of_setFile_eq_ok h
    obtain ⟨at', -, -, hreach⟩ := exists_set_of_setFile_eq_ok h
    have hdirectory := hk.directory (lookup_of_locate hparent)
    have hparent' := hk.locate hparent rfl hdirectory (by simp [Place.entry?])
    obtain ⟨made', hensure'⟩ := exists_ensureDirectories_of_locate hensure hparent'
    have hmade := d'.keeps_ensureDirectories maxMissing p.parent
    rw [hensure'] at hmade
    obtain ⟨bytes', hfile, -⟩ := hmade.file (reach_eq_ok_iff.1 hreach).2.lookup_eq
    have hreach' : made'.reach .write p = .ok (.file _ bytes') :=
      hmade.reach hreach rfl hfile (by simp [Place.entry?])
    rw [write, hensure']
    dsimp only
    rw [setFile, hreach']
    exact ⟨_, rfl⟩
  case h_2 => cases h

end

/-! ### What is read -/

/-- The bytes of a text that was written are its UTF-8 bytes.  However faults are treated, it is read
with every pair of a carriage return and a line feed, and then every other carriage return, made a line
feed: as it was, if there is no carriage return in it.  What was read can be written in its place, and
wherever it is written, it is read as it is. -/
theorem texts_are_read_with_line_feeds
    {d d' : Disk} {maxMissing : Nat} {p : Path} {t : Text}
    (h : d.writeText maxMissing p t = (d', .ok ())) :
  d'.read p = .ok (t.flatMap String.utf8EncodeChar)
    ∧ (∀ rule, d'.readText rule p = .ok (Text.withLineFeeds t))
    ∧ ('\r' ∉ t → Text.withLineFeeds t = t)
    ∧ (∃ d'', d'.writeText maxMissing p (Text.withLineFeeds t) = (d'', .ok ()))
    ∧ ∀ (e e' : Disk) (most : Nat) (q : Path),
      e.writeText most q (Text.withLineFeeds t) = (e', .ok ()) →
      ∀ rule, e'.readText rule q = .ok (Text.withLineFeeds t)
  := by
  have hread : d'.read p = .ok (Utf8.encode t) := read_of_write h
  refine ⟨?_, readText_encode hread, Text.withLineFeeds_of_not_mem, ?_, ?_⟩
  · rw [hread, Utf8.encode, funext Utf8.encodeChar_eq]
  · exact exists_write_of_written h _
  · intro e e' most q hwrite rule
    exact readText_of_writeText hwrite (Text.return_not_mem_withLineFeeds t) rule

/-- A disk with nothing but a link that leads nowhere yet. -/
def linked : Disk :=
  (Disk.empty []).add (Path.ofText "/link".toList) (.link (Target.ofText "t".toList))

/-- A path through a directory that is missing, and through the link. -/
def linkedPath : Path :=
  Path.ofText "/made/../link".toList

/-- A text with all kinds of line ends is written through the link.  What is read has line feeds, and
is read again when it has been written there. -/
theorem text_through_link_is_read :
  ∃ d' d'', linked.writeText 2 linkedPath "\u00E9\r\n\r\r\n\n".toList = (d', .ok ())
    ∧ d'.read linkedPath = .ok [0xC3, 0xA9, 0x0D, 0x0A, 0x0D, 0x0D, 0x0A, 0x0A]
    ∧ d'.readText .strict linkedPath = .ok "\u00E9\n\n\n\n".toList
    ∧ d'.writeText 2 linkedPath "\u00E9\n\n\n\n".toList = (d'', .ok ())
    ∧ d''.readText .ignore linkedPath = .ok "\u00E9\n\n\n\n".toList
  := by
  have houtcome : (linked.writeText 2 linkedPath "\u00E9\r\n\r\r\n\n".toList).2 = .ok () := by
    decide +kernel
  cases h : linked.writeText 2 linkedPath "\u00E9\r\n\r\r\n\n".toList with
  | mk d' outcome =>
    rw [h] at houtcome
    cases houtcome
    obtain ⟨hbytes, hread, -, ⟨d'', hagain⟩, hsame⟩ := texts_are_read_with_line_feeds h
    exact ⟨d', d'', rfl, hbytes, hread .strict, hagain, hsame d' d'' 2 linkedPath hagain .ignore⟩

end Disk

end Inlay
