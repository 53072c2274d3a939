import Inlay.Disk.Write
import Inlay.Proofs.Image.MediaType
import Inlay.Proofs.Substitution

/-!
# What embedding images leaves

Of the image elements of a text, those with a source on the network or in a data URI stay, those with
a file have their source replaced by a data URI that decodes to the bytes of the file, and the others
give way to a comment; all else is kept (`embedAll_exact`).  A data URI that stands between its
quotes has no part in the source of any element, whatever stands around it.
-/

namespace Inlay.Image

/-- A value that stands for bytes as a source: a data URI that decodes to the bytes and is never read
as part of the source of an element, as long as it stands between quotes. -/
structure Embeds (mediaType : Text) (bytes : Bytes) (value : Text) : Prop where
  decodes : ∃ payload, value = "data:".toList ++ mediaType ++ ";base64,".toList ++ payload
    ∧ Base64.decode payload = some bytes
  inert : ∀ c ∈ value, c ≠ '"' ∧ c ≠ '>' ∧ c ≠ '.' ∧ Text.isBlank c = false
  apart : ∀ front back earlier y,
    pattern.Stands (pieces (front ++ '"' :: (value ++ '"' :: back))) earlier y →
      earlier ++ (y.head ++ y.source) <+: front ++ ['"']
        ∨ front ++ '"' :: value <+: earlier ++ y.head

/-- The image of an element is missing. -/
def Element.IsMissing (d : Disk) (base root : Path) (x : Element) : Prop :=
  isPassedOver x.reference = false
    ∧ d.isFile (Path.resolve x.reference base root) = .ok false

/-- The image of an element is a file with these bytes. -/
def Element.HasBytes (d : Disk) (base root : Path) (x : Element) (bytes : Bytes) : Prop :=
  isPassedOver x.reference = false
    ∧ d.isFile (Path.resolve x.reference base root) = .ok true
    ∧ d.read (Path.resolve x.reference base root) = .ok bytes

/-- What an image element gives way to, and the events that it leaves. -/
inductive Element.Gives (d : Disk) (base root : Path) (x : Element) : List Event → Text → Prop
  | kept (hpass : ∃ start ∈ passedOver, start <+: Text.lower x.reference) :
    Gives d base root x [⟨.image, x.reference, none, .skipped⟩] x.text
  | embedded {bytes value} (hpass : ¬ ∃ start ∈ passedOver, start <+: Text.lower x.reference)
    (hfile : d.isFile (Path.resolve x.reference base root) = .ok true)
    (hread : d.read (Path.resolve x.reference base root) = .ok bytes)
    (hvalue : Embeds (mediaType x.reference) bytes value) :
    Gives d base root x
      [⟨.image, x.reference, some (Path.resolve x.reference base root), .inlined⟩]
      (x.head ++ (value ++ '"' :: (x.tail ++ ['>'])))
  | missing (hpass : ¬ ∃ start ∈ passedOver, start <+: Text.lower x.reference)
    (hfile : d.isFile (Path.resolve x.reference base root) = .ok false) :
    Gives d base root x
      [⟨.image, x.reference, some (Path.resolve x.reference base root), .missing⟩]
      (missingComment x.reference)

section

variable {d : Disk} {base root : Path} {x : Element} {t : Text}

/-- A head ends in the quote ahead of the source. -/
theorem exists_head_eq_concat {head : Text} (h : IsHead head) :
  ∃ front, head = front ++ ['"']
  := by
  obtain @⟨opening, blanks, skipped, name, -, -, -, -, hname⟩ := h
  obtain ⟨word, rfl, -⟩ := exists_name_eq_concat hname
  use opening ++ (blanks ++ (skipped ++ word))
  simp

/-- Two quoted values without quotes are the same, or apart. -/
theorem apart_of_quoted
    {front value back front' value' back' : Text}
    (h : front ++ '"' :: (value ++ '"' :: back) = front' ++ '"' :: (value' ++ '"' :: back'))
    (hvalue : '"' ∉ value) (hvalue' : '"' ∉ value') :
  value = value' ∨ front' ++ '"' :: value' <+: front ∨ front ++ '"' :: value <+: front'
  := by
  rcases List.append_eq_append_iff.1 h with ⟨between, rfl, hbetween⟩ | ⟨between, rfl, hbetween⟩
  · cases between with
    | nil => exact .inl (Text.append_cons_inj (List.cons.inj hbetween).2 hvalue hvalue').1
    | cons c between =>
      obtain ⟨rfl, hmore⟩ := List.cons.inj hbetween
      obtain ⟨more, rfl, -⟩ := Text.exists_of_append_eq hmore hvalue
      exact .inr (.inr ⟨more, by simp⟩)
  · cases between with
    | nil => exact .inl (Text.append_cons_inj (List.cons.inj hbetween).2 hvalue' hvalue).1.symm
    | cons c between =>
      obtain ⟨rfl, hmore⟩ := List.cons.inj hbetween
      obtain ⟨more, rfl, -⟩ := Text.exists_of_append_eq hmore hvalue'
      exact .inr (.inl ⟨more, by simp⟩)

/-- The data URI of an image stands for its bytes. -/
theorem embeds_dataUri (hx : x.NamesImage) (bytes : Bytes) :
  Embeds (mediaType x.reference) bytes (dataUri (mediaType x.reference) bytes)
  := by
  have hinert : ∀ c ∈ dataUri (mediaType x.reference) bytes,
      c ≠ '"' ∧ c ≠ '>' ∧ c ≠ '.' ∧ Text.isBlank c = false := by
    intro c hc
    have := isInert_of_mem_dataUri hx.endsInExtension_eq hc
    simpa [Text.isInert, and_assoc] using this
  constructor
  · exact ⟨_, rfl, Base64.decode_encode bytes⟩
  · exact hinert
  · intro front back earlier y hstands
    obtain ⟨rest, htext, hmatch⟩ := hstands.exists_rest
    have himage := (match?_eq_some_iff.1 hmatch).isImage
    obtain ⟨start, hhead⟩ := exists_head_eq_concat himage.isHead
    replace htext : _ = earlier ++ (y.text ++ rest) := htext
    rw [text_append_eq, hhead, List.append_assoc, List.singleton_append, ← List.append_assoc] at htext
    rcases apart_of_quoted htext (fun hmem => (hinert _ hmem).1 rfl) himage.quote_not_mem with
      hsame | hbefore | hbehind
    · -- The source of an element holds a dot.
      have hdot := dot_mem_of_endsInExtension himage.endsInExtension_eq
      rw [← hsame] at hdot
      exact absurd rfl (hinert _ hdot).2.2.1
    · left
      rw [hhead]
      apply List.IsPrefix.trans _ (List.prefix_append front ['"'])
      simpa using hbefore
    · right
      rw [hhead, ← List.append_assoc]
      exact hbehind.trans (List.prefix_append _ _)

/-- A reference is left alone if it has one of the starts in lower case. -/
theorem isPassedOver_iff {reference : Text} :
  isPassedOver reference = true ↔ ∃ start ∈ passedOver, start <+: Text.lower reference
  := by
  rw [isPassedOver, List.any_eq_true]
  simp only [List.isPrefixOf_iff_prefix]

/-- What is put in the place of an element, with its event: itself, the element with a data URI, or
a comment. -/
theorem embed_cases
    {own : List Event} {new : Text} (h : embed d base root x = ⟨own, .ok new⟩) :
  (isPassedOver x.reference = true ∧ own = [⟨.image, x.reference, none, .skipped⟩] ∧ new = x.text)
    ∨ (∃ bytes, x.HasBytes d base root bytes
        ∧ own = [⟨.image, x.reference, some (Path.resolve x.reference base root), .inlined⟩]
        ∧ new = x.head ++ (dataUri (mediaType x.reference) bytes ++ '"' :: (x.tail ++ ['>'])))
    ∨ (x.IsMissing d base root
        ∧ own = [⟨.image, x.reference, some (Path.resolve x.reference base root), .missing⟩]
        ∧ new = missingComment x.reference)
  := by
  cases hpass : isPassedOver x.reference with
  | true =>
    rw [embed_of_passedOver hpass] at h
    cases h
    exact .inl ⟨rfl, rfl, rfl⟩
  | false =>
    right
    cases hfile : d.isFile (Path.resolve x.reference base root) with
    | error e =>
      rw [embed_of_error hpass hfile] at h
      cases h
    | ok found =>
      cases found with
      | false =>
        rw [embed_of_missing hpass hfile] at h
        cases h
        exact .inr ⟨⟨hpass, hfile⟩, rfl, rfl⟩
      | true =>
        obtain ⟨bytes, hread⟩ := Disk.exists_read_of_isFile hfile
        rw [embed_of_file hpass hfile hread] at h
        cases h
        exact .inl ⟨bytes, ⟨hpass, hfile, hread⟩, rfl, by simp [Element.text]⟩

/-- What an element gives way to. -/
theorem gives_of_embed_eq_ok
    {own : List Event} {new : Text} (hx : x.NamesImage)
    (h : embed d base root x = ⟨own, .ok new⟩) :
  x.Gives d base root own new
  := by
  have hstart : isPassedOver x.reference = false →
      ¬ ∃ start ∈ passedOver, start <+: Text.lower x.reference := by
    intro hpass
    rw [← isPassedOver_iff, hpass]
    decide
  rcases embed_cases h with ⟨hpass, rfl, rfl⟩ | ⟨bytes, hbytes, rfl, rfl⟩ | ⟨hmissing, rfl, rfl⟩
  · exact .kept (isPassedOver_iff.1 hpass)
  · exact .embedded (hstart hbytes.1) hbytes.2.1 hbytes.2.2 (embeds_dataUri hx bytes)
  · exact .missing (hstart hmissing.1) hmissing.2

/-- The pieces of a text are its leftmost image elements without overlap, and the gaps. -/
theorem isLeftmost_matches (t : Text) :
  IsLeftmost Matches t (pieces t)
  := (pattern.isLeftmost_pieces t).congr fun _ _ _ => match?_eq_some_iff

/-- What comes of a text. -/
theorem substituted_of_embedAll_eq_ok
    {events : List Event} {out : Text} (h : embedAll d base root t = ⟨events, .ok out⟩) :
  Substituted (Element.Gives d base root) (pieces t) events out
  := by
  apply (Recorded.substitute_eq_ok_iff.1 h).imp
  intro x own new hx hnew
  exact gives_of_embed_eq_ok (isImage_of_mem_pieces hx).toNamesImage hnew

end

/-- Embedding the images of a text replaces its leftmost elements without overlap, each up to the
last suitable `src` ahead of its first `>`, and keeps all else.  An element whose reference is
passed over stays; in one whose reference denotes a file, the source alone gives way, to a data URI
of the file that stays apart from the source of every element; any other gives way to its
comment. -/
theorem embedAll_exact
    {d : Disk} {base root : Path} {t : Text} {events : List Event} {out : Text}
    (h : embedAll d base root t = ⟨events, .ok out⟩) :
  IsLeftmost Matches t (pieces t) ∧ Substituted (Element.Gives d base root) (pieces t) events out
  := ⟨isLeftmost_matches t, substituted_of_embedAll_eq_ok h⟩

/-- A disk with an image of two bytes and nothing else. -/
def portrait : Disk :=
  (Disk.empty []).add (Path.ofText "/a.png".toList) (.file [0xFF, 0x00])

/-- An image that is there, one on the network, and one that is missing. -/
def album : Text :=
  "<img src=\"a.png\" alt=\"a.gif\">,<IMG SRC=\"HTTP://h/b.jpg\"><img\nsrc=\" no.svg\">".toList

/-- The album with its images embedded. -/
def embeddedAlbum : Text :=
  "<img src=\"data:image/png;base64,/wA=\" alt=\"a.gif\">,<IMG SRC=\"HTTP://h/b.jpg\">".toList
    ++ missingComment "no.svg".toList

/-- The events of the album. -/
def albumEvents : List Event :=
  [⟨.image, "a.png".toList, some (Path.ofText "/a.png".toList), .inlined⟩,
   ⟨.image, "HTTP://h/b.jpg".toList, none, .skipped⟩,
   ⟨.image, "no.svg".toList, some (Path.ofText "/no.svg".toList), .missing⟩]

theorem embedAll_album :
  embedAll portrait ⟨.root, []⟩ ⟨.root, []⟩ album = ⟨albumEvents, .ok embeddedAlbum⟩
  := by
  have hevents : (embedAll portrait ⟨.root, []⟩ ⟨.root, []⟩ album).events = albumEvents := by
    decide +kernel
  have houtcome : (embedAll portrait ⟨.root, []⟩ ⟨.root, []⟩ album).outcome = .ok embeddedAlbum := by
    decide +kernel
  rw [← hevents, ← houtcome]

/-- Each image of the album is treated as its reference asks. -/
theorem album_is_embedded :
  embedAll portrait ⟨.root, []⟩ ⟨.root, []⟩ album = ⟨albumEvents, .ok embeddedAlbum⟩
    ∧ IsLeftmost Matches album (pieces album)
    ∧ Substituted (Element.Gives portrait ⟨.root, []⟩ ⟨.root, []⟩) (pieces album) albumEvents
        embeddedAlbum
  := ⟨embedAll_album, embedAll_exact embedAll_album⟩

end Inlay.Image
