import Inlay.Proofs.CommandLine.Arguments

/-!
# Lines of arguments and options

What stands on a command line behind the command is a list of pieces, each an argument or an option as
it is written.  The words of the pieces are read as such (`classify_lineWords_append`).  Options give
what they say wherever they stand (`takes_option`); a run of arguments that comes when the slots are
taken is left over (`exists_takes_of_slotsTaken`).
-/

namespace Inlay.CommandLine

/-! ### Lines -/

/-- A word that does not start with a hyphen. -/
def IsPlain (t : Text) : Prop :=
  t.head? ≠ some '-'

instance (t : Text) : Decidable (IsPlain t) :=
  inferInstanceAs (Decidable (_ ≠ _))

/-- An option as it is written. -/
inductive OptionUse where
  | failOnMissing
  /-- The path of the manifest is tied to the option, or it is a word of its own. -/
  | manifest (tied : Bool) (path : Text)
deriving DecidableEq

namespace OptionUse

/-- The words of an option. -/
def words : OptionUse → List Text
  | .failOnMissing => [OptionName.failOnMissing.word]
  | .manifest false path => [OptionName.manifest.word, path]
  | .manifest true path => [OptionName.manifest.word ++ '=' :: path]

/-- The path that an option gives to the manifest. -/
def path? : OptionUse → Option Text
  | .failOnMissing => none
  | .manifest _ path => some path

/-- A path is not empty and does not start with a hyphen. -/
def IsProper (use : OptionUse) : Prop :=
  ∀ path ∈ use.path?, path ≠ [] ∧ IsPlain path

instance (use : OptionUse) : Decidable use.IsProper :=
  inferInstanceAs (Decidable (∀ path ∈ use.path?, _))

end OptionUse

/-- The path that comes last among those for the manifest. -/
def lastPath? (uses : List OptionUse) : Option Text :=
  (uses.filterMap OptionUse.path?).getLast?

/-- What stands on a command line behind the command. -/
inductive Piece where
  | argument (t : Text)
  | option (use : OptionUse)
deriving DecidableEq

namespace Piece

/-- The words of a piece. -/
def words : Piece → List Text
  | .argument t => [t]
  | .option use => use.words

/-- The argument that a piece is. -/
def argument? : Piece → Option Text
  | .argument t => some t
  | .option _ => none

/-- An argument does not start with a hyphen. -/
def IsProper : Piece → Prop
  | .argument t => IsPlain t
  | .option use => use.IsProper

end Piece

/-- The words of a line. -/
def lineWords (line : List Piece) : List Text :=
  line.flatMap Piece.words

/-- The arguments on a line. -/
def lineArguments (line : List Piece) : List Text :=
  line.filterMap Piece.argument?

@[simp]
theorem lineArguments_argument_cons (t : Text) (line : List Piece) :
  lineArguments (.argument t :: line) = t :: lineArguments line
  := rfl

@[simp]
theorem lineArguments_option_cons (use : OptionUse) (line : List Piece) :
  lineArguments (.option use :: line) = lineArguments line
  := rfl

/-! ### What the words are -/

theorem IsPlain.ne_separator {t : Text} (h : IsPlain t) :
  t ≠ separator
  := by
  rintro rfl
  exact h rfl

theorem IsPlain.roleOf_eq {t : Text} (h : IsPlain t) :
  roleOf t = .ok .argument
  := by
  unfold IsPlain at h
  rw [roleOf, if_pos h]

/-- An argument as a word. -/
def argumentWord (t : Text) : Word :=
  ⟨t, .argument⟩

/-- What the words of an option are. -/
def OptionUse.roles : OptionUse → List Word
  | .failOnMissing => [failWord]
  | .manifest false path => [⟨OptionName.manifest.word, .option .manifest none⟩, argumentWord path]
  | .manifest true path =>
    [⟨OptionName.manifest.word ++ '=' :: path, .option .manifest (some path)⟩]

/-- What the words of a piece are. -/
def Piece.roles : Piece → List Word
  | .argument t => [argumentWord t]
  | .option use => use.roles

theorem flatMap_roles_options (uses : List OptionUse) :
  (uses.map Piece.option).flatMap Piece.roles = uses.flatMap OptionUse.roles
  := by
  rw [List.flatMap_map]
  rfl

theorem flatMap_roles_arguments (ts : List Text) :
  (ts.map Piece.argument).flatMap Piece.roles = ts.map argumentWord
  := by
  rw [List.flatMap_map, List.map_eq_flatMap]
  rfl

theorem classify_cons
    {t : Text} {role : Role} {rest : List Text} {ws : List Word} (ht : t ≠ separator)
    (hrole : roleOf t = .ok role) (h : classify rest = .ok ws) :
  classify (t :: rest) = .ok (⟨t, role⟩ :: ws)
  := by
  rw [classify, if_neg ht, hrole, h]
  rfl

theorem Piece.classify_words_append
    {piece : Piece} (hpiece : piece.IsProper) {rest : List Text} {ws : List Word}
    (h : classify rest = .ok ws) :
  classify (piece.words ++ rest) = .ok (piece.roles ++ ws)
  := by
  cases piece with
  | argument t => exact classify_cons hpiece.ne_separator hpiece.roleOf_eq h
  | option use =>
    cases use with
    | failOnMissing => exact classify_failWord_cons h
    | manifest tied path =>
      cases tied with
      | false =>
        have hplain := (hpiece path rfl).2
        have hrest := classify_cons hplain.ne_separator hplain.roleOf_eq h
        exact classify_cons (by decide) rfl hrest
      | true =>
        have hrole : roleOf (OptionName.manifest.word ++ '=' :: path)
            = .ok (.option .manifest (some path)) := rfl
        exact classify_cons (by rintro ⟨⟩) hrole h

/-- The words of a line in front of others are what its pieces are. -/
theorem classify_lineWords_append
    {line : List Piece} (hline : ∀ piece ∈ line, piece.IsProper) {rest : List Text}
    {ws : List Word} (h : classify rest = .ok ws) :
  classify (lineWords line ++ rest) = .ok (line.flatMap Piece.roles ++ ws)
  := by
  induction line with
  | nil => exact h
  | cons piece line ih =>
    obtain ⟨hpiece, hline⟩ := List.forall_mem_cons.1 hline
    rw [lineWords, List.flatMap_cons, List.flatMap_cons, List.append_assoc, List.append_assoc]
    exact Piece.classify_words_append hpiece (ih hline)

theorem classify_lineWords {line : List Piece} (hline : ∀ piece ∈ line, piece.IsProper) :
  classify (lineWords line) = .ok (line.flatMap Piece.roles)
  := by
  have hnone : classify [] = .ok [] := rfl
  have h := classify_lineWords_append hline hnone
  rwa [List.append_nil, List.append_nil] at h

/-! ### What the words give -/

namespace Arguments

/-- The arguments with one more option. -/
def give (a : Arguments) : OptionUse → Arguments
  | .failOnMissing => a.failing
  | .manifest _ path => a.withManifest path

/-- It does not matter for an option whether a run ends before or after it. -/
theorem give_endRun (a : Arguments) (use : OptionUse) (run : List Word) :
  (a.give use).endRun run = (a.endRun run).give use
  := by
  obtain ⟨input, output, manifest, failOnMissing, slotsTaken, leftOver⟩ := a
  cases use <;> cases run <;> cases slotsTaken <;> rfl

theorem foldl_give_endRun (a : Arguments) (uses : List OptionUse) (run : List Word) :
  (uses.foldl give a).endRun run = uses.foldl give (a.endRun run)
  := by
  induction uses generalizing a with
  | nil => rfl
  | cons use uses ih => rw [List.foldl_cons, List.foldl_cons, ih, give_endRun]

/-- Of the paths for the manifest the last one counts. -/
theorem foldl_give (a : Arguments) {uses : List OptionUse} (h : ∀ use ∈ uses, use.IsProper) :
  uses.foldl give a =
    { a with
      manifest := ((lastPath? uses).map Value.text).or a.manifest
      failOnMissing := a.failOnMissing || decide (.failOnMissing ∈ uses) }
  := by
  induction uses generalizing a with
  | nil => simp [lastPath?]
  | cons use uses ih =>
    obtain ⟨huse, huses⟩ := List.forall_mem_cons.1 h
    rw [List.foldl_cons, ih _ huses]
    cases use with
    | failOnMissing => simp [give, failing, lastPath?, OptionUse.path?]
    | manifest tied path =>
      have hvalue : Value.ofText path = .text path := if_neg (huse path rfl).2.ne_separator
      have hlast : lastPath? (.manifest tied path :: uses) = some ((lastPath? uses).getD path) :=
        List.getLast?_cons
      rw [hlast]
      cases lastPath? uses <;> simp [give, withManifest, hvalue]

theorem slotText_argumentWord {t : Text} (h : t ≠ separator) :
  slotText [argumentWord t] = some t
  := by
  simp [slotText, argumentWord, h]

/-- A run that has the slots gives them the first two of its arguments. -/
theorem endRun_arguments
    {a : Arguments} (ha : a.slotsTaken = false) {input output : Text} (others : List Text)
    (hinput : input ≠ separator) (houtput : output ≠ separator) :
  a.endRun ((input :: output :: others).map argumentWord).reverse
    = { a with input := some input, output := some output, slotsTaken := true }
  := by
  have hslots : takeSlot ((input :: output :: others).map argumentWord)
        = ([argumentWord input], (output :: others).map argumentWord)
      ∧ takeSlot ((output :: others).map argumentWord)
        = ([argumentWord output], others.map argumentWord) := by
    cases others <;> exact ⟨rfl, rfl⟩
  rw [endRun, if_neg (by simp), takeRun, if_neg (by simp [ha]), List.reverse_reverse, hslots.1]
  dsimp only
  rw [hslots.2, slotText_argumentWord hinput, slotText_argumentWord houtput]

/-- The separator goes to the slot of the first argument behind it, and is dropped there. -/
theorem endRun_separated
    {a : Arguments} (ha : a.slotsTaken = false) (input : Text) {output : Text}
    (houtput : output ≠ separator) :
  a.endRun [⟨separator, .separator⟩, argumentWord input, argumentWord output].reverse
    = { a with input := some input, output := some output, slotsTaken := true }
  := by
  have hslots : takeSlot [⟨separator, .separator⟩, argumentWord input, argumentWord output]
        = ([⟨separator, .separator⟩, argumentWord input], [argumentWord output])
      ∧ takeSlot [argumentWord output] = ([argumentWord output], []) := ⟨rfl, rfl⟩
  have hinput : slotText [⟨separator, .separator⟩, argumentWord input] = some input := by
    simp [slotText, argumentWord]
  rw [endRun, if_neg (by simp), takeRun, if_neg (by simp [ha]), List.reverse_reverse, hslots.1]
  dsimp only
  rw [hslots.2, hinput, slotText_argumentWord houtput]

theorem leftOver_endRun {a : Arguments} (ha : a.slotsTaken = false) (run : List Word) :
  (a.endRun run).leftOver = a.leftOver
  := by
  cases run with
  | nil => rfl
  | cons w run =>
    rw [endRun, if_neg (by simp), takeRun, if_neg (by simp [ha])]

/-- A run that comes too late for the slots is left over. -/
theorem endRun_of_slotsTaken {a : Arguments} (ha : a.slotsTaken = true) (run : List Word) :
  (a.endRun run).slotsTaken = true
    ∧ (a.endRun run).leftOver = a.leftOver ++ run.reverse.map Word.text
  := by
  cases run with
  | nil => exact ⟨ha, (List.append_nil _).symm⟩
  | cons w run =>
    rw [endRun, if_neg (by simp), takeRun, if_pos ha]
    exact ⟨ha, rfl⟩

end Arguments

section

variable {a b : Arguments} {run ws : List Word}

theorem takes_arguments {ts : List Text} (h : Takes a ((ts.map argumentWord).reverse ++ run) ws b) :
  Takes a run (ts.map argumentWord ++ ws) b
  := by
  induction ts generalizing run with
  | nil => exact h
  | cons t ts ih =>
    apply Takes.one (.argument rfl)
    apply ih
    simpa using h

theorem takes_option {use : OptionUse} (h : Takes ((a.endRun run).give use) [] ws b) :
  Takes a run (use.roles ++ ws) b
  := by
  cases use with
  | failOnMissing => exact .one (.failOnMissing rfl) h
  | manifest tied path =>
    cases tied with
    | false => exact .manifest rfl rfl h
    | true => exact .one (.manifest rfl) h

/-- Options in front of all else. -/
theorem takes_options {uses : List OptionUse} (h : Takes (uses.foldl Arguments.give a) [] ws b) :
  Takes a [] (uses.flatMap OptionUse.roles ++ ws) b
  := by
  induction uses generalizing a with
  | nil => exact h
  | cons use uses ih =>
    rw [List.flatMap_cons, List.append_assoc]
    exact takes_option (ih h)

/-- Options behind all else. -/
theorem takes_options_behind (a : Arguments) (run : List Word) (uses : List OptionUse) :
  Takes a run (uses.flatMap OptionUse.roles) (uses.foldl Arguments.give (a.endRun run))
  := by
  cases uses with
  | nil => exact .done a run
  | cons use uses =>
    rw [List.flatMap_cons]
    apply takes_option
    have h := takes_options (a := (a.endRun run).give use) (.done (uses.foldl Arguments.give _) [])
    rwa [List.append_nil] at h

/-- Once the slots are taken, every argument is left over. -/
theorem exists_takes_of_slotsTaken (ha : a.slotsTaken = true) (run : List Word) (line : List Piece) :
  ∃ b, Takes a run (line.flatMap Piece.roles) b
    ∧ b.leftOver = a.leftOver ++ run.reverse.map Word.text ++ lineArguments line
  := by
  induction line generalizing a run with
  | nil =>
    use a.endRun run, .done a run
    rw [(Arguments.endRun_of_slotsTaken ha run).2]
    exact (List.append_nil _).symm
  | cons piece line ih =>
    rw [List.flatMap_cons]
    cases piece with
    | argument t =>
      obtain ⟨b, hb, hleft⟩ := ih ha (argumentWord t :: run)
      use b, .one (.argument rfl) hb
      rw [hleft]
      simp [argumentWord]
    | option use =>
      obtain ⟨htaken, hended⟩ := Arguments.endRun_of_slotsTaken ha run
      have hgive : ((a.endRun run).give use).slotsTaken = (a.endRun run).slotsTaken
          ∧ ((a.endRun run).give use).leftOver = (a.endRun run).leftOver := by
        cases use <;> exact ⟨rfl, rfl⟩
      obtain ⟨b, hb, hleft⟩ := ih (hgive.1.trans htaken) []
      use b, takes_option hb
      rw [hleft, hgive.2, hended]
      simp

/-- Words of which some are left over cannot be understood. -/
theorem parse_eq_unrecognized
    {words : List Text} (hclassify : classify words = .ok ws) (h : Takes .empty [] ws b)
    (hleft : b.leftOver ≠ []) :
  parse words = .error (.unrecognized b.leftOver)
  := by
  have htake := take_eq_ok_iff.2 h
  rw [parse, hclassify]
  simp only [bind, Except.bind, htake, hleft, if_false]
  rfl

end

end Inlay.CommandLine
