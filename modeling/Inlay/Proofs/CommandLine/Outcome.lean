import Inlay.CommandLine.Run
import Inlay.Proofs.CommandLine.Arguments
import Inlay.Proofs.Component.Steps
import Inlay.Proofs.Page
import Mathlib.Tactic.ByContra

/-!
# The outcome of a command line

A command line that asks for a build leaves the disk that the build leaves, and its exit code is that
of what the build comes to.  What else it says, about traces or about failure, changes neither the
disk nor what is printed (`outcome_is_that_of_build`).  Any other command line changes nothing.
-/

namespace Inlay.CommandLine

/-! ### What a command line asks for -/

/-- The words ask for the help text, whatever else they say. -/
def AsksForHelp (words : List Text) : Prop :=
  words = [] ∨ "--help".toList ∈ words ∨ "-h".toList ∈ words

/-- The words ask for the version, unless they ask for the help text. -/
def AsksForVersion (words : List Text) : Prop :=
  "--version".toList ∈ words ∨ "-v".toList ∈ words

instance (words : List Text) : Decidable (AsksForHelp words) :=
  inferInstanceAs (Decidable (_ ∨ _))

instance (words : List Text) : Decidable (AsksForVersion words) :=
  inferInstanceAs (Decidable (_ ∨ _))

/-- A command line asks for a build: its first word is the command, no word asks for the help text or
for the version, and the other words give arguments with an input and an output. -/
structure AsksForBuild (words : List Text) (a : Arguments) : Prop where
  command : words.head? = some "compile".toList
  not_help : ¬ AsksForHelp words
  not_version : ¬ AsksForVersion words
  parse_eq : parse words.tail = .ok a
  input_ne_nil : a.input.getD [] ≠ []
  output_ne_nil : a.output.getD [] ≠ []

/-- The build that arguments ask for. -/
def Arguments.request (a : Arguments) : Build.Request :=
  ⟨Path.ofText (a.input.getD []), Path.ofText (a.output.getD []), a.target⟩

/-- The exit code for what a build comes to. -/
def exitCode (failOnMissing : Bool) : Except Build.Error Build.Result → Nat
  | .error _ => 1
  | .ok r =>
    if failOnMissing = true ∧ ∃ e ∈ r.events, e.status = .missing ∨ e.status = .circular then 3
    else 0

/-- The option for failure has been added to a command line, behind the command and before any
separator. -/
def AddsFailWord (words words' : List Text) : Prop :=
  ∃ command before after, separator ∉ before ∧ words = command :: (before ++ after)
    ∧ words' = command :: (before ++ failWord.text :: after)

variable {d : Disk} {words words' : List Text} {a a' : Arguments}

theorem AsksForBuild.eq (h : AsksForBuild words a) (h' : AsksForBuild words a') :
  a = a'
  := by
  have hparse := h.parse_eq
  rw [h'.parse_eq] at hparse
  exact (Except.ok.inj hparse).symm

theorem AsksForBuild.exists_cons (h : AsksForBuild words a) :
  ∃ rest, words = "compile".toList :: rest ∧ parse rest = .ok a
  := by
  cases words with
  | nil => exact absurd (.inl rfl) h.not_help
  | cons command rest => exact ⟨rest, by simpa using h.command, h.parse_eq⟩

/-- The option for failure sets what it is for and nothing else. -/
theorem AddsFailWord.eq_failing
    (hadds : AddsFailWord words words') (h : AsksForBuild words a) (h' : AsksForBuild words' a') :
  a' = a.failing
  := by
  obtain ⟨command, before, after, hbefore, rfl, rfl⟩ := hadds
  obtain ⟨b, hb, rfl⟩ := exists_parse_of_insert hbefore h'.parse_eq
  have hparse := h.parse_eq
  rw [List.tail_cons, hb] at hparse
  rw [Except.ok.inj hparse]

/-- Words with the option for failure ask for a build if they say the rest as well. -/
theorem AsksForBuild.failing
    {rest rest' : List Text} (h : AsksForBuild ("compile".toList :: rest) a)
    (hsub : ∀ t ∈ rest', t = failWord.text ∨ t ∈ rest) (hparse : parse rest' = .ok a.failing) :
  AsksForBuild ("compile".toList :: rest') a.failing
  := by
  have hmem : ∀ {t : Text}, t ≠ failWord.text →
      t ∈ "compile".toList :: rest' → t ∈ "compile".toList :: rest := by
    intro t hne ht
    rcases List.mem_cons.1 ht with rfl | ht
    · apply List.mem_cons_self
    · exact List.mem_cons_of_mem _ ((hsub t ht).resolve_left hne)
  constructor
  case command => rfl
  case not_help =>
    rintro (hnil | hhelp | hhelp)
    · cases hnil
    · exact h.not_help (.inr (.inl (hmem (by decide) hhelp)))
    · exact h.not_help (.inr (.inr (hmem (by decide) hhelp)))
  case not_version =>
    rintro (hversion | hversion)
    · exact h.not_version (.inl (hmem (by decide) hversion))
    · exact h.not_version (.inr (hmem (by decide) hversion))
  case parse_eq => exact hparse
  case input_ne_nil => exact h.input_ne_nil
  case output_ne_nil => exact h.output_ne_nil

/-- The option for failure can be added to every command line that asks for a build. -/
theorem AsksForBuild.exists_adds (h : AsksForBuild words a) :
  ∃ words', AddsFailWord words words' ∧ AsksForBuild words' a.failing
  := by
  obtain ⟨rest, rfl, hparse⟩ := h.exists_cons
  use "compile".toList :: failWord.text :: rest
  constructor
  · exact ⟨_, [], rest, List.not_mem_nil, rfl, rfl⟩
  · apply h.failing _ (parse_cons hparse)
    intro t ht
    exact List.mem_cons.1 ht

/-- The option for failure can be added at the end if there is no separator. -/
theorem AsksForBuild.concat (h : AsksForBuild words a) (hwords : separator ∉ words) :
  AsksForBuild (words ++ [failWord.text]) a.failing
  := by
  obtain ⟨rest, rfl, hparse⟩ := h.exists_cons
  have hrest : separator ∉ rest := fun hmem => hwords (List.mem_cons_of_mem _ hmem)
  apply h.failing _ (parse_concat hrest hparse)
  intro t ht
  simpa [or_comm] using ht

/-! ### Answers -/

theorem run_of_asksForHelp (h : AsksForHelp words) (host : Host) (d : Disk) (debug : Bool) :
  run host d debug words = (d, printReply help)
  := by
  cases words with
  | nil => rfl
  | cons command rest => rw [run, if_pos (h.resolve_left (List.cons_ne_nil _ _))]

theorem run_of_asksForVersion
    (hhelp : ¬ AsksForHelp words) (h : AsksForVersion words) (host : Host) (d : Disk) (debug : Bool) :
  run host d debug words
    = (d, printReply ("hybrid-html-compiler v".toList ++ Manifest.toolVersion))
  := by
  cases words with
  | nil => exact absurd (.inl rfl) hhelp
  | cons command rest =>
    rw [AsksForVersion] at h
    rw [run, if_neg fun hmem => hhelp (.inr hmem), if_pos h]

theorem run_of_command
    {command : Text} {rest : List Text} (hhelp : ¬ AsksForHelp (command :: rest))
    (hversion : ¬ AsksForVersion (command :: rest)) (host : Host) (d : Disk) (debug : Bool) :
  run host d debug (command :: rest) =
    if command = "compile".toList then runBuild host d debug rest else (d, unknownCommandReply command)
  := by
  rw [AsksForVersion] at hversion
  rw [run, if_neg fun hmem => hhelp (.inr hmem), if_neg hversion]

/-- Words that give an input and an output are answered by what their build comes to. -/
theorem runBuild_of_paths
    {rest : List Text} (h : parse rest = .ok a) (hinput : a.input.getD [] ≠ [])
    (houtput : a.output.getD [] ≠ []) (host : Host) (d : Disk) (debug : Bool) :
  runBuild host d debug rest =
    match Build.run host d a.request with
    | (after, .ok result) => (after, successReply a result)
    | (after, .error e) => (after, failureReply debug e)
  := by
  rw [runBuild, h]
  dsimp only
  split
  · exact absurd ‹_› hinput
  · exact absurd ‹_› houtput
  · rfl

/-- Other words fail before there is a build. -/
theorem runBuild_of_no_paths
    {rest : List Text}
    (h : ∀ a, parse rest = .ok a → a.input.getD [] = [] ∨ a.output.getD [] = []) (host : Host)
    (d : Disk) (debug : Bool) :
  (runBuild host d debug rest).1 = d ∧ (runBuild host d debug rest).2.code = 1
  := by
  cases hparse : parse rest with
  | error e =>
    rw [runBuild, hparse]
    exact ⟨rfl, rfl⟩
  | ok a =>
    rw [runBuild, hparse]
    dsimp only
    split
    · exact ⟨rfl, rfl⟩
    · exact ⟨rfl, rfl⟩
    · have := h a hparse
      simp_all

/-- A command line that asks for a build is answered by what the build comes to. -/
theorem AsksForBuild.run_eq (h : AsksForBuild words a) (host : Host) (d : Disk) (debug : Bool) :
  run host d debug words =
    match Build.run host d a.request with
    | (after, .ok result) => (after, successReply a result)
    | (after, .error e) => (after, failureReply debug e)
  := by
  obtain ⟨rest, rfl, hparse⟩ := h.exists_cons
  rw [run_of_command h.not_help h.not_version, if_pos rfl]
  exact runBuild_of_paths hparse h.input_ne_nil h.output_ne_nil host d debug

/-- A command line that does not ask for a build changes nothing. -/
theorem run_of_not_asksForBuild
    (h : ∀ a, ¬ AsksForBuild words a) (host : Host) (d : Disk) (debug : Bool) :
  (run host d debug words).1 = d
    ∧ (run host d debug words).2.code = if AsksForHelp words ∨ AsksForVersion words then 0 else 1
  := by
  by_cases hhelp : AsksForHelp words
  · rw [run_of_asksForHelp hhelp, if_pos (.inl hhelp)]
    exact ⟨rfl, rfl⟩
  by_cases hversion : AsksForVersion words
  · rw [run_of_asksForVersion hhelp hversion, if_pos (.inr hversion)]
    exact ⟨rfl, rfl⟩
  rw [if_neg (not_or.2 ⟨hhelp, hversion⟩)]
  cases words with
  | nil => exact absurd (.inl rfl) hhelp
  | cons command rest =>
    rw [run_of_command hhelp hversion]
    by_cases hcommand : command = "compile".toList
    · rw [if_pos hcommand]
      apply runBuild_of_no_paths
      intro a hparse
      by_contra hpaths
      rw [not_or] at hpaths
      exact h a ⟨congrArg some hcommand, hhelp, hversion, hparse, hpaths.1, hpaths.2⟩
    · rw [if_neg hcommand]
      exact ⟨rfl, rfl⟩

/-! ### Exit codes -/

theorem problems_ne_zero_iff (r : Build.Result) :
  (r.missing.length + r.circular.length != 0) = true
    ↔ ∃ e ∈ r.events, e.status = .missing ∨ e.status = .circular
  := by
  simp only [bne_iff_ne, ne_eq, Nat.add_eq_zero_iff, List.length_eq_zero_iff, Build.Result.missing,
    Build.Result.circular, List.filter_eq_nil_iff, decide_eq_true_eq]
  constructor
  · intro hproblem
    by_contra hnone
    apply hproblem
    constructor
    · intro e he hmissing
      exact hnone ⟨e, he, .inl hmissing⟩
    · intro e he hcircular
      exact hnone ⟨e, he, .inr hcircular⟩
  · rintro ⟨e, he, hmissing | hcircular⟩ ⟨hno_missing, hno_circular⟩
    · exact hno_missing e he hmissing
    · exact hno_circular e he hcircular

theorem code_successReply (a : Arguments) (r : Build.Result) :
  (successReply a r).code = exitCode a.failOnMissing (.ok r)
  := by
  simp only [successReply, exitCode, Bool.and_eq_true, problems_ne_zero_iff]

/-- What is printed about a build depends on the arguments only by the manifest. -/
theorem out_successReply (r : Build.Result) (h : a'.manifest = a.manifest) :
  (successReply a' r).out = (successReply a r).out
  := by
  simp only [successReply, h]

/-- A command line that asks for a build leaves the disk that the build leaves. -/
theorem AsksForBuild.fst_run (h : AsksForBuild words a) (host : Host) (d : Disk) (debug : Bool) :
  (run host d debug words).1 = (Build.run host d a.request).1
  := by
  rw [h.run_eq]
  cases Build.run host d a.request with
  | mk after outcome => cases outcome <;> rfl

/-- Its exit code is that of what the build comes to. -/
theorem AsksForBuild.code_run (h : AsksForBuild words a) (host : Host) (d : Disk) (debug : Bool) :
  (run host d debug words).2.code = exitCode a.failOnMissing (Build.run host d a.request).2
  := by
  rw [h.run_eq]
  cases Build.run host d a.request with
  | mk after outcome =>
    cases outcome with
    | error e => rfl
    | ok r => exact code_successReply a r

/-- Two command lines that ask for the same build leave the same disk, and the same is printed. -/
theorem AsksForBuild.run_congr
    (h : AsksForBuild words a) (h' : AsksForBuild words' a') (hinput : a'.input = a.input)
    (houtput : a'.output = a.output) (hmanifest : a'.manifest = a.manifest) (host : Host) (d : Disk)
    (debug debug' : Bool) :
  (run host d debug' words').1 = (run host d debug words).1
    ∧ (run host d debug' words').2.out = (run host d debug words).2.out
  := by
  have hrequest : a'.request = a.request := by
    simp only [Arguments.request, Arguments.target, hinput, houtput, hmanifest]
  constructor
  · rw [h.fst_run, h'.fst_run, hrequest]
  · rw [h.run_eq, h'.run_eq, hrequest]
    cases Build.run host d a.request with
    | mk after outcome =>
      cases outcome with
      | error e => rfl
      | ok r => exact out_successReply r hmanifest

/-- A command line that asks for a build leaves the disk that the build leaves, with the exit code of
what the build comes to.  Neither a trace that is wanted nor the option for failure, wherever it is
added, changes the disk or what is printed; it can always be added, and at the end unless there is a
separator.  Any other command line leaves the disk as it is, and its exit code is 0 if it asks for the
help text or for the version and 1 if it does not. -/
theorem outcome_is_that_of_build
    (host : Host) (d : Disk) (environment : List (Text × Text)) (words : List Text) :
  (∀ a, AsksForBuild words a →
      (run host d (asksForTrace environment) words).1 = (Build.run host d a.request).1
      ∧ (run host d (asksForTrace environment) words).2.code
        = exitCode a.failOnMissing (Build.run host d a.request).2
      ∧ (∀ environment' words' a', AsksForBuild words' a' →
          words' = words ∨ AddsFailWord words words' →
            (run host d (asksForTrace environment') words').1
                = (run host d (asksForTrace environment) words).1
              ∧ (run host d (asksForTrace environment') words').2.out
                = (run host d (asksForTrace environment) words).2.out)
      ∧ (∃ words', AddsFailWord words words' ∧ AsksForBuild words' a.failing)
      ∧ (separator ∉ words → AsksForBuild (words ++ [failWord.text]) a.failing))
    ∧ ((∀ a, ¬ AsksForBuild words a) →
      (run host d (asksForTrace environment) words).1 = d
      ∧ (run host d (asksForTrace environment) words).2.code
        = if AsksForHelp words ∨ AsksForVersion words then 0 else 1)
  := by
  constructor
  · intro a h
    refine ⟨h.fst_run host d _, h.code_run host d _, ?_, h.exists_adds, h.concat⟩
    rintro environment' words' a' h' (rfl | hadds)
    · obtain rfl := h.eq h'
      exact h.run_congr h' rfl rfl rfl host d _ _
    · obtain rfl := hadds.eq_failing h h'
      exact h.run_congr h' rfl rfl rfl host d _ _
  · intro h
    exact run_of_not_asksForBuild h host d _

/-! ### A component that is not there -/

/-- A disk with nothing but a document that asks for a component. -/
def lacking : Disk :=
  (Disk.empty []).add (Path.ofText "/index.html".toList) (.file (Utf8.encode "[a.comp]".toList))

/-- A command line that asks for the page of the document. -/
def lackingLine : List Text :=
  ["compile".toList, "index.html".toList, "out".toList]

/-- The command line with the option for failure. -/
def failingLine : List Text :=
  lackingLine ++ [failWord.text]

/-- What the first says. -/
def lackingArguments : Arguments :=
  ⟨some "index.html".toList, some "out".toList, none, false, true, []⟩

theorem asksForBuild_lackingLine :
  AsksForBuild lackingLine lackingArguments
  := by
  constructor
  case parse_eq => rfl
  all_goals decide

theorem not_asksForBuild_compile (a : Arguments) :
  ¬ AsksForBuild ["compile".toList] a
  := by
  intro h
  have hparse : Except.ok Arguments.empty = Except.ok a := h.parse_eq
  cases hparse
  exact h.input_ne_nil rfl

/-- The events of the document. -/
def lackingEvents : List Event :=
  [⟨.component, "a.comp".toList, some (Path.ofText "/a.comp".toList), .missing⟩]

theorem run_lacking :
  (Build.run .small lacking lackingArguments.request).2
    = .ok (Build.resultOf lacking (Path.ofText "index.html".toList) (Path.ofText "out".toList)
        lackingEvents)
  := by
  have hexpand : Component.expand lacking ⟨.root, []⟩ ⟨.root, []⟩ [] "[a.comp]".toList
      = ⟨[], ⟨lackingEvents, .ok
          (Component.missingComment "a.comp".toList (Path.ofText "/a.comp".toList))⟩⟩ := by
    apply Component.Expansion.run_of_after_eq_finished (n := 4)
    with_unfolding_all rfl
  have hcompose : Build.compose lacking lackingArguments.request.input = .ok (_, lackingEvents) :=
    compose_of_expand rfl rfl hexpand (by decide +kernel) (by decide +kernel)
  have hwrite : ∃ written, lacking.writeText Host.small.maxMissing lackingArguments.request.output
      (Component.missingComment "a.comp".toList (Path.ofText "/a.comp".toList))
      = (written, .ok ()) := ⟨_, rfl⟩
  obtain ⟨written, hwrite⟩ := hwrite
  have hrun := Build.run_of_written hcompose hwrite lackingArguments.target
  show (Build.run .small lacking ⟨lackingArguments.request.input, lackingArguments.request.output,
    lackingArguments.target⟩).2 = _
  rw [hrun]
  rfl

/-- The option for failure and a wanted trace leave the disk and what is printed alone, but the option
changes the exit code.  Without paths there is no build. -/
theorem lackingLine_fails_if_asked :
  (run .small lacking (asksForTrace []) lackingLine).2.code = 0
    ∧ (run .small lacking (asksForTrace []) failingLine).2.code = 3
    ∧ (run .small lacking (asksForTrace [("DEBUG".toList, "1".toList)]) failingLine).1
      = (run .small lacking (asksForTrace []) lackingLine).1
    ∧ (run .small lacking (asksForTrace [("DEBUG".toList, "1".toList)]) failingLine).2.out
      = (run .small lacking (asksForTrace []) lackingLine).2.out
    ∧ (run .small lacking (asksForTrace []) ["compile".toList]).1 = lacking
    ∧ (run .small lacking (asksForTrace []) ["compile".toList]).2.code = 1
  := by
  obtain ⟨-, hcode, hsame, -, hconcat⟩ :=
    (outcome_is_that_of_build .small lacking [] lackingLine).1 _ asksForBuild_lackingLine
  have hfailing : AsksForBuild failingLine lackingArguments.failing := hconcat (by decide)
  obtain ⟨-, hcode', -⟩ := (outcome_is_that_of_build .small lacking [] failingLine).1 _ hfailing
  obtain ⟨hdisk, hnone⟩ :=
    (outcome_is_that_of_build .small lacking [] ["compile".toList]).2 not_asksForBuild_compile
  have hadds : AddsFailWord lackingLine failingLine :=
    ⟨_, ["index.html".toList, "out".toList], [], by decide, rfl, rfl⟩
  obtain ⟨hsameDisk, hsameOut⟩ :=
    hsame [("DEBUG".toList, "1".toList)] _ _ hfailing (.inr hadds)
  rw [run_lacking] at hcode
  rw [show lackingArguments.failing.request = lackingArguments.request from rfl, run_lacking] at hcode'
  exact ⟨hcode, hcode', hsameDisk, hsameOut, hdisk, hnone⟩

end Inlay.CommandLine
