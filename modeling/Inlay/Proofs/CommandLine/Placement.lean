import Inlay.Proofs.CommandLine.Line
import Inlay.Proofs.CommandLine.Outcome

/-!
# Where options stand

Options may stand in front of the arguments of a command line and behind them: the first two
arguments are then the paths of the build, and the others are ignored.  An option between arguments
takes the slots away from those behind it, which are left over (`options_stand_around_arguments`).
Behind the separator any two words are the paths of the build (`paths_stand_behind_separator`).
-/

namespace Inlay.CommandLine

/-! ### What command lines ask for -/

/-- Where the last path of a manifest leads. -/
def targetOf (uses : List OptionUse) : Manifest.Target :=
  match lastPath? uses with
  | none => .none
  | some path => .file (Path.ofText path)

/-- The arguments that two paths and options make. -/
def buildArguments (input output : Text) (uses : List OptionUse) : Arguments :=
  ⟨some input, some output, (lastPath? uses).map Value.text, decide (.failOnMissing ∈ uses), true, []⟩

/-- The answer to arguments by what their build comes to. -/
def answer (debug : Bool) (a : Arguments) : Disk × Except Build.Error Build.Result → Disk × Reply
  | (after, .ok result) => (after, successReply a result)
  | (after, .error e) => (after, failureReply debug e)

theorem code_answer
    (debug : Bool) (a : Arguments) (outcome : Disk × Except Build.Error Build.Result) :
  (answer debug a outcome).2.code = exitCode a.failOnMissing outcome.2
  := by
  obtain ⟨after, e | r⟩ := outcome
  · rfl
  · exact code_successReply a r

theorem request_buildArguments (input output : Text) (uses : List OptionUse) :
  (buildArguments input output uses).request
    = ⟨Path.ofText input, Path.ofText output, targetOf uses⟩
  := by
  simp only [Arguments.request, Arguments.target, buildArguments, targetOf, Option.getD_some]
  cases lastPath? uses <;> rfl

/-- The words that ask for the help text or for the version. -/
def askingWords : List Text :=
  ["--help".toList, "-h".toList, "--version".toList, "-v".toList]

theorem IsPlain.not_mem_askingWords {t : Text} (h : IsPlain t) :
  t ∉ askingWords
  := by
  intro hmem
  have hall : ∀ word ∈ askingWords, ¬ IsPlain word := by decide
  exact hall t hmem h

theorem Piece.not_mem_askingWords {piece : Piece} (hpiece : piece.IsProper) :
  ∀ t ∈ piece.words, t ∉ askingWords
  := by
  cases piece with
  | argument t => exact List.forall_mem_singleton.2 (IsPlain.not_mem_askingWords hpiece)
  | option use =>
    cases use with
    | failOnMissing => decide
    | manifest tied path =>
      cases tied with
      | false =>
        have hpath := (hpiece path rfl).2.not_mem_askingWords
        exact List.forall_mem_cons.2 ⟨by decide, List.forall_mem_singleton.2 hpath⟩
      | true =>
        refine List.forall_mem_singleton.2 fun hmem => ?_
        simp only [askingWords, List.mem_cons, List.not_mem_nil, or_false] at hmem
        rcases hmem with h | h | h | h <;> cases h

theorem not_mem_askingWords_of_mem_lineWords
    {line : List Piece} (hline : ∀ piece ∈ line, piece.IsProper) :
  ∀ t ∈ lineWords line, t ∉ askingWords
  := by
  intro t ht
  obtain ⟨piece, hpiece, ht⟩ := List.mem_flatMap.1 ht
  exact Piece.not_mem_askingWords (hline piece hpiece) t ht

/-- A command line without the words that ask for something else asks for a build. -/
theorem not_asks_of_not_mem_askingWords
    {words : List Text} (h : ∀ t ∈ words, t ∉ askingWords) :
  ¬ AsksForHelp ("compile".toList :: words) ∧ ¬ AsksForVersion ("compile".toList :: words)
  := by
  have hall : ∀ t ∈ "compile".toList :: words, t ∉ askingWords :=
    List.forall_mem_cons.2 ⟨by decide, h⟩
  constructor
  · rintro (hnil | hhelp | hhelp)
    · cases hnil
    · exact hall _ hhelp (by decide)
    · exact hall _ hhelp (by decide)
  · rintro (hversion | hversion)
    · exact hall _ hversion (by decide)
    · exact hall _ hversion (by decide)

/-- A command line that gives two paths is answered by what their build comes to. -/
theorem run_eq_answer
    {words : List Text} {input output : Text} {uses : List OptionUse}
    (hwords : ∀ t ∈ words, t ∉ askingWords)
    (hparse : parse words = .ok (buildArguments input output uses)) (hinput : input ≠ [])
    (houtput : output ≠ []) (host : Host) (d : Disk) (debug : Bool) :
  run host d debug ("compile".toList :: words)
    = answer debug (buildArguments input output uses)
        (Build.run host d ⟨Path.ofText input, Path.ofText output, targetOf uses⟩)
  := by
  obtain ⟨hhelp, hversion⟩ := not_asks_of_not_mem_askingWords hwords
  have hasks : AsksForBuild ("compile".toList :: words) (buildArguments input output uses) :=
    ⟨rfl, hhelp, hversion, hparse, hinput, houtput⟩
  rw [hasks.run_eq, request_buildArguments]
  cases Build.run host d ⟨Path.ofText input, Path.ofText output, targetOf uses⟩ with
  | mk after outcome => cases outcome <;> rfl

/-- A command line with words that cannot be understood changes nothing. -/
theorem run_eq_usageReply
    {words : List Text} {e : UsageError} (hwords : ∀ t ∈ words, t ∉ askingWords)
    (hparse : parse words = .error e) (host : Host) (d : Disk) (debug : Bool) :
  run host d debug ("compile".toList :: words) = (d, usageReply e)
  := by
  obtain ⟨hhelp, hversion⟩ := not_asks_of_not_mem_askingWords hwords
  rw [run_of_command hhelp hversion, if_pos rfl, runBuild, hparse]

/-! ### Options around the arguments -/

/-- Options in front of two paths and other arguments, and options behind them. -/
def around (front back : List OptionUse) (arguments : List Text) : List Piece :=
  front.map Piece.option ++ arguments.map Piece.argument ++ back.map Piece.option

/-- The slots of two paths, with options. -/
theorem foldl_give_slots
    {uses : List OptionUse} (huses : ∀ use ∈ uses, use.IsProper) {a : Arguments}
    {input output : Text}
    (ha : a = { Arguments.empty with
      input := some input, output := some output, slotsTaken := true }) :
  uses.foldl Arguments.give a = buildArguments input output uses
  := by
  rw [Arguments.foldl_give a huses, ha]
  simp [buildArguments, Arguments.empty]

theorem flatMap_roles_around (front back : List OptionUse) (arguments : List Text) :
  (around front back arguments).flatMap Piece.roles
    = front.flatMap OptionUse.roles
      ++ (arguments.map argumentWord ++ back.flatMap OptionUse.roles)
  := by
  rw [around, List.flatMap_append, List.flatMap_append, flatMap_roles_options,
    flatMap_roles_options, flatMap_roles_arguments, List.append_assoc]

theorem forall_mem_around
    {front back : List OptionUse} {arguments : List Text}
    (huses : ∀ use ∈ front ++ back, use.IsProper) (harguments : ∀ t ∈ arguments, IsPlain t) :
  ∀ piece ∈ around front back arguments, piece.IsProper
  := by
  intro piece hpiece
  rw [around, List.mem_append, List.mem_append] at hpiece
  rcases hpiece with (hfront | hargument) | hback
  · obtain ⟨use, huse, rfl⟩ := List.mem_map.1 hfront
    exact huses use (List.mem_append_left _ huse)
  · obtain ⟨t, ht, rfl⟩ := List.mem_map.1 hargument
    exact harguments t ht
  · obtain ⟨use, huse, rfl⟩ := List.mem_map.1 hback
    exact huses use (List.mem_append_right _ huse)

/-- Options around arguments give the first two of these for the paths. -/
theorem parse_around
    {front back : List OptionUse} {input output : Text} {others : List Text}
    (huses : ∀ use ∈ front ++ back, use.IsProper)
    (harguments : ∀ t ∈ input :: output :: others, IsPlain t) :
  parse (lineWords (around front back (input :: output :: others)))
    = .ok (buildArguments input output (front ++ back))
  := by
  have hclassify := classify_lineWords (forall_mem_around huses harguments)
  rw [flatMap_roles_around] at hclassify
  have hback := takes_options_behind (front.foldl Arguments.give .empty)
    ((input :: output :: others).map argumentWord).reverse back
  rw [← List.append_nil (List.reverse _)] at hback
  have htakes := takes_options (takes_arguments hback)
  have hended := Arguments.endRun_arguments (a := .empty) rfl others
    (harguments input (by simp)).ne_separator (harguments output (by simp)).ne_separator
  rw [List.append_nil, Arguments.foldl_give_endRun, ← List.foldl_append, hended,
    foldl_give_slots huses rfl] at htakes
  exact parse_eq_ok_iff.2 ⟨_, hclassify, htakes, rfl⟩

/-! ### Options between arguments -/

/-- Some option stands behind an argument and in front of another. -/
def HasOptionBetween (line : List Piece) : Prop :=
  ∃ before use after, line = before ++ .option use :: after ∧ lineArguments before ≠ []
    ∧ lineArguments after ≠ []

/-- An option is the first one on a line between arguments: only arguments stand in front of it, and
options in front of these. -/
structure IsFirstBetween (line before : List Piece) (use : OptionUse) (after : List Piece) :
    Prop where
  line_eq : line = before ++ .option use :: after
  before_eq : ∃ (front : List OptionUse) (run : List Text),
    before = front.map Piece.option ++ run.map Piece.argument ∧ run ≠ []
  after_ne_nil : lineArguments after ≠ []

/-- In front of an option that has arguments behind it, or at its place, stands such an option with
nothing but arguments in front of it. -/
theorem exists_first_option
    (before : List Piece) (use : OptionUse) {after : List Piece}
    (hafter : lineArguments after ≠ []) :
  ∃ (run : List Text) (first : OptionUse) (rest : List Piece),
    before ++ .option use :: after = run.map Piece.argument ++ .option first :: rest
      ∧ lineArguments rest ≠ []
  := by
  induction before with
  | nil => exact ⟨[], use, after, rfl, hafter⟩
  | cons piece before ih =>
    cases piece with
    | argument t =>
      obtain ⟨run, first, rest, heq, hrest⟩ := ih
      exact ⟨t :: run, first, rest, congrArg (Piece.argument t :: ·) heq, hrest⟩
    | option first =>
      refine ⟨[], first, before ++ .option use :: after, rfl, ?_⟩
      rw [lineArguments, List.filterMap_append]
      exact List.append_ne_nil_of_right_ne_nil _ hafter

/-- Of the options between arguments one is the first. -/
theorem HasOptionBetween.exists_isFirstBetween {line : List Piece} (h : HasOptionBetween line) :
  ∃ before use after, IsFirstBetween line before use after
  := by
  obtain ⟨before, use, after, rfl, hbefore, hafter⟩ := h
  induction before with
  | nil => exact absurd rfl hbefore
  | cons piece before ih =>
    cases piece with
    | argument t =>
      obtain ⟨run, first, rest, heq, hrest⟩ := exists_first_option before use hafter
      refine ⟨(t :: run).map Piece.argument, first, rest, ?_, ?_, hrest⟩
      · exact congrArg (Piece.argument t :: ·) heq
      · exact ⟨[], t :: run, rfl, List.cons_ne_nil t run⟩
    | option first =>
      obtain ⟨before', use', after', hfirst⟩ := ih hbefore
      obtain ⟨front, run, rfl, hrun⟩ := hfirst.before_eq
      refine ⟨(first :: front).map Piece.option ++ run.map Piece.argument, use', after', ?_, ?_,
        hfirst.after_ne_nil⟩
      · exact congrArg (Piece.option first :: ·) hfirst.line_eq
      · exact ⟨first :: front, run, rfl, hrun⟩

/-- The arguments behind the first option between arguments are left over. -/
theorem parse_of_isFirstBetween
    {line before after : List Piece} {use : OptionUse} (hline : ∀ piece ∈ line, piece.IsProper)
    (h : IsFirstBetween line before use after) :
  parse (lineWords line) = .error (.unrecognized (lineArguments after))
  := by
  obtain ⟨front, run, rfl, hrun⟩ := h.before_eq
  obtain rfl := h.line_eq
  have hfront : ∀ use ∈ front, use.IsProper := by
    intro use huse
    exact hline (.option use) (by simp [huse])
  have hclassify := classify_lineWords hline
  have hroles : (front.map Piece.option ++ run.map Piece.argument
        ++ Piece.option use :: after).flatMap Piece.roles
      = front.flatMap OptionUse.roles
        ++ (run.map argumentWord ++ (use.roles ++ after.flatMap Piece.roles)) := by
    rw [List.flatMap_append, List.flatMap_append, List.flatMap_cons, flatMap_roles_options,
      flatMap_roles_arguments, List.append_assoc]
    rfl
  rw [hroles] at hclassify
  -- The arguments in front take the slots, so that those behind the option have none.
  let ended := (front.foldl Arguments.give .empty).endRun (run.map argumentWord).reverse
  have htaken : (ended.give use).slotsTaken = true := by
    have hended : ended.slotsTaken = true := Arguments.slotsTaken_endRun _ (by simpa using hrun)
    cases use <;> exact hended
  have hleft : (ended.give use).leftOver = [] := by
    have hended : ended.leftOver = [] := by
      rw [Arguments.leftOver_endRun, Arguments.foldl_give _ hfront]
      · rfl
      · rw [Arguments.foldl_give _ hfront]
        rfl
    cases use <;> exact hended
  obtain ⟨b, hrest, hb⟩ := exists_takes_of_slotsTaken htaken [] after
  have hoption : Takes _ _ (use.roles ++ after.flatMap Piece.roles) b := takes_option hrest
  rw [← List.append_nil (List.reverse _)] at hoption
  have htakes := takes_options (takes_arguments hoption)
  have hb : b.leftOver = lineArguments after := by simpa [hleft] using hb
  rw [← hb]
  exact parse_eq_unrecognized hclassify htakes (hb ▸ h.after_ne_nil)

/-- Options may stand in front of all arguments and behind them: the first two arguments are then the
paths of the build, the others are ignored, the last path for the manifest counts, and the build fails
on missing references exactly if that option is there.  If some option stands between arguments, there
is no build: the arguments behind the first such option are reported, and the disk is as before. -/
theorem options_stand_around_arguments
    (host : Host) (d : Disk) (debug : Bool) {input output : Text} {others : List Text}
    (hinput : input ≠ []) (houtput : output ≠ [])
    (harguments : ∀ t ∈ input :: output :: others, IsPlain t) :
  (∀ front back : List OptionUse, (∀ use ∈ front ++ back, use.IsProper) →
      run host d debug
          ("compile".toList :: lineWords (around front back (input :: output :: others)))
        = answer debug (buildArguments input output (front ++ back))
          (Build.run host d ⟨Path.ofText input, Path.ofText output, targetOf (front ++ back)⟩))
    ∧ ∀ pieces, (∀ use, .option use ∈ pieces → use.IsProper) →
      lineArguments pieces = input :: output :: others →
      (HasOptionBetween pieces → ∃ before use after, IsFirstBetween pieces before use after)
        ∧ ∀ before use after, IsFirstBetween pieces before use after →
          (run host d debug ("compile".toList :: lineWords pieces)).1 = d
            ∧ (run host d debug ("compile".toList :: lineWords pieces)).2.code = 1
            ∧ (run host d debug ("compile".toList :: lineWords pieces)).2.err
              = line ("ERROR: unrecognized arguments: ".toList
                  ++ Text.join [' '] (lineArguments after))
  := by
  constructor
  · intro front back huses
    apply run_eq_answer _ (parse_around huses harguments) hinput houtput
    exact not_mem_askingWords_of_mem_lineWords (forall_mem_around huses harguments)
  · intro pieces huses hline
    use HasOptionBetween.exists_isFirstBetween
    intro before use after hfirst
    have hpieces : ∀ piece ∈ pieces, piece.IsProper := by
      intro piece hpiece
      cases piece with
      | argument t =>
        apply harguments t
        rw [← hline]
        exact List.mem_filterMap.2 ⟨_, hpiece, rfl⟩
      | option use => exact huses use hpiece
    rw [run_eq_usageReply (not_mem_askingWords_of_mem_lineWords hpieces)
      (parse_of_isFirstBetween hpieces hfirst)]
    exact ⟨rfl, rfl, rfl⟩

/-- The option for failure in front of the arguments is heard, and more arguments behind the paths
are not; the path that comes last for the manifest counts.  Between the paths an option leaves the
second one over. -/
theorem lacking_options_stand_around :
  (run .small lacking false ["compile".toList, "--fail-on-missing".toList, "index.html".toList,
      "out".toList, [], "out".toList]).2.code = 3
    ∧ run .small lacking false ["compile".toList, "--manifest".toList, "a".toList, "index.html".toList,
        "out".toList, "--manifest=m".toList]
      = run .small lacking false ["compile".toList, "index.html".toList, "out".toList,
        "--manifest".toList, "m".toList]
    ∧ (run .small lacking false ["compile".toList, "--fail-on-missing".toList, "index.html".toList,
        "--fail-on-missing".toList, "out".toList]).1 = lacking
    ∧ (run .small lacking false ["compile".toList, "--fail-on-missing".toList, "index.html".toList,
        "--fail-on-missing".toList, "out".toList]).2.err
      = line "ERROR: unrecognized arguments: out".toList
  := by
  have hmany : ∀ t ∈ ["index.html".toList, "out".toList, [], "out".toList], IsPlain t := by decide
  have hpaths : ∀ t ∈ ["index.html".toList, "out".toList], IsPlain t := by decide
  obtain ⟨hignoring, -⟩ :=
    options_stand_around_arguments .small lacking false (by decide) (by decide) hmany
  obtain ⟨haround, hbetween⟩ :=
    options_stand_around_arguments .small lacking false (by decide) (by decide) hpaths
  have hfail : (run .small lacking false ["compile".toList, "--fail-on-missing".toList,
      "index.html".toList, "out".toList, [], "out".toList]).2.code
      = exitCode true (Build.run .small lacking lackingArguments.request).2 :=
    (congrArg (·.2.code) (hignoring [.failOnMissing] [] (by decide))).trans (code_answer _ _ _)
  rw [run_lacking] at hfail
  have hlast := haround [.manifest false "a".toList] [.manifest true "m".toList] (by decide)
  have hsame := haround [] [.manifest false "m".toList] (by decide)
  obtain ⟨-, hstray⟩ := hbetween [.option .failOnMissing, .argument "index.html".toList,
    .option .failOnMissing, .argument "out".toList] (by simp [OptionUse.IsProper, OptionUse.path?]) rfl
  obtain ⟨hdisk, -, herr⟩ := hstray
    [.option .failOnMissing, .argument "index.html".toList] .failOnMissing [.argument "out".toList]
    ⟨rfl, ⟨[.failOnMissing], ["index.html".toList], rfl, by decide⟩, by decide⟩
  exact ⟨hfail, hlast.trans hsame.symm, hdisk, herr⟩

/-! ### Behind the separator -/

theorem classify_separator_cons (ts : List Text) :
  classify (separator :: ts) = .ok (⟨separator, .separator⟩ :: ts.map argumentWord)
  := by
  rw [classify, if_pos rfl]
  rfl

/-- Behind the separator two words are taken for the paths as they are. -/
theorem parse_separated
    {uses : List OptionUse} (huses : ∀ use ∈ uses, use.IsProper) (input : Text) {output : Text}
    (houtput : output ≠ separator) :
  parse (lineWords (uses.map Piece.option) ++ [separator, input, output])
    = .ok (buildArguments input output uses)
  := by
  have hpieces : ∀ piece ∈ uses.map Piece.option, piece.IsProper := List.forall_mem_map.2 huses
  have hclassify := classify_lineWords_append hpieces (classify_separator_cons [input, output])
  rw [flatMap_roles_options] at hclassify
  have hrun : Takes (uses.foldl Arguments.give .empty) []
      (⟨separator, .separator⟩ :: [input, output].map argumentWord) _ :=
    .one (.separator rfl) (.one (.argument rfl) (.one (.argument rfl) (.done _ _)))
  have htakes := takes_options hrun
  have hended : Arguments.empty.endRun [argumentWord output, argumentWord input,
      ⟨separator, .separator⟩] = _ := Arguments.endRun_separated rfl input houtput
  rw [Arguments.foldl_give_endRun, hended, foldl_give_slots huses rfl] at htakes
  exact parse_eq_ok_iff.2 ⟨_, hclassify, htakes, rfl⟩

/-- Behind the separator any two words that are not empty are the paths of the build, however they
start.  Only the words that ask for the help text or for the version are heard there as well, and a
second separator is no output. -/
theorem paths_stand_behind_separator
    (host : Host) (d : Disk) (debug : Bool) {uses : List OptionUse} {input output : Text}
    (huses : ∀ use ∈ uses, use.IsProper) (hinput : input ≠ [] ∧ input ∉ askingWords)
    (houtput : output ≠ [] ∧ output ∉ askingWords) (hseparator : output ≠ separator) :
  run host d debug
      ("compile".toList :: (lineWords (uses.map Piece.option) ++ [separator, input, output]))
    = answer debug (buildArguments input output uses)
        (Build.run host d ⟨Path.ofText input, Path.ofText output, targetOf uses⟩)
  := by
  apply run_eq_answer _ (parse_separated huses input hseparator) hinput.1 houtput.1
  have hpieces : ∀ piece ∈ uses.map Piece.option, piece.IsProper := List.forall_mem_map.2 huses
  intro t ht
  rcases List.mem_append.1 ht with ht | ht
  · exact not_mem_askingWords_of_mem_lineWords hpieces t ht
  · have hall : ∀ t ∈ [separator, input, output], t ∉ askingWords := by
      simp only [List.forall_mem_cons, List.not_mem_nil, false_implies, implies_true, and_true]
      exact ⟨by decide, hinput.2, houtput.2⟩
    exact hall t ht

/-- A disk with nothing but a document whose name is the separator. -/
def dashed : Disk :=
  (Disk.empty []).add (Path.ofText "/--".toList) (.file (Utf8.encode "x".toList))

/-- What the build of the document comes to. -/
def dashedResult : Build.Result :=
  Build.resultOf dashed (Path.ofText separator) (Path.ofText "--manifest=x".toList) []

theorem run_dashed :
  Build.run .small dashed ⟨Path.ofText separator, Path.ofText "--manifest=x".toList, .none⟩
    = ((dashed.writeText Host.small.maxMissing (Path.ofText "--manifest=x".toList) "x".toList).1,
      .ok dashedResult)
  := by
  have hexpand : Component.expand dashed ⟨.root, []⟩ ⟨.root, []⟩ [] "x".toList
      = ⟨[], ⟨[], .ok "x".toList⟩⟩ := by
    apply Component.Expansion.run_of_after_eq_finished (n := 2)
    with_unfolding_all rfl
  have hcompose : Build.compose dashed (Path.ofText separator) = .ok ("x".toList, []) :=
    compose_of_expand rfl rfl hexpand (by decide +kernel) (by decide +kernel)
  exact Build.run_of_written hcompose rfl .none

/-- The document is built although its name is the separator, and the page goes to a file whose name
looks like an option. -/
theorem dashed_is_built :
  (run .small dashed false ["compile".toList, "--fail-on-missing".toList, separator, separator,
      "--manifest=x".toList]).2.code = 0
    ∧ (run .small dashed false ["compile".toList, "--fail-on-missing".toList, separator, separator,
      "--manifest=x".toList]).1.read (Path.ofText "/--manifest=x".toList)
      = .ok (Utf8.encode "x".toList)
  := by
  have huses : ∀ use ∈ [OptionUse.failOnMissing], use.IsProper := by decide
  have hinput : separator ≠ [] ∧ separator ∉ askingWords := by decide
  have houtput : "--manifest=x".toList ≠ [] ∧ "--manifest=x".toList ∉ askingWords := by decide
  have hrun : run .small dashed false ["compile".toList, "--fail-on-missing".toList, separator,
      separator, "--manifest=x".toList] = answer false _ _ :=
    paths_stand_behind_separator .small dashed false huses hinput houtput (by decide)
  have htarget : targetOf [.failOnMissing] = .none := rfl
  rw [hrun, htarget, run_dashed]
  exact ⟨rfl, rfl⟩

end Inlay.CommandLine
