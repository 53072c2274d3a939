import Inlay.CommandLine.Arguments
import Mathlib.Tactic.Use

/-!
# Arguments and the option for failure

`Takes` says, word by word, what the words of a command line give where they give something.  Words
to which the option for failure is added, before any separator, give what they give without it but
for that option (`exists_parse_of_insert`), and it can be added in front of them (`parse_cons`) and
behind them (`parse_concat`).
-/

namespace Inlay.CommandLine

/-! ### Taking words -/

namespace Arguments

/-- The arguments with one more word left over. -/
def leave (a : Arguments) (word : Text) : Arguments :=
  { a with leftOver := a.leftOver ++ [word] }

/-- The arguments with a value for the manifest. -/
def withManifest (a : Arguments) (value : Text) : Arguments :=
  { a with manifest := some (Value.ofText value) }

/-- The arguments with the option for failure. -/
def failing (a : Arguments) : Arguments :=
  { a with failOnMissing := true }

end Arguments

/-- A word that stands by itself leads from some arguments and the run so far, whose last word comes
first, to others. -/
inductive TakesOne : Arguments → List Word → Word → Arguments → List Word → Prop
  | argument {a run w} (hw : w.role = .argument) : TakesOne a run w a (w :: run)
  | separator {a run w} (hw : w.role = .separator) : TakesOne a run w a (w :: run)
  | unknown {a run w} (hw : w.role = .unknown) : TakesOne a run w ((a.endRun run).leave w.text) []
  | failOnMissing {a run w} (hw : w.role = .option .failOnMissing none) :
    TakesOne a run w (a.endRun run).failing []
  | manifest {a run w value} (hw : w.role = .option .manifest (some value)) :
    TakesOne a run w ((a.endRun run).withManifest value) []

/-- The words lead from some arguments and the run so far to the arguments in the end. -/
inductive Takes : Arguments → List Word → List Word → Arguments → Prop
  | done (a run) : Takes a run [] (a.endRun run)
  | one {a run w a' run' ws b} (hw : TakesOne a run w a' run') (h : Takes a' run' ws b) :
    Takes a run (w :: ws) b
  | manifest {a run w v ws b} (hw : w.role = .option .manifest none) (hv : v.role = .argument)
    (h : Takes ((a.endRun run).withManifest v.text) [] ws b) :
    Takes a run (w :: v :: ws) b

theorem takes_of_take {a b : Arguments} {run ws : List Word} (h : a.take run ws = .ok b) :
  Takes a run ws b
  := by
  fun_induction Arguments.take a run ws with
  | case1 a run =>
    cases h
    exact .done a run
  | case2 a run w ws hw ih => exact .one (.argument hw) (ih h)
  | case3 a run w ws hw ih => exact .one (.separator hw) (ih h)
  | case4 a run w ws hw left ih => exact .one (.unknown hw) (ih h)
  | case5 a run w ws hw ih => exact .one (.failOnMissing hw) (ih h)
  | case6 => cases h
  | case7 a run w ws value hw ih => exact .one (.manifest hw) (ih h)
  | case8 a run w hw value ws ih => exact .manifest hw rfl (ih h)
  | case9 => cases h

theorem TakesOne.take_cons
    {a a' : Arguments} {run run' : List Word} {w : Word} (h : TakesOne a run w a' run')
    (ws : List Word) :
  a.take run (w :: ws) = a'.take run' ws
  := by
  cases h with
  | argument hw => conv => lhs; unfold Arguments.take; simp only [hw]
  | separator hw => conv => lhs; unfold Arguments.take; simp only [hw]
  | unknown hw =>
    conv => lhs; unfold Arguments.take; simp only [hw]
    rfl
  | failOnMissing hw =>
    conv => lhs; unfold Arguments.take; simp only [hw]
    rfl
  | manifest hw =>
    conv => lhs; unfold Arguments.take; simp only [hw]
    rfl

theorem Takes.take_eq {a b : Arguments} {run ws : List Word} (h : Takes a run ws b) :
  a.take run ws = .ok b
  := by
  induction h with
  | done => rfl
  | one hw _ ih => rw [hw.take_cons, ih]
  | @manifest a run w v ws b hw hv _ ih =>
    obtain ⟨value, role⟩ := v
    cases hv
    unfold Arguments.take
    simp only [hw]
    exact ih

/-- `Takes` says what `take` gives. -/
theorem take_eq_ok_iff {a b : Arguments} {run ws : List Word} :
  a.take run ws = .ok b ↔ Takes a run ws b
  := ⟨takes_of_take, Takes.take_eq⟩

/-- Words give arguments exactly if they are taken and none is left over. -/
theorem parse_eq_ok_iff {words : List Text} {a : Arguments} :
  parse words = .ok a ↔ ∃ ws, classify words = .ok ws ∧ Takes .empty [] ws a ∧ a.leftOver = []
  := by
  simp only [← take_eq_ok_iff]
  unfold parse
  cases hclassify : classify words with
  | error e => simp [bind, Except.bind]
  | ok ws =>
    cases htake : Arguments.empty.take [] ws with
    | error e => simp [bind, Except.bind, htake]
    | ok b =>
      by_cases hleft : b.leftOver = []
      · simp only [bind, Except.bind, htake, hleft, if_true, pure, Except.pure, Except.ok.injEq,
          exists_eq_left']
        constructor
        · rintro rfl
          exact ⟨rfl, hleft⟩
        · exact And.left
      · simp only [bind, Except.bind, htake, hleft, if_false, Except.ok.injEq, exists_eq_left']
        constructor
        · intro h
          cases h
        · rintro ⟨rfl, hnone⟩
          exact absurd hnone hleft

/-! ### Words that are left over -/

namespace Arguments

/-- Ending a run takes the slots. -/
theorem slotsTaken_endRun (a : Arguments) {run : List Word} (h : run ≠ []) :
  (a.endRun run).slotsTaken = true
  := by
  rw [endRun, if_neg (by simpa using h), takeRun]
  split
  case isTrue htaken => exact htaken
  case isFalse => rfl

/-- Words are left over or will be: there are some, or there is a run for which the slots are taken
already. -/
def LeavesWords (a : Arguments) (run : List Word) : Prop :=
  a.leftOver ≠ [] ∨ a.slotsTaken = true ∧ run ≠ []

theorem LeavesWords.endRun {a : Arguments} {run : List Word} (h : a.LeavesWords run) :
  (a.endRun run).leftOver ≠ []
  := by
  obtain ⟨input, output, manifest, failOnMissing, slotsTaken, leftOver⟩ := a
  cases run with
  | nil =>
    rcases h with h | ⟨-, hrun⟩
    · exact h
    · exact absurd rfl hrun
  | cons w run =>
    rcases h with h | ⟨htaken, -⟩
    · cases slotsTaken with
      | false => exact h
      | true => exact List.append_ne_nil_of_left_ne_nil h _
    · cases htaken
      apply List.append_ne_nil_of_right_ne_nil
      simp

end Arguments

theorem TakesOne.leavesWords
    {a a' : Arguments} {run run' : List Word} {w : Word} (h : TakesOne a run w a' run')
    (ha : a.LeavesWords run) :
  a'.LeavesWords run'
  := by
  cases h with
  | argument => exact ha.imp_right fun ha => ⟨ha.1, List.cons_ne_nil _ _⟩
  | separator => exact ha.imp_right fun ha => ⟨ha.1, List.cons_ne_nil _ _⟩
  | unknown => exact .inl (List.append_ne_nil_of_left_ne_nil ha.endRun _)
  | failOnMissing => exact .inl ha.endRun
  | manifest => exact .inl ha.endRun

/-- Words stay left over. -/
theorem Takes.leftOver_ne_nil
    {a b : Arguments} {run ws : List Word} (h : Takes a run ws b) (ha : a.LeavesWords run) :
  b.leftOver ≠ []
  := by
  induction h with
  | done => exact ha.endRun
  | one hw _ ih => exact ih (hw.leavesWords ha)
  | manifest _ _ _ ih => exact ih (.inl ha.endRun)

/-- Where no words are left over, a run that has ended might as well go on. -/
theorem Takes.of_endRun
    {a b : Arguments} {run ws : List Word} (h : Takes (a.endRun run) [] ws b)
    (hb : b.leftOver = []) :
  Takes a run ws b
  := by
  by_cases hrun : run = []
  · subst hrun
    exact h
  have hleaves : ∀ w, (a.endRun run).LeavesWords [w] := fun w =>
    .inr ⟨a.slotsTaken_endRun hrun, List.cons_ne_nil w []⟩
  cases h with
  | done => exact .done a run
  | one hw h =>
    cases hw with
    | argument => exact absurd hb (h.leftOver_ne_nil (hleaves _))
    | separator => exact absurd hb (h.leftOver_ne_nil (hleaves _))
    | unknown hw => exact .one (.unknown hw) h
    | failOnMissing hw => exact .one (.failOnMissing hw) h
    | manifest hw => exact .one (.manifest hw) h
  | manifest hw hv h => exact .manifest hw hv h

/-! ### The option for failure -/

/-- The option for failure, as a word. -/
def failWord : Word :=
  ⟨OptionName.failOnMissing.word, .option .failOnMissing none⟩

theorem Arguments.failing_endRun (a : Arguments) (run : List Word) :
  a.failing.endRun run = (a.endRun run).failing
  := by
  obtain ⟨input, output, manifest, failOnMissing, slotsTaken, leftOver⟩ := a
  cases run with
  | nil => rfl
  | cons w run => cases slotsTaken <;> rfl

/-- A word does the same to arguments that have the option for failure. -/
theorem TakesOne.failing
    {a a' : Arguments} {run run' : List Word} {w : Word} (h : TakesOne a run w a' run') :
  TakesOne a.failing run w a'.failing run'
  := by
  cases h with
  | argument hw => exact .argument hw
  | separator hw => exact .separator hw
  | unknown hw =>
    have := @TakesOne.unknown a.failing run w hw
    rwa [Arguments.failing_endRun] at this
  | failOnMissing hw =>
    have := @TakesOne.failOnMissing a.failing run w hw
    rwa [Arguments.failing_endRun] at this
  | @manifest value hw =>
    have := @TakesOne.manifest a.failing run w value hw
    rwa [Arguments.failing_endRun] at this

theorem TakesOne.exists_of_failing
    {a b : Arguments} {run run' : List Word} {w : Word} (h : TakesOne a.failing run w b run') :
  ∃ c, TakesOne a run w c run' ∧ b = c.failing
  := by
  cases h with
  | argument hw => exact ⟨a, .argument hw, rfl⟩
  | separator hw => exact ⟨a, .separator hw, rfl⟩
  | unknown hw =>
    rw [Arguments.failing_endRun]
    exact ⟨_, .unknown hw, rfl⟩
  | failOnMissing hw =>
    rw [Arguments.failing_endRun]
    exact ⟨_, .failOnMissing hw, rfl⟩
  | manifest hw =>
    rw [Arguments.failing_endRun]
    exact ⟨_, .manifest hw, rfl⟩

/-- Arguments that have the option for failure keep it, and it changes nothing else. -/
theorem Takes.failing {a b : Arguments} {run ws : List Word} (h : Takes a run ws b) :
  Takes a.failing run ws b.failing
  := by
  induction h with
  | done a run =>
    rw [← Arguments.failing_endRun]
    exact .done a.failing run
  | one hw _ ih => exact .one hw.failing ih
  | manifest hw hv _ ih =>
    apply Takes.manifest hw hv
    rw [Arguments.failing_endRun]
    exact ih

theorem Takes.exists_of_failing
    {a b : Arguments} {run ws : List Word} (h : Takes a.failing run ws b) :
  ∃ c, Takes a run ws c ∧ b = c.failing
  := by
  generalize hstart : a.failing = start at h
  induction h generalizing a with
  | done start run =>
    subst hstart
    exact ⟨_, .done a run, a.failing_endRun run⟩
  | one hw _ ih =>
    subst hstart
    obtain ⟨a', hw', rfl⟩ := hw.exists_of_failing
    obtain ⟨c, hc, heq⟩ := ih rfl
    exact ⟨c, .one hw' hc, heq⟩
  | @manifest _ run w v ws b hw hv _ ih =>
    subst hstart
    have hfailing : ((a.endRun run).withManifest v.text).failing
        = (a.failing.endRun run).withManifest v.text := by
      rw [Arguments.failing_endRun]
      rfl
    obtain ⟨c, hc, heq⟩ := ih hfailing
    exact ⟨c, .manifest hw hv hc, heq⟩

/-- Without the option for failure among them, words give the same arguments but for that option,
where none is left over. -/
theorem Takes.exists_of_insert
    {a b : Arguments} {run before after : List Word}
    (h : Takes a run (before ++ failWord :: after) b) (hb : b.leftOver = []) :
  ∃ c, Takes a run (before ++ after) c ∧ b = c.failing
  := by
  generalize hwords : before ++ failWord :: after = words at h
  induction h generalizing before with
  | done => simp at hwords
  | one hw h ih =>
    cases before with
    | nil =>
      -- This word is the option: it ends the run, which goes on without it.
      cases hwords
      rcases hw with hw | hw | hw | hw | hw <;> cases hw
      obtain ⟨c, hc, rfl⟩ := h.exists_of_failing
      exact ⟨c, hc.of_endRun hb, rfl⟩
    | cons first before =>
      cases hwords
      obtain ⟨c, hc, heq⟩ := ih hb rfl
      exact ⟨c, .one hw hc, heq⟩
  | manifest hw hv _ ih =>
    -- The option is neither the one for the manifest nor its value.
    rcases before with - | ⟨first, - | ⟨second, before⟩⟩
    · cases hwords
      cases hw
    · cases hwords
      cases hv
    · cases hwords
      obtain ⟨c, hc, heq⟩ := ih hb rfl
      exact ⟨c, .manifest hw hv hc, heq⟩

/-- The option for failure can be added behind all words. -/
theorem Takes.concat {a b : Arguments} {run ws : List Word} (h : Takes a run ws b) :
  Takes a run (ws ++ [failWord]) b.failing
  := by
  induction h with
  | done a run => exact .one (.failOnMissing rfl) (.done _ [])
  | one hw _ ih => exact .one hw ih
  | manifest hw hv _ ih => exact .manifest hw hv ih

/-! ### Adding the option to a command line -/

/-- Words before any separator are classified one by one. -/
theorem exists_classify_append
    {before after : List Text} {ws : List Word} (hbefore : separator ∉ before)
    (h : classify (before ++ after) = .ok ws) :
  ∃ ws₁ ws₂, ws = ws₁ ++ ws₂ ∧ classify after = .ok ws₂
    ∧ ∀ after' ws', classify after' = .ok ws' → classify (before ++ after') = .ok (ws₁ ++ ws')
  := by
  induction before generalizing ws with
  | nil => exact ⟨[], ws, rfl, h, fun _ _ h' => h'⟩
  | cons t before ih =>
    simp only [List.mem_cons, not_or] at hbefore
    rw [List.cons_append, classify, if_neg (Ne.symm hbefore.1)] at h
    cases hrole : roleOf t with
    | error e =>
      rw [hrole] at h
      cases h
    | ok role =>
      cases hrest : classify (before ++ after) with
      | error e =>
        rw [hrole, hrest] at h
        cases h
      | ok rest =>
        rw [hrole, hrest] at h
        cases h
        obtain ⟨ws₁, ws₂, rfl, hafter, hall⟩ := ih hbefore.2 hrest
        refine ⟨⟨t, role⟩ :: ws₁, ws₂, rfl, hafter, ?_⟩
        intro after' ws' hafter'
        rw [List.cons_append, classify, if_neg (Ne.symm hbefore.1), hrole, hall after' ws' hafter']
        rfl

theorem classify_failWord_cons {words : List Text} {ws : List Word} (h : classify words = .ok ws) :
  classify (failWord.text :: words) = .ok (failWord :: ws)
  := by
  have hrole : roleOf failWord.text = .ok failWord.role := rfl
  rw [classify, if_neg (by decide), hrole, h]
  rfl

theorem exists_classify_of_failWord_cons
    {words : List Text} {ws : List Word} (h : classify (failWord.text :: words) = .ok ws) :
  ∃ rest, classify words = .ok rest ∧ ws = failWord :: rest
  := by
  have hrole : roleOf failWord.text = .ok failWord.role := rfl
  rw [classify, if_neg (by decide), hrole] at h
  cases hrest : classify words with
  | error e =>
    rw [hrest] at h
    cases h
  | ok rest =>
    rw [hrest] at h
    cases h
    exact ⟨rest, rfl, rfl⟩

/-- Words to which the option for failure is added, before any separator, give what they give
without it but for that option. -/
theorem exists_parse_of_insert
    {before after : List Text} {a : Arguments} (hbefore : separator ∉ before)
    (h : parse (before ++ failWord.text :: after) = .ok a) :
  ∃ b, parse (before ++ after) = .ok b ∧ a = b.failing
  := by
  obtain ⟨ws, hclassify, htakes, hleft⟩ := parse_eq_ok_iff.1 h
  obtain ⟨ws₁, ws₂, rfl, hafter, hall⟩ := exists_classify_append hbefore hclassify
  obtain ⟨rest, hrest, rfl⟩ := exists_classify_of_failWord_cons hafter
  obtain ⟨b, hb, rfl⟩ := htakes.exists_of_insert hleft
  exact ⟨b, parse_eq_ok_iff.2 ⟨_, hall after rest hrest, hb, hleft⟩, rfl⟩

/-- The option for failure can be added in front of all words. -/
theorem parse_cons {words : List Text} {a : Arguments} (h : parse words = .ok a) :
  parse (failWord.text :: words) = .ok a.failing
  := by
  obtain ⟨ws, hclassify, htakes, hleft⟩ := parse_eq_ok_iff.1 h
  apply parse_eq_ok_iff.2
  exact ⟨_, classify_failWord_cons hclassify, .one (.failOnMissing rfl) htakes.failing, hleft⟩

/-- The option for failure can be added behind all words if there is no separator. -/
theorem parse_concat
    {words : List Text} {a : Arguments} (hwords : separator ∉ words) (h : parse words = .ok a) :
  parse (words ++ [failWord.text]) = .ok a.failing
  := by
  obtain ⟨ws, hclassify, htakes, hleft⟩ := parse_eq_ok_iff.1 h
  rw [← List.append_nil words] at hclassify
  obtain ⟨ws₁, ws₂, rfl, hnone, hall⟩ := exists_classify_append hwords hclassify
  cases hnone
  rw [List.append_nil] at htakes
  apply parse_eq_ok_iff.2
  exact ⟨_, hall _ _ (classify_failWord_cons rfl), htakes.concat, hleft⟩

end Inlay.CommandLine
