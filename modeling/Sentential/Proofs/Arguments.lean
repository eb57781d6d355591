import Sentential.CommandLine

/-! # Options in front of a formula

An option that is written out makes a setting or ends the run, whatever comes after it.  The reader of
arguments gets there on a detour: a value that is an argument of its own is settled only when one more
argument has been looked at.  A flag with a value would then be refused before the value of the option,
but no option is spelled like that, and neither is what ends the options.  So options are read as if
each of them were settled at once (`scanArguments_options`).

What ends the options is `--`, or a word.  A word that does not begin with a dash is never an option, so
the arguments from there on are the words of the formula as they stand, options and `--` among them
(`run_from_first_word`).
-/

namespace Sentential.CommandLine

inductive WholeOption where
  /-- `--assign`, and its value behind an equals sign. -/
  | attached (value : String)
  /-- `-a` or `--assign`, and its value as an argument of its own. -/
  | detached (long : Bool) (value : String)
  | table (long : Bool)
  | json
  deriving DecidableEq, Repr

/-- Adds a setting to those before it.  Only a binding may be made again. -/
def Setting.add (settings : List Setting) : Setting → Except Outcome (List Setting)
  | .binding name value => .ok (settings ++ [.binding name value])
  | .table => addOnce settings .table
  | .json => addOnce settings .json

namespace WholeOption

def arguments : WholeOption → List String
  | .attached value => ["--assign=" ++ value]
  | .detached false value => ["-a", value]
  | .detached true value => ["--assign", value]
  | .table false => ["-t"]
  | .table true => ["--table"]
  | .json => ["--json"]

/-- The use of an option in the first of its arguments. -/
def use : WholeOption → Use
  | .attached value => .assign (some value)
  | .detached _ _ => .assign none
  | .table _ => .table
  | .json => .json

/-- The value of an option that is an argument of its own. -/
def value? : WholeOption → Option String
  | .detached _ value => some value
  | .attached _ | .table _ | .json => none

/-- The setting that an option makes, or how a run ends at it.  What is an option or `--` itself is no
    value of another option. -/
def setting : WholeOption → Except Outcome Setting
  | .attached value => Setting.ofValue value
  | .detached _ value =>
    match Argument.ofText value with
    | .word => Setting.ofValue value
    | .excess opt excess => .error (.usage (.unexpectedValue opt excess))
    | .separator | .options _ => .error (.usage .missingValue)
  | .table _ => .ok .table
  | .json => .ok .json

def read (settings : List Setting) (option : WholeOption) : Except Outcome (List Setting) := do
  let setting ← option.setting
  setting.add settings

def settings (options : List WholeOption) : List Setting :=
  options.filterMap fun option => option.setting.toOption

def bindings (options : List WholeOption) : List (String × Bool) :=
  (settings options).filterMap Setting.binding?

end WholeOption

/-! ## Single arguments -/

theorem Argument.ofText_attached (value : String) :
    ofText ("--assign=" ++ value) = .options [.assign (some value)] := by
  have written : ("--assign=" ++ value).toList =
      '-' :: '-' :: (['a', 's', 's', 'i', 'g', 'n'] ++ '=' :: value.toList) := by
    simp
  have found : Opt.ofLongName? (String.ofList ['a', 's', 's', 'i', 'g', 'n']) = some .assign := by decide
  rw [ofText, written]
  simp only [List.cons_append, List.nil_append, ofLong]
  simp [found]

theorem Argument.ofText_of_head?_ne {word : String} (plain : word.toList.head? ≠ some '-') :
    ofText word = .word := by
  rw [ofText]
  -- all patterns but the last one begin with a dash
  split
  · rename_i written
    simp [written] at plain
  · rename_i written
    simp [written] at plain
  · rename_i written
    simp [written] at plain
  · rfl

theorem WholeOption.arguments_eq (option : WholeOption) :
    ∃ flag, option.arguments = flag :: option.value?.toList ∧
      Argument.ofText flag = .options [option.use] := by
  cases option with
  | attached value => exact ⟨_, rfl, Argument.ofText_attached value⟩
  | detached long value =>
    have short : Argument.ofText "-a" = .options [.assign none] := by decide
    have spelled : Argument.ofText "--assign" = .options [.assign none] := by decide
    cases long with
    | false => exact ⟨"-a", rfl, short⟩
    | true => exact ⟨"--assign", rfl, spelled⟩
  | table long =>
    cases long with
    | false => exact ⟨"-t", rfl, by decide⟩
    | true => exact ⟨"--table", rfl, by decide⟩
  | json => exact ⟨"--json", rfl, by decide⟩

/-! ## Options one after the other -/

/-- Arguments whose first one is looked at after what is open has been settled. -/
def SettlesFirst (arguments : List String) : Prop :=
  ∀ settings pending, pending ≠ .awaiting →
    scanArguments settings pending arguments =
      pending.settle settings >>= fun settings => scanArguments settings .nothing arguments

theorem settlesFirst_cons {argument : String} (rest : List String)
    (noExcess : ∀ opt value, Argument.ofText argument ≠ .excess opt value) :
    SettlesFirst (argument :: rest) := by
  intro settings pending notAwaiting
  cases read : Argument.ofText argument with
  | excess opt value => exact absurd read (noExcess opt value)
  | options uses =>
    simp only [scanArguments, read]
    rfl
  | separator =>
    simp only [scanArguments, read]
    rfl
  | word =>
    simp only [scanArguments, read]
    cases pending with
    | awaiting => exact absurd rfl notAwaiting
    | nothing => rfl
    | held value => rfl

theorem settlesFirst_options (options : List WholeOption) {tail : List String}
    (settles : SettlesFirst tail) : SettlesFirst (options.flatMap WholeOption.arguments ++ tail) := by
  cases options with
  | nil => exact settles
  | cons option rest =>
    obtain ⟨flag, spelled, read⟩ := option.arguments_eq
    rw [List.flatMap_cons, spelled]
    exact settlesFirst_cons _ (by simp [read])

theorem ofValue_bind_add (settings : List Setting) (value : String) :
    Setting.ofValue value >>= Setting.add settings =
      Setting.ofValue value >>= fun setting => .ok (settings ++ [setting]) := by
  rw [Setting.ofValue]
  cases parseBinding value with
  | error error => rfl
  | ok binding => rfl

/-- An option is read at once, as long as nothing cuts in on a value that has not been settled. -/
theorem scanArguments_option (option : WholeOption) {rest : List String} (settles : SettlesFirst rest)
    (settings : List Setting) :
    scanArguments settings .nothing (option.arguments ++ rest) =
      option.read settings >>= fun settings => scanArguments settings .nothing rest := by
  obtain ⟨flag, spelled, flagRead⟩ := option.arguments_eq
  have used : scanArguments settings .nothing (option.arguments ++ rest) =
      applyUses settings [option.use] >>= fun state =>
        scanArguments state.1 state.2 (option.value?.toList ++ rest) := by
    rw [spelled]
    simp only [List.cons_append, scanArguments, flagRead]
    rfl
  rw [used]
  cases option with
  | attached value =>
    rw [WholeOption.read, WholeOption.setting, ofValue_bind_add]
    simp only [WholeOption.use, applyUses]
    cases Setting.ofValue value with
    | error outcome => rfl
    | ok setting => rfl
  | detached long value =>
    show scanArguments settings .awaiting (value :: rest) = _
    simp only [scanArguments, WholeOption.read, WholeOption.setting]
    cases kind : Argument.ofText value with
    | word =>
      -- the value is held, and is settled by what comes next
      rw [settles settings _ (by simp)]
      simp only [Pending.settle]
      rw [ofValue_bind_add]
      rfl
    | excess opt value => rfl
    | separator => rfl
    | options uses => rfl
  | table long =>
    simp only [WholeOption.use, applyUses, WholeOption.read, WholeOption.setting, Setting.add]
    cases addOnce settings .table with
    | error outcome => rfl
    | ok settings => rfl
  | json =>
    simp only [WholeOption.use, applyUses, WholeOption.read, WholeOption.setting, Setting.add]
    cases addOnce settings .json with
    | error outcome => rfl
    | ok settings => rfl

theorem scanArguments_options (options : List WholeOption) {tail : List String}
    (settles : SettlesFirst tail) (settings : List Setting) :
    scanArguments settings .nothing (options.flatMap WholeOption.arguments ++ tail) =
      options.foldlM WholeOption.read settings >>= fun settings =>
        scanArguments settings .nothing tail := by
  induction options generalizing settings with
  | nil => rfl
  | cons option rest ih =>
    have later := settlesFirst_options rest settles
    rw [List.flatMap_cons, List.append_assoc, scanArguments_option option later, List.foldlM_cons,
      bind_assoc]
    simp only [ih]

/-! ## The end of the options -/

/-- What ends the options, and the words of the formula that it leaves. -/
inductive EndsOptions : List String → List String → Prop
  | separator (words : List String) : EndsOptions ("--" :: words) words
  | word {first : String} (rest : List String) :
      Argument.ofText first = .word → EndsOptions (first :: rest) (first :: rest)

namespace EndsOptions

variable {tail words : List String} (ends : EndsOptions tail words)

include ends

theorem settlesFirst : SettlesFirst tail := by
  cases ends with
  | separator words =>
    have read : Argument.ofText "--" = .separator := by decide
    exact settlesFirst_cons words (by simp [read])
  | word rest read => exact settlesFirst_cons rest (by simp [read])

theorem scanArguments_eq (settings : List Setting) :
    scanArguments settings .nothing tail = .ok ⟨settings, words⟩ := by
  cases ends with
  | separator words =>
    have read : Argument.ofText "--" = .separator := by decide
    simp only [scanArguments, read]
    rfl
  | word rest read =>
    simp only [scanArguments, read]
    rfl

end EndsOptions

def conclude : Except Outcome Request → Outcome
  | .ok request => request.outcome
  | .error outcome => outcome

theorem run_options (options : List WholeOption) {tail words : List String}
    (ends : EndsOptions tail words) :
    run (options.flatMap WholeOption.arguments ++ tail) =
      conclude (options.foldlM WholeOption.read [] >>= fun settings =>
        (Request.mk settings words).check) := by
  have scanned : Request.ofArguments (options.flatMap WholeOption.arguments ++ tail) =
      options.foldlM WholeOption.read [] >>= fun settings => (Request.mk settings words).check := by
    rw [Request.ofArguments, scanArguments_options options ends.settlesFirst, bind_assoc]
    simp only [ends.scanArguments_eq]
    rfl
  rw [← scanned]
  rfl

/-! ## The table apart from bindings -/

theorem Setting.opt_eq_table_iff (setting : Setting) : setting.opt = .table ↔ setting = .table := by
  cases setting <;> simp [opt]

theorem Setting.opt_eq_assign_iff (setting : Setting) :
    setting.opt = .assign ↔ setting.binding? ≠ none := by
  cases setting <;> simp [opt, binding?]

def Conflicting (settings : List Setting) : Prop :=
  .table ∈ settings ∧ settings.filterMap Setting.binding? ≠ []

theorem conflicting_iff (settings : List Setting) :
    ((settings.map Setting.opt).contains .table && (settings.map Setting.opt).contains .assign) = true ↔
      Conflicting settings := by
  simp [Conflicting, Setting.opt_eq_table_iff, Setting.opt_eq_assign_iff]

theorem check_of_not_conflicting {settings : List Setting} (apart : ¬ Conflicting settings)
    {words : List String} (nonempty : words ≠ []) :
    (Request.mk settings words).check = .ok ⟨settings, words⟩ := by
  rw [← conflicting_iff] at apart
  rw [Request.check, if_neg apart, if_neg (by simpa using nonempty)]

theorem check_of_conflicting {settings : List Setting} (conflicting : Conflicting settings)
    (words words' : List String) :
    conclude (Request.mk settings words).check = conclude (Request.mk settings words').check := by
  rw [← conflicting_iff] at conflicting
  rw [Request.check, if_pos conflicting, Request.check, if_pos conflicting]

/-- It does not matter how the words of a formula are cut. -/
theorem run_options_congr (options : List WholeOption) {tail tail' words words' : List String}
    (ends : EndsOptions tail words) (ends' : EndsOptions tail' words') (nonempty : words ≠ [])
    (nonempty' : words' ≠ []) (same : " ".intercalate words = " ".intercalate words') :
    run (options.flatMap WholeOption.arguments ++ tail) =
      run (options.flatMap WholeOption.arguments ++ tail') := by
  rw [run_options options ends, run_options options ends']
  cases options.foldlM WholeOption.read [] with
  | error outcome => rfl
  | ok settings =>
    show conclude (Request.mk settings words).check = conclude (Request.mk settings words').check
    by_cases conflicting : Conflicting settings
    · exact check_of_conflicting conflicting words words'
    · rw [check_of_not_conflicting conflicting nonempty, check_of_not_conflicting conflicting nonempty']
      simp only [conclude, Request.outcome, Request.formula, Request.bindings, same]

/-! ## Options that a run accepts -/

namespace WholeOption

/-- Every option makes a setting, no flag is set twice, and the table is not asked for together with
    bindings. -/
structure Accepted (options : List WholeOption) : Prop where
  made : ∀ option ∈ options, ∃ setting, option.setting = .ok setting
  once : ∀ setting, setting.binding? = none → (settings options).count setting ≤ 1
  apart : ¬ Conflicting (settings options)

theorem settings_cons {option : WholeOption} {setting : Setting} (made : option.setting = .ok setting)
    (rest : List WholeOption) : settings (option :: rest) = setting :: settings rest := by
  simp [settings, made, Except.toOption]

end WholeOption

theorem Setting.add_eq_ok {settings : List Setting} {setting : Setting}
    (new : setting.binding? = none → setting ∉ settings) :
    setting.add settings = .ok (settings ++ [setting]) := by
  cases setting with
  | binding name value => rfl
  | table =>
    have absent : .table ∉ settings := new rfl
    simp [add, addOnce, absent]
  | json =>
    have absent : .json ∉ settings := new rfl
    simp [add, addOnce, absent]

theorem foldlM_read_eq_ok {options : List WholeOption} {done : List Setting}
    (made : ∀ option ∈ options, ∃ setting, option.setting = .ok setting)
    (once : ∀ setting, setting.binding? = none →
      (done ++ WholeOption.settings options).count setting ≤ 1) :
    options.foldlM WholeOption.read done = .ok (done ++ WholeOption.settings options) := by
  induction options generalizing done with
  | nil =>
    rw [WholeOption.settings, List.filterMap_nil, List.append_nil]
    rfl
  | cons option rest ih =>
    obtain ⟨⟨setting, here⟩, later⟩ := List.forall_mem_cons.1 made
    have whole : done ++ WholeOption.settings (option :: rest) =
        done ++ [setting] ++ WholeOption.settings rest := by
      rw [WholeOption.settings_cons here, List.append_assoc, List.singleton_append]
    rw [whole] at once ⊢
    have new : setting.binding? = none → setting ∉ done := by
      intro flag member
      have counted := once setting flag
      have before := List.count_pos_iff.2 member
      simp only [List.count_append, List.count_singleton_self] at counted
      omega
    have read : option.read done = .ok (done ++ [setting]) := by
      rw [WholeOption.read, here]
      exact Setting.add_eq_ok new
    rw [List.foldlM_cons, read]
    exact ih later once

theorem WholeOption.Accepted.run_eq {options : List WholeOption} (accepted : Accepted options)
    {tail words : List String} (ends : EndsOptions tail words) (nonempty : words ≠ []) :
    run (options.flatMap arguments ++ tail) = (Request.mk (settings options) words).outcome := by
  have read : options.foldlM read [] = .ok (settings options) :=
    foldlM_read_eq_ok accepted.made (by simpa using accepted.once)
  rw [run_options options ends, read]
  show conclude (Request.mk (settings options) words).check = _
  rw [check_of_not_conflicting accepted.apart nonempty]
  rfl

/-! ## The first word -/

/-- The first word that does not begin with a dash ends the options as `--` does, whatever the options
    are, and all arguments from there on make the formula.  If the options are accepted, a run answers
    for that formula under the settings that they make. -/
theorem run_from_first_word (options : List WholeOption) (word : String) (rest : List String)
    (plain : word.toList.head? ≠ some '-') :
    run (options.flatMap WholeOption.arguments ++ word :: rest) =
        run (options.flatMap WholeOption.arguments ++ ["--", " ".intercalate (word :: rest)]) ∧
      (WholeOption.Accepted options →
        run (options.flatMap WholeOption.arguments ++ word :: rest) =
          (Request.mk (WholeOption.settings options) (word :: rest)).outcome) := by
  have ends := EndsOptions.word rest (Argument.ofText_of_head?_ne plain)
  have separated := EndsOptions.separator [" ".intercalate (word :: rest)]
  constructor
  · exact run_options_congr options ends separated (by simp) (by simp) (by simp)
  · intro accepted
    exact accepted.run_eq ends (by simp)

/-- Behind the first word `--json` is a word, and in front of it an option. -/
theorem run_from_first_word_json :
    "p".toList.head? ≠ some '-' ∧
      WholeOption.Accepted [.detached false "p=1", .json] ∧
      run ["-a", "p=1", "--json", "p", "and", "--json"] =
        run ["-a", "p=1", "--json", "--", "p and --json"] ∧
      run ["-a", "p=1", "--json", "p", "and", "--json"] =
        (Request.mk [.binding "p" true, .json] ["p", "and", "--json"]).outcome ∧
      (Request.mk [.binding "p" true, .json] ["p", "and", "--json"]).formula = "p and --json" := by
  have plain : "p".toList.head? ≠ some '-' := by decide
  have bound : (WholeOption.detached false "p=1").setting = .ok (.binding "p" true) := rfl
  have made : WholeOption.settings [.detached false "p=1", .json] = [.binding "p" true, .json] :=
    WholeOption.settings_cons bound [.json]
  have joined : " ".intercalate ["p", "and", "--json"] = "p and --json" := by decide +kernel
  have accepted : WholeOption.Accepted [.detached false "p=1", .json] := by
    refine ⟨?_, ?_, ?_⟩
    · exact List.forall_mem_cons.2 ⟨⟨_, bound⟩, List.forall_mem_singleton.2 ⟨_, rfl⟩⟩
    · rw [made]
      intro setting flag
      cases setting with
      | binding name value => simp [Setting.binding?] at flag
      | table => simp
      | json => simp
    · rw [made]
      simp [Conflicting]
  obtain ⟨same, answered⟩ := run_from_first_word [.detached false "p=1", .json] "p" ["and", "--json"] plain
  rw [joined] at same
  have asked := answered accepted
  rw [made] at asked
  exact ⟨plain, accepted, same, asked, joined⟩

end Sentential.CommandLine
