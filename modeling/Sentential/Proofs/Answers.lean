import Sentential.Proofs.Arguments
import Sentential.Proofs.JsonReading
import Sentential.Proofs.RoundTrip
import Mathlib.Data.List.Count
import Mathlib.Data.List.Perm.Basic

/-! # What a run answers

A run with bindings and at most one `--json` in front of `--` accepts its options, whatever their order.
It is rejected if the words behind `--`, with single spaces between them, are no formula.  Otherwise it
answers with the linear form of the formula and its truth value (`run_evaluates`).  Under `--json` these
are the fields of an object, and nothing in a name can make the text be read as anything else.

In the valuation a name has the value of its last binding.  So the order of the options counts only among
bindings of one name, which is the name without white space at its ends.
-/

namespace Sentential

/-! ## The last binding of a name -/

namespace Valuation

/-- Of several bindings of one name the last counts. -/
theorem ofList_apply (pairs : List (String × Bool)) (name : String) :
    ofList pairs name = pairs.reverse.lookup name := by
  induction pairs using List.reverseRecOn with
  | nil => rfl
  | append_singleton pairs pair ih =>
    have bound : ofList (pairs ++ [pair]) = (ofList pairs).bind pair.1 pair.2 := by
      simp [ofList]
    rw [bound, bind, ih, List.reverse_append, List.reverse_singleton, List.singleton_append,
      List.lookup_cons]
    by_cases same : name = pair.1
    · simp [same]
    · simp [same, beq_eq_false_iff_ne.2 same]

def last (pairs : List (String × Bool)) : Valuation :=
  fun name => pairs.reverse.lookup name

theorem ofList_eq_last (pairs : List (String × Bool)) : ofList pairs = last pairs :=
  funext (ofList_apply pairs)

theorem lookup_filter (pairs : List (String × Bool)) (name : String) :
    (pairs.filter fun pair => pair.1 == name).lookup name = pairs.lookup name := by
  induction pairs with
  | nil => rfl
  | cons pair rest ih =>
    obtain ⟨other, value⟩ := pair
    by_cases same : other = name
    · simp [same]
    · simp [same, ih, List.lookup_cons, beq_eq_false_iff_ne.2 (Ne.symm same)]

/-- The order of pairs counts only among those of one name. -/
theorem ofList_congr {pairs pairs' : List (String × Bool)}
    (same : ∀ name, (pairs.filter fun pair => pair.1 == name) = pairs'.filter fun pair => pair.1 == name) :
    ofList pairs = ofList pairs' := by
  funext name
  rw [ofList_apply, ofList_apply, ← lookup_filter, ← lookup_filter pairs'.reverse, List.filter_reverse,
    List.filter_reverse, same]

end Valuation

/-! ## Lines of an answer -/

namespace Formula

theorem forall_mem_linearForm {p : Char → Prop} (formula : Formula)
    (inNames : ∀ name ∈ formula.names, ∀ c ∈ name.toList, p c)
    (symbols : ∀ connective : Connective, p connective.symbol) : ∀ c ∈ formula.linearForm.toList, p c := by
  induction formula with
  | atom name => exact inNames name (.head _)
  | not operand ih =>
    rw [linearForm, String.toList_push, List.forall_mem_append, List.forall_mem_singleton]
    exact ⟨ih inNames, symbols .not⟩
  | binary op left right leftIh rightIh =>
    rw [names, List.forall_mem_append] at inNames
    rw [linearForm, String.toList_push, String.toList_append, List.forall_mem_append,
      List.forall_mem_append, List.forall_mem_singleton]
    exact ⟨⟨leftIh inNames.1, rightIh inNames.2⟩, symbols (.binary op)⟩

/-- The linear form of what is read stays on its line. -/
theorem newline_not_mem_linearForm {text : String} {formula : Formula} (read : parse text = .ok formula) :
    '\n' ∉ formula.linearForm.toList := by
  have others : ∀ c ∈ formula.linearForm.toList, c ≠ '\n' := by
    apply forall_mem_linearForm
    · rintro name member c inside rfl
      exact (isName_of_mem_names read member).blank_not_mem (by decide) inside
    · intro connective
      cases connective with
      | not => decide
      | binary op => cases op <;> decide
  exact fun member => others _ member rfl

end Formula

namespace CommandLine

theorem valueAnswer_json (valuation : Valuation) (formula : Formula) :
    valueAnswer true valuation formula = "\x7b\n  \"formula\": " ++ Json.quote formula.linearForm ++
      ",\n  \"result\": " ++ toString (formula.eval valuation) ++ "\n\x7d\n" := by
  have formulaKey : Json.quote "formula" = "\"formula\"" := by decide +kernel
  have resultKey : Json.quote "result" = "\"result\"" := by decide +kernel
  have word : Json.pretty 1 (.bool (formula.eval valuation)) = toString (formula.eval valuation) := by
    cases formula.eval valuation <;> rfl
  have shape : valueAnswer true valuation formula =
      Json.block "\x7b" "\x7d" 0 [Json.quote "formula" ++ ": " ++ Json.quote formula.linearForm,
        Json.quote "result" ++ ": " ++ toString (formula.eval valuation)] ++ "\n" := by
    rw [← word]
    rfl
  rw [shape, formulaKey, resultKey, ← String.toList_inj]
  simp [Json.block, Json.lineStart]

theorem denotes_valueAnswer_iff (valuation : Valuation) (formula : Formula) (json : Json) :
    Json.Denotes (valueAnswer true valuation formula) json ↔
      json = .object [("formula", .string formula.linearForm),
        ("result", .bool (formula.eval valuation))] := by
  have lineEnd : ∀ c ∈ "\n".toList, Json.isBlank c = true := List.forall_mem_singleton.2 rfl
  rw [valueAnswer]
  exact Json.denotes_pretty_iff 0 _ lineEnd

/-! ## Options of a run that evaluates -/

namespace WholeOption

/-- Bindings behind an equals sign, and at most one `--json`. -/
structure Evaluating (options : List WholeOption) : Prop where
  each : ∀ option ∈ options,
    option = .json ∨ ∃ text binding, option = .attached text ∧ parseBinding text = .ok binding
  once : options.count .json ≤ 1

theorem setting_attached {text : String} {binding : String × Bool}
    (bound : parseBinding text = .ok binding) :
    (attached text).setting = .ok (.binding binding.1 binding.2) := by
  rw [setting, Setting.ofValue, bound]

namespace Evaluating

variable {options : List WholeOption} (evaluating : Evaluating options)

include evaluating

theorem made (option : WholeOption) (member : option ∈ options) :
    ∃ setting, option.setting = .ok setting := by
  obtain rfl | ⟨text, binding, rfl, bound⟩ := evaluating.each option member
  · exact ⟨.json, rfl⟩
  · exact ⟨_, setting_attached bound⟩

/-- No flag is set but by `--json`. -/
theorem makes_flag_iff {option : WholeOption} (member : option ∈ options) {flag : Setting}
    (noBinding : flag.binding? = none) :
    option.setting.toOption = some flag ↔ flag = .json ∧ option = .json := by
  obtain rfl | ⟨text, binding, rfl, bound⟩ := evaluating.each option member
  · simp [setting, Except.toOption, eq_comm]
  · rw [setting_attached bound]
    cases flag with
    | binding name value => simp [Setting.binding?] at noBinding
    | table => simp [Except.toOption]
    | json => simp [Except.toOption]

theorem flag_mem_iff {flag : Setting} (noBinding : flag.binding? = none) :
    flag ∈ settings options ↔ flag = .json ∧ .json ∈ options := by
  rw [settings, List.mem_filterMap]
  constructor
  · rintro ⟨option, member, makes⟩
    obtain ⟨rfl, rfl⟩ := (evaluating.makes_flag_iff member noBinding).1 makes
    exact ⟨rfl, member⟩
  · rintro ⟨rfl, member⟩
    exact ⟨.json, member, rfl⟩

theorem table_not_mem : .table ∉ settings options := by
  intro asked
  exact absurd ((evaluating.flag_mem_iff rfl).1 asked).1 (by decide)

theorem accepted : Accepted options where
  made := evaluating.made
  once flag noBinding := by
    have counted : (settings options).count flag ≤ options.count .json := by
      rw [settings, List.count_filterMap, List.count_eq_countP]
      refine List.countP_mono_left fun option member makes => ?_
      exact beq_iff_eq.2 ((evaluating.makes_flag_iff member noBinding).1 (beq_iff_eq.1 makes)).2
    exact Nat.le_trans counted evaluating.once
  apart conflicting := evaluating.table_not_mem conflicting.1

theorem run_eq {words : List String} (nonempty : words ≠ []) :
    run (options.flatMap arguments ++ "--" :: words) =
      match Formula.parse (" ".intercalate words) with
      | .error error => .rejected (rejection (" ".intercalate words) error)
      | .ok formula =>
        .answer (valueAnswer (options.contains .json) (Valuation.ofList (bindings options)) formula) := by
  have noTable : (settings options).contains .table = false := by
    rw [← Bool.not_eq_true, List.contains_iff_mem]
    exact evaluating.table_not_mem
  have json : (settings options).contains .json = options.contains .json := by
    rw [Bool.eq_iff_iff, List.contains_iff_mem, List.contains_iff_mem, evaluating.flag_mem_iff rfl]
    simp
  have bound : (Request.mk (settings options) words).bindings = bindings options := rfl
  have text : (Request.mk (settings options) words).formula = " ".intercalate words := rfl
  rw [evaluating.accepted.run_eq (.separator words) nonempty, Request.outcome, text]
  cases Formula.parse (" ".intercalate words) with
  | error error => rfl
  | ok formula => simp only [noTable, json, bound, Bool.false_eq_true, if_false]

end Evaluating

end WholeOption

def runOn (options : List WholeOption) (words : List String) : Outcome :=
  run (options.flatMap WholeOption.arguments ++ "--" :: words)

namespace WholeOption.Evaluating

variable {options : List WholeOption} (evaluating : Evaluating options) {words : List String}
  (nonempty : words ≠ [])

include evaluating nonempty

theorem runOn_of_error {error : ParseError}
    (unread : Formula.parse (" ".intercalate words) = .error error) :
    runOn options words = .rejected (rejection (" ".intercalate words) error) := by
  rw [runOn, evaluating.run_eq nonempty, unread]

theorem runOn_of_ok {formula : Formula} (read : Formula.parse (" ".intercalate words) = .ok formula) :
    runOn options words = .answer
      (valueAnswer (options.contains .json) (Valuation.ofList (bindings options)) formula) := by
  rw [runOn, evaluating.run_eq nonempty, read]

theorem perm {options' : List WholeOption} (perm : options'.Perm options)
    (sameOrder : ∀ name, ((bindings options').filter fun binding => binding.1 == name) =
      (bindings options).filter fun binding => binding.1 == name) :
    runOn options' words = runOn options words := by
  have evaluating' : Evaluating options' := by
    refine ⟨fun option member => evaluating.each option (perm.mem_iff.1 member), ?_⟩
    rw [perm.count_eq]
    exact evaluating.once
  have json : options'.contains .json = options.contains .json := by
    rw [Bool.eq_iff_iff, List.contains_iff_mem, List.contains_iff_mem, perm.mem_iff]
  rw [runOn, runOn, evaluating.run_eq nonempty, evaluating'.run_eq nonempty, json,
    Valuation.ofList_congr sameOrder]

end WholeOption.Evaluating

/-- A run with bindings and at most one `--json` is rejected exactly if the words are no formula, and
    otherwise answers with the linear form of the formula and its value under the last bindings: on a
    line each, or as JSON that reads as the two and as nothing else.  It does so in any order of the
    options that keeps the order of the bindings of each name. -/
theorem run_evaluates {options : List WholeOption} (evaluating : WholeOption.Evaluating options)
    {words : List String} (nonempty : words ≠ []) :
    ((runOn options words).status = 1 ∧ (runOn options words).stdout = "" ↔
      ∃ error, Formula.parse (" ".intercalate words) = .error error) ∧
    (∀ formula, Formula.parse (" ".intercalate words) = .ok formula →
      (runOn options words).status = 0 ∧ (runOn options words).stderr = "" ∧
      '\n' ∉ formula.linearForm.toList ∧
      let value := formula.eval (Valuation.last (WholeOption.bindings options))
      (.json ∈ options →
        (runOn options words).stdout = "\x7b\n  \"formula\": " ++ Json.quote formula.linearForm ++
          ",\n  \"result\": " ++ toString value ++ "\n\x7d\n" ∧
        ∀ json, Json.Denotes (runOn options words).stdout json ↔
          json = .object [("formula", .string formula.linearForm), ("result", .bool value)]) ∧
      (.json ∉ options →
        (runOn options words).stdout = formula.linearForm ++ "\n" ++ toString value ++ "\n")) ∧
    ∀ options' : List WholeOption, options'.Perm options →
      (∀ name, ((WholeOption.bindings options').filter fun binding => binding.1 == name) =
        (WholeOption.bindings options).filter fun binding => binding.1 == name) →
      runOn options' words = runOn options words := by
  refine ⟨?_, ?_, ?_⟩
  · constructor
    · rintro ⟨failed, -⟩
      cases read : Formula.parse (" ".intercalate words) with
      | error error => exact ⟨error, rfl⟩
      | ok formula =>
        rw [evaluating.runOn_of_ok nonempty read] at failed
        exact nomatch failed
    · rintro ⟨error, unread⟩
      rw [evaluating.runOn_of_error nonempty unread]
      exact ⟨rfl, rfl⟩
  · intro formula read
    rw [evaluating.runOn_of_ok nonempty read, Valuation.ofList_eq_last]
    refine ⟨rfl, rfl, Formula.newline_not_mem_linearForm read, ?_, ?_⟩
    · intro json
      rw [List.contains_iff_mem.2 json]
      exact ⟨valueAnswer_json _ _, denotes_valueAnswer_iff _ _⟩
    · intro plain
      simp [Outcome.stdout, valueAnswer, plain]
  · intro options' perm sameOrder
    exact evaluating.perm nonempty perm sameOrder

/-- The name that is bound twice has its second value, also when `--json` comes first, and behind `--`
    an option is a word. -/
theorem run_evaluates_rebound :
    WholeOption.Evaluating [.attached "a=0", .json, .attached " a =TRUE"] ∧
      Formula.parse "-t or a" = .ok (.binary .or (.atom "-t") (.atom "a")) ∧
      (runOn [.attached "a=0", .json, .attached " a =TRUE"] ["-t", "or", "a"]).stdout =
        "\x7b\n  \"formula\": \"-ta∨\",\n  \"result\": true\n\x7d\n" ∧
      (∀ json, Json.Denotes
          (runOn [.attached "a=0", .json, .attached " a =TRUE"] ["-t", "or", "a"]).stdout json ↔
        json = .object [("formula", .string "-ta∨"), ("result", .bool true)]) ∧
      runOn [.json, .attached "a=0", .attached " a =TRUE"] ["-t", "or", "a"] =
        runOn [.attached "a=0", .json, .attached " a =TRUE"] ["-t", "or", "a"] := by
  have read : Formula.parse "-t or a" = .ok (.binary .or (.atom "-t") (.atom "a")) := by decide +kernel
  have joined : " ".intercalate ["-t", "or", "a"] = "-t or a" := by decide +kernel
  have first : parseBinding "a=0" = .ok ("a", false) := by decide +kernel
  have second : parseBinding " a =TRUE" = .ok ("a", true) := by decide +kernel
  have evaluating : WholeOption.Evaluating [.attached "a=0", .json, .attached " a =TRUE"] := by
    refine ⟨?_, by decide⟩
    rw [List.forall_mem_cons, List.forall_mem_cons, List.forall_mem_singleton]
    exact ⟨.inr ⟨_, _, rfl, first⟩, .inl rfl, .inr ⟨_, _, rfl, second⟩⟩
  have value : (Formula.binary .or (.atom "-t") (.atom "a")).eval (Valuation.last
      (WholeOption.bindings [.attached "a=0", .json, .attached " a =TRUE"])) = true := by
    decide +kernel
  have nonempty : ["-t", "or", "a"] ≠ [] := by simp
  obtain ⟨-, answers, reordered⟩ := run_evaluates evaluating nonempty
  obtain ⟨-, -, -, answer, -⟩ := answers _ (joined ▸ read)
  rw [value] at answer
  obtain ⟨text, denotes⟩ := answer (by decide)
  have written : "\x7b\n  \"formula\": " ++ Json.quote "-ta∨" ++ ",\n  \"result\": " ++ toString true ++
      "\n\x7d\n" = "\x7b\n  \"formula\": \"-ta∨\",\n  \"result\": true\n\x7d\n" := by decide +kernel
  exact ⟨evaluating, read, text.trans written, denotes, reordered _ (.swap _ _ _) fun name => rfl⟩

end CommandLine

end Sentential
