import Sentential.Proofs.Answers
import Sentential.Proofs.LetterCase
import Sentential.Proofs.Tabulation
import Mathlib.Data.List.DropRight

/-! # Bindings for the variables of a formula

The names of a formula are separated by six blanks, while the name in a binding loses every character
at its ends that Unicode counts as white space.  So a binding gives the value it spells to the name
without white space at its ends (`parseBinding_append`), which is the name itself only if it has none
(`trimChars_eq_self_iff`).  A variable whose name begins or ends with white space is never bound, and
is false whatever the bindings are.
-/

namespace Sentential

/-! ## White space at the ends -/

namespace Text

/-- Characters that neither begin nor end with white space. -/
structure Unpadded (text : List Char) : Prop where
  begins : ∀ c ∈ text.head?, isWhiteSpace c = false
  ends : ∀ c ∈ text.getLast?, isWhiteSpace c = false

theorem dropWhile_append_unpadded {front rest : List Char}
    (blank : ∀ c ∈ front, isWhiteSpace c = true) (begins : ∀ c ∈ rest.head?, isWhiteSpace c = false) :
    (front ++ rest).dropWhile isWhiteSpace = rest := by
  rw [List.dropWhile_append_of_pos blank]
  cases rest with
  | nil => rfl
  | cons c rest => rw [List.dropWhile_cons_of_neg (by simpa using begins)]

theorem trimChars_append {front middle back : List Char} (unpadded : Unpadded middle)
    (nonempty : middle ≠ []) (frontBlank : ∀ c ∈ front, isWhiteSpace c = true)
    (backBlank : ∀ c ∈ back, isWhiteSpace c = true) : trimChars (front ++ middle ++ back) = middle := by
  have begins : ∀ c ∈ (middle ++ back).head?, isWhiteSpace c = false := by
    rw [List.head?_append_of_ne_nil _ nonempty]
    exact unpadded.begins
  have ends : ∀ c ∈ middle.reverse.head?, isWhiteSpace c = false := by
    rw [List.head?_reverse]
    exact unpadded.ends
  rw [trimChars, List.append_assoc, dropWhile_append_unpadded frontBlank begins, List.reverse_append,
    dropWhile_append_unpadded (by simpa using backBlank) ends, List.reverse_reverse]

theorem unpadded_trimChars (text : List Char) : Unpadded (trimChars text) := by
  constructor
  · -- what is taken off the end leaves the first character, if any is left
    intro c first
    obtain ⟨others, start⟩ := List.rdropWhile_prefix isWhiteSpace (text.dropWhile isWhiteSpace)
    have kept : trimChars text ++ others = text.dropWhile isWhiteSpace := start
    apply head?_dropWhile isWhiteSpace text c
    rw [← kept, List.head?_append, Option.mem_def.1 first, Option.some_or]
    rfl
  · intro c last
    rw [trimChars, List.getLast?_reverse] at last
    exact head?_dropWhile isWhiteSpace _ c last

theorem trimChars_eq_self_iff (text : List Char) : trimChars text = text ↔ Unpadded text := by
  constructor
  · intro same
    exact same ▸ unpadded_trimChars text
  · intro unpadded
    by_cases nonempty : text = []
    · rw [nonempty]
      rfl
    · simpa using @trimChars_append [] text [] unpadded nonempty (by simp) (by simp)

theorem trim_eq_self_iff (text : String) : trim text = text ↔ Unpadded text.toList := by
  rw [← trimChars_eq_self_iff, trim]
  constructor
  · intro same
    simpa using congrArg String.toList same
  · intro same
    rw [same, String.ofList_toList]

end Text

namespace CommandLine

open Text

/-! ## Spelled truth values -/

/-- A text spells a truth value: in letters of any case, with white space around them. -/
inductive SpellsBoolean (truth : Bool) : String → Prop
  | padded {front letters back : List Char} {word : String} :
      (∀ c ∈ front, isWhiteSpace c = true) → (∀ c ∈ back, isWhiteSpace c = true) →
        (word, truth) ∈ booleanWords →
          List.Forall₂ (fun c letter => c = letter ∨ c = letter.toUpper) letters word.toList →
            SpellsBoolean truth (String.ofList (front ++ letters ++ back))

theorem booleanWords_letters : ∀ entry ∈ booleanWords, ∀ letter ∈ entry.1.toList,
    (letter.toNat < 0x80 ∧ isWhiteSpace letter = false) ∧
      (letter.toUpper.toNat < 0x80 ∧ isWhiteSpace letter.toUpper = false) ∧
        letter.toLower = letter ∧ letter.toUpper.toLower = letter := by
  have checked : (booleanWords.all fun entry => entry.1.toList.all fun letter =>
      (letter.toNat < 0x80 && !isWhiteSpace letter) &&
        (letter.toUpper.toNat < 0x80 && !isWhiteSpace letter.toUpper) &&
          letter.toLower == letter && letter.toUpper.toLower == letter) = true := by
    decide
  intro entry listed letter member
  simpa [and_assoc] using List.all_eq_true.1 (List.all_eq_true.1 checked entry listed) letter member

theorem booleanWords_lookup : ∀ entry ∈ booleanWords,
    entry.1.toList ≠ [] ∧ booleanWords.lookup entry.1 = some entry.2 := by
  decide

theorem parseBoolean_of_spells {truth : Bool} {value : String} (spells : SpellsBoolean truth value) :
    parseBoolean value = .ok truth := by
  cases spells with
  | @padded front letters back word frontBlank backBlank listed written =>
    obtain ⟨plain, lowered⟩ := letters_read (p := fun c => IsAscii c ∧ isWhiteSpace c = false) written
      (booleanWords_letters _ listed)
    obtain ⟨someLetter, found⟩ := booleanWords_lookup _ listed
    have nonempty : letters ≠ [] := by
      rintro rfl
      exact someLetter (List.forall₂_nil_left_iff.1 written)
    have unpadded : Unpadded letters :=
      ⟨fun c first => (plain c (List.mem_of_mem_head? first)).2,
        fun c last => (plain c (List.mem_of_mem_getLast? last)).2⟩
    have word : lowerCase (trim (String.ofList (front ++ letters ++ back))) = word := by
      rw [trim, String.toList_ofList, trimChars_append unpadded nonempty frontBlank backBlank, lowerCase,
        String.toList_ofList, lowerAfter_of_ascii _ fun c member => (plain c member).1, lowered,
        String.ofList_toList]
    simp only [parseBoolean, word, found]

/-! ## Bindings -/

theorem parseBinding_append (name value : String) (noEquals : '=' ∉ name.toList) :
    parseBinding (name ++ "=" ++ value) =
      (parseBoolean value).map fun truth => (trim name, truth) := by
  have written : (name ++ "=" ++ value).toList = name.toList ++ '=' :: value.toList := by simp
  have inName : ∀ c ∈ name.toList, (c != '=') = true := by
    intro c member
    rw [bne_iff_ne]
    rintro rfl
    exact noEquals member
  rw [parseBinding, written, List.takeWhile_append_of_pos inName, List.dropWhile_append_of_pos inName,
    List.takeWhile_cons_of_neg (by simp), List.dropWhile_cons_of_neg (by simp), List.append_nil]
  simp only [String.ofList_toList]
  cases parseBoolean value <;> rfl

structure Choice where
  name : String
  value : String
  truth : Bool
  noEquals : '=' ∉ name.toList
  spells : SpellsBoolean truth value

namespace Choice

def text (choice : Choice) : String :=
  choice.name ++ "=" ++ choice.value

def argument (choice : Choice) : String :=
  "--assign=" ++ choice.text

def binding (choice : Choice) : String × Bool :=
  (trim choice.name, choice.truth)

theorem parseBinding_text (choice : Choice) : parseBinding choice.text = .ok choice.binding := by
  rw [text, parseBinding_append _ _ choice.noEquals, parseBoolean_of_spells choice.spells]
  rfl

def option (choice : Choice) : WholeOption :=
  .attached choice.text

theorem evaluating_choices (choices : List Choice) : WholeOption.Evaluating (choices.map option) where
  each := by
    rw [List.forall_mem_map]
    exact fun choice _ => .inr ⟨_, _, rfl, choice.parseBinding_text⟩
  once := by
    have noJson : WholeOption.json ∉ choices.map option := by simp [option]
    rw [List.count_eq_zero_of_not_mem noJson]
    exact Nat.zero_le 1

theorem bindings_choices (choices : List Choice) :
    WholeOption.bindings (choices.map option) = choices.map binding := by
  induction choices with
  | nil => rfl
  | cons choice rest ih =>
    have made := WholeOption.setting_attached choice.parseBinding_text
    rw [WholeOption.bindings] at ih ⊢
    rw [List.map_cons, option, WholeOption.settings_cons made, List.filterMap_cons, ih]
    rfl

/-- A run on choices evaluates the formula under the bindings that they make. -/
theorem run_choices (choices : List Choice) {text : String} {formula : Formula}
    (read : Formula.parse text = .ok formula) :
    run (choices.map argument ++ ["--", text]) =
      .answer (valueAnswer false (Valuation.ofList (choices.map binding)) formula) := by
  have spelled : (choices.map option).flatMap WholeOption.arguments = choices.map argument := by
    rw [List.flatMap_map, List.map_eq_flatMap]
    rfl
  have joined : " ".intercalate [text] = text := by simp
  have noJson : (choices.map option).contains .json = false := by simp [option]
  have answered := (evaluating_choices choices).runOn_of_ok (List.cons_ne_nil text []) (joined ▸ read)
  rwa [runOn, spelled, noJson, bindings_choices] at answered

end Choice

/-! ## The value of a variable -/

/-- No binding is for a name that begins or ends with white space. -/
theorem ofList_padded (choices : List Choice) {name : String} (padded : ¬ Unpadded name.toList) :
    Valuation.ofList (choices.map Choice.binding) name = none := by
  rw [Valuation.ofList_apply, List.lookup_eq_none_iff]
  intro pair member
  obtain ⟨choice, -, rfl⟩ : ∃ choice ∈ choices, choice.binding = pair := by simpa using member
  rw [bne_iff_ne]
  rintro rfl
  apply padded
  simpa [Choice.binding, trim] using unpadded_trimChars choice.name.toList

/-- A binding that is written for a variable gives its value to the name without white space at its
    ends, and a run evaluates the formula under these bindings.  So the last binding for a variable
    determines its value if its name neither begins nor ends with white space; otherwise no binding
    does, and the variable is false. -/
theorem bindings_of_symbols (text : String) (formula : Formula)
    (read : Formula.parse text = .ok formula) :
    (∀ choice : Choice, choice.name ∈ formula.symbols →
      parseBinding (choice.name ++ "=" ++ choice.value) = .ok (trim choice.name, choice.truth) ∧
      (parseBinding (choice.name ++ "=" ++ choice.value) = .ok (choice.name, choice.truth) ↔
        Unpadded choice.name.toList)) ∧
    (∀ choices : List Choice,
      run (choices.map Choice.argument ++ ["--", text]) =
        .answer (valueAnswer false (Valuation.ofList (choices.map Choice.binding)) formula)) ∧
    (∀ (choices : List Choice) (choice : Choice), choice.name ∈ formula.symbols →
      Unpadded choice.name.toList →
      (Valuation.ofList ((choices ++ [choice]).map Choice.binding)).value choice.name =
        choice.truth) ∧
    ∀ (choices : List Choice) (name : String), name ∈ formula.symbols → ¬ Unpadded name.toList →
      (Valuation.ofList (choices.map Choice.binding)).value name = false := by
  refine ⟨?_, ?_, ?_, ?_⟩
  · intro choice _
    have bound : parseBinding (choice.name ++ "=" ++ choice.value) =
        .ok (trim choice.name, choice.truth) := choice.parseBinding_text
    rw [bound, ← trim_eq_self_iff]
    exact ⟨rfl, by simp⟩
  · intro choices
    exact Choice.run_choices choices read
  · intro choices choice _ unpadded
    have name : trim choice.name = choice.name := (trim_eq_self_iff _).2 unpadded
    rw [Valuation.value, Valuation.ofList_apply, List.map_append, List.reverse_append]
    simp [name, Choice.binding]
  · intro choices name symbol padded
    have free := ((formula.mem_symbols_iff name).1 symbol).2
    rw [Valuation.value_of_not_literal _ free, Valuation.holds, ofList_padded choices padded]
    rfl

def choiceOfP : Choice where
  name := "p"
  value := " tRue"
  truth := true
  noEquals := by decide
  spells := @SpellsBoolean.padded true [' '] ['t', 'R', 'u', 'e'] [] "true" (by simp; decide)
    (by simp) (by decide) (by decide)

theorem bindings_of_symbols_p :
    parseBinding "p= tRue" = .ok ("p", true) ∧
      run ["--assign=p= tRue", "--", "p∨q"] =
        .answer (valueAnswer false (Valuation.ofList [("p", true)])
          (.binary .or (.atom "p") (.atom "q"))) ∧
      (Valuation.ofList [("p", true)]).value "p" = true := by
  have read : Formula.parse "p∨q" = .ok (.binary .or (.atom "p") (.atom "q")) := by decide +kernel
  obtain ⟨written, answered, bound, -⟩ := bindings_of_symbols "p∨q" _ read
  have symbol : choiceOfP.name ∈ (Formula.binary .or (.atom "p") (.atom "q")).symbols := by decide
  have unpadded : Unpadded choiceOfP.name.toList := (trim_eq_self_iff _).1 (by decide)
  exact ⟨(written choiceOfP symbol).2.2 unpadded, answered [choiceOfP],
    bound [] choiceOfP symbol unpadded⟩

/-- A name that begins with a no-break space is not the name that its binding is for. -/
theorem parseBinding_no_break_space :
    Formula.parse "\u00a0a" = .ok (.atom "\u00a0a") ∧
      "\u00a0a" ∈ (Formula.atom "\u00a0a").symbols ∧ '=' ∉ "\u00a0a".toList ∧
      SpellsBoolean true "1" ∧
      parseBinding ("\u00a0a" ++ "=" ++ "1") ≠ .ok ("\u00a0a", true) ∧
      run ["-a", "\u00a0a=1", "\u00a0a"] = .answer "\u00a0a\nfalse\n" := by
  refine ⟨by decide +kernel, by decide +kernel, by decide, ?_, ?_, by decide +kernel⟩
  · exact @SpellsBoolean.padded true [] ['1'] [] "1" (by simp) (by simp) (by decide) (by decide)
  · decide +kernel

end CommandLine

end Sentential
