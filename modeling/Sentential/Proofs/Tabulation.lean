import Sentential.TruthTable
import Sentential.Proofs.NodeTable
import Mathlib.Algebra.BigOperators.Fin

/-! # The table of a formula is complete

A formula's value depends on its names alone (`Formula.eval_congr`), and a row's valuation gives the
variables in the header a value and no other name.  So every valuation that leaves the constants alone
agrees, on the names of the formula, with the valuation of one row: the row whose number has the value
of the first variable as its lowest binary digit, that of the second as the next, and so on.  It does
not matter what else the valuation says, nor whether it says nothing about a variable, which is then
false in both.

`TruthTable.ofFormula_complete` says this together with the shape of the table.
-/

namespace Sentential

/-! ## Variables -/

theorem Node.nodup_collect {found : List String} (nodup : found.Nodup) (name : String) :
    (collect found name).Nodup := by
  rw [collect]
  split
  · exact nodup
  · rename_i skipped
    have new : name ∉ found := fun member => skipped (by simp [member])
    exact List.nodup_append.2 ⟨nodup, List.nodup_singleton name, by
      intro other inside name' same
      rw [List.mem_singleton.1 same]
      exact fun equal => new (equal ▸ inside)⟩

namespace Formula

theorem nodup_symbols (formula : Formula) : formula.symbols.Nodup := by
  have kept (names found : List String) (nodup : found.Nodup) :
      (names.foldl Node.collect found).Nodup := by
    induction names generalizing found with
    | nil => exact nodup
    | cons name rest ih => exact ih _ (Node.nodup_collect nodup name)
  rw [← Node.foldl_collect_names]
  exact kept formula.names [] List.nodup_nil

theorem mem_symbols_iff (formula : Formula) (name : String) :
    name ∈ formula.symbols ↔ name ∈ formula.names ∧ isLiteral name = false := by
  simp [symbols, List.mem_eraseDups]

/-- Valuations under which the names have the same values give a formula the same value. -/
theorem eval_congr {first second : Valuation} (formula : Formula)
    (same : ∀ name ∈ formula.names, first.value name = second.value name) :
    formula.eval first = formula.eval second := by
  induction formula with
  | atom name => exact same name (by simp [names])
  | not operand ih => rw [eval, eval, ih same]
  | binary op left right leftIh rightIh =>
    simp only [names, List.mem_append] at same
    rw [eval, eval, leftIh fun name member => same name (.inl member),
      rightIh fun name member => same name (.inr member)]

end Formula

/-! ## The valuation of a row -/

namespace Valuation

def holds (valuation : Valuation) (name : String) : Bool :=
  valuation name == some true

theorem foldl_bind_zip_map (f : String → Bool) (names : List String) (valuation : Valuation)
    (name : String) :
    (names.zip (names.map f)).foldl (fun valuation pair => valuation.bind pair.1 pair.2) valuation name =
      if name ∈ names then some (f name) else valuation name := by
  induction names generalizing valuation with
  | nil => simp
  | cons other rest ih =>
    rw [List.map_cons, List.zip_cons_cons, List.foldl_cons, ih, bind]
    by_cases same : name = other <;> simp [same]

theorem ofList_zip_map (f : String → Bool) (names : List String) (name : String) :
    ofList (names.zip (names.map f)) name = if name ∈ names then some (f name) else none :=
  foldl_bind_zip_map f names empty name

/-- A name that is no constant is true only where it is given that value. -/
theorem value_of_not_literal (valuation : Valuation) {name : String}
    (free : isLiteral name = false) : valuation.value name = valuation.holds name := by
  have other : (name == trueName) = false := (Bool.or_eq_false_iff.1 free).1
  rw [value, holds, other]
  rcases valuation name with _ | _ | _ <;> rfl

/-- The values of the variables are all that a formula's value depends on, unless a constant is
    given a value. -/
theorem eval_ofList_symbols (valuation : Valuation) (formula : Formula)
    (noTrue : valuation trueName = none) (noFalse : valuation falseName = none) :
    formula.eval (ofList (formula.symbols.zip (formula.symbols.map valuation.holds))) =
      formula.eval valuation := by
  apply Formula.eval_congr
  intro name member
  rw [value, ofList_zip_map]
  cases literal : isLiteral name with
  | false =>
    -- a variable without a value is given the value false, which it has anyway
    rw [if_pos ((formula.mem_symbols_iff name).2 ⟨member, literal⟩), valuation.value_of_not_literal literal]
    rfl
  | true =>
    have unbound : valuation name = none := by
      rcases Bool.or_eq_true_iff.1 literal with isTrue | isFalse
      · rw [beq_iff_eq.1 isTrue, noTrue]
      · rw [beq_iff_eq.1 isFalse, noFalse]
    rw [if_neg (by simp [Formula.mem_symbols_iff, literal]), value, unbound]

end Valuation

/-! ## Rows and their numbers -/

namespace TruthTable

/-- The number of the row of a valuation: each variable that it makes true counts twice as much as the
    one before. -/
def rowNumber (header : List String) (valuation : Valuation) : Nat :=
  ∑ i : Fin header.length, 2 ^ i.val * (valuation.holds header[i]).toNat

theorem sum_eq_ofBits {width : Nat} (bits : Fin width → Bool) :
    ∑ i : Fin width, 2 ^ i.val * (bits i).toNat = Nat.ofBits bits := by
  induction width with
  | zero => rfl
  | succ width ih =>
    rw [Fin.sum_univ_succ, Nat.ofBits_succ, ← ih, Finset.mul_sum]
    simp only [Fin.val_zero, Nat.pow_zero, Nat.one_mul, Fin.val_succ, Nat.pow_succ', Nat.mul_assoc,
      Function.comp_apply]
    omega

theorem rowNumber_lt (header : List String) (valuation : Valuation) :
    rowNumber header valuation < 2 ^ header.length := by
  rw [rowNumber, sum_eq_ofBits fun i : Fin header.length => valuation.holds header[i]]
  exact Nat.ofBits_lt_two_pow _

theorem digits_rowNumber (header : List String) (valuation : Valuation) :
    digits header.length (rowNumber header valuation) = header.map valuation.holds := by
  rw [rowNumber, sum_eq_ofBits fun i : Fin header.length => valuation.holds header[i]]
  apply List.ext_getElem
  · simp [digits]
  · intro index bound _
    simp only [digits, List.length_map, List.length_range] at bound
    simp [digits, Nat.testBit_ofBits_lt _ _ bound]

theorem digits_injOn {width first second : Nat} (small : first < 2 ^ width)
    (small' : second < 2 ^ width) (same : digits width first = digits width second) :
    first = second := by
  -- below the bound a number is made of its lowest digits
  have bits : (fun i : Fin width => first.testBit i) = fun i : Fin width => second.testBit i := by
    funext i
    have digit := congrArg (fun bits : List Bool => bits[i.val]?) same
    simpa [digits, List.getElem?_map, i.isLt] using digit
  rw [← Nat.mod_eq_of_lt small, ← Nat.ofBits_testBit, bits, Nat.ofBits_testBit,
    Nat.mod_eq_of_lt small']

theorem ofFormula_of_le {formula : Formula} (few : formula.symbols.length ≤ maxSymbols) :
    ofFormula formula = ⟨formula.symbols, (List.range (2 ^ formula.symbols.length)).map fun counter =>
      Row.ofInputs formula formula.symbols (digits formula.symbols.length counter)⟩ :=
  if_pos few

theorem ofFormula_of_lt {formula : Formula} (many : maxSymbols < formula.symbols.length) :
    ofFormula formula = ⟨[], []⟩ :=
  if_neg (Nat.not_le.2 many)

theorem inputs_rows {formula : Formula} (few : formula.symbols.length ≤ maxSymbols) :
    (ofFormula formula).rows.map Row.inputs =
      (List.range (2 ^ formula.symbols.length)).map (digits formula.symbols.length) := by
  rw [ofFormula_of_le few, List.map_map]
  rfl

theorem nodup_inputs {formula : Formula} (few : formula.symbols.length ≤ maxSymbols) :
    ((ofFormula formula).rows.map Row.inputs).Nodup := by
  rw [inputs_rows few]
  apply List.Nodup.map_on _ List.nodup_range
  intro first small second small' same
  exact digits_injOn (List.mem_range.1 small) (List.mem_range.1 small') same

theorem length_inputs {formula : Formula} (few : formula.symbols.length ≤ maxSymbols)
    {row : Row} (member : row ∈ (ofFormula formula).rows) :
    row.inputs.length = formula.symbols.length := by
  have inputs : row.inputs ∈ (ofFormula formula).rows.map Row.inputs := List.mem_map_of_mem member
  rw [inputs_rows few, List.mem_map] at inputs
  obtain ⟨counter, -, same⟩ := inputs
  rw [← same]
  simp [digits]

/-- A valuation that leaves the constants alone has a row: the one with its number. -/
theorem row_of_valuation {formula : Formula} (few : formula.symbols.length ≤ maxSymbols)
    (valuation : Valuation) (noTrue : valuation trueName = none)
    (noFalse : valuation falseName = none) :
    (ofFormula formula).rows[rowNumber formula.symbols valuation]? =
      some ⟨formula.symbols.map valuation.holds, formula.eval valuation⟩ := by
  rw [ofFormula_of_le few, List.getElem?_map, List.getElem?_range (rowNumber_lt _ _), Option.map_some,
    Row.ofInputs, digits_rowNumber, valuation.eval_ofList_symbols formula noTrue noFalse]

theorem isEmpty_ofFormula_iff (formula : Formula) :
    (ofFormula formula).isEmpty = true ↔ maxSymbols < formula.symbols.length := by
  rcases Nat.lt_or_ge maxSymbols formula.symbols.length with many | few
  · simp [ofFormula_of_lt many, isEmpty, many]
  · simp [ofFormula_of_le few, isEmpty, Nat.not_lt.2 few]

/-- The table of a formula with at most four variables has them as its header, each once, and a row
    for every choice of their values.  The row of a valuation that gives the constants no value has its
    choice and the formula's value under it.  The table of any other formula is empty. -/
theorem ofFormula_complete (formula : Formula) :
    (formula.symbols.length ≤ 4 →
      (ofFormula formula).header = formula.symbols ∧
      formula.symbols.Nodup ∧
      (ofFormula formula).rows.length = 2 ^ formula.symbols.length ∧
      ((ofFormula formula).rows.map Row.inputs).Nodup ∧
      (∀ row ∈ (ofFormula formula).rows, row.inputs.length = formula.symbols.length) ∧
      ∀ valuation : Valuation, valuation trueName = none → valuation falseName = none →
        (ofFormula formula).rows[rowNumber formula.symbols valuation]? =
          some ⟨formula.symbols.map valuation.holds, formula.eval valuation⟩) ∧
    (4 < formula.symbols.length →
      (ofFormula formula).header = [] ∧ (ofFormula formula).rows = []) ∧
    ((ofFormula formula).isEmpty = true ↔ 4 < formula.symbols.length) := by
  refine ⟨fun few => ⟨?_, formula.nodup_symbols, ?_, nodup_inputs few, ?_, ?_⟩, fun many => ?_,
    isEmpty_ofFormula_iff formula⟩
  · rw [ofFormula_of_le few]
  · rw [ofFormula_of_le few, List.length_map, List.length_range]
  · intro row member
    exact length_inputs few member
  · intro valuation noTrue noFalse
    exact row_of_valuation few valuation noTrue noFalse
  · rw [ofFormula_of_lt many]
    exact ⟨rfl, rfl⟩

/-- Of the four rows of an implication the second is that of a valuation which makes the left side
    true, says nothing about the right side, and gives a value to another name. -/
theorem ofFormula_complete_implies :
    Formula.parse "a -> b" = .ok (.binary .implies (.atom "a") (.atom "b")) ∧
      rowNumber ["a", "b"] (.ofList [("a", true), ("c", true)]) = 1 ∧
      (ofFormula (.binary .implies (.atom "a") (.atom "b"))).rows[1]? =
        some ⟨[true, false], false⟩ := by
  have read : Formula.parse "a -> b" = .ok (.binary .implies (.atom "a") (.atom "b")) := by
    decide +kernel
  have number : rowNumber ["a", "b"] (.ofList [("a", true), ("c", true)]) = 1 := by decide
  have complete := (ofFormula_complete (.binary .implies (.atom "a") (.atom "b"))).1 (by decide)
  have row := complete.2.2.2.2.2 (.ofList [("a", true), ("c", true)]) rfl rfl
  exact ⟨read, number, row⟩

end TruthTable

end Sentential
