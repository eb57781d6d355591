import Sentential.Proofs.Alignment

/-! # A written table can be read back

Nothing in the text of a table is quoted, and a name may be made of bars and digits.  All the same the text
says what the table is.  A name has no blank in it, so the lines fall apart, and in the first line every name
ends at the space behind it; what then comes last, and nothing else, is the bar.  A line of a row has
nothing in it but spaces, the bar and digits, and the digits are the values of the variables and behind them
that of the formula.  So not even the widths of the names are needed to read a row.

`ofDisplay` reads a text in this way, and from the text of a table it gets the table
(`ofDisplay_display`).  Two tables of formulas are therefore written alike only when they are equal.
-/

namespace Sentential

namespace TruthTable

/-! ## Reading -/

def isDigit (c : Char) : Bool :=
  c == digit false || c == digit true

def Row.ofLine (line : List Char) : Row :=
  let values := (line.filter isDigit).map fun c => c == digit true
  ⟨values.dropLast, values.getLastD false⟩

/-- The names in the line of names: all its words but the last, which is the bar. -/
def namesOfLine (line : List Char) : List String :=
  (line.splitOn ' ').dropLast.map String.ofList

/-- The table that a text shows.  Behind the last line break there is nothing. -/
def ofDisplay (text : String) : TruthTable :=
  match text.toList.splitOn '\n' with
  | [] => ⟨[], []⟩
  | names :: lines => ⟨namesOfLine names, lines.dropLast.map Row.ofLine⟩

/-! ## Reading what was written -/

theorem filter_isDigit_cell (width : Nat) (value : Bool) :
    (cell width value).toList.filter isDigit = [digit value] := by
  have space : isDigit ' ' = false := by decide
  have shown : isDigit (digit value) = true := by cases value <;> decide
  rw [toList_cell, List.filter_append, List.filter_replicate, space]
  simp [shown, space]

/-- The digits in the cells of a row are those of its values. -/
theorem filter_isDigit_cells {widths : List Nat} {inputs : List Bool}
    (same : inputs.length = widths.length) :
    (String.join (List.zipWith cell widths inputs)).toList.filter isDigit = inputs.map digit := by
  induction widths generalizing inputs with
  | nil =>
    obtain rfl := List.eq_nil_of_length_eq_zero same
    rfl
  | cons width widths ih =>
    cases inputs with
    | nil => rfl
    | cons value inputs =>
      rw [List.zipWith_cons_cons, String.join_cons, String.toList_append, List.filter_append,
        filter_isDigit_cell, ih (by simpa using same)]
      rfl

theorem ofLine_line {widths : List Nat} {row : Row} (same : row.inputs.length = widths.length) :
    Row.ofLine (row.line widths).toList = row := by
  have behind : ['|', ' ', digit row.output].filter isDigit = [digit row.output] := by
    cases row.output <;> decide
  have digits : (row.line widths).toList.filter isDigit = (row.inputs ++ [row.output]).map digit := by
    rw [toList_line, List.filter_append, filter_isDigit_cells same, behind, List.map_append]
    rfl
  have undone : (fun c => c == digit true) ∘ digit = id := by
    funext value
    cases value <;> decide
  have values : ((row.line widths).toList.filter isDigit).map (fun c => c == digit true) =
      row.inputs ++ [row.output] := by
    rw [digits, List.map_map, undone, List.map_id]
  rw [Row.ofLine, values]
  simp

theorem namesOfLine_headerLine {table : TruthTable} (named : ∀ name ∈ table.header, IsName name) :
    namesOfLine table.headerLine.toList = table.header := by
  have space : " ".toList = [' '] := rfl
  have unbroken : ∀ name ∈ table.header, ' ' ∉ name.toList :=
    fun name member => (named name member).blank_not_mem (by decide)
  have words : table.headerLine.toList.splitOn ' ' = table.header.map String.toList ++ [['|']] := by
    rw [toList_headerLine, splitOn_join_ended space table.header unbroken]
    rfl
  rw [namesOfLine, words, List.dropLast_concat, List.map_map]
  exact List.map_id'' (fun name => String.ofList_toList) _

/-- What is read from the text of a table is the table. -/
theorem ofDisplay_display {table : TruthTable} (named : ∀ name ∈ table.header, IsName name)
    (same : ∀ row ∈ table.rows, row.inputs.length = table.header.length) :
    ofDisplay table.display = table := by
  have lines := splitOn_display named
  rw [List.cons_append] at lines
  have rows : (table.rows.map fun row => (row.line (table.header.map String.length)).toList).map
      Row.ofLine = table.rows := by
    rw [List.map_map]
    refine (List.map_congr_left fun row member => ofLine_line ?_).trans (List.map_id _)
    rw [same row member, List.length_map]
  simp only [ofDisplay, lines, namesOfLine_headerLine named, List.dropLast_concat, rows]

/-- No variables and too many variables are written differently, and a variable may be a bar. -/
example :
    ofDisplay "|\n" = ⟨[], []⟩ ∧ ofDisplay "|\n| 1\n" = ⟨[], [⟨[], true⟩]⟩ ∧
      ofDisplay "| |\n0 | 0\n1 | 1\n" = ⟨["|"], [⟨[false], false⟩, ⟨[true], true⟩]⟩ := by
  decide +kernel

/-! ## Tables of formulas -/

theorem isName_of_mem_header {text : String} {formula : Formula}
    (read : Formula.parse text = .ok formula) {name : String}
    (member : name ∈ (ofFormula formula).header) : IsName name := by
  rcases Nat.lt_or_ge maxSymbols formula.symbols.length with many | few
  · rw [ofFormula_of_lt many] at member
    cases member
  · rw [ofFormula_of_le few, Formula.mem_symbols_iff] at member
    exact Formula.isName_of_mem_names read member.1

theorem length_inputs_eq_header {formula : Formula} {row : Row}
    (member : row ∈ (ofFormula formula).rows) :
    row.inputs.length = (ofFormula formula).header.length := by
  rcases Nat.lt_or_ge maxSymbols formula.symbols.length with many | few
  · rw [ofFormula_of_lt many] at member
    cases member
  · rw [length_inputs few member, ofFormula_of_le few]

theorem ofDisplay_display_ofFormula {text : String} {formula : Formula}
    (read : Formula.parse text = .ok formula) :
    ofDisplay (ofFormula formula).display = ofFormula formula :=
  ofDisplay_display (fun _ member => isName_of_mem_header read member)
    fun _ member => length_inputs_eq_header member

/-- Tables of formulas that are written alike are equal.  A table for too many variables is written like
    no other table, and any two other tables that are written alike have the same variables. -/
theorem display_loses_nothing {text text' : String} {formula formula' : Formula}
    (read : Formula.parse text = .ok formula) (read' : Formula.parse text' = .ok formula')
    (alike : (ofFormula formula).display = (ofFormula formula').display) :
    ofFormula formula = ofFormula formula' ∧
      (4 < formula.symbols.length ↔ 4 < formula'.symbols.length) ∧
      (formula.symbols.length ≤ 4 → formula.symbols = formula'.symbols) := by
  have equal : ofFormula formula = ofFormula formula' := by
    rw [← ofDisplay_display_ofFormula read, alike, ofDisplay_display_ofFormula read']
  have capped : 4 < formula.symbols.length ↔ 4 < formula'.symbols.length := by
    rw [← maxSymbols, ← isEmpty_ofFormula_iff, equal, isEmpty_ofFormula_iff]
  refine ⟨equal, capped, fun few => ?_⟩
  have few' : formula'.symbols.length ≤ 4 := Nat.not_lt.1 (mt capped.2 (Nat.not_lt.2 few))
  calc formula.symbols
    _ = (ofFormula formula).header := by rw [ofFormula_of_le few]
    _ = (ofFormula formula').header := by rw [equal]
    _ = formula'.symbols := by rw [ofFormula_of_le few']

/-- Two formulas whose variables are a bar and a digit with a letter have one table. -/
theorem display_loses_nothing_bar :
    Formula.parse "| ∨ 0x" = .ok (.binary .or (.atom "|") (.atom "0x")) ∧
      Formula.parse "¬| -> 0x" = .ok (.binary .implies (.not (.atom "|")) (.atom "0x")) ∧
      (ofFormula (.binary .or (.atom "|") (.atom "0x"))).display =
        "| 0x |\n0  0 | 0\n1  0 | 1\n0  1 | 1\n1  1 | 1\n" ∧
      ofFormula (.binary .or (.atom "|") (.atom "0x")) =
        ofFormula (.binary .implies (.not (.atom "|")) (.atom "0x")) := by
  have read : Formula.parse "| ∨ 0x" = .ok (.binary .or (.atom "|") (.atom "0x")) := by
    decide +kernel
  have read' : Formula.parse "¬| -> 0x" =
      .ok (.binary .implies (.not (.atom "|")) (.atom "0x")) := by
    decide +kernel
  have written : (ofFormula (.binary .or (.atom "|") (.atom "0x"))).display =
      "| 0x |\n0  0 | 0\n1  0 | 1\n0  1 | 1\n1  1 | 1\n" := by
    decide +kernel
  have written' : (ofFormula (.binary .implies (.not (.atom "|")) (.atom "0x"))).display =
      "| 0x |\n0  0 | 0\n1  0 | 1\n0  1 | 1\n1  1 | 1\n" := by
    decide +kernel
  exact ⟨read, read', written,
    (display_loses_nothing read read' (written.trans written'.symm)).1⟩

end TruthTable

end Sentential
