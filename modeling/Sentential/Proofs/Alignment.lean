import Sentential.Proofs.RoundTrip
import Sentential.Proofs.Tabulation
import Mathlib.Data.List.Flatten
import Mathlib.Data.List.Forall2

/-! # The table is aligned

A line of a table is made of cells and what follows the last of them.  In the line of names a cell is a
name and the space behind it; in the line of a row it is a digit, filled up with spaces in front to the
width of the name, and the space behind it.  A name has at least one character, so a digit is never wider
than the name above it: the cells of all lines are equally wide (`map_length_cells`), and what stands
somewhere in a cell stands in the line by as much further on as all the cells before are wide
(`getElem?_join_append`).

Neither a name nor a cell has a line break, so the lines of the text are those of the table.
-/

namespace Sentential

/-! ## Cells side by side -/

/-- What stands somewhere in a cell stands in the line behind all the cells before. -/
theorem getElem?_join_append {cells : List String} {index : Nat} {cell : String}
    (here : cells[index]? = some cell) {place : Nat} (inside : place < cell.length) (rest : List Char) :
    ((String.join cells).toList ++ rest)[((cells.map String.length).take index).sum + place]? =
      cell.toList[place]? := by
  obtain ⟨bound, rfl⟩ := List.getElem?_eq_some_iff.1 here
  have bound' : index < (cells.map String.toList).length := by rwa [List.length_map]
  have inside' : place < cells[index].toList.length := by rwa [String.length_toList]
  have lengths : cells.map String.length = (cells.map String.toList).map List.length := by
    rw [List.map_map]
    exact List.map_congr_left fun cell _ => String.length_toList.symm
  have behind : (String.join cells).toList.drop ((cells.map String.length).take index).sum =
      cells[index].toList ++ ((cells.map String.toList).drop (index + 1)).flatten := by
    rw [String.toList_join, List.flatMap_def, lengths, List.drop_sum_flatten,
      List.drop_eq_getElem_cons bound', List.flatten_cons, List.getElem_map]
  have found : (String.join cells).toList[((cells.map String.length).take index).sum + place]? =
      some cells[index].toList[place] := by
    rw [← List.getElem?_drop, behind, List.getElem?_append_left inside', List.getElem?_eq_getElem inside']
  obtain ⟨inCells, -⟩ := List.getElem?_eq_some_iff.1 found
  rw [List.getElem?_append_left inCells, found, List.getElem?_eq_getElem inside']

/-- Parts without a mark, each with a mark behind it, are told apart again. -/
theorem splitOn_join_ended {ending : String} {mark : Char} (marks : ending.toList = [mark])
    (parts : List String) (unmarked : ∀ part ∈ parts, mark ∉ part.toList) (rest : List Char) :
    ((String.join (parts.map fun part => part ++ ending)).toList ++ rest).splitOn mark =
      parts.map String.toList ++ rest.splitOn mark := by
  induction parts with
  | nil => rfl
  | cons part later ih =>
    rw [List.forall_mem_cons] at unmarked
    have text : (String.join ((part :: later).map fun part => part ++ ending)).toList ++ rest =
        part.toList ++ mark :: ((String.join (later.map fun part => part ++ ending)).toList ++ rest) := by
      simp [marks]
    rw [text, List.splitOn_append_cons_self_of_not_mem unmarked.1, ih unmarked.2]
    rfl

namespace TruthTable

/-- The column where the name at an index begins: each name before takes its characters and the space
    behind it. -/
def column (header : List String) (index : Nat) : Nat :=
  ((header.map fun name => name.length + 1).take index).sum

def barColumn (header : List String) : Nat :=
  (header.map fun name => name.length + 1).sum

/-! ## The cells of a row -/

theorem toList_cell (width : Nat) (value : Bool) :
    (cell width value).toList = List.replicate (width - 1) ' ' ++ [digit value, ' '] := by
  simp [cell, List.leftpad]

theorem length_cell {width : Nat} (positive : 0 < width) (value : Bool) :
    (cell width value).length = width + 1 := by
  rw [← String.length_toList, toList_cell, List.length_append, List.length_replicate]
  simp only [List.length_cons, List.length_nil]
  omega

theorem digit_in_cell {width place : Nat} (last : place + 1 = width) (value : Bool) :
    (cell width value).toList[place]? = some (digit value) := by
  rw [toList_cell, List.getElem?_append_right (by rw [List.length_replicate]; omega),
    List.length_replicate, ← last, Nat.add_sub_cancel, Nat.sub_self]
  rfl

variable {header : List String} {inputs : List Bool}

theorem map_length_cells (same : inputs.length = header.length) (nonempty : ∀ name ∈ header, name ≠ "") :
    (List.zipWith cell (header.map String.length) inputs).map String.length =
      header.map fun name => name.length + 1 := by
  induction header generalizing inputs with
  | nil => rfl
  | cons name header ih =>
    rw [List.forall_mem_cons] at nonempty
    cases inputs with
    | nil => simp at same
    | cons value inputs =>
      have positive : 0 < name.length := Nat.pos_of_ne_zero (by simpa using nonempty.1)
      rw [List.map_cons, List.zipWith_cons_cons, List.map_cons, List.map_cons, length_cell positive,
        ih (by simpa using same) nonempty.2]

/-- In cells there are digits, and spaces around them. -/
theorem mem_cells {widths : List Nat} {c : Char}
    (member : c ∈ (String.join (List.zipWith cell widths inputs)).toList) :
    c = ' ' ∨ ∃ value, c = digit value := by
  induction widths generalizing inputs with
  | nil => simp at member
  | cons width widths ih =>
    cases inputs with
    | nil => simp at member
    | cons value inputs =>
      rw [List.zipWith_cons_cons, String.join_cons, String.toList_append, List.mem_append, toList_cell,
        List.mem_append] at member
      rcases member with (filled | behind) | later
      · exact .inl (List.eq_of_mem_replicate filled)
      · cases behind with
        | head => exact .inr ⟨value, rfl⟩
        | tail _ space => exact .inl (List.mem_singleton.1 space)
      · exact ih later

theorem not_mem_cells {widths : List Nat} {c : Char} (noSpace : c ≠ ' ')
    (noDigit : ∀ value, c ≠ digit value) :
    c ∉ (String.join (List.zipWith cell widths inputs)).toList := by
  intro member
  cases mem_cells member with
  | inl isSpace => exact noSpace isSpace
  | inr isDigit => exact isDigit.elim noDigit

/-! ## Lines -/

theorem map_length_names (header : List String) :
    (header.map fun name => name ++ " ").map String.length = header.map fun name => name.length + 1 := by
  rw [List.map_map]
  exact List.map_congr_left fun name _ => String.length_append name " "

theorem length_names (header : List String) :
    (String.join (header.map fun name => name ++ " ")).toList.length = barColumn header := by
  rw [String.length_toList, String.length_join, map_length_names, barColumn]

theorem length_cells (same : inputs.length = header.length) (nonempty : ∀ name ∈ header, name ≠ "") :
    (String.join (List.zipWith cell (header.map String.length) inputs)).toList.length =
      barColumn header := by
  rw [String.length_toList, String.length_join, map_length_cells same nonempty, barColumn]

theorem toList_headerLine (table : TruthTable) :
    table.headerLine.toList =
      (String.join (table.header.map fun name => name ++ " ")).toList ++ ['|'] := by
  simp [headerLine]

theorem toList_line (widths : List Nat) (row : Row) :
    (row.line widths).toList =
      (String.join (List.zipWith cell widths row.inputs)).toList ++ ['|', ' ', digit row.output] := by
  simp [Row.line]

/-- The characters of a name stand behind the names before it. -/
theorem getElem?_headerLine (table : TruthTable) {index : Nat} {name : String}
    (here : table.header[index]? = some name) {place : Nat} (inside : place < name.length) :
    table.headerLine.toList[column table.header index + place]? = name.toList[place]? := by
  have nameCell : (table.header.map fun name => name ++ " ")[index]? = some (name ++ " ") := by
    rw [List.getElem?_map, here, Option.map_some]
  have inCell : place < (name ++ " ").length := by
    rw [String.length_append]
    omega
  rw [toList_headerLine, column, ← map_length_names, getElem?_join_append nameCell inCell,
    String.toList_append, List.getElem?_append_left (by rwa [String.length_toList])]

/-- The digit of a value stands where the name above it ends. -/
theorem getElem?_line {row : Row} (same : row.inputs.length = header.length)
    (nonempty : ∀ name ∈ header, name ≠ "") {index : Nat} {name : String} {value : Bool}
    (here : header[index]? = some name) (input : row.inputs[index]? = some value) {place : Nat}
    (last : place + 1 = name.length) :
    (row.line (header.map String.length)).toList[column header index + place]? = some (digit value) := by
  have rowCell : (List.zipWith cell (header.map String.length) row.inputs)[index]? =
      some (cell name.length value) := by
    rw [List.getElem?_zipWith, List.getElem?_map, here, input, Option.map_some]
  have inCell : place < (cell name.length value).length := by
    rw [length_cell (by omega)]
    omega
  rw [toList_line, column, ← map_length_cells same nonempty, getElem?_join_append rowCell inCell,
    digit_in_cell last]

theorem newline_not_mem_headerLine {table : TruthTable} (named : ∀ name ∈ table.header, IsName name) :
    '\n' ∉ table.headerLine.toList := by
  have noBreak (name : String) (member : name ∈ table.header) : '\n' ∉ name.toList :=
    (named name member).blank_not_mem (by decide)
  rw [toList_headerLine]
  simpa using noBreak

theorem newline_not_mem_line (widths : List Nat) (row : Row) : '\n' ∉ (row.line widths).toList := by
  have cells : '\n' ∉ (String.join (List.zipWith cell widths row.inputs)).toList :=
    not_mem_cells (by decide) (by decide)
  have output : '\n' ≠ digit row.output := by
    cases row.output <;> decide
  rw [toList_line, List.mem_append, not_or]
  exact ⟨cells, by simp [output]⟩

/-- The lines of the text are the line of names and those of the rows. -/
theorem splitOn_display {table : TruthTable} (named : ∀ name ∈ table.header, IsName name) :
    table.display.toList.splitOn '\n' =
      table.headerLine.toList ::
        (table.rows.map fun row => (row.line (table.header.map String.length)).toList) ++ [[]] := by
  have unbroken : ∀ line ∈ table.lines, '\n' ∉ line.toList := by
    intro line member
    cases member with
    | head => exact newline_not_mem_headerLine named
    | tail _ inRows =>
      obtain ⟨row, -, rfl⟩ := List.mem_map.1 inRows
      exact newline_not_mem_line _ row
  have newline : "\n".toList = ['\n'] := rfl
  have told := splitOn_join_ended newline table.lines unbroken []
  rw [List.append_nil, List.splitOn_nil] at told
  rw [display, told, lines, List.map_cons, List.map_map]
  rfl

/-! ## Rows under names -/

structure StandsUnder (header : List String) (names : List Char) (row : Row) (below : List Char) :
    Prop where
  length : below.length = barColumn header + 3
  /-- Before the column of the bar there is no other. -/
  bar : below.idxOf '|' = barColumn header
  output : below.getLast? = some (digit row.output)
  /-- The last character of every name has the value of that name below. -/
  input : ∀ index name, header[index]? = some name → ∃ place value,
    place + 1 = column header index + name.length ∧ row.inputs[index]? = some value ∧
      names[place]? = name.toList.getLast? ∧ below[place]? = some (digit value)

theorem line_standsUnder (table : TruthTable) {row : Row} (same : row.inputs.length = table.header.length)
    (nonempty : ∀ name ∈ table.header, name ≠ "") :
    StandsUnder table.header table.headerLine.toList row
      (row.line (table.header.map String.length)).toList where
  length := by
    rw [toList_line, List.length_append, length_cells same nonempty]
    rfl
  bar := by
    rw [toList_line, List.idxOf_append_of_notMem (not_mem_cells (by decide) (by decide)),
      length_cells same nonempty]
    rfl
  output := by
    rw [toList_line, List.getLast?_append]
    rfl
  input := by
    intro index name here
    obtain ⟨bound, named⟩ := List.getElem?_eq_some_iff.1 here
    have positive : 0 < name.length := by
      rw [Nat.pos_iff_ne_zero, Ne, String.length_eq_zero_iff]
      exact nonempty name (named ▸ List.getElem_mem bound)
    obtain ⟨place, last⟩ : ∃ place, place + 1 = name.length := ⟨name.length - 1, by omega⟩
    have input : row.inputs[index]? = some row.inputs[index] :=
      List.getElem?_eq_getElem (by rwa [same])
    have ends : name.toList[place]? = name.toList.getLast? := by
      rw [List.getLast?_eq_getElem?, String.length_toList, ← last, Nat.add_sub_cancel]
    refine ⟨column table.header index + place, _, by omega, input, ?_,
      getElem?_line same nonempty here input last⟩
    rw [getElem?_headerLine table here (by omega), ends]

/-- The first line of a table's text ends in a bar behind the names.  In every other line, one for each row
    in their order, the bar stands in the same column, the value of each variable stands under the last
    character of its name, and the value of the formula is the last character. -/
theorem display_aligned {text : String} {formula : Formula} (read : Formula.parse text = .ok formula)
    (few : formula.symbols.length ≤ 4) :
    ∃ names lines, (ofFormula formula).display.toList.splitOn '\n' = names :: lines ++ [[]] ∧
      names[barColumn formula.symbols]? = some '|' ∧ names.length = barColumn formula.symbols + 1 ∧
      List.Forall₂ (StandsUnder formula.symbols names) (ofFormula formula).rows lines := by
  have header : (ofFormula formula).header = formula.symbols := by rw [ofFormula_of_le few]
  have named : ∀ name ∈ (ofFormula formula).header, IsName name := by
    intro name member
    rw [header, Formula.mem_symbols_iff] at member
    exact Formula.isName_of_mem_names read member.1
  have names : (String.join (formula.symbols.map fun name => name ++ " ")).toList.length =
      barColumn formula.symbols := length_names formula.symbols
  refine ⟨_, _, splitOn_display named, ?_, ?_, ?_⟩
  · rw [toList_headerLine, header, List.getElem?_append_right (Nat.le_of_eq names), names, Nat.sub_self]
    rfl
  · rw [toList_headerLine, header, List.length_append, names]
    rfl
  · rw [List.forall₂_map_right_iff, List.forall₂_same]
    intro row member
    have same : row.inputs.length = (ofFormula formula).header.length := by
      rw [header, length_inputs few member]
    have under := line_standsUnder (ofFormula formula) same fun name member => (named name member).nonempty
    rwa [header] at under ⊢

/-- A bar and a character of three bytes in a name take one column each. -/
theorem display_aligned_or :
    Formula.parse "∀x| ∨ y" = .ok (.binary .or (.atom "∀x|") (.atom "y")) ∧
      (ofFormula (.binary .or (.atom "∀x|") (.atom "y"))).display =
        "∀x| y |\n  0 0 | 0\n  1 0 | 1\n  0 1 | 1\n  1 1 | 1\n" ∧
      ∃ names lines, (ofFormula (.binary .or (.atom "∀x|") (.atom "y"))).display.toList.splitOn '\n' =
          names :: lines ++ [[]] ∧
        names[6]? = some '|' ∧ names.length = 7 ∧
        List.Forall₂ (StandsUnder ["∀x|", "y"] names)
          (ofFormula (.binary .or (.atom "∀x|") (.atom "y"))).rows lines := by
  have read : Formula.parse "∀x| ∨ y" = .ok (.binary .or (.atom "∀x|") (.atom "y")) := by
    decide +kernel
  have symbols : (Formula.binary .or (.atom "∀x|") (.atom "y")).symbols = ["∀x|", "y"] := by
    decide +kernel
  have aligned := display_aligned read (by rw [symbols]; decide)
  rw [symbols] at aligned
  exact ⟨read, by decide +kernel, aligned⟩

end TruthTable

end Sentential
