import Sentential.Formula.Walk
import Sentential.Proofs.PostOrder
import Mathlib.Data.Set.Card
import Mathlib.Logic.Relation
import Mathlib.Order.Interval.Finset.Nat

/-! # The table of a formula is in post-order

A table is `PostOrdered` when its operands point backwards, every node but the root is the operand of
one node, and the two operands of a node end where its own stretch and the stretch of the right
operand say.  The proof looks at a part of the formula `Placed` in the table: a stretch of the table
is the listing of the part.  Every index is where such a part ends (`Placed.exists_part`), and what is
reached from there is exactly the stretch of the part (`Placed.reachable_eq`).

A walk of the table therefore never meets an index without a node, and it ends, since each part is
smaller than the one it is in.
-/

namespace Sentential

namespace Node

def HasOperand (table : List Node) (parent child : Nat) : Prop :=
  ∃ node, table[parent]? = some node ∧ child ∈ node.operands

/-- The indices of the nodes that are reached from an index through operands, itself included. -/
def reachable (table : List Node) (index : Nat) : Set Nat :=
  { other | Relation.ReflTransGen (HasOperand table) index other }

/-- A table in post-order with its root. -/
structure PostOrdered (table : List Node) (root : Nat) : Prop where
  /-- The table has a node, and the root is the last. -/
  root_last : root + 1 = table.length
  /-- Operands stand before the node that uses them. -/
  operand_lt : ∀ index (node : Node), table[index]? = some node →
    ∀ operand ∈ node.operands, operand < index
  /-- Every node but the root is used once. -/
  used_once : ∀ index, index < table.length → index ≠ root →
    (table.flatMap Node.operands).count index = 1
  /-- The operand of a negation stands right before it. -/
  not_operand : ∀ index operand, table[index]? = some (.not operand) → operand + 1 = index
  /-- So does the right operand of a binary node. -/
  right_operand : ∀ index op left right,
    table[index]? = some (.binary op left right) → right + 1 = index
  /-- The left operand stands right before the nodes of the right one. -/
  left_operand : ∀ index op left right, table[index]? = some (.binary op left right) →
    left + (reachable table right).ncard + 1 = index
  /-- Every index that can come up has a node. -/
  node_exists : ∀ index ∈ reachable table root, (table[index]?).isSome

end Node

namespace Formula

/-! ## Parts of a formula in a table -/

/-- The node at the root of a formula whose stretch begins at `start`. -/
def rootNode (start : Nat) : Formula → Node
  | .atom name => .atom name
  | .not operand => .not (start + operand.size - 1)
  | .binary op left right =>
    .binary op (start + left.size - 1) (start + left.size + right.size - 1)

/-- The stretch of a table from `start` on is the listing of a formula. -/
def Placed (table : List Node) (start : Nat) (formula : Formula) : Prop :=
  ∃ before after, before.length = start ∧ table = before ++ formula.postorder start ++ after

theorem placed_nodes (formula : Formula) : Placed formula.nodes 0 formula :=
  ⟨[], [], rfl, by simp [nodes_eq_postorder]⟩

namespace Placed

variable {table : List Node} {start : Nat}

theorem operand {inner : Formula} (placed : Placed table start (.not inner)) :
    Placed table start inner := by
  obtain ⟨before, after, position, rfl⟩ := placed
  exact ⟨before, rootNode start (.not inner) :: after, position, by simp [postorder, rootNode]⟩

theorem left {op : BinaryOp} {first second : Formula}
    (placed : Placed table start (.binary op first second)) : Placed table start first := by
  obtain ⟨before, after, position, rfl⟩ := placed
  exact ⟨before, second.postorder (start + first.size) ++
    rootNode start (.binary op first second) :: after, position, by simp [postorder, rootNode]⟩

theorem right {op : BinaryOp} {first second : Formula}
    (placed : Placed table start (.binary op first second)) :
    Placed table (start + first.size) second := by
  obtain ⟨before, after, position, rfl⟩ := placed
  refine ⟨before ++ first.postorder start, rootNode start (.binary op first second) :: after, ?_, ?_⟩
  · rw [List.length_append, length_postorder, position]
  · simp [postorder, rootNode]

theorem postorder_eq (formula : Formula) (start : Nat) :
    ∃ operands, formula.postorder start = operands ++ [formula.rootNode start] := by
  cases formula with
  | atom name => exact ⟨[], rfl⟩
  | not operand => exact ⟨_, rfl⟩
  | binary op left right => exact ⟨_, rfl⟩

theorem root {formula : Formula} (placed : Placed table start formula) :
    table[start + formula.size - 1]? = some (formula.rootNode start) := by
  obtain ⟨before, after, position, rfl⟩ := placed
  obtain ⟨operands, shape⟩ := postorder_eq formula start
  have length : (operands ++ [formula.rootNode start]).length = formula.size := by
    rw [← shape, length_postorder]
  have last : start + formula.size - 1 = (before ++ operands).length := by
    simp only [List.length_append, List.length_singleton] at length ⊢
    omega
  rw [shape, last]
  simp

/-- Every index of a stretch is where the stretch of a part ends. -/
theorem exists_part {formula : Formula} (placed : Placed table start formula) (index : Nat)
    (from_start : start ≤ index) (before_end : index < start + formula.size) :
    ∃ start' part, Placed table start' part ∧ index = start' + part.size - 1 := by
  induction formula generalizing start with
  | atom name => exact ⟨start, _, placed, by simp only [size] at *; omega⟩
  | not inner ih =>
    by_cases last : index < start + inner.size
    · exact ih placed.operand from_start last
    · exact ⟨start, _, placed, by simp only [size] at *; omega⟩
  | binary op first second leftIh rightIh =>
    -- the index is in the left stretch, in the right one, or that of the node itself
    by_cases inLeft : index < start + first.size
    · exact leftIh placed.left from_start inLeft
    · by_cases inRight : index < start + first.size + second.size
      · exact rightIh placed.right (by omega) inRight
      · exact ⟨start, _, placed, by simp only [size] at *; omega⟩

end Placed

end Formula

namespace Node

open Formula

variable {table : List Node} {start : Nat}

theorem reachable_eq_insert {index : Nat} {node : Node} (found : table[index]? = some node) :
    reachable table index = insert index { other | ∃ operand ∈ node.operands,
      other ∈ reachable table operand } := by
  ext other
  simp only [reachable, Set.mem_ofPred_eq, Set.mem_insert_iff]
  rw [Relation.ReflTransGen.cases_head_iff, eq_comm]
  have step (child : Nat) : HasOperand table index child ↔ child ∈ node.operands := by
    simp [HasOperand, found]
  simp only [step]

/-- What is reached from the root of a part is the stretch of the part. -/
theorem reachable_eq {formula : Formula} (placed : Placed table start formula) :
    reachable table (start + formula.size - 1) = Set.Ico start (start + formula.size) := by
  rw [reachable_eq_insert placed.root]
  ext other
  induction formula generalizing start with
  | atom name =>
    simp only [rootNode, operands, size, Set.mem_insert_iff, Set.mem_ofPred_eq, Set.mem_Ico,
      List.not_mem_nil, false_and, exists_false, or_false]
    omega
  | not inner ih =>
    have operand := ih placed.operand
    rw [← reachable_eq_insert placed.operand.root, Set.mem_Ico] at operand
    simp only [rootNode, operands, size, Set.mem_insert_iff, Set.mem_ofPred_eq, Set.mem_Ico,
      List.mem_singleton, exists_eq_left, operand]
    omega
  | binary op first second leftIh rightIh =>
    have left := leftIh placed.left
    have right := rightIh placed.right
    rw [← reachable_eq_insert placed.left.root, Set.mem_Ico] at left
    rw [← reachable_eq_insert placed.right.root, Set.mem_Ico] at right
    simp only [rootNode, operands, size, Set.mem_insert_iff, Set.mem_ofPred_eq, Set.mem_Ico,
      List.mem_cons, List.not_mem_nil, or_false, exists_eq_or_imp, exists_eq_left, left, right]
    omega

theorem ncard_reachable {formula : Formula} (placed : Placed table start formula) :
    (reachable table (start + formula.size - 1)).ncard = formula.size := by
  rw [reachable_eq placed, ← Finset.coe_Ico, Set.ncard_coe_finset, Nat.card_Ico]
  omega

/-- In the listing of a formula every index of its stretch but the last is an operand once. -/
theorem count_operands (formula : Formula) (start index : Nat) :
    ((formula.postorder start).flatMap operands).count index =
      if start ≤ index ∧ index + 1 < start + formula.size then 1 else 0 := by
  induction formula generalizing start with
  | atom name =>
    simp [postorder, operands, size]
  | not inner ih =>
    have positive := size_pos inner
    simp only [postorder, operands, size, List.flatMap_append, List.flatMap_cons, List.flatMap_nil,
      List.append_nil, List.count_append, List.count_singleton, ih, beq_iff_eq]
    grind
  | binary op first second leftIh rightIh =>
    have leftPositive := size_pos first
    have rightPositive := size_pos second
    -- the last index of either side is used by the node, every other one within its side
    simp only [postorder, operands, size, List.flatMap_append, List.flatMap_cons, List.flatMap_nil,
      List.append_nil, List.count_append, List.count_cons, List.count_nil, leftIh, rightIh,
      beq_iff_eq]
    grind

theorem exists_rootNode {formula : Formula} {index : Nat} {node : Node}
    (found : formula.nodes[index]? = some node) :
    ∃ start part, Placed formula.nodes start part ∧ index = start + part.size - 1 ∧
      node = part.rootNode start := by
  have bound : index < formula.nodes.length := (List.getElem?_eq_some_iff.1 found).1
  rw [length_nodes] at bound
  obtain ⟨start, part, placed, rfl⟩ :=
    formula.placed_nodes.exists_part index (Nat.zero_le _) (by omega)
  have root := placed.root
  rw [found, Option.some.injEq] at root
  exact ⟨start, part, placed, rfl, root⟩

/-- A binary node of the table stands at the end of its right part, and that after its left part. -/
theorem exists_binary_part {formula : Formula} {index left right : Nat} {op : BinaryOp}
    (found : formula.nodes[index]? = some (.binary op left right)) :
    ∃ start first second, Placed formula.nodes start (.binary op first second) ∧
      left = start + first.size - 1 ∧ right = start + first.size + second.size - 1 ∧
      index = start + first.size + second.size := by
  obtain ⟨start, part, placed, rfl, shape⟩ := exists_rootNode found
  cases part with
  | atom name => simp [rootNode] at shape
  | not inner => simp [rootNode] at shape
  | binary op' first second =>
    obtain ⟨rfl, rfl, rfl⟩ : op = op' ∧ left = _ ∧ right = _ := by simpa [rootNode] using shape
    exact ⟨start, first, second, placed, rfl, rfl, by simp only [size]; omega⟩

theorem postOrdered_nodes (formula : Formula) : PostOrdered formula.nodes formula.root where
  root_last := by
    have positive := size_pos formula
    rw [root_eq_size_sub_one, length_nodes]
    omega
  operand_lt index node found operand member := by
    obtain ⟨start, part, placed, rfl, rfl⟩ := exists_rootNode found
    cases part with
    | atom name => simp [rootNode, operands] at member
    | not inner =>
      have positive := size_pos inner
      simp only [rootNode, operands, List.mem_singleton] at member
      simp only [size]
      omega
    | binary op first second =>
      have leftPositive := size_pos first
      have rightPositive := size_pos second
      simp only [rootNode, operands, List.mem_cons, List.not_mem_nil, or_false] at member
      simp only [size]
      omega
  used_once index bound other := by
    rw [length_nodes] at bound
    rw [root_eq_size_sub_one] at other
    rw [nodes_eq_postorder, count_operands, if_pos (by omega)]
  not_operand index operand found := by
    obtain ⟨start, part, placed, rfl, shape⟩ := exists_rootNode found
    cases part with
    | atom name => simp [rootNode] at shape
    | binary op first second => simp [rootNode] at shape
    | not inner =>
      obtain rfl : operand = _ := by simpa [rootNode] using shape
      have positive := size_pos inner
      simp only [size]
      omega
  right_operand index op left right found := by
    obtain ⟨start, first, second, -, -, rfl, rfl⟩ := exists_binary_part found
    have positive := size_pos second
    omega
  left_operand index op left right found := by
    obtain ⟨start, first, second, placed, rfl, rfl, rfl⟩ := exists_binary_part found
    have positive := size_pos first
    rw [ncard_reachable placed.right]
    omega
  node_exists index member := by
    have stretch := reachable_eq formula.placed_nodes
    rw [Nat.zero_add, ← root_eq_size_sub_one] at stretch
    rw [stretch, Set.mem_Ico] at member
    simpa [length_nodes] using member

/-! ## Walks -/

/-- A walk of a part with as much fuel as the part has nodes gives its truth value. -/
theorem evalAt_placed (valuation : Valuation) {formula : Formula} (placed : Placed table start formula)
    (fuel : Nat) (enough : formula.size ≤ fuel) :
    evalAt valuation table fuel (start + formula.size - 1) = some (formula.eval valuation) := by
  induction formula generalizing start fuel with
  | atom name =>
    obtain ⟨fuel, rfl⟩ := Nat.exists_eq_add_of_le' (Nat.le_trans (size_pos _) enough)
    simp only [evalAt, placed.root, rootNode, eval]
  | not inner ih =>
    obtain ⟨fuel, rfl⟩ := Nat.exists_eq_add_of_le' (Nat.le_trans (size_pos _) enough)
    simp only [size] at enough
    simp [evalAt, placed.root, rootNode, eval, ih placed.operand fuel (by omega)]
  | binary op first second leftIh rightIh =>
    obtain ⟨fuel, rfl⟩ := Nat.exists_eq_add_of_le' (Nat.le_trans (size_pos _) enough)
    simp only [size] at enough
    have left := leftIh placed.left fuel (by omega)
    have right := rightIh placed.right fuel (by omega)
    rw [evalAt, placed.root]
    cases op <;> cases leftValue : first.eval valuation <;>
      cases rightValue : second.eval valuation <;>
        simp [rootNode, eval, BinaryOp.apply, left, right, leftValue, rightValue]

theorem symbolsAt_placed {formula : Formula} (placed : Placed table start formula) (fuel : Nat)
    (enough : formula.size ≤ fuel) (found : List String) :
    symbolsAt table fuel (start + formula.size - 1) found =
      some (formula.names.foldl collect found) := by
  induction formula generalizing start fuel found with
  | atom name =>
    obtain ⟨fuel, rfl⟩ := Nat.exists_eq_add_of_le' (Nat.le_trans (size_pos _) enough)
    simp [symbolsAt, placed.root, rootNode, names]
  | not inner ih =>
    obtain ⟨fuel, rfl⟩ := Nat.exists_eq_add_of_le' (Nat.le_trans (size_pos _) enough)
    simp only [size] at enough
    simp [symbolsAt, placed.root, rootNode, names, operands, ih placed.operand fuel (by omega)]
  | binary op first second leftIh rightIh =>
    obtain ⟨fuel, rfl⟩ := Nat.exists_eq_add_of_le' (Nat.le_trans (size_pos _) enough)
    simp only [size] at enough
    have left := leftIh placed.left fuel (by omega)
    have right := rightIh placed.right fuel (by omega)
    simp [symbolsAt, placed.root, rootNode, names, operands, left, right]

/-- Collecting names keeps the first occurrence of each variable that is not there yet. -/
theorem foldl_collect (names found : List String) :
    names.foldl collect found =
      found ++ (names.filter fun name => !(isLiteral name || found.contains name)).eraseDups := by
  induction names generalizing found with
  | nil => simp
  | cons name rest ih =>
    rw [List.foldl_cons, ih, collect]
    cases skipped : isLiteral name || found.contains name with
    | true => rw [if_pos rfl, List.filter_cons_of_neg (by rw [skipped]; decide)]
    | false =>
      have later : rest.filter (fun other => !(isLiteral other || (found ++ [name]).contains other)) =
          (rest.filter fun other => !(isLiteral other || found.contains other)).filter
            fun other => !other == name := by
        rw [List.filter_filter]
        apply List.filter_congr
        intro other _
        rw [Bool.eq_iff_iff]
        simp [and_comm, and_assoc]
      rw [if_neg (by simp), later, List.filter_cons_of_pos (by rw [skipped]; rfl), List.eraseDups_cons,
        List.append_assoc, List.singleton_append]

theorem foldl_collect_names (formula : Formula) :
    formula.names.foldl collect [] = formula.symbols := by
  rw [foldl_collect, symbols, List.nil_append]
  simp only [List.contains_nil, Bool.or_false]

theorem append_push (written text : String) (c : Char) :
    written ++ text.push c = (written ++ text).push c := by
  rw [String.push_eq_append, String.push_eq_append, String.append_assoc]

theorem linearFormAt_placed {formula : Formula} (placed : Placed table start formula) (fuel : Nat)
    (enough : formula.size ≤ fuel) (written : String) :
    linearFormAt table fuel (start + formula.size - 1) written =
      some (written ++ formula.linearForm) := by
  induction formula generalizing start fuel written with
  | atom name =>
    obtain ⟨fuel, rfl⟩ := Nat.exists_eq_add_of_le' (Nat.le_trans (size_pos _) enough)
    simp [linearFormAt, placed.root, rootNode, connective?, linearForm]
  | not inner ih =>
    obtain ⟨fuel, rfl⟩ := Nat.exists_eq_add_of_le' (Nat.le_trans (size_pos _) enough)
    simp only [size] at enough
    simp [linearFormAt, placed.root, rootNode, connective?, linearForm, operands,
      ih placed.operand fuel (by omega), append_push]
  | binary op first second leftIh rightIh =>
    obtain ⟨fuel, rfl⟩ := Nat.exists_eq_add_of_le' (Nat.le_trans (size_pos _) enough)
    simp only [size] at enough
    have left := leftIh placed.left fuel (by omega)
    have right := rightIh placed.right fuel (by omega)
    simp [linearFormAt, placed.root, rootNode, connective?, linearForm, operands, left, right,
      Connective.symbol, append_push, String.append_assoc]

/-! ## Walks from the root -/

theorem root_lt_iff (formula : Formula) (fuel : Nat) : formula.root < fuel ↔ formula.size ≤ fuel := by
  have positive := size_pos formula
  rw [root_eq_size_sub_one]
  omega

theorem evalAt_nodes (valuation : Valuation) (formula : Formula) {fuel : Nat}
    (above : formula.root < fuel) :
    evalAt valuation formula.nodes fuel formula.root = some (formula.eval valuation) := by
  have walk := evalAt_placed valuation formula.placed_nodes fuel ((root_lt_iff formula fuel).1 above)
  rwa [Nat.zero_add, ← root_eq_size_sub_one] at walk

theorem symbolsAt_nodes (formula : Formula) {fuel : Nat} (above : formula.root < fuel) :
    symbolsAt formula.nodes fuel formula.root [] = some formula.symbols := by
  have walk := symbolsAt_placed formula.placed_nodes fuel ((root_lt_iff formula fuel).1 above) []
  rwa [Nat.zero_add, ← root_eq_size_sub_one, foldl_collect_names] at walk

theorem linearFormAt_nodes (formula : Formula) {fuel : Nat} (above : formula.root < fuel) :
    linearFormAt formula.nodes fuel formula.root "" = some formula.linearForm := by
  have walk := linearFormAt_placed formula.placed_nodes fuel ((root_lt_iff formula fuel).1 above) ""
  rwa [Nat.zero_add, ← root_eq_size_sub_one, String.empty_append] at walk

end Node

open Node Phrase in
/-- What is stored for a text that can be read is a table in post-order, and every walk from its root
    with more fuel than the index of the root ends with the result that the formula has. -/
theorem Formula.stored_table_postOrdered (text : String) (formula : Formula)
    (read : parse text = .ok formula) :
    storePhrase (.group (splitAll (bindNegations (nest (Token.scan text))))) [] =
        .ok (formula.nodes, formula.root) ∧
      PostOrdered formula.nodes formula.root ∧
      ∀ fuel, formula.root < fuel →
        (∀ valuation, evalAt valuation formula.nodes fuel formula.root =
          some (formula.eval valuation)) ∧
        symbolsAt formula.nodes fuel formula.root [] = some formula.symbols ∧
        linearFormAt formula.nodes fuel formula.root "" = some formula.linearForm := by
  refine ⟨?_, postOrdered_nodes formula, fun fuel above => ⟨?_, ?_, ?_⟩⟩
  · have members : ofMembers (splitAll (bindNegations (nest (Token.scan text)))) = .ok formula := read
    rw [storePhrase, ofPhrase, members]
    rfl
  · exact fun valuation => evalAt_nodes valuation formula above
  · exact symbolsAt_nodes formula above
  · exact linearFormAt_nodes formula above

theorem stored_table_postOrdered_not_or :
    Formula.parse "¬a ∨ b" = .ok (.binary .or (.not (.atom "a")) (.atom "b")) ∧
      Node.PostOrdered (Formula.nodes (.binary .or (.not (.atom "a")) (.atom "b"))) 3 := by
  have read : Formula.parse "¬a ∨ b" = .ok (.binary .or (.not (.atom "a")) (.atom "b")) := by
    decide +kernel
  exact ⟨read, (Formula.stored_table_postOrdered _ _ read).2.1⟩

end Sentential
