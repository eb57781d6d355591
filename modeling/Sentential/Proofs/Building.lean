import Sentential.Formula.Build
import Sentential.Proofs.PostOrder

/-! # Building only appends

The table goes through every part of a phrase, and each node that is added refers to nodes by index.  What
is built does not depend on the nodes that are there before, apart from where it starts.  The pass gives
what is given by making the formula and then storing it (`buildPhrase_eq_storePhrase`), and the listing of a
formula from a later start is its listing with every operand raised (`postorder_add`).  So nodes that were
in the table stay where they are, and the same nodes are added to any other table.
-/

namespace Sentential

namespace Node

/-- A node whose operands stand a number of places later. -/
def raise (count : Nat) : Node → Node
  | .atom name => .atom name
  | .not operand => .not (operand + count)
  | .binary op left right => .binary op (left + count) (right + count)

theorem raise_zero (node : Node) : node.raise 0 = node := by
  cases node <;> rfl

end Node

namespace Formula

open Node

theorem postorder_add (formula : Formula) (start count : Nat) :
    formula.postorder (start + count) = (formula.postorder start).map (raise count) := by
  induction formula generalizing start with
  | atom name => rfl
  | not operand ih =>
    have positive := operand.size_pos
    have index : start + count + operand.size - 1 = start + operand.size - 1 + count := by omega
    simp only [postorder, ih, index, List.map_append, List.map_cons, List.map_nil, raise]
  | binary op left right leftIh rightIh =>
    have leftPositive := left.size_pos
    have rightPositive := right.size_pos
    have middle : start + count + left.size = start + left.size + count := by omega
    have leftIndex : start + left.size + count - 1 = start + left.size - 1 + count := by omega
    have rightIndex : start + left.size + count + right.size - 1 =
        start + left.size + right.size - 1 + count := by omega
    simp only [postorder, leftIh, middle, rightIh, leftIndex, rightIndex, List.map_append, List.map_cons,
      List.map_nil, raise]

end Formula

namespace Node

open Formula

/-! ## The pass stores the formula -/

mutual

theorem buildPhrase_eq_storePhrase (table : List Node) : ∀ phrase : Phrase,
    buildPhrase phrase table = storePhrase phrase table
  | .word name => by
    simp only [buildPhrase, storePhrase, ofPhrase]
    rfl
  | .operator connective offset => by
    simp only [buildPhrase, storePhrase, ofPhrase]
    rfl
  | .group members => by
    rw [buildPhrase, buildMembers_eq_storePhrase table members]

theorem buildMembers_eq_storePhrase (table : List Node) : ∀ members : List Phrase,
    buildMembers members table = storePhrase (.group members) table
  | [] => by
    simp only [buildMembers, storePhrase, ofPhrase, ofMembers]
    rfl
  | [phrase] => by
    rw [buildMembers, buildPhrase_eq_storePhrase table phrase]
    simp only [storePhrase, ofPhrase, ofMembers]
  | [first, second] => by
    have operand := buildPhrase_eq_storePhrase table second
    simp only [storePhrase, ofPhrase] at operand ⊢
    cases first with
    | word name => simp only [buildMembers, ofMembers, Except.map]
    | group members => simp only [buildMembers, ofMembers, Except.map]
    | operator connective offset =>
      cases connective with
      | binary op => simp only [buildMembers, ofMembers, Except.map]
      | not =>
        simp only [buildMembers, ofMembers, operand]
        split
        · rfl
        · cases ofPhrase second <;> rfl
  | [first, second, third] => by
    have left := buildPhrase_eq_storePhrase table first
    -- the right operand is built in the table that has the left one
    have right (table : List Node) := buildPhrase_eq_storePhrase table third
    simp only [storePhrase, ofPhrase] at left right ⊢
    cases second with
    | word name => simp only [buildMembers, ofMembers, Except.map]
    | group members => simp only [buildMembers, ofMembers, Except.map]
    | operator connective offset =>
      cases connective with
      | not => simp only [buildMembers, ofMembers, Except.map]
      | binary op =>
        simp only [buildMembers, ofMembers, left, right]
        split
        · rfl
        · cases ofPhrase first <;> cases ofPhrase third <;> rfl
  | _ :: _ :: _ :: _ :: _ => by
    simp only [buildMembers, storePhrase, ofPhrase, ofMembers]
    rfl

end

/-! ## What the pass adds -/

theorem buildPhrase_of_error {phrase : Phrase} {error : ParseError}
    (refused : ofPhrase phrase = .error error) (table : List Node) :
    buildPhrase phrase table = .error error := by
  rw [buildPhrase_eq_storePhrase, storePhrase, refused]
  rfl

theorem buildPhrase_of_ok {phrase : Phrase} {formula : Formula} (read : ofPhrase phrase = .ok formula)
    (table : List Node) :
    buildPhrase phrase table =
      .ok (table ++ formula.nodes.map (raise table.length), table.length + formula.size - 1) := by
  have listing := formula.postorder_add 0 table.length
  rw [Nat.zero_add, ← nodes_eq_postorder] at listing
  rw [buildPhrase_eq_storePhrase, storePhrase, read, Except.map, store_eq_postorder, listing]

/-- The phrases of a text are built as the table of the formula that the text spells. -/
theorem buildPhrase_text (text : String) :
    buildPhrase (.group (Phrase.splitAll (Phrase.bindNegations (Phrase.nest (Token.scan text))))) [] =
      (parse text).map fun formula => (formula.nodes, formula.root) := by
  rw [buildPhrase_eq_storePhrase, storePhrase, ofPhrase]
  rfl

/-- Building a phrase gives what storing its formula gives.  If it succeeds, it adds at least one node
    behind those of the table, the last of them is the root, and they are the nodes that are built in an
    empty table, with every operand raised by the length of the table.  If it fails, it fails in any table
    with the same error. -/
theorem buildPhrase_only_appends (phrase : Phrase) (table : List Node) :
    buildPhrase phrase table = storePhrase phrase table ∧
    (∀ built root, buildPhrase phrase table = .ok (built, root) →
      ∃ added, added ≠ [] ∧ built = table ++ added ∧ root + 1 = built.length ∧
        ∃ alone, buildPhrase phrase [] = .ok (alone, alone.length - 1) ∧
          added = alone.map (raise table.length)) ∧
    ∀ error, buildPhrase phrase table = .error error →
      ∀ other, buildPhrase phrase other = .error error := by
  refine ⟨buildPhrase_eq_storePhrase table phrase, ?_, ?_⟩
  · intro built root success
    cases read : ofPhrase phrase with
    | error error => simp [buildPhrase_of_error read] at success
    | ok formula =>
      have positive := formula.size_pos
      have length := formula.length_nodes
      obtain ⟨rfl, rfl⟩ : table ++ formula.nodes.map (raise table.length) = built ∧
          table.length + formula.size - 1 = root := by
        simpa [buildPhrase_of_ok read] using success
      refine ⟨_, ?_, rfl, ?_, formula.nodes, ?_, rfl⟩
      · rw [← List.length_pos_iff, List.length_map]
        omega
      · rw [List.length_append, List.length_map]
        omega
      · rw [buildPhrase_of_ok read, List.length_nil, List.map_id'' raise_zero, List.nil_append,
          Nat.zero_add, length]
  · intro error failure other
    cases read : ofPhrase phrase with
    | error reason =>
      rw [buildPhrase_of_error read] at failure ⊢
      exact failure
    | ok formula => simp [buildPhrase_of_ok read] at failure

/-- Behind two nodes the four of a conjunction are added with their operands raised by two.  A negation
    whose operand is a negation by itself is refused. -/
theorem buildPhrase_only_appends_and :
    buildPhrase (.group [.word "a", .operator (.binary .and) 2, .group [.operator .not 6, .word "b"]])
        [.atom "p", .not 0] =
      .ok ([.atom "p", .not 0, .atom "a", .atom "b", .not 3, .binary .and 2 4], 5) ∧
    (∃ added alone,
      [.atom "p", .not 0, .atom "a", .atom "b", .not 3, .binary .and 2 4] =
        [.atom "p", .not 0] ++ added ∧
      buildPhrase (.group [.word "a", .operator (.binary .and) 2, .group [.operator .not 6, .word "b"]])
        [] = .ok (alone, alone.length - 1) ∧
      added = alone.map (raise 2)) ∧
    buildPhrase (.group [.operator .not 0, .operator .not 2]) [.atom "p", .not 0] =
      .error (.malformedUnary (some 0)) ∧
    ∀ other, buildPhrase (.group [.operator .not 0, .operator .not 2]) other =
      .error (.malformedUnary (some 0)) := by
  have built : buildPhrase
      (.group [.word "a", .operator (.binary .and) 2, .group [.operator .not 6, .word "b"]])
      [.atom "p", .not 0] =
      .ok ([.atom "p", .not 0, .atom "a", .atom "b", .not 3, .binary .and 2 4], 5) := rfl
  have refused : buildPhrase (.group [.operator .not 0, .operator .not 2]) [.atom "p", .not 0] =
      .error (.malformedUnary (some 0)) := rfl
  obtain ⟨added, -, whole, -, alone, apart, raised⟩ :=
    (buildPhrase_only_appends _ _).2.1 _ _ built
  exact ⟨built, ⟨added, alone, whole, apart, raised⟩, refused,
    (buildPhrase_only_appends _ _).2.2 _ refused⟩

end Node

end Sentential
