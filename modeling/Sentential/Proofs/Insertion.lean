import Sentential.Proofs.Leaves

/-! # Insertion keeps to the right spine

The right spine of a context goes from its last member, if that is a group, to the last member of the group,
and so on.  A phrase that is inserted at a depth goes down this spine.  Where the spine is long enough, the
phrase is put behind the members of a group that is there already; where it ends too early, the groups that
are missing are opened around the phrase alone.  `insertAt_eq_spine` says this as an equation: the context is
a `spine` with some phrases at its lower end, and after the insertion it is the same spine, with the new
groups behind the same phrases.

So the leaves from before keep their order and the groups around them, the new leaf comes behind them at its
depth, and a new group has something in it.
-/

namespace Sentential

def Leaf.phrase : Leaf → Phrase
  | .word name => .word name
  | .operator connective offset => .operator connective offset

namespace Phrase

/-- Phrases with a right spine: before each group of the spine stand the phrases of one of the fronts, and
    in the last group the phrases `inner`. -/
def spine : List (List Phrase) → List Phrase → List Phrase
  | [], inner => inner
  | front :: fronts, inner => front ++ [.group (spine fronts inner)]

mutual

/-- The leaves of a phrase from left to right, each with the number of groups around it; `depth` of these
    stand around the phrase. -/
def nestedLeaves (depth : Nat) : Phrase → List (Leaf × Nat)
  | .word name => [(.word name, depth)]
  | .operator connective offset => [(.operator connective offset, depth)]
  | .group members => nestedLeavesAll (depth + 1) members

def nestedLeavesAll (depth : Nat) : List Phrase → List (Leaf × Nat)
  | [] => []
  | phrase :: rest => nestedLeaves depth phrase ++ nestedLeavesAll depth rest

end

mutual

/-- The members of each group in a phrase, an outer group before those inside it. -/
def groups : Phrase → List (List Phrase)
  | .word _ | .operator _ _ => []
  | .group members => members :: groupsAll members

def groupsAll : List Phrase → List (List Phrase)
  | [] => []
  | phrase :: rest => groups phrase ++ groupsAll rest

end

/-! ## Where a phrase is inserted -/

/-- The context is a spine, and the insertion adds to its lower end the phrase in as many new groups as the
    spine is too short. -/
theorem insertAt_eq_spine (phrase : Phrase) (depth : Nat) (context : List Phrase) :
    ∃ fronts inner opened, fronts.length + opened = depth ∧ context = spine fronts inner ∧
      phrase.insertAt depth context = spine fronts (inner ++ wrap opened [phrase]) := by
  induction depth generalizing context with
  | zero => exact ⟨[], context, 0, rfl, rfl, rfl⟩
  | succ depth ih =>
    rcases insertAt_succ_cases phrase depth context with ⟨front, members, rfl, inserted⟩ | opened
    · obtain ⟨fronts, inner, opened, total, rfl, below⟩ := ih members
      refine ⟨front :: fronts, inner, opened, ?_, rfl, ?_⟩
      · rw [List.length_cons, Nat.add_right_comm, total]
      · rw [inserted, below, spine]
    · refine ⟨[], context, depth + 1, Nat.zero_add _, rfl, ?_⟩
      rw [opened, insertAt_nil]
      rfl

/-! ## Leaves and the groups around them -/

theorem nestedLeaves_phrase (depth : Nat) (leaf : Leaf) :
    nestedLeaves depth leaf.phrase = [(leaf, depth)] := by
  cases leaf <;> simp only [Leaf.phrase, nestedLeaves]

theorem nestedLeavesAll_append (depth : Nat) (first second : List Phrase) :
    nestedLeavesAll depth (first ++ second) =
      nestedLeavesAll depth first ++ nestedLeavesAll depth second := by
  induction first with
  | nil => simp [nestedLeavesAll]
  | cons phrase rest ih => simp [nestedLeavesAll, ih]

theorem nestedLeavesAll_group (depth : Nat) (members : List Phrase) :
    nestedLeavesAll depth [.group members] = nestedLeavesAll (depth + 1) members := by
  simp only [nestedLeavesAll, nestedLeaves, List.append_nil]

theorem nestedLeavesAll_wrap (depth count : Nat) (phrases : List Phrase) :
    nestedLeavesAll depth (wrap count phrases) = nestedLeavesAll (depth + count) phrases := by
  induction count generalizing depth with
  | zero => rfl
  | succ count ih => rw [wrap, nestedLeavesAll_group, ih, Nat.add_right_comm, Nat.add_assoc]

/-- What is added to the lower end of a spine comes behind all leaves, in as many groups as the spine has. -/
theorem nestedLeavesAll_spine_append (depth : Nat) (fronts : List (List Phrase))
    (inner added : List Phrase) :
    nestedLeavesAll depth (spine fronts (inner ++ added)) =
      nestedLeavesAll depth (spine fronts inner) ++ nestedLeavesAll (depth + fronts.length) added := by
  induction fronts generalizing depth with
  | nil => exact nestedLeavesAll_append depth inner added
  | cons front fronts ih =>
    rw [spine, spine, nestedLeavesAll_append, nestedLeavesAll_append, nestedLeavesAll_group,
      nestedLeavesAll_group, ih, List.append_assoc, List.length_cons, Nat.add_right_comm, Nat.add_assoc]

theorem nestedLeavesAll_insertAt (leaf : Leaf) (depth : Nat) (context : List Phrase) :
    nestedLeavesAll 0 (leaf.phrase.insertAt depth context) =
      nestedLeavesAll 0 context ++ [(leaf, depth)] := by
  obtain ⟨fronts, inner, opened, total, rfl, inserted⟩ := insertAt_eq_spine leaf.phrase depth context
  rw [inserted, nestedLeavesAll_spine_append, nestedLeavesAll_wrap, Nat.zero_add, total, nestedLeavesAll,
    nestedLeaves_phrase, nestedLeavesAll, List.append_nil]

/-! ## New groups -/

theorem groupsAll_append (first second : List Phrase) :
    groupsAll (first ++ second) = groupsAll first ++ groupsAll second := by
  induction first with
  | nil => simp [groupsAll]
  | cons phrase rest ih => simp [groupsAll, ih]

theorem groupsAll_group (members : List Phrase) :
    groupsAll [.group members] = members :: groupsAll members := by
  simp only [groupsAll, groups, List.append_nil]

/-- A spine has the groups of what is added to its lower end besides those that it had. -/
theorem length_groupsAll_spine_append (fronts : List (List Phrase)) (inner added : List Phrase) :
    (groupsAll (spine fronts (inner ++ added))).length =
      (groupsAll (spine fronts inner)).length + (groupsAll added).length := by
  induction fronts with
  | nil => rw [spine, spine, groupsAll_append, List.length_append]
  | cons front fronts ih =>
    simp only [spine, groupsAll_append, groupsAll_group, List.length_append, List.length_cons, ih]
    omega

theorem groupsAll_leaf (leaf : Leaf) : groupsAll [leaf.phrase] = [] := by
  cases leaf <;> simp only [Leaf.phrase, groupsAll, groups, List.append_nil]

theorem length_groupsAll_wrap_leaf (count : Nat) (leaf : Leaf) :
    (groupsAll (wrap count [leaf.phrase])).length = count := by
  induction count with
  | zero => rw [wrap, groupsAll_leaf, List.length_nil]
  | succ count ih => rw [wrap, groupsAll_group, List.length_cons, ih]

theorem nil_not_mem_groupsAll_wrap_leaf (count : Nat) (leaf : Leaf) :
    [] ∉ groupsAll (wrap count [leaf.phrase]) := by
  induction count with
  | zero => simp [wrap, groupsAll_leaf]
  | succ count ih =>
    have filled : wrap count [leaf.phrase] ≠ [] := by cases count <;> simp [wrap]
    rw [wrap, groupsAll_group, List.mem_cons, not_or]
    exact ⟨filled.symm, ih⟩

/-- An inserted leaf comes behind all others and stands in as many groups as the depth says, and the others
    keep the groups around them.  Of the context only the lower end of a right spine is changed: what comes
    behind the phrases there is the leaf, in the groups that are opened for it.  These are not more than the
    depth, and none of them is empty.  More groups around the context and as much more depth only put the
    groups around the result. -/
theorem insertAt_right_spine (leaf : Leaf) (depth : Nat) (context : List Phrase) :
    leavesAll (leaf.phrase.insertAt depth context) = leavesAll context ++ [leaf] ∧
    nestedLeavesAll 0 (leaf.phrase.insertAt depth context) =
      nestedLeavesAll 0 context ++ [(leaf, depth)] ∧
    (∃ fronts inner created, context = spine fronts inner ∧
      leaf.phrase.insertAt depth context = spine fronts (inner ++ created) ∧
      leavesAll created = [leaf] ∧
      (groupsAll (leaf.phrase.insertAt depth context)).length =
        (groupsAll context).length + (groupsAll created).length ∧
      (groupsAll created).length ≤ depth ∧ [] ∉ groupsAll created) ∧
    ∀ count, leaf.phrase.insertAt (depth + count) (wrap count context) =
      wrap count (leaf.phrase.insertAt depth context) := by
  have alone : leaf.phrase.leaves = [leaf] := by cases leaf <;> simp only [Leaf.phrase, leaves]
  refine ⟨?_, nestedLeavesAll_insertAt leaf depth context, ?_,
    fun count => insertAt_wrap leaf.phrase depth count context⟩
  · rw [leavesAll_insertAt, alone]
  · obtain ⟨fronts, inner, opened, total, rfl, inserted⟩ := insertAt_eq_spine leaf.phrase depth context
    refine ⟨fronts, inner, wrap opened [leaf.phrase], rfl, inserted, ?_, ?_, ?_,
      nil_not_mem_groupsAll_wrap_leaf opened leaf⟩
    · rw [leavesAll_wrap, leavesAll_cons, alone, leavesAll_nil, List.append_nil]
    · rw [inserted, length_groupsAll_spine_append]
    · rw [length_groupsAll_wrap_leaf]
      omega

end Phrase

end Sentential
