import Sentential.Proofs.Splitting

/-! # The grammar

A list of phrases is an equivalence, an implication, a disjunction, a conjunction or an operand.  At
each of these layers a list is either one of the next layer or an operator of the layer between a
list of the same layer and one of the next, so that a chain associates to the left.  An operand is a
word, a group whose members are derivable from the first layer, or a negation before an operand.

A layer is given by the rungs of the `ladder` that are still to be descended.  Of the rungs of the
whole ladder the lists are equivalences, and of no rung operands.

A derivation is data, not only a proof that there is one, so that `derivation_unique` says something:
a list of phrases has at most one derivation, because the last operator of the layer in it is where
the layer must be joined.
-/

namespace Sentential

/-- The binary connectives in the order of their layers, the loosest first. -/
def ladder : List (List BinaryOp) :=
  [[.iff], [.implies, .impliedBy], [.or], [.and]]

/-- A derivation of a list of phrases from the layer of some rungs. -/
inductive Derivation : List (List BinaryOp) → List Phrase → Type
  | word (name : String) : Derivation [] [.word name]
  | group {members : List Phrase} : Derivation ladder members → Derivation [] [.group members]
  | negation (offset : Nat) {operand : List Phrase} :
      Derivation [] operand → Derivation [] (.operator .not offset :: operand)
  /-- An operator of the layer joins a list of the layer and one of the next. -/
  | join {ops : List BinaryOp} {rungs : List (List BinaryOp)} {left right : List Phrase}
      (op : BinaryOp) (offset : Nat) :
      op ∈ ops → Derivation (ops :: rungs) left → Derivation rungs right →
        Derivation (ops :: rungs) (left ++ .operator (.binary op) offset :: right)
  /-- A list of the next layer is one of the layer. -/
  | descend {ops : List BinaryOp} {rungs : List (List BinaryOp)} {phrases : List Phrase} :
      Derivation rungs phrases → Derivation (ops :: rungs) phrases

namespace Derivation

variable {rungs : List (List BinaryOp)} {phrases : List Phrase}

def formula {rungs : List (List BinaryOp)} {phrases : List Phrase} :
    Derivation rungs phrases → Formula
  | .word name => .atom name
  | .group inner => inner.formula
  | .negation _ operand => .not operand.formula
  | .join op _ _ left right => .binary op left.formula right.formula
  | .descend inner => inner.formula

/-- A list of a layer has binary operators of its rungs only, groups apart. -/
theorem op_mem_rungs (derivation : Derivation rungs phrases) {op : BinaryOp} {offset : Nat}
    (member : Phrase.operator (.binary op) offset ∈ phrases) : op ∈ rungs.flatten := by
  induction derivation with
  | word name => simp at member
  | group inner _ => simp at member
  | negation place operand ih => exact ih (by simpa using member)
  | join op' place inOps left right leftIh rightIh =>
    simp only [List.mem_append, List.mem_cons, Phrase.operator.injEq, Connective.binary.injEq]
      at member
    rcases member with member | ⟨rfl, -⟩ | member
    · exact leftIh member
    · exact List.mem_append_left _ inOps
    · exact List.mem_append_right _ (rightIh member)
  | descend inner ih => exact List.mem_append_right _ (ih member)

/-- No rung occurs twice, so an operator of a layer is none of the next. -/
theorem isOperatorIn_eq_false {ops : List BinaryOp} (derivation : Derivation rungs phrases)
    (apart : (ops :: rungs).flatten.Nodup) (phrase : Phrase) (member : phrase ∈ phrases) :
    phrase.isOperatorIn (ops.map .binary) = false := by
  cases phrase with
  | word name => rfl
  | group members => rfl
  | operator connective offset =>
    cases connective with
    | not => simp
    | binary op =>
      rw [List.flatten_cons, List.nodup_append] at apart
      have inRungs := derivation.op_mem_rungs member
      simpa using fun inOps => apart.2.2 op inOps op inRungs rfl

theorem exists_last (derivation : Derivation rungs phrases) :
    ∃ front last, phrases = front ++ [last] ∧ last.isOperator = false := by
  induction derivation with
  | word name => exact ⟨[], _, rfl, rfl⟩
  | group inner _ => exact ⟨[], _, rfl, rfl⟩
  | negation offset operand ih =>
    obtain ⟨front, last, rfl, inner⟩ := ih
    exact ⟨_ :: front, last, rfl, inner⟩
  | @join ops rungs left right op offset inOps _ _ _ rightIh =>
    obtain ⟨front, last, rfl, inner⟩ := rightIh
    exact ⟨left ++ .operator (.binary op) offset :: front, last, by simp, inner⟩
  | descend inner ih => exact ih

theorem ne_nil (derivation : Derivation rungs phrases) : phrases ≠ [] := by
  obtain ⟨front, last, rfl, -⟩ := derivation.exists_last
  simp

end Derivation

/-! ## Uniqueness -/

/-- Two cuts of a list at the last element with a property are the same cut. -/
theorem last_cut_unique {α : Type} {p : α → Prop} {left right left' right' : List α} {a a' : α}
    (holds : p a) (last : ∀ x ∈ right, ¬ p x) (holds' : p a') (last' : ∀ x ∈ right', ¬ p x)
    (same : left ++ a :: right = left' ++ a' :: right') :
    left = left' ∧ a = a' ∧ right = right' := by
  rcases List.append_eq_append_iff.1 same with ⟨between, rfl, rest⟩ | ⟨between, rfl, rest⟩
  · cases between with
    | nil => simpa using rest
    | cons x between =>
      obtain ⟨-, rfl⟩ := List.cons.inj rest
      exact absurd holds' (last a' (by simp))
  · cases between with
    | nil => simpa [eq_comm] using rest
    | cons x between =>
      obtain ⟨-, rfl⟩ := List.cons.inj rest
      exact absurd holds (last' a (by simp))

namespace Derivation

theorem ladder_flatten_nodup : ladder.flatten.Nodup := by decide

theorem heq_of_eq {rungs : List (List BinaryOp)} {phrases phrases' : List Phrase}
    (apart : rungs.flatten.Nodup) (derivation : Derivation rungs phrases)
    (derivation' : Derivation rungs phrases') (same : phrases = phrases') :
    HEq derivation derivation' := by
  induction derivation generalizing phrases' with
  | word name =>
    cases derivation' with
    | word name' => cases same; rfl
    | group inner' => simp at same
    | negation offset' operand' => simp at same
  | group inner ih =>
    cases derivation' with
    | word name' => simp at same
    | group inner' =>
      obtain rfl : _ = _ := by simpa using same
      rw [eq_of_heq (ih ladder_flatten_nodup inner' rfl)]
    | negation offset' operand' => simp at same
  | negation offset operand ih =>
    cases derivation' with
    | word name' => simp at same
    | group inner' => simp at same
    | negation offset' operand' =>
      obtain ⟨rfl, rfl⟩ : offset = offset' ∧ _ = _ := by simpa using same
      rw [eq_of_heq (ih apart operand' rfl)]
  | @join ops rungs left right op offset inOps leftTree rightTree leftIh rightIh =>
    have lower : rungs.flatten.Nodup := (List.nodup_append.1 apart).2.1
    cases derivation' with
    | join op' offset' inOps' leftTree' rightTree' =>
      -- both join at the last operator of the layer
      obtain ⟨rfl, shape, rfl⟩ := last_cut_unique
        (p := fun phrase => phrase.isOperatorIn (ops.map .binary) = true) (by simpa using inOps)
        (by simpa using rightTree.isOperatorIn_eq_false apart) (by simpa using inOps')
        (by simpa using rightTree'.isOperatorIn_eq_false apart) same
      obtain ⟨rfl, rfl⟩ : op = op' ∧ offset = offset' := by simpa using shape
      rw [eq_of_heq (leftIh apart leftTree' rfl), eq_of_heq (rightIh lower rightTree' rfl)]
    | descend inner' =>
      -- the operator would have to belong to a later layer too
      have absent := inner'.isOperatorIn_eq_false apart (.operator (.binary op) offset)
        (by simp [← same])
      simp [inOps] at absent
  | @descend ops rungs phrases inner ih =>
    have lower : rungs.flatten.Nodup := (List.nodup_append.1 apart).2.1
    cases derivation' with
    | join op' offset' inOps' leftTree' rightTree' =>
      have absent := inner.isOperatorIn_eq_false apart (.operator (.binary op') offset')
        (by simp [same])
      simp [inOps'] at absent
    | descend inner' =>
      subst same
      rw [eq_of_heq (ih lower inner' rfl)]

end Derivation

/-- A list of phrases has at most one derivation from the first layer. -/
theorem derivation_unique (phrases : List Phrase) : Subsingleton (Derivation ladder phrases) :=
  ⟨fun first second =>
    eq_of_heq (Derivation.heq_of_eq Derivation.ladder_flatten_nodup first second rfl)⟩

end Sentential
