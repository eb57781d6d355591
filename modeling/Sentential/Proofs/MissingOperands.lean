import Sentential.Proofs.Acceptance

/-! # Missing operands

An operand is missing where a side of a connective is nothing, an empty group or a single operator.
Binding negations and splitting keep an operand that is there, so a list whose last operator of a layer
has both operands is read from its two sides, errors included (`ofLayer_join`).

A list that would be derivable if one binary connective had both operands is refused at that connective
(`Lacks.ofLayer_eq_error`).
-/

namespace Sentential

open Phrase

/-! ## Operands that are there -/

namespace Phrase

theorem ne_nil_of_isMissing {phrases : List Phrase} (there : (operand phrases).isMissing = false) :
    phrases ≠ [] := by
  rintro rfl
  simp [operand, isMissing] at there

theorem isMissing_operand_map_settle (classes : List (List Connective)) (phrases : List Phrase) :
    (operand (phrases.map (settle classes))).isMissing = (operand phrases).isMissing := by
  match phrases with
  | [] => rfl
  | [phrase] => exact isMissing_settle classes phrase
  | _ :: _ :: _ => rfl

theorem isMissing_operand_bindNegations (phrases : List Phrase) :
    (operand (bindNegations phrases)).isMissing = (operand phrases).isMissing := by
  match phrases with
  | [] => rw [bindNegations_nil]
  | [phrase] =>
    rw [bindNegations_cons, bindNegations_nil, attach_nil, operand_singleton, operand_singleton]
    cases phrase with
    | word name => rw [bindNegation_word]
    | operator connective offset => rw [bindNegation_operator]
    | group members =>
      rw [bindNegation_group, Bool.eq_iff_iff]
      simp [isMissing]
  | first :: second :: rest =>
    obtain ⟨next, others, bound⟩ := List.exists_cons_of_ne_nil
      (l := bindNegations (second :: rest)) (by simp)
    rw [bindNegations_cons, bound]
    -- there are two phrases again, or one group of a negation and its operand
    unfold attach
    split
    · rename_i offset operand rest' _ shape
      cases rest' <;> rfl
    · rfl

theorem isMissing_operand_split (connectives : List Connective) {phrases : List Phrase}
    (there : (operand phrases).isMissing = false) :
    (operand (split connectives phrases)).isMissing = false := by
  match phrases with
  | [] => simp [operand, isMissing] at there
  | [phrase] =>
    rw [operand_singleton] at there
    rwa [Formula.isMissing_operand_split_singleton
      (isOperatorIn_eq_false (isOperator_eq_false_of_isMissing there) connectives)]
  | first :: second :: rest =>
    rcases none_or_last connectives (first :: second :: rest) with
      none | ⟨left, operator, right, shape, inClass, last⟩
    · rw [split_of_none _ _ none]
      rfl
    · rw [shape, split_append _ _ _ _ inClass last]
      rfl

end Phrase

theorem Derivation.isMissing_operand {rungs : List (List BinaryOp)} {phrases : List Phrase} :
    Derivation rungs phrases → (operand phrases).isMissing = false
  | .word name => rfl
  | .group inner => by simpa [isMissing] using inner.ne_nil
  | .negation offset operand => by
    obtain ⟨first, rest, rfl⟩ := List.exists_cons_of_ne_nil operand.ne_nil
    rfl
  | @Derivation.join _ _ left right op offset _ leftTree rightTree => by
    obtain ⟨first, rest, rfl⟩ := List.exists_cons_of_ne_nil leftTree.ne_nil
    cases rest <;> rfl
  | .descend inner => inner.isMissing_operand

/-! ## The two sides of an operator -/

/-- Nothing, or a group of nothing. -/
def IsEmpty (phrases : List Phrase) : Prop :=
  phrases = [] ∨ phrases = [.group []]

namespace Formula

/-- What a side of an operator of a class is when it is cut off. -/
def side (done : List (List BinaryOp)) (ops : List BinaryOp) (phrases : List Phrase) : Phrase :=
  operand (split (ops.map .binary) ((bindNegations phrases).map (settle (classesOf done))))

theorem isMissing_side (done : List (List BinaryOp)) (ops : List BinaryOp) {phrases : List Phrase}
    (there : (operand phrases).isMissing = false) : (side done ops phrases).isMissing = false := by
  apply isMissing_operand_split
  rwa [isMissing_operand_map_settle, isMissing_operand_bindNegations]

theorem side_of_isEmpty (done : List (List BinaryOp)) (ops : List BinaryOp) {phrases : List Phrase}
    (empty : IsEmpty phrases) : side done ops phrases = .group [] := by
  rcases empty with rfl | rfl
  · rw [side, bindNegations_nil, List.map_nil, (split_eq_nil_iff _ _).2 rfl]
    rfl
  · rw [side, bindNegations_cons, bindNegation_group, bindNegations_nil, attach_nil, List.map_cons,
      List.map_nil, settle_group, (splitBy_eq_nil_iff _ _).2 rfl, split_of_none _ _ (by simp),
      List.map_cons, List.map_nil, settle_group, (splitBy_eq_nil_iff _ _).2 rfl, operand_singleton]

theorem ofLayer_sides (done rungs : List (List BinaryOp)) {ops : List BinaryOp}
    {left right : List Phrase} {op : BinaryOp} {offset : Nat} (cut : CutAt ops left op offset right) :
    ofLayer done (ops :: rungs) (left ++ .operator (.binary op) offset :: right) =
      ofSplit (classesOf rungs)
        [side done ops left, .operator (.binary op) offset, side done ops right] := by
  have inClass : (operator (.binary op) offset).isOperatorIn (ops.map .binary) = true := by
    simpa using cut.inOps
  rw [ofLayer, cut.bound, List.map_append, List.map_cons, settle_operator,
    show classesOf (ops :: rungs) = ops.map .binary :: classesOf rungs from rfl, ofSplit_cons,
    split_append _ _ _ _ inClass (forall_mem_map_settle.2 cut.last), settle_operator]
  rfl

/-- A list whose last operator of the layer has both operands is read from them, the left one first. -/
theorem ofLayer_join (done rungs : List (List BinaryOp)) {ops : List BinaryOp}
    {left right : List Phrase} {op : BinaryOp} {offset : Nat} (cut : CutAt ops left op offset right)
    (leftThere : (side done ops left).isMissing = false)
    (rightThere : (side done ops right).isMissing = false) :
    ofLayer done (ops :: rungs) (left ++ .operator (.binary op) offset :: right) = (do
      let first ← ofLayer done (ops :: rungs) left
      let second ← ofLayer (done ++ [ops]) rungs right
      return .binary op first second) := by
  rw [ofLayer_sides done rungs cut, side, side, ofSplit_triple _ _ _ _ _ leftThere rightThere,
    ← ofLayer_descend _ _ _ _ cut.last]
  rfl

/-- A list whose last operator of the layer lacks an operand is refused at that operator. -/
theorem ofLayer_missing (done rungs : List (List BinaryOp)) {ops : List BinaryOp}
    {left right : List Phrase} {op : BinaryOp} {offset : Nat} (cut : CutAt ops left op offset right)
    (leftHalf : IsEmpty left ∨ (operand left).isMissing = false)
    (rightHalf : IsEmpty right ∨ (operand right).isMissing = false)
    (lacking : IsEmpty left ∨ IsEmpty right) :
    ofLayer done (ops :: rungs) (left ++ .operator (.binary op) offset :: right) =
      .error (.malformedBinary (some offset)) := by
  have inner {phrases : List Phrase} (half : IsEmpty phrases ∨ (operand phrases).isMissing = false) :
      (side done ops phrases).isOperator = false := by
    rcases half with empty | there
    · rw [side_of_isEmpty done ops empty]
      rfl
    · exact isOperator_eq_false_of_isMissing (isMissing_side done ops there)
  have missing {phrases : List Phrase} (empty : IsEmpty phrases) :
      (settle (classesOf rungs) (side done ops phrases)).isMissing = true := by
    rw [isMissing_settle, side_of_isEmpty done ops empty]
    rfl
  rw [ofLayer_sides done rungs cut, ofSplit, splitBy_triple _ _ _ _ (inner leftHalf) (inner rightHalf),
    settle_operator]
  exact ofMembers_triple_of_isMissing _ _ _ _ (lacking.imp missing missing)

end Formula

/-! ## Lists that lack an operand -/

theorem IsEmpty.getLast?_ne_negation {phrases : List Phrase} (empty : IsEmpty phrases) (offset : Nat) :
    phrases.getLast? ≠ some (.operator .not offset) := by
  rcases empty with rfl | rfl <;> simp

theorem IsEmpty.operator_not_mem {phrases : List Phrase} (empty : IsEmpty phrases)
    (connective : Connective) (offset : Nat) : .operator connective offset ∉ phrases := by
  rcases empty with rfl | rfl <;> simp

theorem getLast?_append_binary_ne (left right : List Phrase) (op : BinaryOp) (place : Nat)
    (closed : ∀ offset, right.getLast? ≠ some (.operator .not offset)) :
    ∀ offset, (left ++ .operator (.binary op) place :: right).getLast? ≠
      some (.operator .not offset) := by
  intro offset
  rcases right.eq_nil_or_concat with rfl | ⟨front, last, rfl⟩
  · simp
  · have whole : left ++ .operator (.binary op) place :: front.concat last =
        (left ++ .operator (.binary op) place :: front) ++ [last] := by simp
    have bound := closed offset
    rw [List.concat_eq_append, List.getLast?_concat] at bound
    rwa [whole, List.getLast?_concat]

theorem mem_append_binary {left right : List Phrase} {op op' : BinaryOp} {place offset : Nat}
    (member : Phrase.operator (.binary op') offset ∈ left ++ .operator (.binary op) place :: right) :
    .operator (.binary op') offset ∈ left ∨ op' = op ∨ .operator (.binary op') offset ∈ right := by
  simp only [List.mem_append, List.mem_cons, Phrase.operator.injEq, Connective.binary.injEq] at member
  rcases member with inLeft | ⟨same, -⟩ | inRight
  · exact .inl inLeft
  · exact .inr (.inl same)
  · exact .inr (.inr inRight)

/-- A side of a connective that is nothing, or derivable from the layer of some rungs. -/
inductive Half (rungs : List (List BinaryOp)) (phrases : List Phrase) : Prop
  | nothing : IsEmpty phrases → Half rungs phrases
  | tree : Derivation rungs phrases → Half rungs phrases

namespace Half

variable {rungs : List (List BinaryOp)} {phrases : List Phrase}

theorem getLast?_ne_negation : Half rungs phrases →
    ∀ offset, phrases.getLast? ≠ some (.operator .not offset)
  | .nothing empty => empty.getLast?_ne_negation
  | .tree derivation => derivation.getLast?_ne_negation

theorem op_mem_rungs {op : BinaryOp} {offset : Nat} (half : Half rungs phrases)
    (member : Phrase.operator (.binary op) offset ∈ phrases) : op ∈ rungs.flatten := by
  cases half with
  | nothing empty => exact absurd member (empty.operator_not_mem _ _)
  | tree derivation => exact derivation.op_mem_rungs member

theorem isEmpty_or : Half rungs phrases → IsEmpty phrases ∨ (operand phrases).isMissing = false
  | .nothing empty => .inl empty
  | .tree derivation => .inr derivation.isMissing_operand

end Half

/-- A list that is derivable from the layer of some rungs, but for the operands of the binary connective
    at a place: at least one of them is nothing.  A list of one operator is no operand itself, and is
    split with what surrounds it. -/
inductive Lacks (place : Nat) : List (List BinaryOp) → List Phrase → Prop
  | here {ops : List BinaryOp} {rungs : List (List BinaryOp)} {left right : List Phrase}
      {op : BinaryOp} : op ∈ ops → Half (ops :: rungs) left → Half rungs right →
        IsEmpty left ∨ IsEmpty right →
          Lacks place (ops :: rungs) (left ++ .operator (.binary op) place :: right)
  | group {members : List Phrase} : Lacks place ladder members → Lacks place [] [.group members]
  | negation (offset : Nat) {operand : List Phrase} :
      Lacks place [] operand → Lacks place [] (.operator .not offset :: operand)
  | inLeft {ops : List BinaryOp} {rungs : List (List BinaryOp)} {left right : List Phrase}
      {op : BinaryOp} (offset : Nat) : op ∈ ops → (operand left).isMissing = false →
        Lacks place (ops :: rungs) left → Derivation rungs right →
          Lacks place (ops :: rungs) (left ++ .operator (.binary op) offset :: right)
  | inRight {ops : List BinaryOp} {rungs : List (List BinaryOp)} {left right : List Phrase}
      {op : BinaryOp} (offset : Nat) : op ∈ ops → Derivation (ops :: rungs) left →
        (operand right).isMissing = false → Lacks place rungs right →
          Lacks place (ops :: rungs) (left ++ .operator (.binary op) offset :: right)
  | descend {ops : List BinaryOp} {rungs : List (List BinaryOp)} {phrases : List Phrase} :
      Lacks place rungs phrases → Lacks place (ops :: rungs) phrases

namespace Lacks

open Formula

variable {place : Nat} {rungs : List (List BinaryOp)} {phrases : List Phrase}

theorem ne_nil (lacks : Lacks place rungs phrases) : phrases ≠ [] := by
  induction lacks with
  | here => simp
  | group => simp
  | negation => simp
  | inLeft => simp
  | inRight => simp
  | descend _ ih => exact ih

theorem getLast?_ne_negation (lacks : Lacks place rungs phrases) :
    ∀ offset, phrases.getLast? ≠ some (.operator .not offset) := by
  induction lacks with
  | here _ _ rightHalf _ => exact getLast?_append_binary_ne _ _ _ _ rightHalf.getLast?_ne_negation
  | group inner _ => simp
  | negation place inner ih =>
    obtain ⟨first, rest, rfl⟩ := List.exists_cons_of_ne_nil inner.ne_nil
    exact ih
  | inLeft _ _ _ _ rightTree _ =>
    exact getLast?_append_binary_ne _ _ _ _ rightTree.getLast?_ne_negation
  | inRight _ _ _ _ _ ih => exact getLast?_append_binary_ne _ _ _ _ ih
  | descend _ ih => exact ih

theorem op_mem_rungs (lacks : Lacks place rungs phrases) {op : BinaryOp} {offset : Nat}
    (member : Phrase.operator (.binary op) offset ∈ phrases) : op ∈ rungs.flatten := by
  induction lacks with
  | here inOps leftHalf rightHalf _ =>
    rcases mem_append_binary member with inLeft | rfl | inRight
    · exact leftHalf.op_mem_rungs inLeft
    · exact List.mem_append_left _ inOps
    · exact List.mem_append_right _ (rightHalf.op_mem_rungs inRight)
  | group inner _ => simp at member
  | negation place inner ih => exact ih (by simpa using member)
  | inLeft _ inOps _ _ rightTree ih =>
    rcases mem_append_binary member with inLeft | rfl | inRight
    · exact ih inLeft
    · exact List.mem_append_left _ inOps
    · exact List.mem_append_right _ (rightTree.op_mem_rungs inRight)
  | inRight _ inOps leftTree _ _ ih =>
    rcases mem_append_binary member with inLeft | rfl | inRight
    · exact leftTree.op_mem_rungs inLeft
    · exact List.mem_append_left _ inOps
    · exact List.mem_append_right _ (ih inRight)
  | descend _ ih => exact List.mem_append_right _ (ih member)

theorem exists_bound_operand {phrases : List Phrase} : Lacks place [] phrases →
    ∃ phrase, bindNegations phrases = [phrase] ∧ phrase.isOperator = false
  | @Lacks.group _ members _ =>
    ⟨.group (bindNegations members), by simp [bindNegations_cons, attach_nil], rfl⟩
  | .negation offset inner => by
    obtain ⟨phrase, bound, -⟩ := exists_bound_operand inner
    exact ⟨.group [.operator .not offset, phrase], by simp [bindNegations_cons, bound, attach], rfl⟩

/-- A list that lacks an operand is refused at the connective that lacks it. -/
theorem ofLayer_eq_error (lacks : Lacks place rungs phrases) (done : List (List BinaryOp))
    (whole : done ++ rungs = ladder) :
    ofLayer done rungs phrases = .error (.malformedBinary (some place)) := by
  induction lacks generalizing done with
  | @here ops rungs left right op inOps leftHalf rightHalf lacking =>
    -- the operators on the right are all of later layers
    have cut : CutAt ops left op place right := .of_below (nodup_of_append_eq_ladder whole) inOps
      leftHalf.getLast?_ne_negation fun _ _ => rightHalf.op_mem_rungs
    exact ofLayer_missing done rungs cut leftHalf.isEmpty_or rightHalf.isEmpty_or lacking
  | group inner ih =>
    obtain rfl : done = ladder := by simpa using whole
    rw [ofLayer_last_group, ih [] rfl]
  | negation offset inner ih =>
    obtain rfl : done = ladder := by simpa using whole
    obtain ⟨phrase, bound, inert⟩ := inner.exists_bound_operand
    rw [ofLayer_last_negation bound inert, ih ladder whole]
    rfl
  | @inLeft ops rungs left right op offset inOps leftThere leftLacks rightTree ih =>
    have cut : CutAt ops left op offset right := .of_below (nodup_of_append_eq_ladder whole) inOps
      leftLacks.getLast?_ne_negation fun _ _ => rightTree.op_mem_rungs
    rw [ofLayer_join done rungs cut (isMissing_side done ops leftThere)
      (isMissing_side done ops rightTree.isMissing_operand), ih done whole]
    rfl
  | @inRight ops rungs left right op offset inOps leftTree rightThere rightLacks ih =>
    have cut : CutAt ops left op offset right := .of_below (nodup_of_append_eq_ladder whole) inOps
      leftTree.getLast?_ne_negation fun _ _ => rightLacks.op_mem_rungs
    rw [ofLayer_join done rungs cut (isMissing_side done ops leftTree.isMissing_operand)
      (isMissing_side done ops rightThere), leftTree.ofLayer_eq_ok done whole,
      ih (done ++ [ops]) (by simpa using whole)]
    rfl
  | @descend ops rungs phrases inner ih =>
    rw [ofLayer_descend _ _ _ _ (inert_of_op_mem_rungs (nodup_of_append_eq_ladder whole)
      fun _ _ => inner.op_mem_rungs)]
    exact ih (done ++ [ops]) (by simpa using whole)

end Lacks

end Sentential
