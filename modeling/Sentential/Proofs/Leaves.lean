import Sentential.Proofs.Acceptance
import Sentential.Proofs.Balance
import Mathlib.Control.Monad.Basic

/-! # Nothing is lost, repeated or moved

The leaves of phrases are their words and operators from left to right, whatever groups they stand in.
Every stage takes lists apart and puts them together again, and none of them changes the leaves: the
leaves of the nested phrases are the words and operators among the tokens (`leavesAll_nest`), and
binding negations and splitting by a class keep them, also where a list has no shape of a formula.

A formula is walked in order by writing each connective between its operands, or before its only one.
In this order the syntax tree of a derivation has the leaves of the phrases that it derives
(`Derivation.inOrder_formula`), so reading a text makes one node of every word and operator in it.
-/

namespace Sentential

inductive Leaf where
  | word (name : String)
  | operator (connective : Connective) (offset : Nat)
  deriving DecidableEq, Repr

def Leaf.lexeme : Leaf → Lexeme
  | .word name => .word name
  | .operator connective _ => .operator connective

def Token.leaf? (token : Token) : Option Leaf :=
  match token.lexeme with
  | .word name => some (.word name)
  | .operator connective => some (.operator connective token.offset)
  | .openParen | .closeParen => none

theorem Token.length_filterMap_leaf? (tokens : List Token) :
    (tokens.filterMap leaf?).length = tokens.countP fun token => !token.lexeme.isParen := by
  induction tokens with
  | nil => rfl
  | cons token rest ih =>
    obtain ⟨lexeme, offset⟩ := token
    rw [List.countP_cons, ← ih]
    cases lexeme <;> rfl

namespace Phrase

mutual

def leaves : Phrase → List Leaf
  | .word name => [.word name]
  | .operator connective offset => [.operator connective offset]
  | .group members => leavesAll members

def leavesAll : List Phrase → List Leaf
  | [] => []
  | phrase :: rest => phrase.leaves ++ leavesAll rest

end

@[simp] theorem leaves_word (name : String) : (word name).leaves = [.word name] := by
  simp only [leaves]

@[simp] theorem leaves_operator (connective : Connective) (offset : Nat) :
    (operator connective offset).leaves = [.operator connective offset] := by
  simp only [leaves]

@[simp] theorem leaves_group (members : List Phrase) : (group members).leaves = leavesAll members := by
  simp only [leaves]

@[simp] theorem leavesAll_nil : leavesAll [] = [] := by simp only [leavesAll]

@[simp] theorem leavesAll_cons (phrase : Phrase) (rest : List Phrase) :
    leavesAll (phrase :: rest) = phrase.leaves ++ leavesAll rest := by
  simp only [leavesAll]

@[simp] theorem leavesAll_append (first second : List Phrase) :
    leavesAll (first ++ second) = leavesAll first ++ leavesAll second := by
  induction first with
  | nil => simp
  | cons phrase rest ih => simp [ih]

/-! ## Nesting -/

theorem leavesAll_insertAt (phrase : Phrase) (depth : Nat) (context : List Phrase) :
    leavesAll (phrase.insertAt depth context) = leavesAll context ++ phrase.leaves := by
  induction depth generalizing context with
  | zero => simp [insertAt]
  | succ depth ih =>
    rcases context.eq_nil_or_concat with rfl | ⟨front, last, rfl⟩
    · simp [insertAt, ih]
    · cases last with
      | word name => simp [insertAt, ih]
      | operator connective offset => simp [insertAt, ih]
      | group members => simp [insertAt, ih]

theorem leavesAll_wrap (count : Nat) (phrases : List Phrase) :
    leavesAll (wrap count phrases) = leavesAll phrases := by
  induction count with
  | zero => rfl
  | succ count ih => simp [wrap, ih]

end Phrase

namespace Nesting

open Phrase

theorem leavesAll_step (nesting : Nesting) (token : Token) :
    leavesAll (nesting.step token).context = leavesAll nesting.context ++ token.leaf?.toList := by
  obtain ⟨context, depth, unmatched⟩ := nesting
  obtain ⟨lexeme, offset⟩ := token
  cases lexeme with
  | word name => simp [step, insert, leavesAll_insertAt, Token.leaf?]
  | operator connective => simp [step, insert, leavesAll_insertAt, Token.leaf?]
  | openParen =>
    -- reopening takes groups off that have nothing beside them
    obtain ⟨count, -, inner⟩ := reopen_lower (depth + 1) context
    have same : leavesAll context = leavesAll (reopen (depth + 1) context).2 :=
      (congrArg leavesAll inner).trans (leavesAll_wrap _ _)
    simp [step, openGroup, Token.leaf?, same]
  | closeParen => cases depth <;> simp [step, closeGroup, Token.leaf?]

theorem leavesAll_foldl_step (tokens : List Token) (nesting : Nesting) :
    leavesAll (tokens.foldl step nesting).context =
      leavesAll nesting.context ++ tokens.filterMap Token.leaf? := by
  induction tokens generalizing nesting with
  | nil => simp
  | cons token rest ih =>
    rw [List.foldl_cons, ih, leavesAll_step, List.append_assoc]
    cases leaf : token.leaf? <;> simp [leaf]

end Nesting

namespace Phrase

theorem leavesAll_nest (tokens : List Token) :
    leavesAll (nest tokens) = tokens.filterMap Token.leaf? := by
  rw [nest, Nesting.ofTokens, Nesting.leavesAll_foldl_step]
  rfl

/-! ## Binding negations -/

theorem leavesAll_attach (phrase : Phrase) (rest : List Phrase) :
    leavesAll (attach phrase rest) = phrase.leaves ++ leavesAll rest := by
  unfold attach
  split <;> simp

mutual

theorem leaves_bindNegation : ∀ phrase : Phrase, (bindNegation phrase).leaves = phrase.leaves
  | .word name => by simp only [bindNegation]
  | .operator connective offset => by simp only [bindNegation]
  | .group members => by simp only [bindNegation, leaves_group, leavesAll_bindNegations members]

theorem leavesAll_bindNegations : ∀ phrases : List Phrase,
    leavesAll (bindNegations phrases) = leavesAll phrases
  | [] => by simp only [bindNegations]
  | phrase :: rest => by
    simp only [bindNegations, leavesAll_attach, leavesAll_cons, leaves_bindNegation phrase,
      leavesAll_bindNegations rest]

end

/-! ## Splitting -/

theorem leaves_operand (phrases : List Phrase) : (operand phrases).leaves = leavesAll phrases := by
  unfold operand
  split <;> simp

/-- Whatever has been searched already, the search leaves everything in its place. -/
theorem leavesAll_cutBack (connectives : List Connective) (before right : List Phrase) :
    leavesAll (cutBack connectives before right) = leavesAll before.reverse ++ leavesAll right := by
  induction before generalizing right with
  | nil => simp [cutBack]
  | cons phrase before ih =>
    rw [cutBack]
    split
    · simp [leaves_operand, ih]
    · simp [ih]

theorem leavesAll_cut (connectives : List Connective) (phrases : List Phrase) :
    leavesAll (cut connectives phrases) = leavesAll phrases := by
  rw [cut, leavesAll_cutBack, List.reverse_reverse, leavesAll_nil, List.append_nil]

mutual

theorem leaves_splitMembers (connectives : List Connective) : ∀ phrase : Phrase,
    (splitMembers connectives phrase).leaves = phrase.leaves
  | .word name => by simp only [splitMembers]
  | .operator connective offset => by simp only [splitMembers]
  | .group members => by
    simp only [splitMembers, leaves_group, leavesAll_cut, leavesAll_splitEach connectives members]

theorem leavesAll_splitEach (connectives : List Connective) : ∀ phrases : List Phrase,
    leavesAll (splitEach connectives phrases) = leavesAll phrases
  | [] => by simp only [splitEach]
  | phrase :: rest => by
    simp only [splitEach, leavesAll_cons, leaves_splitMembers connectives phrase,
      leavesAll_splitEach connectives rest]

end

theorem leavesAll_split (connectives : List Connective) (phrases : List Phrase) :
    leavesAll (split connectives phrases) = leavesAll phrases := by
  rw [split, leavesAll_cut, leavesAll_splitEach]

/-- No pass of any classes changes the leaves. -/
theorem leavesAll_passes (classes : List (List Connective)) (phrases : List Phrase) :
    (passes classes phrases).map (fun pass => (pass.1, leavesAll pass.2)) =
      classes.map fun connectives => (connectives, leavesAll phrases) := by
  induction classes generalizing phrases with
  | nil => rfl
  | cons connectives classes ih => simp only [passes, List.map_cons, ih, leavesAll_split]

theorem leavesAll_splitAll (phrases : List Phrase) :
    leavesAll (splitAll phrases) = leavesAll phrases := by
  simp only [splitAll, precedenceClasses, List.foldl_cons, List.foldl_nil, leavesAll_split]

end Phrase

/-! ## Formulas in order -/

namespace Formula

open Phrase

/-- What a formula says from left to right: a binary connective stands between its operands, and a
    negation before its operand. -/
def inOrder : Formula → List Lexeme
  | .atom name => [.word name]
  | .not operand => .operator .not :: operand.inOrder
  | .binary op left right => left.inOrder ++ .operator (.binary op) :: right.inOrder

theorem length_inOrder (formula : Formula) : formula.inOrder.length = formula.size := by
  induction formula with
  | atom name => rfl
  | not operand ih => rw [inOrder, List.length_cons, ih, size]
  | binary op left right leftIh rightIh =>
    rw [inOrder, List.length_append, List.length_cons, leftIh, rightIh, size]
    omega

end Formula

/-- The syntax tree of a derivation has the leaves of the phrases that it derives. -/
theorem Derivation.inOrder_formula {rungs : List (List BinaryOp)} {phrases : List Phrase}
    (derivation : Derivation rungs phrases) :
    derivation.formula.inOrder = (Phrase.leavesAll phrases).map Leaf.lexeme := by
  induction derivation with
  | word name => simp [formula, Formula.inOrder, Leaf.lexeme]
  | group inner ih => simp [formula, ih]
  | negation offset operand ih => simp [formula, Formula.inOrder, ih, Leaf.lexeme]
  | join op offset inOps left right leftIh rightIh =>
    simp [formula, Formula.inOrder, leftIh, rightIh, Leaf.lexeme]
  | descend inner ih => simp [formula, ih]

namespace Formula

open Phrase Token

theorem inOrder_of_parse {text : String} {formula : Formula} (read : parse text = .ok formula) :
    formula.inOrder = ((scan text).filterMap leaf?).map Leaf.lexeme := by
  obtain ⟨derivation, rfl⟩ := (ofPhrases_eq_ok_iff (nest (scan text)) formula).1 read
  rw [derivation.inOrder_formula, leavesAll_nest]

/-- Every stage of reading a text has the words and operators among its tokens as its leaves: nesting,
    binding negations, and the passes of the classes of precedence one after the other.  A formula that
    is read says the same in order, and has a node for each of them. -/
theorem leaves_of_stages (text : String) :
    leavesAll (nest (scan text)) = (scan text).filterMap leaf? ∧
    leavesAll (bindNegations (nest (scan text))) = (scan text).filterMap leaf? ∧
    (passes precedenceClasses (bindNegations (nest (scan text)))).map
        (fun pass => (pass.1, leavesAll pass.2)) =
      precedenceClasses.map (fun connectives => (connectives, (scan text).filterMap leaf?)) ∧
    leavesAll (splitAll (bindNegations (nest (scan text)))) = (scan text).filterMap leaf? ∧
    ∀ formula, parse text = .ok formula →
      formula.inOrder = ((scan text).filterMap leaf?).map Leaf.lexeme ∧
      formula.nodes.length = (scan text).countP fun token => !token.lexeme.isParen := by
  have nested := leavesAll_nest (scan text)
  have bound := (leavesAll_bindNegations (nest (scan text))).trans nested
  refine ⟨nested, bound, ?_, ?_, ?_⟩
  · rw [leavesAll_passes, bound]
  · rw [leavesAll_splitAll, bound]
  · intro formula read
    have walked := inOrder_of_parse read
    refine ⟨walked, ?_⟩
    rw [nodes_eq_postorder, length_postorder, ← length_inOrder, walked, List.length_map,
      length_filterMap_leaf?]

/-- Two connectives and two words make four nodes, and the walk in order begins with the negation. -/
theorem leaves_of_stages_not_or :
    parse "¬a ∨ b" = .ok (.binary .or (.not (.atom "a")) (.atom "b")) ∧
      inOrder (.binary .or (.not (.atom "a")) (.atom "b")) =
        ((scan "¬a ∨ b").filterMap leaf?).map Leaf.lexeme ∧
      (nodes (.binary .or (.not (.atom "a")) (.atom "b"))).length =
        (scan "¬a ∨ b").countP fun token => !token.lexeme.isParen := by
  have read : parse "¬a ∨ b" = .ok (.binary .or (.not (.atom "a")) (.atom "b")) := by
    decide +kernel
  exact ⟨read, (leaves_of_stages "¬a ∨ b").2.2.2.2 _ read⟩

end Formula

end Sentential
