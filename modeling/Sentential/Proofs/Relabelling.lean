import Sentential.Formula.Parse

/-! # Other names and other places

Reading a formula never looks inside a name, and a place is only ever handed on to an error.  So
giving every word another name and every operator another place commutes with each stage: nesting,
binding negations, splitting by precedence, and the check of the shape (`ofPhrases_relabel`).
-/

namespace Sentential

/-! ## Relabelling -/

namespace Phrase

mutual

def relabel (rename : String → String) (move : Nat → Nat) : Phrase → Phrase
  | .word name => .word (rename name)
  | .operator connective offset => .operator connective (move offset)
  | .group members => .group (relabelAll rename move members)

def relabelAll (rename : String → String) (move : Nat → Nat) : List Phrase → List Phrase
  | [] => []
  | phrase :: rest => phrase.relabel rename move :: relabelAll rename move rest

end

end Phrase

def Formula.rename (rename : String → String) : Formula → Formula
  | .atom name => .atom (rename name)
  | .not operand => .not (operand.rename rename)
  | .binary op left right => .binary op (left.rename rename) (right.rename rename)

def ParseError.relocate (move : Nat → Nat) : ParseError → ParseError
  | .emptyExpression => .emptyExpression
  | .operatorWithoutOperand offset => .operatorWithoutOperand (move offset)
  | .malformedUnary offset => .malformedUnary (offset.map move)
  | .malformedBinary offset => .malformedBinary (offset.map move)
  | .malformedExpression => .malformedExpression

/-- An outcome of reading with other names in the formula, or at another place in the error. -/
def Formula.relabelOutcome (rename : String → String) (move : Nat → Nat) :
    Except ParseError Formula → Except ParseError Formula
  | .ok formula => .ok (formula.rename rename)
  | .error error => .error (error.relocate move)

namespace Phrase

variable (rename : String → String) (move : Nat → Nat)

@[simp] theorem relabel_word (name : String) :
    (word name).relabel rename move = .word (rename name) := by
  simp only [relabel]

@[simp] theorem relabel_operator (connective : Connective) (offset : Nat) :
    (operator connective offset).relabel rename move = .operator connective (move offset) := by
  simp only [relabel]

theorem relabelAll_eq_map (phrases : List Phrase) :
    relabelAll rename move phrases = phrases.map (relabel rename move) := by
  induction phrases with
  | nil => simp only [relabelAll, List.map_nil]
  | cons phrase rest ih => simp only [relabelAll, List.map_cons, ih]

@[simp] theorem relabel_group (members : List Phrase) :
    (group members).relabel rename move = .group (members.map (relabel rename move)) := by
  simp only [relabel, relabelAll_eq_map]

@[simp] theorem isOperator_relabel (phrase : Phrase) :
    (phrase.relabel rename move).isOperator = phrase.isOperator := by
  cases phrase <;> simp

@[simp] theorem isOperatorIn_relabel (connectives : List Connective) (phrase : Phrase) :
    (phrase.relabel rename move).isOperatorIn connectives = phrase.isOperatorIn connectives := by
  cases phrase <;> simp

@[simp] theorem isMissing_relabel (phrase : Phrase) :
    (phrase.relabel rename move).isMissing = phrase.isMissing := by
  cases phrase <;> simp [isMissing]

@[simp] theorem offset?_relabel (phrase : Phrase) :
    (phrase.relabel rename move).offset? = phrase.offset?.map move := by
  cases phrase <;> simp

/-! ## Every stage commutes with relabelling -/

theorem attach_relabel (phrase : Phrase) (rest : List Phrase) :
    attach (phrase.relabel rename move) (rest.map (relabel rename move)) =
      (attach phrase rest).map (relabel rename move) := by
  cases phrase with
  | word name => simp [attach]
  | group members => simp [attach]
  | operator connective offset => cases connective <;> cases rest <;> simp [attach]

mutual

theorem bindNegation_relabel : ∀ phrase : Phrase,
    bindNegation (phrase.relabel rename move) = (bindNegation phrase).relabel rename move
  | .word name => by simp only [relabel_word, bindNegation]
  | .operator connective offset => by simp only [relabel_operator, bindNegation]
  | .group members => by
    simp only [relabel_group, bindNegation, bindNegations_relabel members]

theorem bindNegations_relabel : ∀ phrases : List Phrase,
    bindNegations (phrases.map (relabel rename move)) =
      (bindNegations phrases).map (relabel rename move)
  | [] => by simp only [bindNegations, List.map_nil]
  | phrase :: rest => by
    simp only [bindNegations, List.map_cons, bindNegation_relabel phrase,
      bindNegations_relabel rest, attach_relabel]

end

theorem operand_relabel (phrases : List Phrase) :
    operand (phrases.map (relabel rename move)) = (operand phrases).relabel rename move := by
  cases phrases with
  | nil => simp [operand]
  | cons phrase rest => cases rest <;> simp [operand]

theorem cutBack_relabel (connectives : List Connective) (before right : List Phrase) :
    cutBack connectives (before.map (relabel rename move)) (right.map (relabel rename move)) =
      (cutBack connectives before right).map (relabel rename move) := by
  induction before generalizing right with
  | nil => simp only [cutBack, List.map_nil]
  | cons phrase before ih =>
    have inner := ih []
    have outer := ih (phrase :: right)
    simp only [List.map_cons, List.map_nil] at inner outer
    simp only [List.map_cons, cutBack, isOperatorIn_relabel]
    split
    · simp only [inner, operand_relabel, List.map_cons, List.map_nil]
    · exact outer

theorem cut_relabel (connectives : List Connective) (phrases : List Phrase) :
    cut connectives (phrases.map (relabel rename move)) =
      (cut connectives phrases).map (relabel rename move) := by
  rw [cut, cut, ← List.map_reverse]
  exact cutBack_relabel rename move connectives phrases.reverse []

mutual

theorem splitMembers_relabel (connectives : List Connective) : ∀ phrase : Phrase,
    splitMembers connectives (phrase.relabel rename move) =
      (splitMembers connectives phrase).relabel rename move
  | .word name => by simp only [relabel_word, splitMembers]
  | .operator connective offset => by simp only [relabel_operator, splitMembers]
  | .group members => by
    simp only [relabel_group, splitMembers, splitEach_relabel connectives members, cut_relabel]

theorem splitEach_relabel (connectives : List Connective) : ∀ phrases : List Phrase,
    splitEach connectives (phrases.map (relabel rename move)) =
      (splitEach connectives phrases).map (relabel rename move)
  | [] => by simp only [splitEach, List.map_nil]
  | phrase :: rest => by
    simp only [splitEach, List.map_cons, splitMembers_relabel connectives phrase,
      splitEach_relabel connectives rest]

end

theorem split_relabel (connectives : List Connective) (phrases : List Phrase) :
    split connectives (phrases.map (relabel rename move)) =
      (split connectives phrases).map (relabel rename move) := by
  simp only [split, splitEach_relabel, cut_relabel]

theorem splitAll_relabel (phrases : List Phrase) :
    splitAll (phrases.map (relabel rename move)) =
      (splitAll phrases).map (relabel rename move) := by
  simp only [splitAll, precedenceClasses, List.foldl_cons, List.foldl_nil, split_relabel]

end Phrase

namespace Formula

open Phrase (relabel)

variable (rename : String → String) (move : Nat → Nat)

mutual

theorem ofPhrase_relabel : ∀ phrase : Phrase,
    ofPhrase (phrase.relabel rename move) = relabelOutcome rename move (ofPhrase phrase)
  | .word name => by simp only [Phrase.relabel_word, ofPhrase, relabelOutcome, Formula.rename]
  | .operator connective offset => by
    simp only [Phrase.relabel_operator, ofPhrase, relabelOutcome, ParseError.relocate]
  | .group members => by
    simp only [Phrase.relabel_group, ofPhrase, ofMembers_relabel members]

theorem ofMembers_relabel : ∀ members : List Phrase,
    ofMembers (members.map (relabel rename move)) = relabelOutcome rename move (ofMembers members)
  | [] => rfl
  | [phrase] => by
    simp only [List.map_cons, List.map_nil, ofMembers, ofPhrase_relabel phrase]
  | [first, second] => by
    have operand := ofPhrase_relabel second
    simp only [List.map_cons, List.map_nil]
    cases first with
    | word name => simp [ofMembers, relabelOutcome, ParseError.relocate]
    | group members => simp [ofMembers, relabelOutcome, ParseError.relocate]
    | operator connective offset =>
      cases connective with
      | binary op => simp [ofMembers, relabelOutcome, ParseError.relocate]
      | not =>
        simp only [Phrase.relabel_operator, ofMembers, Phrase.isOperator_relabel, operand]
        split
        · rfl
        · cases ofPhrase second <;> rfl
  | [first, second, third] => by
    have left := ofPhrase_relabel first
    have right := ofPhrase_relabel third
    simp only [List.map_cons, List.map_nil]
    cases second with
    | word name =>
      simp [ofMembers, relabelOutcome, ParseError.relocate, Option.map_or]
    | group members =>
      simp [ofMembers, relabelOutcome, ParseError.relocate, Option.map_or]
    | operator connective offset =>
      cases connective with
      | not => simp [ofMembers, relabelOutcome, ParseError.relocate]
      | binary op =>
        simp only [Phrase.relabel_operator, ofMembers, Phrase.isMissing_relabel, left, right]
        split
        · rfl
        · cases ofPhrase first <;> cases ofPhrase third <;> rfl
  | _ :: _ :: _ :: _ :: _ => rfl

end

theorem ofPhrases_relabel (phrases : List Phrase) :
    ofPhrases (phrases.map (relabel rename move)) =
      relabelOutcome rename move (ofPhrases phrases) := by
  rw [ofPhrases, ofPhrases, Phrase.bindNegations_relabel, Phrase.splitAll_relabel,
    ofMembers_relabel]

end Formula

end Sentential
