import Sentential.Connective

/-! # Phrases

A phrase is a word, an operator at its place in the text, or a parenthesised group of phrases. Lists
of phrases are what the text looks like once its parentheses are understood, and what negation and
the precedence classes rearrange. Nothing is required of them: a group may be empty, and operators
and words may follow each other in any order.
-/

namespace Sentential

/-- A part of a formula before its shape is checked. -/
inductive Phrase where
  | word (name : String)
  /-- An operator and the number of bytes before it. -/
  | operator (connective : Connective) (offset : Nat)
  | group (members : List Phrase)
  deriving Repr, Inhabited

namespace Phrase

def isOperator : Phrase → Bool
  | .operator _ _ => true
  | .word _ | .group _ => false

def offset? : Phrase → Option Nat
  | .operator _ offset => some offset
  | .word _ | .group _ => none

def isOperatorIn (connectives : List Connective) : Phrase → Bool
  | .operator connective _ => connectives.contains connective
  | .word _ | .group _ => false

@[simp] theorem isOperator_word {name : String} : (word name).isOperator = false := rfl
@[simp] theorem isOperator_group {members : List Phrase} : (group members).isOperator = false := rfl
@[simp] theorem isOperator_operator {connective : Connective} {offset : Nat} :
    (operator connective offset).isOperator = true := rfl

@[simp] theorem offset?_word {name : String} : (word name).offset? = none := rfl
@[simp] theorem offset?_group {members : List Phrase} : (group members).offset? = none := rfl
@[simp] theorem offset?_operator {connective : Connective} {offset : Nat} :
    (operator connective offset).offset? = some offset := rfl

@[simp] theorem isOperatorIn_word {connectives : List Connective} {name : String} :
    (word name).isOperatorIn connectives = false := rfl
@[simp] theorem isOperatorIn_group {connectives : List Connective} {members : List Phrase} :
    (group members).isOperatorIn connectives = false := rfl
@[simp] theorem isOperatorIn_operator {connectives : List Connective} {connective : Connective}
    {offset : Nat} :
    (operator connective offset).isOperatorIn connectives = connectives.contains connective := rfl

/-! ## Writing phrases -/

mutual

def render : Phrase → String
  | .word name => name
  | .operator connective _ => String.singleton connective.symbol
  | .group members => "(" ++ renderAll members ++ ")"

def renderAll : List Phrase → String
  | [] => ""
  | [phrase] => phrase.render
  | phrase :: next :: rest => phrase.render ++ " " ++ renderAll (next :: rest)

end

end Phrase

end Sentential
