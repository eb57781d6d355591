import Sentential.Phrase
import Sentential.Token

/-! # Nesting by parentheses

Tokens are read from left to right into nested groups. The phrases read so far are the context; the
depth says how many groups, counted along the last members of the context, are still open. Any
parentheses are accepted:

* an opening parenthesis only makes the next phrase land one group deeper, and while the whole
  context is a single group, that group is taken as the context itself;
* a closing parenthesis with nothing open puts everything read so far into a group;
* groups that are still open at the end are closed there.
-/

namespace Sentential

namespace Phrase

/-- Adds a phrase at a depth: the depth counts groups along the last members of the context, and
    where the last member is not a group a new one is opened. -/
def insertAt (phrase : Phrase) : Nat → List Phrase → List Phrase
  | 0, context => context ++ [phrase]
  | depth + 1, context =>
    match context.getLast? with
    | some (.group members) => context.dropLast ++ [.group (insertAt phrase depth members)]
    | _ => context ++ [.group (insertAt phrase depth [])]

end Phrase

/-- What has been read of a text, and where the next phrase goes. -/
structure Nesting where
  context : List Phrase
  /-- The number of groups that are open. -/
  depth : Nat
  /-- The places of the closing parentheses that had nothing to close. -/
  unmatched : List Nat
  deriving Repr

namespace Nesting

def start : Nesting := ⟨[], 0, []⟩

/-- As long as a group is open and the whole context is one group, the context becomes that
    group's members and one group fewer is open. -/
def reopen : Nat → List Phrase → Nat × List Phrase
  | depth + 1, [.group members] => reopen depth members
  | depth, context => (depth, context)

def openGroup (nesting : Nesting) : Nesting :=
  let (depth, context) := reopen (nesting.depth + 1) nesting.context
  { nesting with context, depth }

def closeGroup (nesting : Nesting) (offset : Nat) : Nesting :=
  match nesting.depth with
  | 0 => { nesting with context := [.group nesting.context], unmatched := nesting.unmatched ++ [offset] }
  | depth + 1 => { nesting with depth }

def insert (nesting : Nesting) (phrase : Phrase) : Nesting :=
  { nesting with context := phrase.insertAt nesting.depth nesting.context }

def step (nesting : Nesting) (token : Token) : Nesting :=
  match token.lexeme with
  | .openParen => nesting.openGroup
  | .closeParen => nesting.closeGroup token.offset
  | .word name => nesting.insert (.word name)
  | .operator connective => nesting.insert (.operator connective token.offset)

def ofTokens (tokens : List Token) : Nesting :=
  tokens.foldl step start

end Nesting

def Phrase.nest (tokens : List Token) : List Phrase :=
  (Nesting.ofTokens tokens).context

end Sentential
