import Sentential.Phrase

/-! # Binding negations

A negation binds tighter than any other connective. Each one is put into a group with the phrase to
its right, which may be such a group itself: of several negations in a row the last is the innermost.
A negation with nothing to its right stays as it is.
-/

namespace Sentential

namespace Phrase

/-- Puts a phrase in front of others; a negation takes the first of them as its operand. -/
def attach : Phrase → List Phrase → List Phrase
  | .operator .not offset, operand :: rest => .group [.operator .not offset, operand] :: rest
  | phrase, rest => phrase :: rest

mutual

def bindNegation : Phrase → Phrase
  | .group members => .group (bindNegations members)
  | .word name => .word name
  | .operator connective offset => .operator connective offset

def bindNegations : List Phrase → List Phrase
  | [] => []
  | phrase :: rest => attach (bindNegation phrase) (bindNegations rest)

end

end Phrase

end Sentential
