import Sentential.Phrase

/-! # Precedence

Binary connectives fall into four classes. The classes are taken one after the other, the loosest
first: a list of phrases with operators of the class becomes a triple of left operand, operator and
right operand, cut at the last such operator. The right operand then has no operator of the class,
and the left operand is cut again, so that a chain of operators of one class associates to the left.
A missing operand becomes an empty group.
-/

namespace Sentential

/-- The classes of connectives that bind equally tight, the loosest first. -/
def precedenceClasses : List (List Connective) :=
  [[.binary .iff], [.binary .implies, .binary .impliedBy], [.binary .or], [.binary .and]]

namespace Phrase

/-- Phrases as one operand: a single phrase stands for itself, any others form a group. -/
def operand : List Phrase → Phrase
  | [phrase] => phrase
  | phrases => .group phrases

/-- Cuts a list of phrases at its last operator of the class, and the phrases before that operator
    in the same way. The list is given as the phrases that are still to be searched, the last of
    them first, and the phrases after them, which hold no operator of the class. -/
def cutBack (connectives : List Connective) : List Phrase → List Phrase → List Phrase
  | [], right => right
  | phrase :: before, right =>
    if phrase.isOperatorIn connectives then
      [operand (cutBack connectives before []), phrase, operand right]
    else
      cutBack connectives before (phrase :: right)

/-- Cuts a list of phrases at its operators of the class, and leaves their members as they are. -/
def cut (connectives : List Connective) (phrases : List Phrase) : List Phrase :=
  cutBack connectives phrases.reverse []

mutual

def splitMembers (connectives : List Connective) : Phrase → Phrase
  | .group members => .group (cut connectives (splitEach connectives members))
  | .word name => .word name
  | .operator connective offset => .operator connective offset

def splitEach (connectives : List Connective) : List Phrase → List Phrase
  | [] => []
  | phrase :: rest => splitMembers connectives phrase :: splitEach connectives rest

end

/-- Cuts a list of phrases, and every group inside it, at the operators of the class. -/
def split (connectives : List Connective) (phrases : List Phrase) : List Phrase :=
  cut connectives (splitEach connectives phrases)

def splitAll (phrases : List Phrase) : List Phrase :=
  precedenceClasses.foldl (fun phrases connectives => split connectives phrases) phrases

/-- Splits by the given classes one after the other, and keeps what each of them leaves. -/
def passes : List (List Connective) → List Phrase → List (List Connective × List Phrase)
  | [], _ => []
  | connectives :: classes, phrases =>
    let split := split connectives phrases
    (connectives, split) :: passes classes split

end Phrase

end Sentential
