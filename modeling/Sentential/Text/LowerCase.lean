import Sentential.Text.Casing

/-! # Lower case

The lower case form of a text. Two letters do not have one lower case character of their own: a
capital I with a dot becomes a small i and a combining dot, and a capital sigma becomes a final sigma
at the end of a word and a plain small sigma elsewhere.
-/

namespace Sentential.Text

/-- Whether the first character that is not passed over has letter case. -/
def startsCased (text : List Char) : Bool :=
  match text.dropWhile caseIgnorable.contains with
  | [] => false
  | c :: _ => cased.contains c

/-- The lower case form of a character between the characters before it, the nearest first, and the
    characters after it. -/
def lowerBetween (before : List Char) (c : Char) (after : List Char) : List Char :=
  if c = 'Σ' then
    if startsCased before && !startsCased after then ['ς'] else ['σ']
  else if c = 'İ' then
    ['i', '\u0307']
  else
    [lowerChar c]

/-- The lower case form of characters that come after others, the nearest of those first. -/
def lowerAfter (before : List Char) : List Char → List Char
  | [] => []
  | c :: rest => lowerBetween before c rest ++ lowerAfter (c :: before) rest

def lowerCase (text : String) : String :=
  String.ofList (lowerAfter [] text.toList)

end Sentential.Text
