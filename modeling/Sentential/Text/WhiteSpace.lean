import Sentential.Text.CharRange

/-! # White space

The characters with the Unicode property White_Space, and the text that is left when they are taken
off both ends.
-/

namespace Sentential.Text

/-- The code points with the property White_Space. -/
def whiteSpace : CharRanges := [
  (0x9, 0xd), (0x20, 0x20), (0x85, 0x85), (0xa0, 0xa0), (0x1680, 0x1680), (0x2000, 0x200a),
  (0x2028, 0x2029), (0x202f, 0x202f), (0x205f, 0x205f), (0x3000, 0x3000)]

def isWhiteSpace (c : Char) : Bool :=
  whiteSpace.contains c

def trimChars (text : List Char) : List Char :=
  ((text.dropWhile isWhiteSpace).reverse.dropWhile isWhiteSpace).reverse

def trim (text : String) : String :=
  String.ofList (trimChars text.toList)

end Sentential.Text
