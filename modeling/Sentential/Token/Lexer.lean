import Sentential.Token

/-! # Reading tokens

A text falls apart into pieces: maximal runs of word characters, and single characters of any other
kind. Nothing is lost between pieces, so a piece starts at the number of bytes of the pieces before
it. Blank pieces separate runs and yield nothing; every other piece is one token. Every text can be
read.
-/

namespace Sentential

/-- The six characters that separate words. Other white space is part of a word. -/
def isBlank (c : Char) : Bool :=
  c = ' ' || c = '\t' || c = '\n' || c = '\r' || c = '\x0b' || c = '\x0c'

/-- Whether a character extends a run: it neither separates words nor stands alone. -/
def isWordChar (c : Char) : Bool :=
  !isBlank c && (Lexeme.ofChar? c).isNone

def byteLength (text : List Char) : Nat :=
  text.foldr (fun c bytes => c.utf8Size + bytes) 0

/-- The pieces of a text: maximal runs of word characters, and single other characters. -/
def pieces (text : List Char) : List (List Char) :=
  text.splitBy fun a b => isWordChar a && isWordChar b

def Lexeme.ofPiece? : List Char → Option Lexeme
  | [] => none
  | c :: rest => if isWordChar c then some (ofRun (c :: rest)) else ofChar? c

namespace Token

/-- The tokens of consecutive pieces that start at `offset`. -/
def ofPieces (offset : Nat) : List (List Char) → List Token
  | [] => []
  | piece :: rest =>
    let later := ofPieces (offset + byteLength piece) rest
    match Lexeme.ofPiece? piece with
    | some lexeme => ⟨lexeme, offset⟩ :: later
    | none => later

def scan (text : String) : List Token :=
  ofPieces 0 (pieces text.toList)

end Token

end Sentential
