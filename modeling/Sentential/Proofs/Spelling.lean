import Sentential.Formula
import Sentential.Token.Lexer
import Mathlib.Data.List.SplitBy
import Mathlib.Data.List.Forall2

/-! # Spellings

There are many ways to write a formula down.  As lexemes (`Spells`) it may stand in any number of
parentheses and must stand in some where it does not bind tightly enough; as characters (`Writes`) a
connective may be its symbol or any of its aliases in any letter case, and blanks may stand anywhere
between two lexemes, and must between two runs of word characters.

Reading tokens undoes the second choice: the tokens of a text are the lexemes that it writes
(`Writes.lexemes_scan`), provided that its words are names.  Conversely the words among the tokens of
any text are names (`isName_of_mem_scan`).
-/

namespace Sentential

/-! ## Names -/

def blanks : List Char := [' ', '\t', '\n', '\r', '\x0b', '\x0c']

/-- A character that can be part of a name: no blank, no parenthesis and no connective. -/
def IsNameChar (c : Char) : Prop :=
  c ∉ blanks ∧ c ≠ '(' ∧ c ≠ ')' ∧ ∀ connective : Connective, c ≠ connective.symbol

structure IsName (name : String) : Prop where
  nonempty : name ≠ ""
  nameChars : ∀ c ∈ name.toList, IsNameChar c
  noAlias : Connective.ofAlias? name.toList = none

/-! ## Formulas as lexemes -/

/-- How tightly a binary connective binds.  Everything else binds tighter. -/
def BinaryOp.tightness : BinaryOp → Nat
  | .iff => 0
  | .implies | .impliedBy => 1
  | .or => 2
  | .and => 3

/-- Lexemes that spell a formula where nothing may bind less tightly than `level`. -/
inductive Spells : Nat → Formula → List Lexeme → Prop
  | atom {level : Nat} (name : String) : Spells level (.atom name) [.word name]
  /-- Only what binds tighter than every binary connective follows a negation bare. -/
  | not {level : Nat} {operand : Formula} {lexemes : List Lexeme} :
      Spells 4 operand lexemes → Spells level (.not operand) (.operator .not :: lexemes)
  /-- A left operand may bind as tightly as the connective, a right one must bind tighter. -/
  | binary {level : Nat} {op : BinaryOp} {left right : Formula} {before after : List Lexeme} :
      level ≤ op.tightness → Spells op.tightness left before →
        Spells (op.tightness + 1) right after →
          Spells level (.binary op left right) (before ++ .operator (.binary op) :: after)
  /-- In parentheses anything may stand, and parentheses may stand around anything. -/
  | parens {level : Nat} {formula : Formula} {lexemes : List Lexeme} :
      Spells 0 formula lexemes → Spells level formula (.openParen :: lexemes ++ [.closeParen])

/-! ## Lexemes as characters -/

/-- A lexeme that is written as a run of word characters. -/
inductive IsRun : Lexeme → List Char → Prop
  | name (name : String) : IsRun (.word name) name.toList
  /-- Each letter of an alias may be in upper case. -/
  | operator {word : String} {connective : Connective} {run : List Char} :
      (word, connective) ∈ Connective.aliases →
        List.Forall₂ (fun c letter => c = letter ∨ c = letter.toUpper) run word.toList →
          IsRun (.operator connective) run

/-- A lexeme that is written as a character that stands alone. -/
inductive IsSingle : Lexeme → Char → Prop
  | operator (connective : Connective) : IsSingle (.operator connective) connective.symbol
  | openParen : IsSingle .openParen '('
  | closeParen : IsSingle .closeParen ')'

/-- Characters that write lexemes; the flag says whether a run ends right before them. -/
inductive Writes : Bool → List Lexeme → List Char → Prop
  | nil {afterRun : Bool} : Writes afterRun [] []
  | blank {afterRun : Bool} {c : Char} {lexemes : List Lexeme} {text : List Char} :
      c ∈ blanks → Writes false lexemes text → Writes afterRun lexemes (c :: text)
  | single {afterRun : Bool} {c : Char} {lexeme : Lexeme} {lexemes : List Lexeme}
      {text : List Char} :
      IsSingle lexeme c → Writes false lexemes text → Writes afterRun (lexeme :: lexemes) (c :: text)
  | run {lexeme : Lexeme} {run : List Char} {lexemes : List Lexeme} {text : List Char} :
      IsRun lexeme run → Writes true lexemes text → Writes false (lexeme :: lexemes) (run ++ text)

/-! ## Characters -/

theorem head?_dropWhile (p : Char → Bool) (text : List Char) :
    ∀ c ∈ (text.dropWhile p).head?, p c = false := by
  intro c first
  have stopped := List.head?_dropWhile_not p text
  rw [Option.mem_def.1 first] at stopped
  simpa using stopped

theorem isBlank_iff (c : Char) : isBlank c = true ↔ c ∈ blanks := by
  simp [isBlank, blanks, or_assoc]

theorem isWordChar_iff (c : Char) : isWordChar c = true ↔ IsNameChar c := by
  have symbols : Connective.ofSymbol? c = none ↔ ∀ connective : Connective, c ≠ connective.symbol := by
    rw [Connective.ofSymbol?, List.find?_eq_none]
    constructor
    · intro none connective same
      exact none connective connective.mem_all (by simp [same])
    · intro other connective _
      exact fun same => other connective (beq_iff_eq.1 same).symm
  have alone : Lexeme.ofChar? c = none ↔
      c ≠ '(' ∧ c ≠ ')' ∧ ∀ connective : Connective, c ≠ connective.symbol := by
    rw [← symbols, Lexeme.ofChar?]
    by_cases isOpen : c = '('
    · simp [isOpen]
    · by_cases isClose : c = ')'
      · simp [isClose]
      · simp [isOpen, isClose]
  rw [isWordChar, Bool.and_eq_true, Bool.not_eq_true', ← Bool.not_eq_true, isBlank_iff,
    Option.isNone_iff_eq_none, alone, IsNameChar]

theorem isName_iff (name : String) : IsName name ↔
    name ≠ "" ∧ name.toList.all isWordChar = true ∧ Connective.ofAlias? name.toList = none := by
  simp only [List.all_eq_true, isWordChar_iff]
  exact ⟨fun named => ⟨named.nonempty, named.nameChars, named.noAlias⟩,
    fun ⟨nonempty, nameChars, noAlias⟩ => ⟨nonempty, nameChars, noAlias⟩⟩

theorem IsName.blank_not_mem {name : String} (named : IsName name) {c : Char} (blank : c ∈ blanks) :
    c ∉ name.toList :=
  fun member => (named.nameChars c member).1 blank

instance (name : String) : Decidable (IsName name) :=
  decidable_of_iff _ (isName_iff name).symm

theorem blanks_read : ∀ c ∈ blanks, isWordChar c = false ∧ Lexeme.ofChar? c = none := by
  have checked : (blanks.all fun c => !isWordChar c && (Lexeme.ofChar? c).isNone) = true := by decide
  intro c member
  simpa using List.all_eq_true.1 checked c member

theorem IsSingle.isWordChar_eq_false {lexeme : Lexeme} {c : Char} (single : IsSingle lexeme c) :
    isWordChar c = false := by
  rw [← Bool.not_eq_true, isWordChar_iff]
  rintro ⟨-, noOpen, noClose, noSymbol⟩
  cases single with
  | operator connective => exact noSymbol connective rfl
  | openParen => exact noOpen rfl
  | closeParen => exact noClose rfl

theorem IsSingle.ofChar?_eq {lexeme : Lexeme} {c : Char} (single : IsSingle lexeme c) :
    Lexeme.ofChar? c = some lexeme := by
  cases single with
  | operator connective =>
    have noParen : connective.symbol ≠ '(' ∧ connective.symbol ≠ ')' := by
      cases connective with
      | not => decide
      | binary op => cases op <;> decide
    rw [Lexeme.ofChar?, if_neg noParen.1, if_neg noParen.2, Connective.ofSymbol?_symbol]
    rfl
  | openParen => rfl
  | closeParen => rfl

theorem aliases_letters : ∀ entry ∈ Connective.aliases, ∀ letter ∈ entry.1.toList,
    isWordChar letter = true ∧ isWordChar letter.toUpper = true ∧
      letter.toLower = letter ∧ letter.toUpper.toLower = letter := by
  have checked : (Connective.aliases.all fun entry => entry.1.toList.all fun letter =>
      isWordChar letter && isWordChar letter.toUpper && letter.toLower == letter &&
        letter.toUpper.toLower == letter) = true := by
    decide
  intro entry listed letter member
  have read := List.all_eq_true.1 (List.all_eq_true.1 checked entry listed) letter member
  simpa only [Bool.and_eq_true, beq_iff_eq, and_assoc] using read

theorem aliases_lookup : ∀ entry ∈ Connective.aliases,
    entry.1.toList ≠ [] ∧ Connective.aliases.lookup entry.1 = some entry.2 := by
  decide

/-- What holds of letters in both cases holds of a text that writes them in either, and the text is
    lowered to the letters. -/
theorem letters_read {p : Char → Prop} {run letters : List Char}
    (written : List.Forall₂ (fun c letter => c = letter ∨ c = letter.toUpper) run letters)
    (lower : ∀ letter ∈ letters, p letter ∧ p letter.toUpper ∧
      letter.toLower = letter ∧ letter.toUpper.toLower = letter) :
    (∀ c ∈ run, p c) ∧ run.map Char.toLower = letters := by
  induction written with
  | nil => exact ⟨by simp, rfl⟩
  | @cons c letter run letters same later ih =>
    obtain ⟨holds, holdsUpper, lowered, loweredUpper⟩ := lower letter (.head _)
    obtain ⟨rest, restLowered⟩ := ih fun letter member => lower letter (.tail _ member)
    rw [List.forall_mem_cons, List.map_cons, restLowered]
    rcases same with rfl | rfl
    · exact ⟨⟨holds, rest⟩, by rw [lowered]⟩
    · exact ⟨⟨holdsUpper, rest⟩, by rw [loweredUpper]⟩

theorem IsRun.isWordChar {lexeme : Lexeme} {run : List Char} (isRun : IsRun lexeme run)
    (named : ∀ name, lexeme = .word name → IsName name) : ∀ c ∈ run, isWordChar c = true := by
  intro c member
  cases isRun with
  | name name => exact (isWordChar_iff c).2 ((named name rfl).nameChars c member)
  | @operator word connective _ listed letters =>
    exact (letters_read letters (aliases_letters _ listed)).1 c member

theorem IsRun.ne_nil {lexeme : Lexeme} {run : List Char} (isRun : IsRun lexeme run)
    (named : ∀ name, lexeme = .word name → IsName name) : run ≠ [] := by
  cases isRun with
  | name name => exact fun empty => (named name rfl).nonempty (String.toList_eq_nil_iff.1 empty)
  | @operator word connective _ listed letters =>
    intro empty
    rw [empty, List.forall₂_nil_left_iff] at letters
    exact (aliases_lookup _ listed).1 letters

theorem IsRun.ofRun_eq {lexeme : Lexeme} {run : List Char} (isRun : IsRun lexeme run)
    (named : ∀ name, lexeme = .word name → IsName name) : Lexeme.ofRun run = lexeme := by
  cases isRun with
  | name name => simp only [Lexeme.ofRun, (named name rfl).noAlias, String.ofList_toList]
  | @operator word connective _ listed letters =>
    have lower : run.map Char.toLower = word.toList :=
      (letters_read letters (aliases_letters _ listed)).2
    have found : Connective.ofAlias? run = some connective := by
      rw [Connective.ofAlias?, lower, String.ofList_toList]
      exact (aliases_lookup _ listed).2
    simp only [Lexeme.ofRun, found]

/-! ## The tokens of a text -/

theorem pieces_single {c : Char} (single : isWordChar c = false) (text : List Char) :
    pieces (c :: text) = [c] :: pieces text := by
  rw [pieces, ← List.singleton_append, List.splitBy_append]
  · rfl
  · intro a last b _
    obtain rfl : c = a := by simpa using last
    simp [single]

theorem pieces_run {run text : List Char} (nonempty : run ≠ [])
    (word : ∀ c ∈ run, isWordChar c = true) (ends : ∀ c ∈ text.head?, isWordChar c = false) :
    pieces (run ++ text) = run :: pieces text := by
  have chain : run.IsChain fun a b => (isWordChar a && isWordChar b) = true := by
    apply List.Pairwise.isChain
    apply List.pairwise_of_forall_mem_list
    intro a inRun b inRun'
    simp [word a inRun, word b inRun']
  rw [pieces, List.splitBy_append, List.splitBy_of_isChain nonempty chain]
  · rfl
  · intro a _ b first
    simp [ends b first]

theorem Writes.head_isWordChar {lexemes : List Lexeme} {text : List Char}
    (writes : Writes true lexemes text) : ∀ c ∈ text.head?, isWordChar c = false := by
  intro c first
  cases writes with
  | nil => simp at first
  | @blank _ head _ _ blank later =>
    obtain rfl : head = c := by simpa using first
    exact (blanks_read head blank).1
  | @single _ head _ _ _ single later =>
    obtain rfl : head = c := by simpa using first
    exact single.isWordChar_eq_false

/-- The tokens of a text are the lexemes that it writes. -/
theorem Writes.lexemes_ofPieces {afterRun : Bool} {lexemes : List Lexeme} {text : List Char}
    (writes : Writes afterRun lexemes text) (named : ∀ name, .word name ∈ lexemes → IsName name)
    (offset : Nat) : (Token.ofPieces offset (pieces text)).map Token.lexeme = lexemes := by
  induction writes generalizing offset with
  | nil => rfl
  | @blank _ c lexemes text blank later ih =>
    obtain ⟨apart, silent⟩ := blanks_read c blank
    simp [pieces_single apart, Token.ofPieces, Lexeme.ofPiece?, apart, silent, ih named]
  | @single _ c lexeme lexemes text single later ih =>
    have tail := ih fun name member => named name (.tail _ member)
    have apart := single.isWordChar_eq_false
    simp [pieces_single apart, Token.ofPieces, Lexeme.ofPiece?, apart, single.ofChar?_eq, tail]
  | @run lexeme run lexemes text isRun later ih =>
    have tail := ih fun name member => named name (.tail _ member)
    have name : ∀ name, lexeme = .word name → IsName name :=
      fun name same => named name (same ▸ .head _)
    -- what follows a run is no word character, so the run is a piece of its own
    have word := isRun.isWordChar name
    have nonempty := isRun.ne_nil name
    have piece : Lexeme.ofPiece? run = some lexeme := by
      cases run with
      | nil => exact absurd rfl nonempty
      | cons c rest =>
        rw [Lexeme.ofPiece?, if_pos (word c (.head _)), isRun.ofRun_eq name]
    simp [pieces_run nonempty word later.head_isWordChar, Token.ofPieces, piece, tail]

theorem Writes.lexemes_scan {lexemes : List Lexeme} {text : String}
    (writes : Writes false lexemes text.toList) (named : ∀ name, .word name ∈ lexemes → IsName name) :
    (Token.scan text).map Token.lexeme = lexemes :=
  writes.lexemes_ofPieces named 0

/-! ## The words of any text -/

theorem exists_piece_of_mem_ofPieces {offset : Nat} {pieces : List (List Char)} {token : Token}
    (member : token ∈ Token.ofPieces offset pieces) :
    ∃ piece ∈ pieces, Lexeme.ofPiece? piece = some token.lexeme := by
  induction pieces generalizing offset with
  | nil => simp [Token.ofPieces] at member
  | cons piece rest ih =>
    rw [Token.ofPieces] at member
    cases read : Lexeme.ofPiece? piece with
    | none =>
      obtain ⟨other, inRest, otherRead⟩ := ih (by simpa only [read] using member)
      exact ⟨other, .tail _ inRest, otherRead⟩
    | some lexeme =>
      simp only [read] at member
      rcases List.mem_cons.1 member with rfl | later
      · exact ⟨piece, .head _, read⟩
      · obtain ⟨other, inRest, otherRead⟩ := ih later
        exact ⟨other, .tail _ inRest, otherRead⟩

theorem isWordChar_of_mem_piece {text : List Char} {c : Char} {rest : List Char}
    (piece : c :: rest ∈ pieces text) (head : isWordChar c = true) :
    ∀ other ∈ c :: rest, isWordChar other = true := by
  have chain := List.isChain_of_mem_splitBy piece
  clear piece
  induction rest generalizing c with
  | nil => simpa using head
  | cons next rest ih =>
    -- two neighbours of a piece are both word characters
    obtain ⟨together, later⟩ := List.isChain_cons_cons.1 chain
    rw [Bool.and_eq_true] at together
    exact List.forall_mem_cons.2 ⟨head, ih together.2 later⟩

theorem ofChar?_ne_word (c : Char) (name : String) : Lexeme.ofChar? c ≠ some (.word name) := by
  rw [Lexeme.ofChar?]
  split
  · simp
  · split
    · simp
    · simp

/-- Every word among the tokens of a text is a name. -/
theorem isName_of_mem_scan {text : String} {token : Token} {name : String}
    (member : token ∈ Token.scan text) (word : token.lexeme = .word name) : IsName name := by
  obtain ⟨piece, inPieces, read⟩ := exists_piece_of_mem_ofPieces member
  rw [word] at read
  cases piece with
  | nil => simp [Lexeme.ofPiece?] at read
  | cons c rest =>
    rw [Lexeme.ofPiece?] at read
    split at read
    · rename_i wordChar
      have wordChars := isWordChar_of_mem_piece inPieces wordChar
      rw [Lexeme.ofRun, Option.some.injEq] at read
      cases found : Connective.ofAlias? (c :: rest) with
      | some connective => simp [found] at read
      | none =>
        obtain rfl : String.ofList (c :: rest) = name := by simpa [found] using read
        refine ⟨?_, ?_, ?_⟩
        · simp
        · intro other inside
          rw [String.toList_ofList] at inside
          exact (isWordChar_iff other).1 (wordChars other inside)
        · rw [String.toList_ofList]
          exact found
    · exact absurd read (ofChar?_ne_word c name)

end Sentential
