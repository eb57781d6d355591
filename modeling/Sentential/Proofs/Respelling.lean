import Sentential.Proofs.RelativeDepth
import Sentential.Proofs.Spelling

/-! # Other spellings of the same tokens

Reading tokens commutes with giving the words other names and the tokens other places, stage by stage.
For nesting this is a step lemma (`Nesting.step_relabel`) and a run over the tokens
(`Nesting.ofTokens_relabel`); the later stages are those of `ofPhrases_relabel`, and what is stored at
the end is the same table with other names in it.

So two lists of tokens that say the same are read alike, wherever the tokens stand: both are the list
that has every token at its own position, with the positions moved (`Token.ofPositions_relabel`).
-/

namespace Sentential

/-! ## Nesting commutes with relabelling -/

namespace Nesting

variable (rename : String → String) (move : Nat → Nat)

def relabel (nesting : Nesting) : Nesting where
  context := nesting.context.map (Phrase.relabel rename move)
  depth := nesting.depth
  unmatched := nesting.unmatched.map move

theorem reopen_relabel (depth : Nat) (context : List Phrase) :
    reopen depth (context.map (Phrase.relabel rename move)) =
      ((reopen depth context).1, (reopen depth context).2.map (Phrase.relabel rename move)) := by
  fun_induction reopen depth context with
  | case1 depth members ih => simpa [reopen] using ih
  | case2 depth context noGroup =>
    rw [reopen]
    -- relabelled phrases are a lone group only where the phrases are
    intro less members equal shape
    obtain ⟨phrase, rfl, same⟩ := List.map_eq_singleton_iff.1 shape
    cases phrase with
    | word name => simp at same
    | operator connective offset => simp at same
    | group inner => exact noGroup less inner equal rfl

theorem openGroup_relabel (nesting : Nesting) :
    (nesting.relabel rename move).openGroup = nesting.openGroup.relabel rename move := by
  simp only [openGroup, relabel, reopen_relabel]

theorem closeGroup_relabel (nesting : Nesting) (offset : Nat) :
    (nesting.relabel rename move).closeGroup (move offset) =
      (nesting.closeGroup offset).relabel rename move := by
  obtain ⟨context, depth, unmatched⟩ := nesting
  cases depth <;> simp [closeGroup, relabel]

theorem insert_relabel (nesting : Nesting) (phrase : Phrase) :
    (nesting.relabel rename move).insert (phrase.relabel rename move) =
      (nesting.insert phrase).relabel rename move := by
  simp only [insert, relabel, Phrase.insertAt_relabel]

theorem step_relabel (nesting : Nesting) (token : Token) :
    (nesting.relabel rename move).step (token.relabel rename move) =
      (nesting.step token).relabel rename move := by
  obtain ⟨lexeme, offset⟩ := token
  cases lexeme with
  | openParen => exact openGroup_relabel rename move nesting
  | closeParen => exact closeGroup_relabel rename move nesting offset
  | word name =>
    have inserted := insert_relabel rename move nesting (.word name)
    rwa [Phrase.relabel_word] at inserted
  | operator connective =>
    have inserted := insert_relabel rename move nesting (.operator connective offset)
    rwa [Phrase.relabel_operator] at inserted

theorem foldl_step_relabel (tokens : List Token) (nesting : Nesting) :
    (tokens.map (Token.relabel rename move)).foldl step (nesting.relabel rename move) =
      (tokens.foldl step nesting).relabel rename move := by
  induction tokens generalizing nesting with
  | nil => rfl
  | cons token rest ih => rw [List.map_cons, List.foldl_cons, List.foldl_cons, step_relabel, ih]

theorem ofTokens_relabel (tokens : List Token) :
    ofTokens (tokens.map (Token.relabel rename move)) = (ofTokens tokens).relabel rename move :=
  foldl_step_relabel rename move tokens start

end Nesting

theorem Phrase.nest_relabel (rename : String → String) (move : Nat → Nat) (tokens : List Token) :
    nest (tokens.map (Token.relabel rename move)) = (nest tokens).map (relabel rename move) := by
  rw [nest, Nesting.ofTokens_relabel, nest, Nesting.relabel]

/-! ## What is stored -/

def Node.rename (rename : String → String) : Node → Node
  | .atom name => .atom (rename name)
  | .not operand => .not operand
  | .binary op left right => .binary op left right

namespace Formula

variable (rename : String → String) (move : Nat → Nat)

/-- An outcome of storing with other names in the table, or at another place in the error. -/
def relabelStored :
    Except ParseError (List Node × Nat) → Except ParseError (List Node × Nat)
  | .ok (table, root) => .ok (table.map (Node.rename rename), root)
  | .error error => .error (error.relocate move)

theorem size_rename (formula : Formula) : (formula.rename rename).size = formula.size := by
  induction formula with
  | atom name => rfl
  | not operand ih => rw [Formula.rename, size, ih, size]
  | binary op left right leftIh rightIh => rw [Formula.rename, size, leftIh, rightIh, size]

theorem postorder_rename (formula : Formula) (start : Nat) :
    (formula.rename rename).postorder start =
      (formula.postorder start).map (Node.rename rename) := by
  induction formula generalizing start with
  | atom name => rfl
  | not operand ih => simp [Formula.rename, postorder, ih, size_rename, Node.rename]
  | binary op left right leftIh rightIh =>
    simp [Formula.rename, postorder, leftIh, rightIh, size_rename, Node.rename]

theorem store_rename (formula : Formula) (table : List Node) :
    (formula.rename rename).store (table.map (Node.rename rename)) =
      ((formula.store table).1.map (Node.rename rename), (formula.store table).2) := by
  simp only [store_eq_postorder, postorder_rename, size_rename, List.length_map, List.map_append]

theorem storePhrase_relabel (phrase : Phrase) (table : List Node) :
    storePhrase (phrase.relabel rename move) (table.map (Node.rename rename)) =
      relabelStored rename move (storePhrase phrase table) := by
  rw [storePhrase, ofPhrase_relabel, storePhrase]
  cases ofPhrase phrase with
  | ok formula => simp only [relabelOutcome, Except.map, store_rename, relabelStored]
  | error error => rfl

open Phrase (nest bindNegations splitAll) in
theorem storePhrase_tokens_relabel (tokens : List Token) :
    storePhrase (.group (splitAll (bindNegations (nest (tokens.map (Token.relabel rename move)))))) [] =
      relabelStored rename move
        (storePhrase (.group (splitAll (bindNegations (nest tokens)))) []) := by
  rw [Phrase.nest_relabel, Phrase.bindNegations_relabel, Phrase.splitAll_relabel,
    ← Phrase.relabel_group]
  exact storePhrase_relabel rename move _ []

theorem ofTokens_relabel (tokens : List Token) :
    ofTokens (tokens.map (Token.relabel rename move)) =
      relabelOutcome rename move (ofTokens tokens) := by
  rw [ofTokens, Phrase.nest_relabel, ofPhrases_relabel, ofTokens]

end Formula

/-! ## Tokens that say the same -/

namespace Token

/-- Lexemes as tokens, each at its position in the list. -/
def ofPositions (lexemes : List Lexeme) : List Token :=
  lexemes.mapIdx fun index lexeme => ⟨lexeme, index⟩

def placeIn (tokens : List Token) (index : Nat) : Nat :=
  (tokens[index]?.map Token.offset).getD 0

theorem relabel_id (move : Nat → Nat) (token : Token) :
    token.relabel id move = ⟨token.lexeme, move token.offset⟩ := by
  obtain ⟨lexeme, offset⟩ := token
  cases lexeme <;> rfl

/-- Moved to the places of some tokens, the positions of their lexemes give back the tokens. -/
theorem ofPositions_relabel (tokens : List Token) :
    (ofPositions (tokens.map lexeme)).map (relabel id (placeIn tokens)) = tokens := by
  apply List.ext_getElem
  · simp [ofPositions]
  · intro index bound bound'
    simp [ofPositions, relabel_id, placeIn, bound']

end Token

/-- Two places are unknown, or those of the tokens at one position in two lists. -/
inductive SamePosition (first second : List Token) : Option Nat → Option Nat → Prop
  | unknown : SamePosition first second none none
  | known {index : Nat} {token token' : Token} :
      first[index]? = some token → second[index]? = some token' →
        SamePosition first second (some token.offset) (some token'.offset)

/-- Two lists of tokens are read as the same formula, or refused for the same reason; then the place
    at fault is unknown for both, or the place of the same token. -/
inductive ReadAlike (first second : List Token) :
    Except ParseError Formula → Except ParseError Formula → Prop
  | formula (formula : Formula) : ReadAlike first second (.ok formula) (.ok formula)
  | error {error : ParseError} {move move' : Nat → Nat} :
      SamePosition first second (error.relocate move).offset? (error.relocate move').offset? →
        ReadAlike first second (.error (error.relocate move)) (.error (error.relocate move'))

namespace Formula

open Token (ofPositions placeIn)

theorem samePosition_placeIn {first second : List Token} (length : first.length = second.length)
    {index : Nat} (bound : index < first.length) :
    SamePosition first second (some (placeIn first index)) (some (placeIn second index)) := by
  have token : first[index]? = some first[index] := List.getElem?_eq_getElem bound
  have token' : second[index]? = some second[index] := List.getElem?_eq_getElem (length ▸ bound)
  simp only [placeIn, token, token', Option.map_some, Option.getD_some]
  exact .known token token'

theorem readAlike_of_lexemes {first second : List Token}
    (same : first.map Token.lexeme = second.map Token.lexeme) :
    ReadAlike first second (ofTokens first) (ofTokens second) := by
  have length : first.length = second.length := by simpa using congrArg List.length same
  have putBack (tokens : List Token) : ofTokens tokens =
      relabelOutcome id (placeIn tokens) (ofTokens (ofPositions (tokens.map Token.lexeme))) := by
    rw [← ofTokens_relabel, Token.ofPositions_relabel]
  rw [putBack first, putBack second, ← same]
  cases outcome : ofTokens (ofPositions (first.map Token.lexeme)) with
  | ok formula =>
    simp only [relabelOutcome, rename_id]
    exact .formula formula
  | error error =>
    apply ReadAlike.error
    rw [ParseError.offset?_relocate, ParseError.offset?_relocate]
    cases known : error.offset? with
    | none => exact .unknown
    | some index =>
      -- the place at fault is a position in the list
      rw [ofTokens_eq_ofEntries] at outcome
      obtain ⟨entry, inside, rfl⟩ := token_of_offset? outcome known
      have member := (Token.mem_of_mem_weigh inside).1
      obtain ⟨position, bound, token⟩ := List.mem_iff_getElem.1 member
      have here : position = entry.1.offset := by simp [← token, ofPositions]
      have bound : entry.1.offset < first.length := by simpa [ofPositions, here] using bound
      exact samePosition_placeIn length bound

open Phrase (nest bindNegations splitAll) in
/-- Other names and other places for the tokens give other names in what is stored, or another place
    in the error, and nothing else.  So two texts with the same lexemes are read alike, in particular
    two that write the same words, connectives and parentheses. -/
theorem reading_relabelled :
    (∀ (rename : String → String) (move : Nat → Nat) (tokens : List Token),
      storePhrase
          (.group (splitAll (bindNegations (nest (tokens.map (Token.relabel rename move)))))) [] =
        relabelStored rename move
          (storePhrase (.group (splitAll (bindNegations (nest tokens)))) []) ∧
      ofTokens (tokens.map (Token.relabel rename move)) =
        relabelOutcome rename move (ofTokens tokens)) ∧
    (∀ first second : String,
      (Token.scan first).map Token.lexeme = (Token.scan second).map Token.lexeme →
      ReadAlike (Token.scan first) (Token.scan second) (parse first) (parse second)) ∧
    ∀ (lexemes : List Lexeme) (first second : String),
      (∀ name, .word name ∈ lexemes → IsName name) →
      Writes false lexemes first.toList → Writes false lexemes second.toList →
      ReadAlike (Token.scan first) (Token.scan second) (parse first) (parse second) := by
  refine ⟨?_, ?_, ?_⟩
  · intro rename move tokens
    exact ⟨storePhrase_tokens_relabel rename move tokens, ofTokens_relabel rename move tokens⟩
  · intro first second same
    exact readAlike_of_lexemes same
  · intro lexemes first second named writes writes'
    apply readAlike_of_lexemes
    rw [writes.lexemes_scan named, writes'.lexemes_scan named]

theorem reading_relabelled_aliases :
    ReadAlike (Token.scan "p Or") (Token.scan " p∨") (parse "p Or") (parse " p∨") ∧
      ReadAlike (Token.scan "NOT\tp") (Token.scan "¬p") (parse "NOT\tp") (parse "¬p") := by
  have named : ∀ name, Lexeme.word name ∈ [.operator .not, .word "p"] → IsName name := by
    intro name member
    obtain rfl : name = "p" := by simpa using member
    have wordChars : "p".toList.all isWordChar = true := by decide
    exact ⟨by decide, fun c inside => (isWordChar_iff c).1 (List.all_eq_true.1 wordChars c inside),
      by decide⟩
  have letters : IsRun (.operator .not) ['N', 'O', 'T'] :=
    @IsRun.operator "not" _ _ (by decide) (by decide)
  have spelt : Writes false [.operator .not, .word "p"] "NOT\tp".toList :=
    .run letters <| .blank (by decide) <| .run (.name "p") .nil
  have symbol : Writes false [.operator .not, .word "p"] "¬p".toList :=
    .single (.operator .not) <| .run (.name "p") .nil
  exact ⟨reading_relabelled.2.1 _ _ (by decide +kernel),
    reading_relabelled.2.2 _ _ _ named spelt symbol⟩

end Formula

end Sentential
