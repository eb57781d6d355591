import Sentential.Proofs.Balance
import Mathlib.Tactic.ByContra

/-! # Where names and places come from

Nesting, like everything after it, never looks inside a name or at a place: reading words and
operators at their balances commutes with relabelling them (`ofEntries_relabel`).

This also tells where the names of a formula and the place of an error come from.  Relabel by a map
that fixes what the entries carry and moves everything else.  The entries stay the same, and so does
what they are read as; so a name or a place in it is one that the entries carry.
-/

namespace Sentential

/-! ## Relabelled tokens -/

def Lexeme.rename (rename : String → String) : Lexeme → Lexeme
  | .word name => .word (rename name)
  | .operator connective => .operator connective
  | .openParen => .openParen
  | .closeParen => .closeParen

def Token.relabel (rename : String → String) (move : Nat → Nat) (token : Token) : Token :=
  ⟨token.lexeme.rename rename, move token.offset⟩

namespace Layout

variable (rename : String → String) (move : Nat → Nat)

def relabel (layout : Layout) : Layout :=
  { layout with context := layout.context.map (Phrase.relabel rename move) }

theorem insert_relabel (layout : Layout) (balance : Int) (phrase : Phrase) :
    (layout.relabel rename move).insert balance (phrase.relabel rename move) =
      (layout.insert balance phrase).relabel rename move := by
  simp only [insert, put, lower, relabel, Phrase.wrap_relabel, Phrase.insertAt_relabel]

theorem read_relabel (layout : Layout) (entry : Token × Int) :
    (layout.relabel rename move).read (entry.1.relabel rename move, entry.2) =
      (layout.read entry).relabel rename move := by
  obtain ⟨⟨lexeme, offset⟩, balance⟩ := entry
  cases lexeme with
  | word name =>
    have inserted := insert_relabel rename move layout balance (.word name)
    rwa [Phrase.relabel_word] at inserted
  | operator connective =>
    have inserted := insert_relabel rename move layout balance (.operator connective offset)
    rwa [Phrase.relabel_operator] at inserted
  | openParen => rfl
  | closeParen => rfl

theorem ofEntries_relabel (entries : List (Token × Int)) :
    ofEntries (entries.map (Prod.map (Token.relabel rename move) id)) =
      (ofEntries entries).relabel rename move := by
  have steps (layout : Layout) :
      (entries.map (Prod.map (Token.relabel rename move) id)).foldl read
        (layout.relabel rename move) = (entries.foldl read layout).relabel rename move := by
    induction entries generalizing layout with
    | nil => rfl
    | cons entry rest ih =>
      have first := read_relabel rename move layout entry
      rw [List.map_cons, List.foldl_cons, List.foldl_cons, ← ih, ← first]
      rfl
  exact steps empty

end Layout

namespace Formula

/-- The formula that words and operators at their balances form. -/
def ofEntries (entries : List (Token × Int)) : Except ParseError Formula :=
  ofPhrases (Layout.ofEntries entries).context

theorem ofTokens_eq_ofEntries (tokens : List Token) :
    ofTokens tokens = ofEntries (Token.weigh 0 tokens) :=
  ofTokens_eq_ofPhrases_layout tokens

theorem ofEntries_relabel (rename : String → String) (move : Nat → Nat)
    (entries : List (Token × Int)) :
    ofEntries (entries.map (Prod.map (Token.relabel rename move) id)) =
      relabelOutcome rename move (ofEntries entries) := by
  rw [ofEntries, ofEntries, Layout.ofEntries_relabel, ← ofPhrases_relabel]
  rfl

theorem rename_id (formula : Formula) : formula.rename id = formula := by
  induction formula with
  | atom name => rfl
  | not operand ih => rw [rename, ih]
  | binary op left right leftIh rightIh => rw [rename, leftIh, rightIh]

theorem names_rename (rename : String → String) (formula : Formula) :
    (formula.rename rename).names = formula.names.map rename := by
  induction formula with
  | atom name => rfl
  | not operand ih => rw [Formula.rename, names, ih, names]
  | binary op left right leftIh rightIh =>
    rw [Formula.rename, names, leftIh, rightIh, names, List.map_append]

end Formula

theorem ParseError.offset?_relocate (move : Nat → Nat) (error : ParseError) :
    (error.relocate move).offset? = error.offset?.map move := by
  cases error <;> rfl

/-! ## Provenance -/

namespace Formula

theorem map_relabel_eq_self {rename : String → String} {move : Nat → Nat}
    {entries : List (Token × Int)}
    (names : ∀ entry ∈ entries, ∀ name, entry.1.lexeme = .word name → rename name = name)
    (offsets : ∀ entry ∈ entries, move entry.1.offset = entry.1.offset) :
    entries.map (Prod.map (Token.relabel rename move) id) = entries := by
  have fixed : ∀ entry ∈ entries, Prod.map (Token.relabel rename move) id entry = entry := by
    rintro ⟨⟨lexeme, offset⟩, balance⟩ member
    have place : move offset = offset := offsets _ member
    cases lexeme with
    | word name => simp [Token.relabel, Lexeme.rename, place, names _ member name rfl]
    | operator connective => simp [Token.relabel, Lexeme.rename, place]
    | openParen => simp [Token.relabel, Lexeme.rename, place]
    | closeParen => simp [Token.relabel, Lexeme.rename, place]
  rw [List.map_congr_left fixed, List.map_id']

/-- A name in a formula is that of a word that was read. -/
theorem word_of_mem_names {entries : List (Token × Int)} {formula : Formula}
    (read : ofEntries entries = .ok formula) {name : String} (member : name ∈ formula.names) :
    ∃ entry ∈ entries, entry.1.lexeme = .word name := by
  by_contra absent
  -- the name is replaced by a longer one, and no entry has it
  let rename (other : String) : String := if other = name then other.push 'x' else other
  have same : entries.map (Prod.map (Token.relabel rename id) id) = entries := by
    apply map_relabel_eq_self
    · intro entry inside other word
      have different : other ≠ name := fun equal => absent ⟨entry, inside, equal ▸ word⟩
      exact if_neg different
    · intro entry inside
      rfl
  have renamed := ofEntries_relabel rename id entries
  rw [same, read, relabelOutcome, Except.ok.injEq] at renamed
  rw [renamed, names_rename, List.mem_map] at member
  obtain ⟨other, -, equal⟩ := member
  by_cases different : other = name
  · simp only [rename, if_pos different] at equal
    have longer := congrArg String.length equal
    rw [String.length_push, different] at longer
    omega
  · exact different (by simpa only [rename, if_neg different] using equal)

/-- The place of an error is that of a token that was read. -/
theorem token_of_offset? {entries : List (Token × Int)} {error : ParseError}
    (read : ofEntries entries = .error error) {offset : Nat} (known : error.offset? = some offset) :
    ∃ entry ∈ entries, entry.1.offset = offset := by
  by_contra absent
  -- the place is moved on, and no entry has it
  let move (other : Nat) : Nat := if other = offset then other + 1 else other
  have same : entries.map (Prod.map (Token.relabel id move) id) = entries := by
    apply map_relabel_eq_self
    · intro entry inside name word
      rfl
    · intro entry inside
      have different : entry.1.offset ≠ offset := fun equal => absent ⟨entry, inside, equal⟩
      exact if_neg different
  have moved := ofEntries_relabel id move entries
  rw [same, read, relabelOutcome, Except.error.injEq] at moved
  have place := ParseError.offset?_relocate move error
  rw [← moved, known, Option.map_some, Option.some.injEq] at place
  simp only [move, if_pos] at place
  omega

end Formula

end Sentential
