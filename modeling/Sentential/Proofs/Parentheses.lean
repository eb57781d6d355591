import Sentential.Proofs.RoundTrip
import Sentential.Proofs.Scanning

/-! # The parentheses of a text

Whether a text is a formula, and which, can be told from its lexemes alone (`Formula.parse_eq_ok_iff`).
Their balances are those of the characters: parentheses are never part of a run, and nothing else is
read as a parenthesis.  So in a text whose parentheses are `Balanced` no lexeme stands below the ground,
and what comes after the text stands where the text began.
-/

namespace Sentential

/-! ## Tokens without their places -/

namespace Token

/-- Lexemes as tokens, all at one place. -/
def unplaced (lexemes : List Lexeme) : List Token :=
  lexemes.map fun lexeme => ⟨lexeme, 0⟩

theorem weigh_map_relabel (rename : String → String) (move : Nat → Nat) (balance : Int)
    (tokens : List Token) :
    weigh balance (tokens.map (relabel rename move)) =
      (weigh balance tokens).map (Prod.map (relabel rename move) id) := by
  induction tokens generalizing balance with
  | nil => rfl
  | cons token rest ih =>
    obtain ⟨lexeme, offset⟩ := token
    cases lexeme <;> simp [weigh, relabel, Lexeme.rename] <;> exact ih _

theorem map_relabel_scanFrom (offset : Nat) (text : List Char) :
    (scanFrom offset text).map (relabel id fun _ => 0) = unplaced (lexemes text) := by
  rw [← map_lexeme_scanFrom offset, unplaced, List.map_map]
  apply List.map_congr_left
  rintro ⟨lexeme, place⟩ -
  cases lexeme <;> rfl

theorem map_relabel_scan (text : String) :
    (scan text).map (relabel id fun _ => 0) = unplaced (lexemes text.toList) :=
  map_relabel_scanFrom 0 text.toList

theorem net_map_relabel (rename : String → String) (move : Nat → Nat) (tokens : List Token) :
    net (tokens.map (relabel rename move)) = net tokens := by
  have opens (token : Token) : (token.relabel rename move).lexeme = .openParen ↔
      token.lexeme = .openParen := by
    obtain ⟨lexeme, offset⟩ := token
    cases lexeme <;> simp [relabel, Lexeme.rename]
  have closes (token : Token) : (token.relabel rename move).lexeme = .closeParen ↔
      token.lexeme = .closeParen := by
    obtain ⟨lexeme, offset⟩ := token
    cases lexeme <;> simp [relabel, Lexeme.rename]
  simp only [net, List.countP_map, Function.comp_def, opens, closes]

end Token

open Token (weigh unplaced net)

namespace Formula

/-- A formula does not depend on where the tokens stand. -/
theorem ofEntries_scanFrom_eq_ok_iff (offset : Nat) (text : List Char) (formula : Formula) :
    ofEntries (weigh 0 (Token.scanFrom offset text)) = .ok formula ↔
      ofEntries (weigh 0 (unplaced (lexemes text))) = .ok formula := by
  rw [← Token.map_relabel_scanFrom offset, Token.weigh_map_relabel, ofEntries_relabel]
  cases ofEntries (weigh 0 (Token.scanFrom offset text)) with
  | error error => simp [relabelOutcome]
  | ok formula' => simp [relabelOutcome, rename_id]

theorem parse_eq_ok_iff (text : String) (formula : Formula) :
    parse text = .ok formula ↔ ofEntries (weigh 0 (unplaced (lexemes text.toList))) = .ok formula := by
  rw [parse, ofTokens_eq_ofEntries, Token.scan_eq_scanFrom, ofEntries_scanFrom_eq_ok_iff]

end Formula

/-! ## Balances of a text -/

theorem Lexeme.ofChar?_cases (c : Char) :
    (c = '(' ∧ ofChar? c = some .openParen) ∨ (c = ')' ∧ ofChar? c = some .closeParen) ∨
      (c ≠ '(' ∧ c ≠ ')' ∧ ∀ lexeme ∈ ofChar? c, lexeme.isParen = false) := by
  by_cases isOpen : c = '('
  · exact .inl ⟨isOpen, by simp [ofChar?, isOpen]⟩
  · by_cases isClose : c = ')'
    · exact .inr (.inl ⟨isClose, by simp [ofChar?, isClose]⟩)
    · refine .inr (.inr ⟨isOpen, isClose, fun lexeme member => ?_⟩)
      simp only [ofChar?, isOpen, isClose, if_false, Option.mem_def, Option.map_eq_some_iff] at member
      obtain ⟨connective, -, rfl⟩ := member
      rfl

theorem Lexeme.isParen_ofRun (run : List Char) : (ofRun run).isParen = false := by
  rw [ofRun]
  split <;> rfl

/-- For what is said about parentheses, the pieces of a text are parentheses and pieces without any. -/
@[elab_as_elim]
theorem paren_induction {motive : List Char → Prop} (text : List Char) (nil : motive [])
    (opened : ∀ rest, lexemes ('(' :: rest) = .openParen :: lexemes rest → motive rest →
      motive ('(' :: rest))
    (closed : ∀ rest, lexemes (')' :: rest) = .closeParen :: lexemes rest → motive rest →
      motive (')' :: rest))
    (quiet : ∀ piece rest said, piece.count '(' = 0 → piece.count ')' = 0 →
      (∀ lexeme ∈ said, lexeme.isParen = false) → lexemes (piece ++ rest) = said ++ lexemes rest →
        motive rest → motive (piece ++ rest)) : motive text := by
  induction text using piece_induction with
  | nil => exact nil
  | single c rest alone ih =>
    have said := lexemes_single alone rest
    rcases Lexeme.ofChar?_cases c with ⟨rfl, read⟩ | ⟨rfl, read⟩ | ⟨noOpen, noClose, read⟩
    · exact opened rest (by simpa [read] using said) ih
    · exact closed rest (by simpa [read] using said) ih
    · have absent {paren : Char} (other : c ≠ paren) : [c].count paren = 0 :=
        List.count_eq_zero.2 (by simpa using other.symm)
      exact quiet [c] rest _ (absent noOpen) (absent noClose) (by simpa using read) said ih
  | run run rest nonempty word ends ih =>
    -- a parenthesis is no word character
    have noParen (paren : Char) (apart : isWordChar paren = false) : run.count paren = 0 := by
      refine List.count_eq_zero.2 fun member => ?_
      rw [word paren member] at apart
      exact nomatch apart
    exact quiet run rest [.ofRun run] (noParen '(' (by decide)) (noParen ')' (by decide))
      (by simp [Lexeme.isParen_ofRun]) (lexemes_run nonempty word ends) ih

namespace Token

theorem weigh_of_noParens (balance : Int) {tokens : List Token}
    (noParens : ∀ token ∈ tokens, token.lexeme.isParen = false) :
    weigh balance tokens = tokens.map fun token => (token, balance) := by
  induction tokens with
  | nil => rfl
  | cons token rest ih =>
    obtain ⟨noParen, later⟩ := List.forall_mem_cons.1 noParens
    obtain ⟨lexeme, offset⟩ := token
    cases lexeme with
    | word name => rw [weigh, ih later, List.map_cons]
    | operator connective => rw [weigh, ih later, List.map_cons]
    | openParen => simp [Lexeme.isParen] at noParen
    | closeParen => simp [Lexeme.isParen] at noParen

theorem net_of_noParens {tokens : List Token}
    (noParens : ∀ token ∈ tokens, token.lexeme.isParen = false) : net tokens = 0 := by
  have absent (paren : Lexeme) (isParen : paren.isParen = true) :
      tokens.countP (fun token => token.lexeme = paren) = 0 := by
    refine List.countP_eq_zero.2 fun token member same => ?_
    rw [← of_decide_eq_true same, noParens token member] at isParen
    exact nomatch isParen
  rw [net, absent _ rfl, absent _ rfl]
  rfl

theorem unplaced_append (first second : List Lexeme) :
    unplaced (first ++ second) = unplaced first ++ unplaced second := List.map_append

theorem forall_mem_unplaced {lexemes : List Lexeme}
    (noParens : ∀ lexeme ∈ lexemes, lexeme.isParen = false) :
    ∀ token ∈ unplaced lexemes, token.lexeme.isParen = false := by
  simpa [unplaced] using noParens

end Token

theorem net_lexemes (text : List Char) :
    net (unplaced (lexemes text)) = text.count '(' - text.count ')' := by
  induction text using paren_induction with
  | nil => rfl
  | opened rest said ih =>
    simp [said, unplaced, net] at ih ⊢
    omega
  | closed rest said ih =>
    simp [said, unplaced, net] at ih ⊢
    omega
  | quiet piece rest said noOpen noClose noParens whole ih =>
    rw [whole, Token.unplaced_append, Token.net_append,
      Token.net_of_noParens (Token.forall_mem_unplaced noParens), ih]
    simp [noOpen, noClose]

/-- If from the left parentheses never close more than a balance and what is opened, no lexeme stands
    below the ground. -/
theorem ground_of_prefixes (text : List Char) (balance : Int)
    (above : ∀ front, front <+: text → (front.count ')' : Int) ≤ balance + front.count '(') :
    ∀ entry ∈ weigh balance (unplaced (lexemes text)), 0 ≤ entry.2 := by
  induction text using paren_induction generalizing balance with
  | nil => simp [unplaced, weigh]
  | opened rest said ih =>
    rw [said]
    refine ih (balance + 1) fun front begins => ?_
    have whole := above ('(' :: front) (by simpa using begins)
    simp at whole
    omega
  | closed rest said ih =>
    rw [said]
    refine ih (balance - 1) fun front begins => ?_
    have whole := above (')' :: front) (by simpa using begins)
    simp at whole
    omega
  | quiet piece rest said noOpen noClose noParens whole ih =>
    have inSaid := Token.forall_mem_unplaced noParens
    rw [whole, Token.unplaced_append, Token.weigh_append, Token.weigh_of_noParens _ inSaid,
      Token.net_of_noParens inSaid, Int.add_zero]
    intro entry member
    rcases List.mem_append.1 member with here | later
    · -- the empty prefix says that the balance itself is not below the ground
      obtain ⟨token, -, rfl⟩ := List.mem_map.1 here
      simpa using above [] List.nil_prefix
    · refine ih balance (fun front begins => ?_) entry later
      have extended := above (piece ++ front) ((List.prefix_append_right_inj piece).2 begins)
      simpa [List.count_append, noOpen, noClose] using extended

/-- As many parentheses are closed as are opened, and from the left never more. -/
structure Balanced (text : List Char) : Prop where
  above : ∀ front, front <+: text → front.count ')' ≤ front.count '('
  settled : text.count ')' = text.count '('

theorem Balanced.net_eq_zero {text : List Char} (balanced : Balanced text) :
    net (unplaced (lexemes text)) = 0 := by
  rw [net_lexemes, balanced.settled]
  omega

theorem Balanced.ground {text : List Char} (balanced : Balanced text) :
    ∀ entry ∈ weigh 0 (unplaced (lexemes text)), 0 ≤ entry.2 := by
  apply ground_of_prefixes
  intro front begins
  have closed := balanced.above front begins
  omega

theorem Balanced.net_scanFrom {text : List Char} (balanced : Balanced text) (offset : Nat) :
    net (Token.scanFrom offset text) = 0 := by
  rw [← Token.net_map_relabel id fun _ => 0, Token.map_relabel_scanFrom, balanced.net_eq_zero]

theorem Balanced.ground_scanFrom {text : List Char} (balanced : Balanced text) (offset : Nat) :
    ∀ entry ∈ weigh 0 (Token.scanFrom offset text), 0 ≤ entry.2 := by
  have ground := balanced.ground
  rw [← Token.map_relabel_scanFrom offset, Token.weigh_map_relabel, List.forall_mem_map] at ground
  exact ground

end Sentential
