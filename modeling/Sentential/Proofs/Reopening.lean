import Sentential.Proofs.RelativeDepth
import Mathlib.Data.List.Infix

/-! # Reopening makes no difference

An opening parenthesis after a lone group reopens that group.  A grouper that only counts its opening
parentheses leaves the group where it is, so from then on it has one more group around everything, and
stands one group deeper.  A closing parenthesis may take the difference away again: where the one has
nothing left to close and wraps what it has, the other comes out of a group that it still has.

`DeeperBy` says how the two stand to each other after every token.  How deep the plain grouper is in
the end bounds the number of groups that it has too many, so after balanced parentheses it has none
(`depth_foldl_stepPlain_of_balanced`).  Groups around everything pass through the later stages, and the
shape check looks through them.
-/

namespace Sentential

namespace Nesting

/-- Reads one token, with opening parentheses that only make the next phrase land deeper. -/
def stepPlain (nesting : Nesting) (token : Token) : Nesting :=
  match token.lexeme with
  | .openParen => { nesting with depth := nesting.depth + 1 }
  | .closeParen | .word _ | .operator _ => nesting.step token

/-- One nesting has a number of groups around the context of another, and stands that much deeper. -/
structure DeeperBy (count : Nat) (deeper nesting : Nesting) : Prop where
  context : deeper.context = Phrase.wrap count nesting.context
  depth : deeper.depth = nesting.depth + count

namespace DeeperBy

variable {count : Nat} {deeper nesting : Nesting}

theorem insert (deep : DeeperBy count deeper nesting) (phrase : Phrase) :
    DeeperBy count (deeper.insert phrase) (nesting.insert phrase) where
  context := by
    simp only [Nesting.insert, deep.context, deep.depth, Phrase.insertAt_wrap]
  depth := deep.depth

/-- Every group that is reopened is one more group around everything for the plain grouper. -/
theorem openGroup (deep : DeeperBy count deeper nesting) :
    ∃ more, DeeperBy more { deeper with depth := deeper.depth + 1 } nesting.openGroup := by
  obtain ⟨reopened, less, inner⟩ := reopen_lower (nesting.depth + 1) nesting.context
  refine ⟨count + reopened, ?_, ?_⟩
  · rw [Phrase.wrap_add]
    exact deep.context.trans (congrArg (Phrase.wrap count) inner)
  · have depth := deep.depth
    simp only [Nesting.openGroup]
    omega

theorem closeGroup (deep : DeeperBy count deeper nesting) (offset : Nat) :
    ∃ fewer, DeeperBy fewer (deeper.closeGroup offset) (nesting.closeGroup offset) := by
  obtain ⟨context, depth, unmatched⟩ := deeper
  obtain ⟨inner, level, unmatched'⟩ := nesting
  obtain ⟨rfl, rfl⟩ : context = Phrase.wrap count inner ∧ depth = level + count :=
    ⟨deep.context, deep.depth⟩
  cases level with
  | succ level =>
    rw [Nat.add_right_comm level 1 count]
    exact ⟨count, rfl, rfl⟩
  | zero =>
    cases count with
    | zero => exact ⟨0, rfl, rfl⟩
    | succ count =>
      -- the one wraps its context, and the other has a group there already
      rw [Nat.zero_add]
      exact ⟨count, Phrase.wrap_add count 1 inner, (Nat.zero_add count).symm⟩

theorem step (deep : DeeperBy count deeper nesting) (token : Token) :
    ∃ next, DeeperBy next (deeper.stepPlain token) (nesting.step token) := by
  obtain ⟨lexeme, offset⟩ := token
  cases lexeme with
  | openParen => exact deep.openGroup
  | closeParen => exact deep.closeGroup offset
  | word name => exact ⟨count, deep.insert (.word name)⟩
  | operator connective => exact ⟨count, deep.insert (.operator connective offset)⟩

theorem foldl_step (deep : DeeperBy count deeper nesting) (tokens : List Token) :
    ∃ last, DeeperBy last (tokens.foldl stepPlain deeper) (tokens.foldl Nesting.step nesting) := by
  induction tokens generalizing count deeper nesting with
  | nil => exact ⟨count, deep⟩
  | cons token rest ih =>
    obtain ⟨next, stepped⟩ := deep.step token
    exact ih stepped

theorem exists_deeperBy (tokens : List Token) :
    ∃ count, DeeperBy count (tokens.foldl stepPlain start) (ofTokens tokens) :=
  foldl_step (⟨rfl, rfl⟩ : DeeperBy 0 start start) tokens

end DeeperBy

end Nesting

/-! ## Balanced parentheses -/

namespace Token

/-- From the left never more parentheses are closed than are opened, and in the end as many are. -/
structure Balanced (tokens : List Token) : Prop where
  above : ∀ front, front <+: tokens → 0 ≤ net front
  settled : net tokens = 0

instance (tokens : List Token) : Decidable (Balanced tokens) :=
  decidable_of_iff ((∀ front ∈ tokens.inits, 0 ≤ net front) ∧ net tokens = 0)
    ⟨fun ⟨above, settled⟩ => ⟨fun front begins => above front ((List.mem_inits _ _).2 begins), settled⟩,
      fun balanced => ⟨fun front begins => balanced.above front ((List.mem_inits _ _).1 begins),
        balanced.settled⟩⟩

end Token

namespace Nesting

theorem depth_stepPlain (nesting : Nesting) (token : Token)
    (above : 0 ≤ nesting.depth + Token.net [token]) :
    ((nesting.stepPlain token).depth : Int) = nesting.depth + Token.net [token] := by
  obtain ⟨lexeme, offset⟩ := token
  obtain ⟨context, depth, unmatched⟩ := nesting
  cases lexeme with
  | openParen =>
    rw [Token.net_openParen]
    rfl
  | closeParen =>
    rw [Token.net_closeParen] at above ⊢
    cases depth with
    | zero => simp at above
    | succ depth =>
      show (depth : Int) = (depth + 1 : Nat) + -1
      omega
  | word name => simp [stepPlain, step, insert, Token.net]
  | operator connective => simp [stepPlain, step, insert, Token.net]

/-- The depth of the plain grouper is the balance, as long as that is not below the ground. -/
theorem depth_foldl_stepPlain (tokens : List Token) (nesting : Nesting)
    (above : ∀ front, front <+: tokens → 0 ≤ nesting.depth + Token.net front) :
    ((tokens.foldl stepPlain nesting).depth : Int) = nesting.depth + Token.net tokens := by
  induction tokens generalizing nesting with
  | nil => simp [Token.net]
  | cons token rest ih =>
    have stepped := depth_stepPlain nesting token (above [token] ⟨rest, rfl⟩)
    rw [List.foldl_cons, ih, stepped, Int.add_assoc, ← Token.net_cons]
    intro front begins
    have longer := above (token :: front) ((List.prefix_cons_inj token).2 begins)
    rwa [stepped, Int.add_assoc, ← Token.net_cons]

theorem depth_foldl_stepPlain_of_balanced {tokens : List Token} (balanced : Token.Balanced tokens) :
    (tokens.foldl stepPlain start).depth = 0 := by
  have ground : (start.depth : Int) = 0 := rfl
  have level := depth_foldl_stepPlain tokens start fun front begins => by
    rw [ground, Int.zero_add]
    exact balanced.above front begins
  rw [ground, balanced.settled] at level
  exact Int.ofNat_eq_zero.1 level

end Nesting

namespace Phrase

/-- The phrases that tokens form when no group is reopened. -/
def nestPlain (tokens : List Token) : List Phrase :=
  (tokens.foldl Nesting.stepPlain Nesting.start).context

end Phrase

namespace Formula

open Phrase

/-- Whether groups are reopened makes no difference but for groups around everything, which the
    later stages keep and the shape check does not see.  There are none when the parentheses are
    balanced. -/
theorem nestPlain_eq_wrap_nest (tokens : List Token) :
    ∃ count,
      nestPlain tokens = wrap count (nest tokens) ∧
      (Token.Balanced tokens → count = 0) ∧
      bindNegations (nestPlain tokens) = wrap count (bindNegations (nest tokens)) ∧
      splitAll (bindNegations (nestPlain tokens)) =
        wrap count (splitAll (bindNegations (nest tokens))) ∧
      ofPhrases (nestPlain tokens) = ofPhrases (nest tokens) ∧
      ∀ table, storePhrase (.group (splitAll (bindNegations (nestPlain tokens)))) table =
        storePhrase (.group (splitAll (bindNegations (nest tokens)))) table := by
  obtain ⟨count, deep⟩ :=
    Nesting.DeeperBy.foldl_step (⟨rfl, rfl⟩ : Nesting.DeeperBy 0 .start .start) tokens
  have nested : nestPlain tokens = wrap count (nest tokens) := deep.context
  have bound : bindNegations (nestPlain tokens) = wrap count (bindNegations (nest tokens)) := by
    rw [nested, bindNegations_wrap]
  have split : splitAll (bindNegations (nestPlain tokens)) =
      wrap count (splitAll (bindNegations (nest tokens))) := by
    rw [bound, splitAll_wrap]
  refine ⟨count, nested, fun balanced => ?_, bound, split, ?_, fun table => ?_⟩
  · have depth := deep.depth
    rw [Nesting.depth_foldl_stepPlain_of_balanced balanced] at depth
    omega
  · rw [nested, ofPhrases_wrap]
  · rw [storePhrase_group_eq_map, storePhrase_group_eq_map, nested, ofPhrases_wrap]

/-- The second group is read into the first, and the last parenthesis has nothing to close. -/
theorem nestPlain_eq_wrap_nest_juxtaposed :
    Token.Balanced (Token.scan "(a)(b)") ∧
      nestPlain (Token.scan "(a)(b)") = nest (Token.scan "(a)(b)") := by
  have balanced : Token.Balanced (Token.scan "(a)(b)") := by decide +kernel
  obtain ⟨count, same, level, -⟩ := nestPlain_eq_wrap_nest (Token.scan "(a)(b)")
  rw [level balanced] at same
  exact ⟨balanced, same⟩

-- a group that is not closed stays around everything
example : nestPlain (Token.scan "(a)(b") = wrap 1 (nest (Token.scan "(a)(b")) := by rfl

end Formula

end Sentential
