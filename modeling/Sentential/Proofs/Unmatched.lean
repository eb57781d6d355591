import Sentential.Proofs.Parentheses
import Sentential.Proofs.Reopening
import Sentential.Trace
import Mathlib.Data.List.Induction

/-! # Closing parentheses with nothing to close

By the usual matching a closing parenthesis belongs to the nearest opening one before it that is still
unmatched.  The grouper reports a closing parenthesis when its depth is zero, and the depth is not the
number of parentheses that are still open: reopening a group lowers it.

How deep the grouper is can be told all the same (`depth_ofTokens`).  Its outermost list stands at the
balance that the tokens have reached, or at the lowest word or operator before the last opening
parenthesis if that is lower.  For up to there groups with nothing beside them were reopened, and since
then nothing was opened.  So what is reported are the closing parentheses below which no word or operator
stands before the last opening one (`unmatched_ofTokens`).

Every parenthesis without a match is among them, because reopening only ever lowers the depth.  Others
are reported too: the last parenthesis of `(¬(a))` closes the first one.
-/

namespace Sentential

namespace Token

/-! ## Matching -/

/-- Reads one token with the places of the opening parentheses that are unmatched so far, the nearest
    first.  A closing parenthesis matches the nearest. -/
def matchParen (opened : List Nat) (token : Token) : List Nat :=
  match token.lexeme with
  | .openParen => token.offset :: opened
  | .closeParen => opened.tail
  | .word _ | .operator _ => opened

/-- The places of the opening parentheses among tokens that are not matched, the nearest to the end
    first. -/
def unclosed (tokens : List Token) : List Nat :=
  tokens.foldl matchParen []

/-- The closing parentheses among tokens, each as the tokens before it and its place; `before` are the
    tokens that come first. -/
def closings (before : List Token) : List Token → List (List Token × Nat)
  | [] => []
  | token :: rest =>
    match token.lexeme with
    | .closeParen => (before, token.offset) :: closings (before ++ [token]) rest
    | .openParen | .word _ | .operator _ => closings (before ++ [token]) rest

def closingPlaces (holds : List Token → Prop) [DecidablePred holds] (tokens : List Token) : List Nat :=
  ((closings [] tokens).filter fun closing => holds closing.1).map Prod.snd

def unmatchedPlaces (tokens : List Token) : List Nat :=
  closingPlaces (fun before => unclosed before = []) tokens

theorem unclosed_append (tokens : List Token) (token : Token) :
    unclosed (tokens ++ [token]) = matchParen (unclosed tokens) token :=
  List.foldl_append

theorem closings_append (before tokens : List Token) (token : Token) :
    closings before (tokens ++ [token]) = closings before tokens ++ closings (before ++ tokens) [token] := by
  induction tokens generalizing before with
  | nil => simp only [List.nil_append, List.append_nil, closings]
  | cons first rest ih =>
    obtain ⟨lexeme, offset⟩ := first
    have rest_eq := ih (before ++ [⟨lexeme, offset⟩])
    rw [List.append_assoc, List.singleton_append] at rest_eq
    cases lexeme <;> simp only [List.cons_append, closings, rest_eq]

section

variable {holds also : List Token → Prop} [DecidablePred holds] [DecidablePred also]

theorem closingPlaces_append (tokens : List Token) (token : Token) :
    closingPlaces holds (tokens ++ [token]) = closingPlaces holds tokens ++
      if token.lexeme = .closeParen ∧ holds tokens then [token.offset] else [] := by
  obtain ⟨lexeme, offset⟩ := token
  rw [closingPlaces, closings_append, List.filter_append, List.map_append, ← closingPlaces]
  congr 1
  cases lexeme with
  | closeParen => by_cases here : holds tokens <;> simp [closings, here]
  | openParen => rfl
  | word name => rfl
  | operator connective => rfl

theorem filter_closings_sublist (stronger : ∀ before, holds before → also before) (tokens : List Token) :
    ((closings [] tokens).filter fun closing => holds closing.1).Sublist
      ((closings [] tokens).filter fun closing => also closing.1) :=
  List.monotone_filter_right _ fun _ here => decide_eq_true (stronger _ (of_decide_eq_true here))

theorem closingPlaces_sublist (stronger : ∀ before, holds before → also before) (tokens : List Token) :
    (closingPlaces holds tokens).Sublist (closingPlaces also tokens) :=
  (filter_closings_sublist stronger tokens).map Prod.snd

theorem closingPlaces_eq_iff (stronger : ∀ before, holds before → also before) (tokens : List Token) :
    closingPlaces also tokens = closingPlaces holds tokens ↔
      ∀ closing ∈ closings [] tokens, also closing.1 → holds closing.1 := by
  constructor
  · intro same closing member here
    -- one list is part of the other, so with as many places they are the same
    have lengths := congrArg List.length same
    rw [closingPlaces, closingPlaces, List.length_map, List.length_map] at lengths
    have kept := (filter_closings_sublist stronger tokens).eq_of_length lengths.symm
    have found : closing ∈ (closings [] tokens).filter fun closing => also closing.1 :=
      List.mem_filter.2 ⟨member, decide_eq_true here⟩
    rw [← kept] at found
    exact of_decide_eq_true (List.mem_filter.1 found).2
  · intro weaker
    refine congrArg (List.map Prod.snd) (List.filter_congr fun closing member => ?_)
    exact decide_eq_decide.2 ⟨weaker closing member, stronger _⟩

end

/-- Every parenthesis is matched, still open, or was closed without a match. -/
theorem net_eq_unclosed_sub_unmatchedPlaces (tokens : List Token) :
    net tokens = (unclosed tokens).length - (unmatchedPlaces tokens).length := by
  induction tokens using List.reverseRecOn with
  | nil => rfl
  | append_singleton tokens token ih =>
    obtain ⟨lexeme, offset⟩ := token
    rw [net_append, ih, unclosed_append, unmatchedPlaces, unmatchedPlaces, closingPlaces_append]
    cases lexeme with
    | openParen =>
      simp only [net_openParen, matchParen, reduceCtorEq, false_and, if_false, List.append_nil,
        List.length_cons]
      omega
    | closeParen =>
      rw [net_closeParen]
      -- the nearest opening parenthesis goes, or there is one place more without a match
      cases unclosed tokens with
      | nil =>
        simp only [matchParen, List.tail_nil, and_self, if_true, List.length_append, List.length_singleton]
        omega
      | cons place rest =>
        simp only [matchParen, List.tail_cons, reduceCtorEq, and_false, if_false, List.append_nil,
          List.length_cons]
        omega
    | word name => simp [net, matchParen]
    | operator connective => simp [net, matchParen]

/-- All closing parentheses have a match if the balance never falls below the ground, and only then. -/
theorem unmatchedPlaces_eq_nil_iff (tokens : List Token) :
    unmatchedPlaces tokens = [] ↔ ∀ front, front <+: tokens → 0 ≤ net front := by
  -- from the right, as the first place without a match is where the balance falls below the ground
  induction tokens using List.reverseRecOn with
  | nil => simp [unmatchedPlaces, closingPlaces, closings, net]
  | append_singleton tokens token ih =>
    have counted := net_eq_unclosed_sub_unmatchedPlaces (tokens ++ [token])
    constructor
    · intro none front begins
      rcases List.prefix_concat_iff.1 begins with rfl | begins
      · rw [counted, none]
        simp
      · rw [unmatchedPlaces, closingPlaces_append] at none
        exact ih.1 (List.append_eq_nil_iff.1 none).1 front begins
    · intro above
      have none := ih.2 fun front begins => above front (begins.trans (List.prefix_append _ _))
      have last := above _ (List.prefix_refl _)
      rw [unmatchedPlaces] at none ⊢
      rw [closingPlaces_append, none, List.nil_append]
      split
      case isTrue unopened =>
        obtain ⟨closing, nothing⟩ := unopened
        rw [counted, unclosed_append, unmatchedPlaces, closingPlaces_append, none] at last
        simp [matchParen, closing, nothing] at last
      case isFalse => rfl

/-! ## The lowest words and operators -/

/-- The balance of the lowest words and operators among tokens; where there are none, that of the
    ground. -/
def lowest (tokens : List Token) : Int :=
  ((weigh 0 tokens).map Prod.snd).min?.getD 0

/-- The tokens before the last opening parenthesis; none if there is no opening parenthesis. -/
def beforeLastOpen : List Token → List Token
  | [] => []
  | token :: rest =>
    if rest.any fun other => other.lexeme = .openParen then token :: beforeLastOpen rest else []

/-- The places of the closing parentheses that make the grouper wrap what it has.  Before the last opening
    parenthesis in front of them no word or operator stands lower than they do, or where there is none of
    these, they do not stand above the ground. -/
def regroupedPlaces (tokens : List Token) : List Nat :=
  closingPlaces (fun before => net before ≤ lowest (beforeLastOpen before)) tokens

theorem beforeLastOpen_append_openParen (tokens : List Token) (offset : Nat) :
    beforeLastOpen (tokens ++ [⟨.openParen, offset⟩]) = tokens := by
  induction tokens with
  | nil => rfl
  | cons token rest ih => simp [beforeLastOpen, ih]

theorem beforeLastOpen_append_of_ne (tokens : List Token) {token : Token}
    (other : token.lexeme ≠ .openParen) :
    beforeLastOpen (tokens ++ [token]) = beforeLastOpen tokens := by
  induction tokens with
  | nil => rfl
  | cons first rest ih => simp [beforeLastOpen, ih, other]

theorem weigh_append_paren (tokens : List Token) {token : Token} (paren : token.lexeme.isParen = true) :
    weigh 0 (tokens ++ [token]) = weigh 0 tokens := by
  have silent : ∀ balance, weigh balance [token] = [] :=
    fun balance => weigh_of_parens balance (by simpa using paren)
  rw [weigh_append, silent, List.append_nil]

theorem weigh_append_noParen (tokens : List Token) {token : Token}
    (noParen : token.lexeme.isParen = false) :
    weigh 0 (tokens ++ [token]) = weigh 0 tokens ++ [(token, net tokens)] := by
  have read : weigh (net tokens) [token] = [(token, net tokens)] :=
    weigh_of_noParens _ (by simpa using noParen)
  rw [weigh_append, Int.zero_add, read]

theorem lowest_append_paren (tokens : List Token) {token : Token} (paren : token.lexeme.isParen = true) :
    lowest (tokens ++ [token]) = lowest tokens := by
  rw [lowest, weigh_append_paren tokens paren, lowest]

theorem lowest_append_noParen (tokens : List Token) {token : Token}
    (noParen : token.lexeme.isParen = false) :
    lowest (tokens ++ [token]) =
      if weigh 0 tokens = [] then net tokens else min (lowest tokens) (net tokens) := by
  rw [lowest, weigh_append_noParen tokens noParen, lowest]
  cases weigh 0 tokens with
  | nil => rfl
  | cons entry rest => simp [List.min?]

end Token

open Token (net weigh lowest beforeLastOpen closings unclosed unmatchedPlaces regroupedPlaces)

/-! ## Lists with more than a group in them -/

namespace Phrase

/-- A list that is not one group with nothing beside it. -/
def NotLone (phrases : List Phrase) : Prop :=
  ∀ members, phrases ≠ [.group members]

theorem notLone_of_length {phrases : List Phrase} (several : 2 ≤ phrases.length) : NotLone phrases := by
  rintro members rfl
  simp at several

theorem reopen_wrap {inner : List Phrase} (notLone : NotLone inner) (depth count : Nat) :
    Nesting.reopen depth (wrap count inner) = (depth - count, wrap (count - depth) inner) := by
  induction count generalizing depth with
  | zero =>
    cases depth with
    | zero => simp [wrap, Nesting.reopen]
    | succ depth =>
      rw [wrap, Nesting.reopen]
      · simp [wrap]
      · rintro depth' members - rfl
        exact notLone members rfl
  | succ count ih =>
    cases depth with
    | zero => simp [Nesting.reopen]
    | succ depth => rw [wrap, Nesting.reopen, ih, Nat.add_sub_add_right, Nat.add_sub_add_right]

/-- What is added at a depth where there are only groups with nothing beside them, stands beside the rest
    of these groups. -/
theorem insertAt_wrap_lt (phrase : Phrase) (inner : List Phrase) (depth more : Nat) :
    phrase.insertAt depth (wrap (depth + (more + 1)) inner) =
      wrap depth [.group (wrap more inner), phrase] := by
  have level := insertAt_wrap phrase 0 depth (wrap (more + 1) inner)
  rw [Nat.zero_add] at level
  rw [wrap_add, level]
  rfl

theorem two_le_length_insertAt (phrase : Phrase) (depth : Nat) {inner : List Phrase}
    (notLone : NotLone inner) (nonempty : inner ≠ []) : 2 ≤ (phrase.insertAt depth inner).length := by
  have positive := List.length_pos_iff.2 nonempty
  cases depth with
  | zero =>
    rw [insertAt, List.length_append, List.length_singleton]
    omega
  | succ depth =>
    rcases insertAt_succ_cases phrase depth inner with ⟨front, members, rfl, inside⟩ | opened
    · rw [inside]
      cases front with
      | nil => exact absurd rfl (notLone members)
      | cons first front => simp
    · rw [opened, List.length_append, List.length_singleton]
      omega

end Phrase

open Phrase (wrap NotLone)

/-! ## Where the grouper stands -/

/-- After some tokens the grouper's outermost list stands at a floor.  From there groups with nothing
    beside them go up to the list of the lowest words and operators. -/
structure Stands (done : List Token) (nesting : Nesting) (floor : Int) (inner : List Phrase) : Prop where
  depth : (nesting.depth : Int) = net done - floor
  floor_eq : floor = min (net done) (lowest (beforeLastOpen done))
  floor_le : floor ≤ lowest done
  context : nesting.context = wrap (lowest done - floor).toNat inner
  notLone : NotLone inner
  inner_eq_nil_iff : inner = [] ↔ weigh 0 done = []

namespace Stands

variable {done : List Token} {nesting : Nesting} {floor : Int} {inner : List Phrase}

theorem start : Stands [] .start 0 [] where
  depth := rfl
  floor_eq := rfl
  floor_le := Int.le_refl _
  context := rfl
  notLone := by simp [NotLone]
  inner_eq_nil_iff := by simp [weigh]

/-- Reopening goes up to the lowest words and operators, or to where all groups are closed. -/
theorem openGroup (stands : Stands done nesting floor inner) (offset : Nat) :
    Stands (done ++ [⟨.openParen, offset⟩]) nesting.openGroup (min (net done + 1) (lowest done)) inner := by
  obtain ⟨depth, floor_eq, floor_le, context, notLone, inner_eq_nil_iff⟩ := stands
  have opened : net (done ++ [⟨.openParen, offset⟩]) = net done + 1 := by
    rw [Token.net_append, Token.net_openParen]
  have kept : lowest (done ++ [⟨.openParen, offset⟩]) = lowest done :=
    Token.lowest_append_paren done rfl
  have reopened := Phrase.reopen_wrap notLone (nesting.depth + 1) (lowest done - floor).toNat
  rw [← context] at reopened
  -- the lists from the floor up to the lowest words are the groups that can be reopened
  refine ⟨?_, ?_, ?_, ?_, notLone, ?_⟩
  · simp only [Nesting.openGroup, reopened, opened]
    omega
  · rw [Token.beforeLastOpen_append_openParen, opened]
  · rw [kept]
    omega
  · have left : (lowest done - floor).toNat - (nesting.depth + 1) =
        (lowest done - min (net done + 1) (lowest done)).toNat := by omega
    simp only [Nesting.openGroup, reopened, kept, left]
  · rw [inner_eq_nil_iff, Token.weigh_append_paren done rfl]

theorem closeGroup (stands : Stands done nesting floor inner) (offset : Nat) :
    ∃ floor', Stands (done ++ [⟨.closeParen, offset⟩]) (nesting.closeGroup offset) floor' inner := by
  obtain ⟨depth, floor_eq, floor_le, context, notLone, inner_eq_nil_iff⟩ := stands
  obtain ⟨context', level, unmatched⟩ := nesting
  have closed : net (done ++ [⟨.closeParen, offset⟩]) = net done - 1 := by
    rw [Token.net_append, Token.net_closeParen]
    omega
  have kept : lowest (done ++ [⟨.closeParen, offset⟩]) = lowest done :=
    Token.lowest_append_paren done rfl
  have before : beforeLastOpen (done ++ [⟨.closeParen, offset⟩]) = beforeLastOpen done :=
    Token.beforeLastOpen_append_of_ne done (by simp)
  have silent : inner = [] ↔ weigh 0 (done ++ [⟨.closeParen, offset⟩]) = [] := by
    rw [inner_eq_nil_iff, Token.weigh_append_paren done rfl]
  cases level with
  | zero =>
    -- the floor goes down with the balance, and one more group stands above it
    simp only at depth context
    refine ⟨floor - 1, ?_, ?_, ?_, ?_, notLone, silent⟩
    · simp only [Nesting.closeGroup, closed]
      omega
    · rw [before, closed]
      omega
    · rw [kept]
      omega
    · have more : (lowest done - (floor - 1)).toNat = (lowest done - floor).toNat + 1 := by omega
      simp only [Nesting.closeGroup, kept, more, wrap, context]
  | succ level =>
    -- the list stays, and the next phrase is added one group less deep
    simp only at depth context
    refine ⟨floor, ?_, ?_, ?_, ?_, notLone, silent⟩
    · simp only [Nesting.closeGroup, closed]
      omega
    · rw [before, closed]
      omega
    · rw [kept]
      exact floor_le
    · rw [kept]
      exact context

/-- After a word or an operator only the list of the lowest ones is to be told. -/
theorem insert_of (stands : Stands done nesting floor inner) {token : Token} {phrase : Phrase}
    (noParen : token.lexeme.isParen = false) {inner' : List Phrase}
    (floor_le : floor ≤ lowest (done ++ [token])) (nonempty : inner' ≠ []) (notLone : NotLone inner')
    (context : phrase.insertAt nesting.depth nesting.context =
      wrap (lowest (done ++ [token]) - floor).toNat inner') :
    Stands (done ++ [token]) (nesting.insert phrase) floor inner' := by
  have level : net (done ++ [token]) = net done := by
    have silent : net [token] = 0 := Token.net_of_noParens (by simpa using noParen)
    rw [Token.net_append, silent, Int.add_zero]
  have before : beforeLastOpen (done ++ [token]) = beforeLastOpen done :=
    Token.beforeLastOpen_append_of_ne done fun opened => by simp [opened, Lexeme.isParen] at noParen
  refine ⟨?_, ?_, floor_le, context, notLone, ?_⟩
  · rw [level]
    exact stands.depth
  · rw [level, before]
    exact stands.floor_eq
  · simp [nonempty, Token.weigh_append_noParen done noParen]

/-- A word or an operator either stands among the lowest or above them, or is the only lowest one. -/
theorem insert (stands : Stands done nesting floor inner) (token : Token) (phrase : Phrase)
    (noParen : token.lexeme.isParen = false) (noGroup : ∀ members, phrase ≠ .group members) :
    ∃ inner', Stands (done ++ [token]) (nesting.insert phrase) floor inner' := by
  have depth := stands.depth
  have floor_eq := stands.floor_eq
  have next := Token.lowest_append_noParen done noParen
  by_cases above : weigh 0 done ≠ [] ∧ lowest done ≤ net done
  · obtain ⟨words, above⟩ := above
    have floor_le := stands.floor_le
    replace next : lowest (done ++ [token]) = lowest done := by
      rw [next, if_neg words]
      omega
    have deep : nesting.depth = (net done - lowest done).toNat + (lowest done - floor).toNat := by
      omega
    have several := Phrase.two_le_length_insertAt phrase (net done - lowest done).toNat stands.notLone
      (mt stands.inner_eq_nil_iff.1 words)
    refine ⟨_, stands.insert_of noParen (next ▸ floor_le) (List.ne_nil_of_length_pos (by omega))
      (Phrase.notLone_of_length several) ?_⟩
    rw [stands.context, deep, Phrase.insertAt_wrap, next]
  · have lowered : lowest (done ++ [token]) = net done := by
      rw [next]
      split
      case isTrue => rfl
      case isFalse words =>
        have below : ¬ lowest done ≤ net done := fun le => above ⟨words, le⟩
        omega
    have floor_le : floor ≤ lowest (done ++ [token]) := by omega
    have deep : (lowest (done ++ [token]) - floor).toNat = nesting.depth := by omega
    rcases Nat.lt_or_ge nesting.depth (lowest done - floor).toNat with less | more
    · -- what was lowest so far stays in a group beside the phrase
      obtain ⟨more, reach⟩ := Nat.exists_eq_add_of_lt less
      refine ⟨[.group (wrap more inner), phrase], stands.insert_of noParen floor_le (by simp)
        (Phrase.notLone_of_length (by simp)) ?_⟩
      rw [stands.context, reach, Nat.add_assoc, Phrase.insertAt_wrap_lt, deep]
    · -- nothing has been read, and there are at most empty groups
      have nothing : inner = [] := stands.inner_eq_nil_iff.2 (by
        by_contra words
        exact above ⟨words, by omega⟩)
      obtain ⟨rest, reach⟩ := Nat.exists_eq_add_of_le more
      refine ⟨[phrase], stands.insert_of noParen floor_le (by simp)
        (fun members same => noGroup members (List.singleton_inj.1 same)) ?_⟩
      rw [deep, stands.context, nothing, reach, Nat.add_comm, Phrase.insertAt_wrap, Phrase.insertAt_nil,
        ← Phrase.wrap_add, Nat.add_comm]

theorem step (stands : Stands done nesting floor inner) (token : Token) :
    ∃ floor' inner', Stands (done ++ [token]) (nesting.step token) floor' inner' := by
  obtain ⟨lexeme, offset⟩ := token
  cases lexeme with
  | openParen => exact ⟨_, _, stands.openGroup offset⟩
  | closeParen =>
    obtain ⟨floor', closed⟩ := stands.closeGroup offset
    exact ⟨floor', inner, closed⟩
  | word name =>
    obtain ⟨inner', inserted⟩ := stands.insert ⟨.word name, offset⟩ (.word name) rfl (by simp)
    exact ⟨floor, inner', inserted⟩
  | operator connective =>
    obtain ⟨inner', inserted⟩ :=
      stands.insert ⟨.operator connective, offset⟩ (.operator connective offset) rfl (by simp)
    exact ⟨floor, inner', inserted⟩

end Stands

namespace Nesting

theorem ofTokens_append (tokens : List Token) (token : Token) :
    ofTokens (tokens ++ [token]) = (ofTokens tokens).step token :=
  List.foldl_append

theorem exists_stands (tokens : List Token) :
    ∃ floor inner, Stands tokens (ofTokens tokens) floor inner := by
  induction tokens using List.reverseRecOn with
  | nil => exact ⟨0, [], .start⟩
  | append_singleton tokens token ih =>
    obtain ⟨floor, inner, stands⟩ := ih
    rw [ofTokens_append]
    exact stands.step token

/-- How many groups are open after some tokens. -/
theorem depth_ofTokens (tokens : List Token) :
    (ofTokens tokens).depth = (net tokens - lowest (beforeLastOpen tokens)).toNat := by
  obtain ⟨floor, inner, stands⟩ := exists_stands tokens
  have depth := stands.depth
  have floor_eq := stands.floor_eq
  omega

theorem unmatched_step (nesting : Nesting) (token : Token) :
    (nesting.step token).unmatched = nesting.unmatched ++
      if token.lexeme = .closeParen ∧ nesting.depth = 0 then [token.offset] else [] := by
  obtain ⟨lexeme, offset⟩ := token
  obtain ⟨context, depth, unmatched⟩ := nesting
  cases lexeme with
  | closeParen => cases depth <;> simp [step, closeGroup]
  | openParen => simp [step, openGroup]
  | word name => simp [step, insert]
  | operator connective => simp [step, insert]

/-- The balances of the tokens tell what the grouper reports. -/
theorem unmatched_ofTokens (tokens : List Token) :
    (ofTokens tokens).unmatched = regroupedPlaces tokens := by
  induction tokens using List.reverseRecOn with
  | nil => rfl
  | append_singleton tokens token ih =>
    have ground : (ofTokens tokens).depth = 0 ↔ net tokens ≤ lowest (beforeLastOpen tokens) := by
      rw [depth_ofTokens]
      omega
    simp only [ofTokens_append, unmatched_step, ih, regroupedPlaces, Token.closingPlaces_append, ground]

/-! ## Parentheses without a match -/

theorem depth_foldl_stepPlain_eq_length (tokens : List Token) {nesting : Nesting} {opened : List Nat}
    (same : nesting.depth = opened.length) :
    (tokens.foldl stepPlain nesting).depth = (tokens.foldl Token.matchParen opened).length := by
  induction tokens generalizing nesting opened with
  | nil => exact same
  | cons token rest ih =>
    apply ih
    obtain ⟨lexeme, offset⟩ := token
    obtain ⟨context, depth, unmatched⟩ := nesting
    obtain rfl : depth = opened.length := same
    cases lexeme with
    | openParen => rfl
    | closeParen => cases opened <;> rfl
    | word name => rfl
    | operator connective => rfl

/-- Reopening groups only ever lowers the depth. -/
theorem depth_ofTokens_le (tokens : List Token) : (ofTokens tokens).depth ≤ (unclosed tokens).length := by
  -- without reopening the depth is the number of parentheses that are open
  have plain : (tokens.foldl stepPlain start).depth = (unclosed tokens).length :=
    depth_foldl_stepPlain_eq_length tokens rfl
  obtain ⟨count, deep⟩ := DeeperBy.exists_deeperBy tokens
  rw [← plain, deep.depth]
  exact Nat.le_add_right _ _

end Nesting

namespace Token

/-- Where no parenthesis is open, the grouper is at depth zero. -/
theorem net_le_lowest_of_unclosed {tokens : List Token} (nothing : unclosed tokens = []) :
    net tokens ≤ lowest (beforeLastOpen tokens) := by
  have shallow := Nesting.depth_ofTokens_le tokens
  rw [nothing, List.length_nil, Nesting.depth_ofTokens] at shallow
  omega

theorem unmatchedPlaces_sublist (tokens : List Token) :
    (unmatchedPlaces tokens).Sublist (regroupedPlaces tokens) :=
  closingPlaces_sublist (fun _ => net_le_lowest_of_unclosed) tokens

/-- What is reported is what has no match, if every other closing parenthesis has a lower word or operator
    before the last opening one in front of it. -/
theorem regroupedPlaces_eq_iff (tokens : List Token) :
    regroupedPlaces tokens = unmatchedPlaces tokens ↔
      ∀ closing ∈ closings [] tokens, unclosed closing.1 ≠ [] →
        lowest (beforeLastOpen closing.1) < net closing.1 := by
  refine (closingPlaces_eq_iff (fun _ => net_le_lowest_of_unclosed) tokens).trans ?_
  refine forall₂_congr fun closing _ => ?_
  rw [← not_imp_not, Int.not_le]

end Token

/-! ## What is recorded -/

/-- The unmatched parentheses are recorded between the tokens and the nested phrases, and later records
    are about other stages. -/
theorem Formula.parseRecords_eq (text : String) :
    ∃ later, parseRecords text =
        Record.ofTokens text (Token.scan text) ::
          (Nesting.ofTokens (Token.scan text)).unmatched.map Record.ofUnmatched ++
          Record.ofNested (Phrase.nest (Token.scan text)) :: later ∧
      ∀ record ∈ later, record.target ≠ "group" := by
  refine ⟨_, List.append_assoc _ _ _, fun record member => ?_⟩
  rcases List.mem_append.1 member with passed | read
  · obtain ⟨pass, -, rfl⟩ := List.mem_map.1 passed
    exact (by decide : "precedence" ≠ "group")
  · split at read
    · rw [List.mem_singleton.1 read]
      exact (by decide : "reformat" ≠ "group")
    · exact absurd read List.not_mem_nil

theorem Record.ofNested_ne_ofUnmatched (phrases : List Phrase) (offset : Nat) :
    ofNested phrases ≠ ofUnmatched offset := by
  intro same
  have first := congrArg (fun record => record.message.toList.head?) same
  simp [ofNested, ofUnmatched] at first

/-- Reading a text records the closing parentheses that `Token.regroupedPlaces` lists, in the order of the
    text, and none but these.  Among them are all that have no match, so if the balance falls below the
    ground somewhere, something is recorded.  The others are those with a match and no lower word or
    operator before the last opening parenthesis. -/
theorem Formula.records_of_unmatched (text : String) :
    (∃ before after, parseRecords text =
        before ++ (regroupedPlaces (Token.scan text)).map Record.ofUnmatched ++ after ∧
      ∀ record ∈ before ++ after, ∀ offset, record ≠ Record.ofUnmatched offset) ∧
    (unmatchedPlaces (Token.scan text)).Sublist (regroupedPlaces (Token.scan text)) ∧
    (unmatchedPlaces (Token.scan text) = [] ↔ ∀ front, front <+: Token.scan text → 0 ≤ net front) ∧
    (regroupedPlaces (Token.scan text) = unmatchedPlaces (Token.scan text) ↔
      ∀ closing ∈ closings [] (Token.scan text), unclosed closing.1 ≠ [] →
        lowest (beforeLastOpen closing.1) < net closing.1) := by
  refine ⟨?_, Token.unmatchedPlaces_sublist _, Token.unmatchedPlaces_eq_nil_iff _,
    Token.regroupedPlaces_eq_iff _⟩
  obtain ⟨later, records, stages⟩ := parseRecords_eq text
  refine ⟨[Record.ofTokens text (Token.scan text)], Record.ofNested _ :: later,
    Nesting.unmatched_ofTokens _ ▸ records, fun record member offset same => ?_⟩
  rcases List.mem_cons.1 member with rfl | member
  · exact absurd (congrArg Record.target same) (by decide : "tokenize" ≠ "group")
  · rcases List.mem_cons.1 member with rfl | member
    · exact Record.ofNested_ne_ofUnmatched _ _ same
    · exact stages record member (congrArg Record.target same)

/-- The last parenthesis closes the first one, and yet it is recorded as unmatched. -/
theorem Formula.records_matched_parenthesis :
    Token.Balanced (Token.scan "(¬(a))") ∧ unmatchedPlaces (Token.scan "(¬(a))") = [] ∧
      Record.ofUnmatched 6 ∈ parseRecords "(¬(a))" := by
  refine ⟨by decide +kernel, by decide +kernel, ?_⟩
  obtain ⟨later, records, -⟩ := parseRecords_eq "(¬(a))"
  have regrouped : (Nesting.ofTokens (Token.scan "(¬(a))")).unmatched = [6] := by decide +kernel
  rw [records, regrouped]
  simp

end Sentential
