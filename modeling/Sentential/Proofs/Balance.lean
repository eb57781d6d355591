import Sentential.Proofs.Relabelling
import Sentential.Proofs.Splitting

/-! # Nesting by balance

The balance of a token is the number of opening parentheses less the number of closing ones before
it.  It is an integer, and negative where more has been closed than was opened.

The grouper keeps a context and a depth, and three rules rewrite them: reopening a lone group,
wrapping on underflow, and opening groups on insertion.  All the same, what it builds depends on
nothing but the balances.  The invariant is the balance at which the outermost list of the context
stands, its *floor*: opening and closing parentheses move the depth and the balance together, and
reopening and wrapping move the floor together with a group around the whole context.  So up to
groups around everything the context of the grouper is the `Layout` that comes from the words and
operators alone, each put at its balance (`nest_layout`).

A group around everything has no say in what the phrases spell (`ofPhrases_wrap`), which gives
`ofTokens_eq_ofPhrases_layout`: reading tokens is reading the phrases of their layout.
-/

namespace Sentential

/-! ## Outer groups -/

namespace Phrase

/-- Phrases inside a number of groups with nothing beside them. -/
def wrap : Nat → List Phrase → List Phrase
  | 0, phrases => phrases
  | count + 1, phrases => [.group (wrap count phrases)]

theorem wrap_add (m n : Nat) (phrases : List Phrase) :
    wrap (m + n) phrases = wrap m (wrap n phrases) := by
  induction m with
  | zero => rw [Nat.zero_add, wrap]
  | succ m ih => rw [Nat.succ_add, wrap, wrap, ih]

theorem insertAt_wrap (phrase : Phrase) (depth count : Nat) (context : List Phrase) :
    phrase.insertAt (depth + count) (wrap count context) =
      wrap count (phrase.insertAt depth context) := by
  induction count with
  | zero => rfl
  | succ count ih =>
    rw [← Nat.add_assoc, wrap, wrap, ← ih]
    rfl

theorem insertAt_nil (phrase : Phrase) (depth : Nat) :
    phrase.insertAt depth [] = wrap depth [phrase] := by
  induction depth with
  | zero => rfl
  | succ depth ih =>
    rw [wrap, ← ih]
    rfl

theorem insertAt_succ_group (phrase : Phrase) (depth : Nat) (front members : List Phrase) :
    phrase.insertAt (depth + 1) (front ++ [.group members]) =
      front ++ [.group (phrase.insertAt depth members)] := by
  simp [insertAt]

theorem insertAt_succ_of_not_group (phrase : Phrase) (depth : Nat) (context : List Phrase)
    (noGroup : ∀ members, context.getLast? ≠ some (.group members)) :
    phrase.insertAt (depth + 1) context = context ++ [.group (phrase.insertAt depth [])] := by
  rw [insertAt]
  split
  · rename_i members last
    exact absurd last (noGroup members)
  · rfl

/-- A phrase that is not added at the end goes into the last group, or into a new one. -/
theorem insertAt_succ_cases (phrase : Phrase) (depth : Nat) (context : List Phrase) :
    (∃ front members, context = front ++ [.group members] ∧
      phrase.insertAt (depth + 1) context = front ++ [.group (phrase.insertAt depth members)]) ∨
    phrase.insertAt (depth + 1) context = context ++ [.group (phrase.insertAt depth [])] := by
  by_cases lastGroup : ∃ members, context.getLast? = some (.group members)
  · obtain ⟨members, last⟩ := lastGroup
    obtain ⟨front, rfl⟩ := List.getLast?_eq_some_iff.1 last
    exact .inl ⟨front, members, rfl, insertAt_succ_group phrase depth front members⟩
  · right
    exact insertAt_succ_of_not_group phrase depth context fun members last => lastGroup ⟨members, last⟩

theorem insertAt_relabel (rename : String → String) (move : Nat → Nat) (phrase : Phrase) (depth : Nat)
    (context : List Phrase) :
    (phrase.relabel rename move).insertAt depth (context.map (relabel rename move)) =
      (phrase.insertAt depth context).map (relabel rename move) := by
  induction depth generalizing context with
  | zero => simp [insertAt]
  | succ depth ih =>
    have opened := ih []
    rw [List.map_nil] at opened
    rcases context.eq_nil_or_concat with rfl | ⟨front, last, rfl⟩
    · simp [insertAt, opened]
    · cases last with
      | word name => simp [insertAt, opened]
      | operator connective offset => simp [insertAt, opened]
      | group members => simp [insertAt, ih]

theorem wrap_relabel (rename : String → String) (move : Nat → Nat) (count : Nat)
    (phrases : List Phrase) :
    wrap count (phrases.map (relabel rename move)) = (wrap count phrases).map (relabel rename move) := by
  induction count with
  | zero => rfl
  | succ count ih => simp [wrap, ih]

end Phrase

/-! ## Layouts -/

/-- Nested phrases, and the balance at which their outermost list stands. -/
structure Layout where
  context : List Phrase
  floor : Int

namespace Layout

def lower (layout : Layout) (count : Nat) : Layout :=
  ⟨Phrase.wrap count layout.context, layout.floor - count⟩

/-- Adds a phrase at a balance that is not below the floor. -/
def put (layout : Layout) (balance : Int) (phrase : Phrase) : Layout :=
  { layout with context := phrase.insertAt (balance - layout.floor).toNat layout.context }

/-- Adds a phrase at a balance.  If that is below the floor, what is there is wrapped first. -/
def insert (layout : Layout) (balance : Int) (phrase : Phrase) : Layout :=
  (layout.lower (layout.floor - balance).toNat).put balance phrase

/-- Layouts agree when they differ only in the number of groups around them. -/
def Agrees (first second : Layout) : Prop :=
  ∃ m n, first.lower m = second.lower n

theorem lower_lower (layout : Layout) (m n : Nat) :
    (layout.lower m).lower n = layout.lower (n + m) := by
  simp only [lower, Phrase.wrap_add, Layout.mk.injEq, true_and]
  omega

theorem Agrees.refl (layout : Layout) : layout.Agrees layout := ⟨0, 0, rfl⟩

theorem Agrees.symm {first second : Layout} (agrees : first.Agrees second) :
    second.Agrees first := by
  obtain ⟨m, n, same⟩ := agrees
  exact ⟨n, m, same.symm⟩

theorem Agrees.trans {first second third : Layout} (left : first.Agrees second)
    (right : second.Agrees third) : first.Agrees third := by
  obtain ⟨m, n, same⟩ := left
  obtain ⟨m', n', same'⟩ := right
  refine ⟨m' + m, n + n', ?_⟩
  rw [← lower_lower, same, lower_lower, Nat.add_comm, ← lower_lower, same', lower_lower]

theorem lower_agrees (layout : Layout) (count : Nat) : (layout.lower count).Agrees layout :=
  ⟨0, count, by rw [lower_lower, Nat.zero_add]⟩

theorem put_lower (layout : Layout) (count : Nat) (balance : Int) (phrase : Phrase)
    (above : layout.floor ≤ balance) :
    (layout.lower count).put balance phrase = (layout.put balance phrase).lower count := by
  have depth : (balance - (layout.floor - count)).toNat = (balance - layout.floor).toNat + count := by
    omega
  simp only [put, lower, depth, Phrase.insertAt_wrap]

/-- Where more groups stand around a layout, fewer are wrapped around it before an insertion. -/
theorem insert_lower_agrees (layout : Layout) (count : Nat) (balance : Int) (phrase : Phrase) :
    ((layout.lower count).insert balance phrase).Agrees (layout.insert balance phrase) := by
  -- `more` is what is wrapped too often: the groups around the layout need not be added again
  obtain ⟨more, total⟩ : ∃ more,
      (layout.floor - count - balance).toNat + count = more + (layout.floor - balance).toNat :=
    ⟨(layout.floor - count - balance).toNat + count - (layout.floor - balance).toNat, by omega⟩
  have above : (layout.lower (layout.floor - balance).toNat).floor ≤ balance := by
    simp only [lower]
    omega
  have same : (layout.lower count).insert balance phrase =
      (layout.insert balance phrase).lower more := by
    rw [insert, insert, lower_lower, ← put_lower _ _ _ _ above, lower_lower, ← total]
    rfl
  rw [same]
  exact lower_agrees _ _

theorem Agrees.insert {first second : Layout} (agrees : first.Agrees second) (balance : Int)
    (phrase : Phrase) : (first.insert balance phrase).Agrees (second.insert balance phrase) := by
  obtain ⟨m, n, same⟩ := agrees
  have left := insert_lower_agrees first m balance phrase
  rw [same] at left
  exact left.symm.trans (insert_lower_agrees second n balance phrase)

end Layout

/-! ## Balances -/

namespace Token

/-- The words and operators among tokens, each with its balance; `balance` is that of the first
    token. -/
def weigh (balance : Int) : List Token → List (Token × Int)
  | [] => []
  | token :: rest =>
    match token.lexeme with
    | .openParen => weigh (balance + 1) rest
    | .closeParen => weigh (balance - 1) rest
    | .word _ | .operator _ => (token, balance) :: weigh balance rest

end Token

namespace Layout

def empty : Layout := ⟨[], 0⟩

def read (layout : Layout) (entry : Token × Int) : Layout :=
  match entry.1.lexeme with
  | .word name => layout.insert entry.2 (.word name)
  | .operator connective => layout.insert entry.2 (.operator connective entry.1.offset)
  | .openParen | .closeParen => layout

def ofEntries (entries : List (Token × Int)) : Layout :=
  entries.foldl read empty

/-- A word or an operator is inserted as a phrase, and a parenthesis is passed over. -/
theorem read_cases (token : Token) :
    (∃ phrase, ∀ layout balance, read layout (token, balance) = layout.insert balance phrase) ∨
      token.lexeme.isParen = true ∧ ∀ layout balance, read layout (token, balance) = layout := by
  obtain ⟨lexeme, offset⟩ := token
  cases lexeme with
  | word name => exact .inl ⟨.word name, fun _ _ => rfl⟩
  | operator connective => exact .inl ⟨.operator connective offset, fun _ _ => rfl⟩
  | openParen => exact .inr ⟨rfl, fun _ _ => rfl⟩
  | closeParen => exact .inr ⟨rfl, fun _ _ => rfl⟩

theorem exists_phrase {token : Token} (noParen : token.lexeme.isParen = false) :
    ∃ phrase, ∀ layout balance, read layout (token, balance) = layout.insert balance phrase := by
  rcases read_cases token with inserted | ⟨paren, -⟩
  · exact inserted
  · simp [paren] at noParen

theorem Agrees.read {first second : Layout} (agrees : first.Agrees second) (entry : Token × Int) :
    (first.read entry).Agrees (second.read entry) := by
  obtain ⟨token, balance⟩ := entry
  rcases read_cases token with ⟨phrase, inserted⟩ | ⟨-, passed⟩
  · rw [inserted, inserted]
    exact agrees.insert balance phrase
  · rw [passed, passed]
    exact agrees

theorem Agrees.foldl_read {first second : Layout} (agrees : first.Agrees second)
    (entries : List (Token × Int)) :
    (entries.foldl Layout.read first).Agrees (entries.foldl Layout.read second) := by
  induction entries generalizing first second with
  | nil => exact agrees
  | cons entry rest ih => exact ih (agrees.read entry)

end Layout

/-! ## The grouper keeps to the layout -/

namespace Nesting

/-- What the grouper has built when it stands at a balance: the outermost list is as far below that
    as groups are open. -/
def layout (nesting : Nesting) (balance : Int) : Layout :=
  ⟨nesting.context, balance - nesting.depth⟩

/-- Reopening takes as many groups off the context as off the depth. -/
theorem reopen_lower (depth : Nat) (context : List Phrase) :
    ∃ count, depth = (reopen depth context).1 + count ∧
      context = Phrase.wrap count (reopen depth context).2 := by
  fun_induction reopen depth context with
  | case1 depth members ih =>
    obtain ⟨count, less, inner⟩ := ih
    refine ⟨count + 1, by omega, ?_⟩
    rw [Phrase.wrap, ← inner]
  | case2 depth context _ => exact ⟨0, rfl, rfl⟩

theorem layout_openGroup (nesting : Nesting) (balance : Int) :
    (nesting.openGroup.layout (balance + 1)).Agrees (nesting.layout balance) := by
  obtain ⟨count, less, inner⟩ := reopen_lower (nesting.depth + 1) nesting.context
  -- every group that is taken off raises the floor by one
  have same : nesting.layout balance = (nesting.openGroup.layout (balance + 1)).lower count := by
    simp only [layout, openGroup, Layout.lower, ← inner, Layout.mk.injEq, true_and]
    omega
  rw [same]
  exact (Layout.lower_agrees _ _).symm

theorem layout_closeGroup (nesting : Nesting) (balance : Int) (offset : Nat) :
    ((nesting.closeGroup offset).layout (balance - 1)).Agrees (nesting.layout balance) := by
  obtain ⟨context, depth, unmatched⟩ := nesting
  cases depth with
  | zero =>
    -- the whole context goes into a group, and the floor goes down with the balance
    have same : (closeGroup ⟨context, 0, unmatched⟩ offset).layout (balance - 1) =
        (layout ⟨context, 0, unmatched⟩ balance).lower 1 := by
      simp [layout, closeGroup, Layout.lower, Phrase.wrap]
    rw [same]
    exact Layout.lower_agrees _ _
  | succ depth =>
    have same : (closeGroup ⟨context, depth + 1, unmatched⟩ offset).layout (balance - 1) =
        layout ⟨context, depth + 1, unmatched⟩ balance := by
      simp only [layout, closeGroup, Layout.mk.injEq, true_and]
      omega
    rw [same]
    exact .refl _

theorem layout_insert (nesting : Nesting) (balance : Int) (phrase : Phrase) :
    (nesting.insert phrase).layout balance = (nesting.layout balance).insert balance phrase := by
  have depth : (balance - (balance - nesting.depth)).toNat = nesting.depth := by omega
  have above : (balance - nesting.depth - balance).toNat = 0 := by omega
  simp only [layout, insert, Layout.insert, Layout.put, Layout.lower, above, Phrase.wrap,
    Int.natCast_zero, Int.sub_zero, depth]

/-- The grouper stays at the layout of what it has read, whatever the parentheses. -/
theorem layout_foldl_step (tokens : List Token) (nesting : Nesting) (layout : Layout) (balance : Int)
    (agrees : (nesting.layout balance).Agrees layout) :
    ∃ reached, ((tokens.foldl step nesting).layout reached).Agrees
      ((Token.weigh balance tokens).foldl Layout.read layout) := by
  induction tokens generalizing nesting layout balance with
  | nil => exact ⟨balance, agrees⟩
  | cons token rest ih =>
    obtain ⟨lexeme, offset⟩ := token
    cases lexeme with
    | openParen => exact ih _ _ _ ((layout_openGroup nesting balance).trans agrees)
    | closeParen => exact ih _ _ _ ((layout_closeGroup nesting balance offset).trans agrees)
    | word name =>
      apply ih
      have inserted := agrees.insert balance (.word name)
      rwa [← layout_insert] at inserted
    | operator connective =>
      apply ih
      have inserted := agrees.insert balance (.operator connective offset)
      rwa [← layout_insert] at inserted

/-- The grouper's context is the layout of the words and operators at their balances, up to groups
    around everything. -/
theorem nest_layout (tokens : List Token) :
    ∃ m n, Phrase.wrap m (Phrase.nest tokens) =
      Phrase.wrap n (Layout.ofEntries (Token.weigh 0 tokens)).context := by
  obtain ⟨reached, m, n, same⟩ := layout_foldl_step tokens start .empty 0 (.refl _)
  exact ⟨m, n, congrArg Layout.context same⟩

end Nesting

/-! ## Outer groups have no say -/

namespace Phrase

theorem bindNegations_wrap (count : Nat) (phrases : List Phrase) :
    bindNegations (wrap count phrases) = wrap count (bindNegations phrases) := by
  induction count with
  | zero => rfl
  | succ count ih => simp only [wrap, bindNegations, bindNegation, attach, ih]

theorem splitAll_wrap (count : Nat) (phrases : List Phrase) :
    splitAll (wrap count phrases) = wrap count (splitAll phrases) := by
  induction count with
  | zero => rfl
  | succ count ih =>
    rw [wrap, wrap, ← ih]
    exact splitBy_singleton precedenceClasses (.group (wrap count phrases)) rfl

end Phrase

namespace Formula

open Phrase

theorem ofMembers_wrap (count : Nat) (phrases : List Phrase) :
    ofMembers (wrap count phrases) = ofMembers phrases := by
  induction count with
  | zero => rfl
  | succ count ih => rw [wrap, ofMembers, ofPhrase, ih]

theorem ofPhrases_wrap (count : Nat) (phrases : List Phrase) :
    ofPhrases (wrap count phrases) = ofPhrases phrases := by
  rw [ofPhrases, bindNegations_wrap, splitAll_wrap, ofMembers_wrap]
  rfl

/-- Reading tokens is reading the phrases of their layout. -/
theorem ofTokens_eq_ofPhrases_layout (tokens : List Token) :
    ofTokens tokens = ofPhrases (Layout.ofEntries (Token.weigh 0 tokens)).context := by
  obtain ⟨m, n, same⟩ := Nesting.nest_layout tokens
  rw [ofTokens, ← ofPhrases_wrap m, same, ofPhrases_wrap]

end Formula

end Sentential
