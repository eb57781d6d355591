import Sentential.Proofs.Acceptance
import Sentential.Proofs.Provenance
import Mathlib.Data.List.Forall2

/-! # Only relative depth matters

Adding one number to all balances is the same as putting that many groups around everything.  This
holds as long as the first word or operator is not below the ground: there an empty group would stay
before it.  So two lists of tokens whose balances differ by a constant are read as the same formula,
or fail in the same way at corresponding tokens (`ofTokens_of_balances`), however their parentheses
are arranged otherwise.

To compare the places, both lists are numbered: each token gets its position as its place.  Numbered,
the two lists differ in nothing but the constant, and the places of either list are put back by a
relabelling.

A formula never begins below the ground (`ground_of_ofEntries_ok`): the empty group before it stays
there, or ends up inside other groups, whatever follows.
-/

namespace Sentential

/-! ## Balances of a stretch of tokens -/

namespace Token

/-- The number of opening parentheses less the number of closing ones. -/
def net (tokens : List Token) : Int :=
  tokens.countP (fun token => token.lexeme = .openParen) -
    tokens.countP (fun token => token.lexeme = .closeParen)

theorem net_append (first second : List Token) : net (first ++ second) = net first + net second := by
  simp only [net, List.countP_append]
  omega

theorem net_cons (token : Token) (rest : List Token) : net (token :: rest) = net [token] + net rest :=
  net_append [token] rest

theorem net_openParen (offset : Nat) : net [⟨.openParen, offset⟩] = 1 := by
  simp [net]

theorem net_closeParen (offset : Nat) : net [⟨.closeParen, offset⟩] = -1 := by
  simp [net]

theorem weigh_append (balance : Int) (first second : List Token) :
    weigh balance (first ++ second) = weigh balance first ++ weigh (balance + net first) second := by
  induction first generalizing balance with
  | nil => simp [weigh, net]
  | cons token rest ih =>
    obtain ⟨lexeme, offset⟩ := token
    cases lexeme with
    | openParen =>
      have shifted : balance + 1 + net rest = balance + net (⟨.openParen, offset⟩ :: rest) := by
        simp [net]
        omega
      simp [weigh, ih, shifted]
    | closeParen =>
      have shifted : balance - 1 + net rest = balance + net (⟨.closeParen, offset⟩ :: rest) := by
        simp [net]
        omega
      simp [weigh, ih, shifted]
    | word name => simp [weigh, ih, net]
    | operator connective => simp [weigh, ih, net]

theorem net_of_openParens {parens : List Token}
    (all : ∀ token ∈ parens, token.lexeme = .openParen) : 0 ≤ net parens := by
  have noneClosed : parens.countP (fun token => token.lexeme = .closeParen) = 0 := by
    rw [List.countP_eq_zero]
    intro token member
    simp [all token member]
  rw [net, noneClosed]
  omega

theorem weigh_of_parens (balance : Int) {tokens : List Token}
    (parens : ∀ token ∈ tokens, token.lexeme.isParen = true) : weigh balance tokens = [] := by
  induction tokens generalizing balance with
  | nil => rfl
  | cons token rest ih =>
    obtain ⟨lexeme, offset⟩ := token
    have later (balance : Int) : weigh balance rest = [] :=
      ih balance fun token member => parens token (.tail _ member)
    cases lexeme with
    | openParen => exact later _
    | closeParen => exact later _
    | word name => exact absurd (parens _ (.head _)) (by simp [Lexeme.isParen])
    | operator connective => exact absurd (parens _ (.head _)) (by simp [Lexeme.isParen])

/-- What is weighed are words and operators among the tokens. -/
theorem mem_of_mem_weigh {balance : Int} {tokens : List Token} {entry : Token × Int}
    (member : entry ∈ weigh balance tokens) :
    entry.1 ∈ tokens ∧ entry.1.lexeme.isParen = false := by
  induction tokens generalizing balance with
  | nil => simp [weigh] at member
  | cons token rest ih =>
    have behind (balance : Int) (later : entry ∈ weigh balance rest) :
        entry.1 ∈ token :: rest ∧ entry.1.lexeme.isParen = false :=
      ⟨.tail _ (ih later).1, (ih later).2⟩
    obtain ⟨lexeme, offset⟩ := token
    cases lexeme with
    | openParen => exact behind _ member
    | closeParen => exact behind _ member
    | word name =>
      rcases List.mem_cons.1 member with rfl | later
      · exact ⟨.head _, rfl⟩
      · exact behind _ later
    | operator connective =>
      rcases List.mem_cons.1 member with rfl | later
      · exact ⟨.head _, rfl⟩
      · exact behind _ later

def shift (c : Int) (entries : List (Token × Int)) : List (Token × Int) :=
  entries.map (Prod.map id (· + c))

theorem weigh_add (balance c : Int) (tokens : List Token) :
    weigh (balance + c) tokens = shift c (weigh balance tokens) := by
  induction tokens generalizing balance with
  | nil => rfl
  | cons token rest ih =>
    obtain ⟨lexeme, offset⟩ := token
    cases lexeme with
    | openParen =>
      have swapped : balance + c + 1 = balance + 1 + c := by omega
      rw [weigh, swapped]
      exact ih _
    | closeParen =>
      have swapped : balance + c - 1 = balance - 1 + c := by omega
      rw [weigh, swapped]
      exact ih _
    | word name => simp [weigh, ih, shift]
    | operator connective => simp [weigh, ih, shift]

end Token

/-! ## Shifted balances -/

namespace Layout

/-- The same context at another floor. -/
def raise (c : Int) (layout : Layout) : Layout :=
  { layout with floor := layout.floor + c }

theorem read_raise (c : Int) (layout : Layout) (entry : Token × Int) :
    (layout.raise c).read (entry.1, entry.2 + c) = (layout.read entry).raise c := by
  obtain ⟨token, balance⟩ := entry
  rcases read_cases token with ⟨phrase, inserted⟩ | ⟨-, passed⟩
  · have below : layout.floor + c - (balance + c) = layout.floor - balance := by omega
    have above (count : Nat) : balance + c - (layout.floor + c - count) =
        balance - (layout.floor - count) := by omega
    rw [inserted, inserted]
    simp only [insert, put, lower, raise, below, above, Layout.mk.injEq, true_and]
    omega
  · rw [passed, passed]

theorem foldl_read_raise (c : Int) (entries : List (Token × Int)) (layout : Layout) :
    (Token.shift c entries).foldl read (layout.raise c) = (entries.foldl read layout).raise c := by
  induction entries generalizing layout with
  | nil => rfl
  | cons entry rest ih =>
    have first := read_raise c layout entry
    rw [List.foldl_cons, ← ih, ← first]
    rfl

/-- What comes first stands alone, at any balance that is not below the ground. -/
theorem read_empty_agrees (token : Token) (c : Int) (balance : Int) (above : 0 ≤ balance)
    (shiftedAbove : 0 ≤ balance + c) (noParen : token.lexeme.isParen = false) :
    (empty.read (token, balance + c)).Agrees ((empty.read (token, balance)).raise c) := by
  obtain ⟨phrase, inserted⟩ := exists_phrase noParen
  have alone (height : Int) (ground : 0 ≤ height) :
      empty.insert height phrase = (⟨[phrase], height⟩ : Layout).lower height.toNat := by
    have noMore : (-height).toNat = 0 := by omega
    have floor : max height 0 = height := by omega
    simp [insert, put, lower, empty, noMore, floor, Phrase.wrap, Phrase.insertAt_nil]
  have raised : ((⟨[phrase], balance⟩ : Layout).lower balance.toNat).raise c =
      (⟨[phrase], balance + c⟩ : Layout).lower balance.toNat := by
    simp only [lower, raise, Layout.mk.injEq, true_and]
    omega
  rw [inserted, inserted, alone _ shiftedAbove, alone _ above, raised]
  exact (lower_agrees _ _).trans (lower_agrees _ _).symm

end Layout

namespace Formula

theorem ofPhrases_eq_of_agrees {first second : Layout} (agrees : first.Agrees second) :
    ofPhrases first.context = ofPhrases second.context := by
  obtain ⟨m, n, same⟩ := agrees
  have contexts := congrArg Layout.context same
  rw [← ofPhrases_wrap m, ← ofPhrases_wrap n second.context]
  exact congrArg ofPhrases contexts

/-- A number added to all balances does not matter when the first entry stays above the ground. -/
theorem ofEntries_shift (c : Int) (entries : List (Token × Int))
    (start : ∀ entry ∈ entries.head?,
      entry.1.lexeme.isParen = false ∧ 0 ≤ entry.2 ∧ 0 ≤ entry.2 + c) :
    ofEntries (Token.shift c entries) = ofEntries entries := by
  cases entries with
  | nil => rfl
  | cons entry rest =>
    obtain ⟨token, balance⟩ := entry
    -- from the first entry on the layouts differ by the floor and by groups around everything
    obtain ⟨noParen, ground, shiftedGround⟩ := start (token, balance) rfl
    have first := Layout.read_empty_agrees token c balance ground shiftedGround noParen
    have whole := first.foldl_read (Token.shift c rest)
    rw [Layout.foldl_read_raise] at whole
    have outcomes := ofPhrases_eq_of_agrees whole
    exact outcomes

end Formula

/-! ## Below the ground -/

theorem Derivation.group_members {rungs : List (List BinaryOp)} {phrases members : List Phrase}
    (derivation : Derivation rungs phrases) (member : .group members ∈ phrases) :
    Nonempty (Derivation ladder members) := by
  induction derivation with
  | word name => simp at member
  | group inner ih =>
    obtain rfl : members = _ := by simpa using member
    exact ⟨inner⟩
  | negation offset operand ih => exact ih (by simpa using member)
  | join op offset inOps left right leftIh rightIh =>
    rcases List.mem_append.1 member with inLeft | inRight
    · exact leftIh inLeft
    · exact rightIh (by simpa using inRight)
  | descend inner ih => exact ih member

theorem Formula.ofPhrases_ne_ok_of_group {members phrases : List Phrase}
    (unread : ∀ formula, ofPhrases members ≠ .ok formula) (member : .group members ∈ phrases)
    (formula : Formula) : ofPhrases phrases ≠ .ok formula := by
  intro read
  obtain ⟨derivation, -⟩ := (ofPhrases_eq_ok_iff phrases formula).1 read
  obtain ⟨inner⟩ := derivation.group_members member
  exact unread inner.formula ((ofPhrases_eq_ok_iff members _).2 ⟨inner, rfl⟩)

theorem Phrase.insertAt_ne_nil (phrase : Phrase) (depth : Nat) (context : List Phrase) :
    phrase.insertAt depth context ≠ [] := by
  cases depth with
  | zero => simp [insertAt]
  | succ depth =>
    rw [insertAt]
    split <;> simp

/-- What is added goes behind the first of several phrases, and is added to the others as if they stood
    alone. -/
theorem Phrase.insertAt_cons (phrase : Phrase) (depth : Nat) (first : Phrase) {others : List Phrase}
    (nonempty : others ≠ []) :
    phrase.insertAt depth (first :: others) = first :: phrase.insertAt depth others := by
  cases depth with
  | zero => rfl
  | succ depth =>
    rw [insertAt, insertAt, List.getLast?_cons_of_ne_nil nonempty, List.dropLast_cons_of_ne_nil nonempty]
    split <;> rfl

namespace Layout

/-- A group that is no formula stands before other phrases, up to groups around everything. -/
def Blocked (layout : Layout) : Prop :=
  ∃ members others floor, (∀ formula, Formula.ofPhrases members ≠ .ok formula) ∧ others ≠ [] ∧
    layout.Agrees ⟨.group members :: others, floor⟩

/-- Whatever is read next, the group stays where it is, or goes into another that is no formula. -/
theorem Blocked.read {layout : Layout} (blocked : layout.Blocked) (entry : Token × Int) :
    (layout.read entry).Blocked := by
  obtain ⟨token, balance⟩ := entry
  rcases read_cases token with ⟨phrase, inserted⟩ | ⟨-, passed⟩
  · obtain ⟨members, others, floor, unread, nonempty, agrees⟩ := blocked
    rw [inserted]
    have step := agrees.insert balance phrase
    by_cases above : floor ≤ balance
    · have noMore : (floor - balance).toNat = 0 := by omega
      have behind := phrase.insertAt_cons (balance - floor).toNat (.group members) nonempty
      refine ⟨members, _, floor, unread, phrase.insertAt_ne_nil (balance - floor).toNat others, ?_⟩
      simpa [insert, put, lower, noMore, Phrase.wrap, behind] using step
    · -- the list is closed with the group in it, and is no formula because of the group
      obtain ⟨count, more⟩ : ∃ count, (floor - balance).toNat = count + 1 :=
        ⟨(floor - balance).toNat - 1, by omega⟩
      have level : (balance - (floor - (count + 1 : Nat))).toNat = 0 := by omega
      refine ⟨Phrase.wrap count (.group members :: others), [phrase], floor - (count + 1 : Nat), ?_,
        by simp, ?_⟩
      · intro formula
        rw [Formula.ofPhrases_wrap]
        exact Formula.ofPhrases_ne_ok_of_group unread (.head _) formula
      · simpa only [insert, put, lower, more, level, Phrase.wrap, Phrase.insertAt,
          List.cons_append, List.nil_append] using step
  · rw [passed]
    exact blocked

theorem Blocked.foldl_read {layout : Layout} (blocked : layout.Blocked)
    (entries : List (Token × Int)) : (entries.foldl Layout.read layout).Blocked := by
  induction entries generalizing layout with
  | nil => exact blocked
  | cons entry rest ih => exact ih (blocked.read entry)

/-- What comes first below the ground has an empty group before it. -/
theorem read_empty_blocked (token : Token) (balance : Int) (below : balance < 0)
    (noParen : token.lexeme.isParen = false) : (empty.read (token, balance)).Blocked := by
  obtain ⟨count, more⟩ : ∃ count, (0 - balance).toNat = count + 1 :=
    ⟨(0 - balance).toNat - 1, by omega⟩
  obtain ⟨phrase, inserted⟩ := exists_phrase noParen
  have level : (balance - (0 - (count + 1 : Nat))).toNat = 0 := by omega
  have shape : empty.insert balance phrase =
      ⟨[.group (Phrase.wrap count []), phrase], 0 - (count + 1 : Nat)⟩ := by
    simp only [insert, put, lower, empty, more, level, Phrase.wrap, Phrase.insertAt,
      List.cons_append, List.nil_append]
  rw [inserted, shape]
  refine ⟨Phrase.wrap count [], [phrase], 0 - (count + 1 : Nat), ?_, by simp, .refl _⟩
  intro formula
  rw [Formula.ofPhrases_wrap]
  simp [Formula.ofPhrases_eq_ofSplit, Formula.ofSplit_nil]

end Layout

/-- No formula begins below the ground. -/
theorem Formula.ground_of_ofEntries_ok {entries : List (Token × Int)} {formula : Formula}
    (read : ofEntries entries = .ok formula)
    (noParens : ∀ entry ∈ entries, entry.1.lexeme.isParen = false) :
    ∀ entry ∈ entries.head?, 0 ≤ entry.2 := by
  rintro ⟨token, balance⟩ first
  by_contra ground
  cases entries with
  | nil => simp at first
  | cons head rest =>
    obtain rfl : head = (token, balance) := by simpa using first
    have outcome : ofPhrases (rest.foldl Layout.read (Layout.empty.read (token, balance))).context =
        .ok formula := read
    have below : balance < 0 := Int.not_le.1 ground
    have start := Layout.read_empty_blocked token balance below (noParens _ (.head _))
    obtain ⟨members, others, floor, unread, -, agrees⟩ := start.foldl_read rest
    rw [ofPhrases_eq_of_agrees agrees] at outcome
    exact ofPhrases_ne_ok_of_group unread (.head _) formula outcome

/-! ## Numbered tokens -/

namespace Token

/-- The entries with their positions as their places. -/
def number (start : Nat) : List (Token × Int) → List (Token × Int)
  | [] => []
  | (token, balance) :: rest => (⟨token.lexeme, start⟩, balance) :: number (start + 1) rest

def placeAt (entries : List (Token × Int)) (index : Nat) : Nat :=
  match entries[index]? with
  | some (token, _) => token.offset
  | none => 0

theorem number_relabel (entries : List (Token × Int)) (start : Nat) (move : Nat → Nat)
    (places : ∀ index, index < entries.length → move (start + index) = placeAt entries index) :
    (number start entries).map (Prod.map (relabel id move) id) = entries := by
  induction entries generalizing start with
  | nil => rfl
  | cons entry rest ih =>
    obtain ⟨⟨lexeme, offset⟩, balance⟩ := entry
    have place : move start = offset := places 0 (by simp)
    have later := ih (start + 1) fun index bound => by
      have there := places (index + 1) (by simpa using bound)
      rw [Nat.add_assoc, Nat.add_comm 1 index, there]
      simp [placeAt]
    rw [number, List.map_cons, later]
    cases lexeme <;> simp [relabel, Lexeme.rename, place]

theorem offset_lt_of_mem_number {entries : List (Token × Int)} {start : Nat} {entry : Token × Int}
    (member : entry ∈ number start entries) : entry.1.offset < start + entries.length := by
  induction entries generalizing start with
  | nil => simp [number] at member
  | cons head rest ih =>
    rcases List.mem_cons.1 member with rfl | member
    · simp
    · have bound := ih member
      rw [List.length_cons]
      omega

end Token

/-- Entries say the same things with balances that differ by a constant. -/
def Token.SameUpTo (c : Int) (first second : List (Token × Int)) : Prop :=
  List.Forall₂ (fun entry entry' => entry.1.lexeme = entry'.1.lexeme ∧ entry'.2 = entry.2 + c)
    first second

theorem Token.SameUpTo.head {c : Int} {first second : List (Token × Int)}
    (same : SameUpTo c first second) {entry : Token × Int} (member : entry ∈ first.head?) :
    ∃ entry' ∈ second.head?, entry'.2 = entry.2 + c := by
  cases same with
  | nil => simp at member
  | @cons head head' rest rest' pair later =>
    obtain rfl : head = entry := by simpa using member
    exact ⟨head', rfl, pair.2⟩

theorem Token.number_eq_shift {c : Int} {first second : List (Token × Int)}
    (same : SameUpTo c first second) (start : Nat) :
    number start second = shift c (number start first) := by
  induction same generalizing start with
  | nil => rfl
  | @cons entry entry' rest rest' pair later ih =>
    obtain ⟨⟨lexeme, offset⟩, balance⟩ := entry
    obtain ⟨⟨lexeme', offset'⟩, balance'⟩ := entry'
    obtain ⟨rfl, rfl⟩ : lexeme = lexeme' ∧ balance' = balance + c := pair
    rw [number, ih]
    rfl

/-! ## The law -/

/-- Two places are unknown, or those of the tokens at one position in two lists. -/
inductive SamePlace (first second : List (Token × Int)) : Option Nat → Option Nat → Prop
  | unknown : SamePlace first second none none
  | known {index : Nat} {entry entry' : Token × Int} :
      first[index]? = some entry → second[index]? = some entry' →
        SamePlace first second (some entry.1.offset) (some entry'.1.offset)

/-- Two outcomes are the same formula, or errors of one kind at the same place in two lists. -/
inductive SameOutcome (first second : List (Token × Int)) :
    Except ParseError Formula → Except ParseError Formula → Prop
  | formula (formula : Formula) : SameOutcome first second (.ok formula) (.ok formula)
  | emptyExpression :
      SameOutcome first second (.error .emptyExpression) (.error .emptyExpression)
  | operatorWithoutOperand {offset offset' : Nat} :
      SamePlace first second (some offset) (some offset') →
        SameOutcome first second (.error (.operatorWithoutOperand offset))
          (.error (.operatorWithoutOperand offset'))
  | malformedUnary {place place' : Option Nat} : SamePlace first second place place' →
      SameOutcome first second (.error (.malformedUnary place)) (.error (.malformedUnary place'))
  | malformedBinary {place place' : Option Nat} : SamePlace first second place place' →
      SameOutcome first second (.error (.malformedBinary place)) (.error (.malformedBinary place'))
  | malformedExpression :
      SameOutcome first second (.error .malformedExpression) (.error .malformedExpression)

namespace Formula

open Token (weigh number placeAt shift)

theorem samePlace_placeAt {first second : List (Token × Int)} (index : Nat)
    (bound : index < first.length) (bound' : index < second.length) :
    SamePlace first second (some (placeAt first index)) (some (placeAt second index)) := by
  have entry : first[index]? = some first[index] := List.getElem?_eq_getElem bound
  have entry' : second[index]? = some second[index] := List.getElem?_eq_getElem bound'
  simp only [placeAt, entry, entry']
  exact .known entry entry'

theorem sameOutcome_relabel {first second : List (Token × Int)}
    (length : first.length = second.length) (outcome : Except ParseError Formula)
    (bound : ∀ error offset, outcome = .error error → error.offset? = some offset →
      offset < first.length) :
    SameOutcome first second (relabelOutcome id (placeAt first) outcome)
      (relabelOutcome id (placeAt second) outcome) := by
  have place (error : ParseError) (same : outcome = .error error) :
      SamePlace first second (error.offset?.map (placeAt first))
        (error.offset?.map (placeAt second)) := by
    cases known : error.offset? with
    | none => exact .unknown
    | some offset =>
      have inside := bound error offset same known
      exact samePlace_placeAt offset inside (length ▸ inside)
  cases outcome with
  | ok formula =>
    simp only [relabelOutcome, rename_id]
    exact .formula formula
  | error error =>
    have there := place error rfl
    cases error with
    | emptyExpression => exact .emptyExpression
    | operatorWithoutOperand offset => exact .operatorWithoutOperand there
    | malformedUnary offset => exact .malformedUnary there
    | malformedBinary offset => exact .malformedBinary there
    | malformedExpression => exact .malformedExpression

theorem sameOutcome_of_sameUpTo {c : Int} {first second : List (Token × Int)}
    (same : Token.SameUpTo c first second)
    (start : c = 0 ∨ ∀ entry ∈ first.head?,
      entry.1.lexeme.isParen = false ∧ 0 ≤ entry.2 ∧ 0 ≤ entry.2 + c) :
    SameOutcome first second (ofEntries first) (ofEntries second) := by
  have putBack (entries : List (Token × Int)) :
      ofEntries entries = relabelOutcome id (placeAt entries) (ofEntries (number 0 entries)) := by
    have relabelled := ofEntries_relabel id (placeAt entries) (number 0 entries)
    rwa [Token.number_relabel entries 0 _ (by simp)] at relabelled
  -- numbered, the two lists differ by the constant only
  have unshifted : ofEntries (number 0 second) = ofEntries (number 0 first) := by
    rw [Token.number_eq_shift same]
    rcases start with rfl | start
    · have unchanged : shift 0 (number 0 first) = number 0 first := by
        simp only [shift, Int.add_zero]
        exact List.map_id _
      rw [unchanged]
    · apply ofEntries_shift
      cases first with
      | nil => simp [number]
      | cons entry rest => simpa [number] using start
  rw [putBack first, putBack second, unshifted]
  apply sameOutcome_relabel same.length_eq
  intro error offset read known
  obtain ⟨entry, member, rfl⟩ := token_of_offset? read known
  have bound := Token.offset_lt_of_mem_number member
  omega

theorem sameOutcome_of_balances {first second : List Token} {c : Int}
    (same : Token.SameUpTo c (weigh 0 first) (weigh 0 second))
    (start : c = 0 ∨ (∀ entry ∈ (weigh 0 first).head?, 0 ≤ entry.2) ∧
      ∀ entry ∈ (weigh 0 second).head?, 0 ≤ entry.2) :
    SameOutcome (weigh 0 first) (weigh 0 second) (ofTokens first) (ofTokens second) := by
  rw [ofTokens_eq_ofEntries, ofTokens_eq_ofEntries]
  apply sameOutcome_of_sameUpTo same
  rcases start with zero | ⟨firstStart, secondStart⟩
  · exact .inl zero
  · right
    intro entry member
    have noParen := (Token.mem_of_mem_weigh (List.mem_of_mem_head? member)).2
    have ground := firstStart entry member
    obtain ⟨entry', member', raised⟩ := same.head member
    have shiftedGround := secondStart entry' member'
    exact ⟨noParen, ground, raised ▸ shiftedGround⟩

/-- Parentheses with as many opening as closing ones among them do not matter, nor does their order. -/
theorem ofTokens_level_parens (before after : List Token) {parens : List Token}
    (all : ∀ token ∈ parens, token.lexeme.isParen = true) (level : Token.net parens = 0) :
    ofTokens (before ++ parens ++ after) = ofTokens (before ++ after) := by
  rw [ofTokens_eq_ofEntries, ofTokens_eq_ofEntries, List.append_assoc, Token.weigh_append,
    Token.weigh_append, Token.weigh_of_parens _ all, level, Int.add_zero, List.nil_append,
    Token.weigh_append]

theorem ofTokens_append_parens (tokens : List Token) {parens : List Token}
    (all : ∀ token ∈ parens, token.lexeme.isParen = true) :
    ofTokens (tokens ++ parens) = ofTokens tokens := by
  rw [ofTokens_eq_ofEntries, Token.weigh_append, Token.weigh_of_parens _ all, List.append_nil,
    ofTokens_eq_ofEntries]

/-- Opening parentheses do not matter before a formula, or before anything above the ground. -/
theorem ofTokens_openParens_append (tokens : List Token) {parens : List Token}
    (all : ∀ token ∈ parens, token.lexeme = .openParen)
    (start : (∃ formula, ofTokens tokens = .ok formula) ∨
      ∀ entry ∈ (weigh 0 tokens).head?, 0 ≤ entry.2) :
    ofTokens (parens ++ tokens) = ofTokens tokens := by
  have noParens : ∀ entry ∈ weigh 0 tokens, entry.1.lexeme.isParen = false :=
    fun _ member => (Token.mem_of_mem_weigh member).2
  have ground : ∀ entry ∈ (weigh 0 tokens).head?, 0 ≤ entry.2 := by
    rcases start with ⟨formula, read⟩ | ground
    · rw [ofTokens_eq_ofEntries] at read
      exact ground_of_ofEntries_ok read noParens
    · exact ground
  have isParens : ∀ token ∈ parens, token.lexeme.isParen = true := by
    intro token member
    rw [all token member]
    rfl
  have higher := Token.net_of_openParens all
  rw [ofTokens_eq_ofEntries, Token.weigh_append, Token.weigh_of_parens _ isParens,
    List.nil_append, Token.weigh_add, ofTokens_eq_ofEntries]
  apply ofEntries_shift
  intro entry member
  have above := ground entry member
  exact ⟨noParens entry (List.mem_of_mem_head? member), above, by omega⟩

/-- Tokens with the same words and operators, at balances that differ by one number, are read alike if
    that number is zero or neither list begins below the ground.  So parentheses at the end do not
    matter, nor do as many opening as closing ones anywhere, nor opening ones at the beginning of a
    formula or of anything else that does not begin below the ground. -/
theorem ofTokens_of_balances :
    (∀ (first second : List Token) (c : Int),
      Token.SameUpTo c (weigh 0 first) (weigh 0 second) →
      (c = 0 ∨ (∀ entry ∈ (weigh 0 first).head?, 0 ≤ entry.2) ∧
        ∀ entry ∈ (weigh 0 second).head?, 0 ≤ entry.2) →
      SameOutcome (weigh 0 first) (weigh 0 second) (ofTokens first) (ofTokens second)) ∧
    (∀ tokens parens : List Token, (∀ token ∈ parens, token.lexeme.isParen = true) →
      ofTokens (tokens ++ parens) = ofTokens tokens) ∧
    (∀ before after parens : List Token, (∀ token ∈ parens, token.lexeme.isParen = true) →
      Token.net parens = 0 → ofTokens (before ++ parens ++ after) = ofTokens (before ++ after)) ∧
    (∀ tokens parens : List Token, (∀ token ∈ parens, token.lexeme = .openParen) →
      ((∃ formula, ofTokens tokens = .ok formula) ∨
        ∀ entry ∈ (weigh 0 tokens).head?, 0 ≤ entry.2) →
      ofTokens (parens ++ tokens) = ofTokens tokens) := by
  refine ⟨?_, ?_, ?_, ?_⟩
  · intro first second c same start
    exact sameOutcome_of_balances same start
  · intro tokens parens all
    exact ofTokens_append_parens tokens all
  · intro before after parens all level
    exact ofTokens_level_parens before after all level
  · intro tokens parens all start
    exact ofTokens_openParens_append tokens all start

theorem ofTokens_of_balances_unclosed :
    SameOutcome
      (weigh 0 [⟨.openParen, 0⟩, ⟨.word "p", 1⟩, ⟨.operator (.binary .or), 2⟩, ⟨.closeParen, 3⟩])
      (weigh 0 [⟨.word "p", 0⟩, ⟨.operator (.binary .or), 1⟩])
      (ofTokens [⟨.openParen, 0⟩, ⟨.word "p", 1⟩, ⟨.operator (.binary .or), 2⟩, ⟨.closeParen, 3⟩])
      (ofTokens [⟨.word "p", 0⟩, ⟨.operator (.binary .or), 1⟩]) :=
  ofTokens_of_balances.1 _ _ (-1) (.cons ⟨rfl, rfl⟩ (.cons ⟨rfl, rfl⟩ .nil))
    (.inr ⟨by decide, by decide⟩)

end Formula

end Sentential
