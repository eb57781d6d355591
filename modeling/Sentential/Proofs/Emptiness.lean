import Sentential.Proofs.Listing
import Sentential.Proofs.MissingOperands
import Sentential.Proofs.Rejection

/-! # Empty expressions

The shape check reports an empty expression where it reads a list of no phrases.  It reads an operand
only if the operand is there, but a group that holds nothing but an empty group counts as there.  So an
empty expression is met inside of such groups: `MeetsNothing` follows the check down to one
(`ofPhrases_eq_emptyExpression_iff`).

In a text empty groups come from closing parentheses before the first word or connective, the second of
which puts an empty group into another.  A text that has at most one closing parenthesis too many there
is `Grounded`, and is an empty expression only if it holds nothing but parentheses.
-/

namespace Sentential

open Phrase

/-! ## Where nothing is met -/

/-- The check of a list in the layer of some rungs comes to a list of no phrases. -/
inductive MeetsNothing : List (List BinaryOp) → List Phrase → Prop
  | nothing : MeetsNothing [] []
  | group {members : List Phrase} : MeetsNothing ladder members → MeetsNothing [] [.group members]
  | negation (offset : Nat) {operand : List Phrase} : operand ≠ [] → MeetsNothing [] operand →
      MeetsNothing [] (.operator .not offset :: operand)
  /-- The left side of the last operator of the layer is checked if both sides are there. -/
  | left {ops : List BinaryOp} {rungs : List (List BinaryOp)} {left right : List Phrase}
      {op : BinaryOp} {offset : Nat} : CutAt ops left op offset right →
        (operand left).isMissing = false → (operand right).isMissing = false →
          MeetsNothing (ops :: rungs) left →
            MeetsNothing (ops :: rungs) (left ++ .operator (.binary op) offset :: right)
  /-- The right side is checked if the left side is a formula. -/
  | right {ops : List BinaryOp} {rungs : List (List BinaryOp)} {left right : List Phrase}
      {op : BinaryOp} {offset : Nat} : CutAt ops left op offset right →
        (operand right).isMissing = false → Derivation (ops :: rungs) left → MeetsNothing rungs right →
          MeetsNothing (ops :: rungs) (left ++ .operator (.binary op) offset :: right)
  /-- A list without operators of the layer is checked in the next one. -/
  | descend {ops : List BinaryOp} {rungs : List (List BinaryOp)} {phrases : List Phrase} :
      (∀ phrase ∈ bindNegations phrases, phrase.isOperatorIn (ops.map .binary) = false) →
        MeetsNothing rungs phrases → MeetsNothing (ops :: rungs) phrases

namespace MeetsNothing

open Formula

variable {rungs : List (List BinaryOp)} {phrases : List Phrase}

theorem exists_bound_operand {phrases : List Phrase} : MeetsNothing [] phrases → phrases ≠ [] →
    ∃ phrase, bindNegations phrases = [phrase] ∧ phrase.isOperator = false
  | .nothing, nonempty => absurd rfl nonempty
  | @MeetsNothing.group members _, _ =>
    ⟨.group (bindNegations members), by simp [bindNegations_cons, attach_nil], rfl⟩
  | .negation offset nonempty inner, _ => by
    obtain ⟨phrase, bound, -⟩ := exists_bound_operand inner nonempty
    exact ⟨.group [.operator .not offset, phrase], by simp [bindNegations_cons, bound, attach], rfl⟩

theorem ofLayer_eq_error (meets : MeetsNothing rungs phrases) (done : List (List BinaryOp))
    (whole : done ++ rungs = ladder) : ofLayer done rungs phrases = .error .emptyExpression := by
  induction meets generalizing done with
  | nothing =>
    obtain rfl : done = ladder := by simpa using whole
    simp [ofLayer_last, ofMembers]
  | group inner ih =>
    obtain rfl : done = ladder := by simpa using whole
    rw [ofLayer_last_group, ih [] rfl]
  | negation offset nonempty inner ih =>
    obtain rfl : done = ladder := by simpa using whole
    obtain ⟨phrase, bound, inert⟩ := inner.exists_bound_operand nonempty
    rw [ofLayer_last_negation bound inert, ih ladder whole]
    rfl
  | @left ops rungs left right op offset cut leftThere rightThere inner ih =>
    rw [ofLayer_join done rungs cut (isMissing_side done ops leftThere)
      (isMissing_side done ops rightThere), ih done whole]
    rfl
  | @right ops rungs left right op offset cut rightThere leftTree inner ih =>
    rw [ofLayer_join done rungs cut (isMissing_side done ops leftTree.isMissing_operand)
      (isMissing_side done ops rightThere), leftTree.ofLayer_eq_ok done whole,
      ih (done ++ [ops]) (by simpa using whole)]
    rfl
  | @descend ops rungs phrases none inner ih =>
    rw [ofLayer_descend _ _ _ _ none]
    exact ih (done ++ [ops]) (by simpa using whole)

theorem ne_operator (meets : MeetsNothing rungs phrases) (connective : Connective) (offset : Nat) :
    phrases ≠ [.operator connective offset] := by
  induction meets with
  | nothing => simp
  | group inner _ => simp
  | negation place nonempty inner _ => simp [nonempty]
  | left _ leftThere _ _ _ =>
    obtain ⟨first, rest, rfl⟩ := List.exists_cons_of_ne_nil (ne_nil_of_isMissing leftThere)
    simp
  | right _ _ leftTree _ _ =>
    obtain ⟨first, rest, rfl⟩ := List.exists_cons_of_ne_nil leftTree.ne_nil
    simp
  | descend _ _ ih => exact ih

end MeetsNothing

namespace Formula

/-! ## Every empty expression is met -/

/-- In a layer nothing is met wherever an empty expression is reported. -/
def EmptinessMet (done rungs : List (List BinaryOp)) (phrases : List Phrase) : Prop :=
  ofLayer done rungs phrases = .error .emptyExpression → MeetsNothing rungs phrases

theorem meetsNothing_single {phrases : List Phrase} (inside : HoldsInside EmptinessMet phrases)
    {phrase : Phrase} (bound : bindNegations phrases = [phrase])
    (unread : ofPhrase (settle precedenceClasses phrase) = .error .emptyExpression) :
    MeetsNothing [] phrases := by
  cases bindsTo_of_bindNegations bound with
  | word name => simp [ofPhrase] at unread
  | operator connective offset => simp [ofPhrase] at unread
  | @group members =>
    rw [settle_group, ofPhrase] at unread
    exact .group (inside.group rfl (by rw [← ofPhrases_eq_ofLayer]; exact unread))
  | @negation offset tail operand rest =>
    rw [settle_group, ofPhrase] at unread
    rcases ofSplit_negation_eq_error _ _ _ _ not_mem_precedenceClasses unread with
      other | ⟨place, other⟩ | ⟨inner, operandUnread⟩
    · simp at other
    · simp at other
    · have nonempty : tail ≠ [] := fun empty => by simp [empty] at rest
      have tailUnread : ofLayer ladder [] tail = .error .emptyExpression := by
        rw [ofLayer_last, rest]
        simpa [ofMembers] using operandUnread
      exact .negation offset nonempty (inside.negation rfl rest inner tailUnread)

theorem ofMembers_several_ne {phrases : List Phrase}
    (inert : ∀ op offset, .operator (.binary op) offset ∉ bindNegations phrases)
    {first second : Phrase} {rest : List Phrase}
    (bound : bindNegations phrases = first :: second :: rest) :
    ofMembers ((first :: second :: rest).map (settle precedenceClasses)) ≠
      .error .emptyExpression := by
  have firstInner : (settle precedenceClasses first).isOperator = false := by
    rw [isOperator_settle]
    exact isOperator_eq_false_of_bound inert [] bound
  match rest with
  | [] =>
    rw [List.map_cons, List.map_cons, List.map_nil, ofMembers_pair _ _ firstInner]
    simp
  | [third] =>
    have secondInner : (settle precedenceClasses second).isOperator = false := by
      rw [isOperator_settle]
      exact isOperator_eq_false_of_bound inert [first] (by rw [bound]; rfl)
    rw [List.map_cons, List.map_cons, List.map_cons, List.map_nil, ofMembers_three _ _ _ secondInner]
    simp
  | third :: fourth :: others => simp [ofMembers]

theorem meetsNothing_last {phrases : List Phrase}
    (inert : ∀ op offset, .operator (.binary op) offset ∉ bindNegations phrases)
    (inside : HoldsInside EmptinessMet phrases)
    (unread : ofLayer ladder [] phrases = .error .emptyExpression) : MeetsNothing [] phrases := by
  rw [ofLayer_last] at unread
  match bound : bindNegations phrases with
  | [] =>
    rw [bindNegations_eq_nil_iff.1 bound]
    exact .nothing
  | [phrase] =>
    refine meetsNothing_single inside bound ?_
    simpa [bound, ofMembers] using unread
  | first :: second :: rest =>
    rw [bound] at unread
    exact absurd unread (ofMembers_several_ne inert bound)

/-- A side that counts as there, and in which nothing is met, is there as an operand. -/
theorem isMissing_of_side {done rungs : List (List BinaryOp)} {ops : List BinaryOp}
    {phrases : List Phrase} (there : (side done ops phrases).isMissing = false)
    (meets : MeetsNothing rungs phrases) : (operand phrases).isMissing = false := by
  match phrases with
  | [] => simp [side_of_isEmpty done ops (.inl rfl), isMissing] at there
  | [.word name] => rfl
  | [.operator connective offset] => exact absurd rfl (meets.ne_operator connective offset)
  | [.group []] => simp [side_of_isEmpty done ops (.inr rfl), isMissing] at there
  | [.group (member :: members)] => rfl
  | first :: second :: rest => rfl

theorem isMissing_side_of_inert (done : List (List BinaryOp)) {ops : List BinaryOp}
    {phrases : List Phrase}
    (inert : ∀ phrase ∈ bindNegations phrases, phrase.isOperatorIn (ops.map .binary) = false) :
    (side done ops phrases).isMissing = (operand phrases).isMissing := by
  rw [side, split_of_none _ _ (forall_mem_map_settle.2 inert), isMissing_operand_map_settle,
    isMissing_operand_map_settle, isMissing_operand_bindNegations]

theorem emptinessMet {done rungs : List (List BinaryOp)} {phrases : List Phrase}
    (whole : done ++ rungs = ladder)
    (split : ∀ ops ∈ done, ∀ phrase ∈ bindNegations phrases,
      phrase.isOperatorIn (ops.map .binary) = false) : EmptinessMet done rungs phrases := by
  refine layer_induction (motive := EmptinessMet) ?_ ?_ ?_ whole split
  · intro phrases inert inside unread
    exact meetsNothing_last inert inside unread
  · intro done ops rungs phrases none ih unread
    rw [ofLayer_descend _ _ _ _ none] at unread
    exact .descend none (ih unread)
  · intro done ops rungs left op offset right cut whole leftSplit leftIh rightIh unread
    by_cases missing : (side done ops left).isMissing = true ∨ (side done ops right).isMissing = true
    · -- a missing operand is reported as such
      obtain ⟨place, refused⟩ := ofSplit_of_isMissing (classesOf rungs) _ _ (.binary op) offset missing
      rw [ofLayer_sides done rungs cut, refused] at unread
      simp at unread
    · simp only [not_or, Bool.not_eq_true] at missing
      have rightThere := (isMissing_side_of_inert done cut.last).symm.trans missing.2
      rw [ofLayer_join done rungs cut missing.1 missing.2] at unread
      cases leftRead : ofLayer done (ops :: rungs) left with
      | error error =>
        obtain rfl : error = .emptyExpression := by simpa [leftRead, bind, Except.bind] using unread
        have meets := leftIh leftRead
        exact .left cut (isMissing_of_side missing.1 meets) rightThere meets
      | ok first =>
        obtain ⟨leftTree, -⟩ := readsDerivable left done (ops :: rungs) first whole leftSplit leftRead
        cases rightRead : ofLayer (done ++ [ops]) rungs right with
        | error error =>
          obtain rfl : error = .emptyExpression := by
            simpa [leftRead, rightRead, bind, Except.bind] using unread
          exact .right cut rightThere leftTree (rightIh rightRead)
        | ok second => simp [leftRead, rightRead, bind, Except.bind, pure, Except.pure] at unread

theorem ofPhrases_eq_emptyExpression_iff (phrases : List Phrase) :
    ofPhrases phrases = .error .emptyExpression ↔ MeetsNothing ladder phrases := by
  rw [ofPhrases_eq_ofLayer]
  constructor
  · exact emptinessMet rfl (by simp)
  · exact fun meets => meets.ofLayer_eq_error [] rfl

end Formula

/-! ## Texts that begin near the ground -/

/-- A phrase without empty groups in it. -/
inductive Full : Phrase → Prop
  | word (name : String) : Full (.word name)
  | operator (connective : Connective) (offset : Nat) : Full (.operator connective offset)
  | group {members : List Phrase} : members ≠ [] → (∀ member ∈ members, Full member) →
      Full (.group members)

theorem Token.ReadAs.full {token : Token} {phrase : Phrase} (readAs : token.ReadAs phrase) :
    Full phrase := by
  cases readAs with
  | word name offset => exact .word name
  | operator connective offset => exact .operator connective offset

theorem Full.insertAt {phrase : Phrase} (full : Full phrase) (depth : Nat) {context : List Phrase}
    (contextFull : ∀ other ∈ context, Full other) : ∀ other ∈ phrase.insertAt depth context, Full other := by
  induction depth generalizing context with
  | zero =>
    intro other member
    rcases List.mem_append.1 member with before | last
    · exact contextFull other before
    · rwa [List.mem_singleton.1 last]
  | succ depth ih =>
    have inner {members : List Phrase} (membersFull : ∀ member ∈ members, Full member) :
        Full (.group (phrase.insertAt depth members)) :=
      .group (phrase.insertAt_ne_nil depth members) (ih membersFull)
    intro other member
    rcases phrase.insertAt_succ_cases depth context with ⟨front, members, rfl, same⟩ | same
    · rw [same] at member
      rcases List.mem_append.1 member with before | last
      · exact contextFull other (List.mem_append_left _ before)
      · rw [List.mem_singleton.1 last]
        cases contextFull (.group members) (by simp) with
        | group nonempty membersFull => exact inner membersFull
    · rw [same] at member
      rcases List.mem_append.1 member with before | last
      · exact contextFull other before
      · rw [List.mem_singleton.1 last]
        exact inner (by simp)

/-- Phrases with an empty group at most at their start, and there only with something beside it. -/
inductive Grounded : List Phrase → Prop
  | full {phrases : List Phrase} : phrases ≠ [] → (∀ phrase ∈ phrases, Full phrase) → Grounded phrases
  | behind {others : List Phrase} : others ≠ [] → (∀ other ∈ others, Full other) →
      Grounded (.group [] :: others)
  | inside {members others : List Phrase} : Grounded members → (∀ other ∈ others, Full other) →
      Grounded (.group members :: others)

namespace Grounded

variable {phrase : Phrase} {context : List Phrase}

theorem insertAt (full : Full phrase) (depth : Nat) (grounded : Grounded context) :
    Grounded (phrase.insertAt depth context) := by
  induction grounded generalizing depth with
  | full nonempty all => exact .full (phrase.insertAt_ne_nil depth _) (full.insertAt depth all)
  | behind nonempty all =>
    rw [Phrase.insertAt_cons _ _ _ nonempty]
    exact .behind (phrase.insertAt_ne_nil depth _) (full.insertAt depth all)
  | @inside members others inner all ih =>
    by_cases alone : others = []
    · -- the first group is the last phrase too, so what goes deeper goes into it
      subst alone
      cases depth with
      | zero => exact .inside inner (by simpa using full)
      | succ depth =>
        have added := phrase.insertAt_succ_group depth [] members
        rw [List.nil_append, List.nil_append] at added
        rw [added]
        exact .inside (ih depth) (by simp)
    · rw [Phrase.insertAt_cons _ _ _ alone]
      exact .inside inner (full.insertAt depth all)

theorem wrap (count : Nat) (grounded : Grounded context) : Grounded (Phrase.wrap count context) := by
  induction count with
  | zero => exact grounded
  | succ count ih => exact .inside ih (by simp)

theorem of_append {left right : List Phrase} (grounded : Grounded (left ++ right)) (nonempty : left ≠ []) :
    (∀ phrase ∈ right, Full phrase) ∧ (left = [.group []] ∨ Grounded left) := by
  obtain ⟨first, rest, rfl⟩ := List.exists_cons_of_ne_nil nonempty
  rw [List.cons_append] at grounded
  cases grounded with
  | full _ all =>
    rw [← List.cons_append, List.forall_mem_append] at all
    exact ⟨all.2, .inr (.full nonempty all.1)⟩
  | behind _ all =>
    rw [List.forall_mem_append] at all
    by_cases alone : rest = []
    · exact ⟨all.2, .inl (by rw [alone])⟩
    · exact ⟨all.2, .inr (.behind alone all.1)⟩
  | inside inner all =>
    rw [List.forall_mem_append] at all
    exact ⟨all.2, .inr (.inside inner all.1)⟩

end Grounded

/-- In grounded phrases nothing is met: on the way down to an empty group there would be an operand
    missing, or a group that is full. -/
theorem MeetsNothing.not_grounded {rungs : List (List BinaryOp)} {phrases : List Phrase}
    (meets : MeetsNothing rungs phrases) : ¬ Grounded phrases := by
  induction meets with
  | nothing =>
    intro grounded
    cases grounded with
    | full nonempty _ => exact nonempty rfl
  | @group members inner ih =>
    intro grounded
    cases grounded with
    | full _ all =>
      cases all (.group members) (.head _) with
      | group nonempty membersFull => exact ih (.full nonempty membersFull)
    | behind nonempty _ => exact nonempty rfl
    | inside membersGrounded _ => exact ih membersGrounded
  | negation offset nonempty inner ih =>
    intro grounded
    cases grounded with
    | full _ all => exact ih (.full nonempty fun phrase member => all phrase (.tail _ member))
  | @left ops rungs left right op offset cut leftThere rightThere inner ih =>
    intro grounded
    rcases (grounded.of_append (ne_nil_of_isMissing leftThere)).2 with rfl | leftGrounded
    · simp [isMissing] at leftThere
    · exact ih leftGrounded
  | @right ops rungs left right op offset cut rightThere leftTree inner ih =>
    intro grounded
    have all := (grounded.of_append leftTree.ne_nil).1
    exact ih (.full (ne_nil_of_isMissing rightThere) fun phrase member => all phrase (.tail _ member))
  | descend _ _ ih => exact ih

namespace Layout

theorem grounded_read {layout : Layout} (grounded : Grounded layout.context) {token : Token}
    (balance : Int) (noParen : token.lexeme.isParen = false) :
    Grounded (layout.read (token, balance)).context := by
  obtain ⟨phrase, readAs⟩ := Token.ReadAs.of_noParen noParen
  rw [readAs.read_eq]
  exact (grounded.wrap _).insertAt readAs.full _

theorem grounded_foldl_read {layout : Layout} (grounded : Grounded layout.context)
    (entries : List (Token × Int)) (noParens : ∀ entry ∈ entries, entry.1.lexeme.isParen = false) :
    Grounded (entries.foldl read layout).context := by
  induction entries generalizing layout with
  | nil => exact grounded
  | cons entry rest ih =>
    rw [List.forall_mem_cons] at noParens
    exact ih (grounded_read grounded entry.2 noParens.1) noParens.2

/-- What comes first has at most one empty group before it, if at most one closing parenthesis is too
    many there. -/
theorem grounded_read_empty {token : Token} {balance : Int} (near : -1 ≤ balance)
    (noParen : token.lexeme.isParen = false) : Grounded (empty.read (token, balance)).context := by
  obtain ⟨phrase, readAs⟩ := Token.ReadAs.of_noParen noParen
  rw [readAs.read_eq]
  have full : ∀ other ∈ [phrase], Full other := by simpa using readAs.full
  by_cases ground : 0 ≤ balance
  · have noWrap : (empty.floor - balance).toNat = 0 := by
      simp only [empty]
      omega
    have shape : (empty.insert balance phrase).context = Phrase.wrap balance.toNat [phrase] := by
      rw [insert, noWrap, put, lower, ← Phrase.insertAt_nil]
      simp [empty, Phrase.wrap]
    rw [shape]
    exact .wrap _ (.full (by simp) full)
  · obtain rfl : balance = -1 := by omega
    exact .behind (by simp) full

theorem grounded_ofEntries {entries : List (Token × Int)} (nonempty : entries ≠ [])
    (noParens : ∀ entry ∈ entries, entry.1.lexeme.isParen = false)
    (near : ∀ entry ∈ entries.head?, -1 ≤ entry.2) : Grounded (ofEntries entries).context := by
  obtain ⟨⟨token, balance⟩, rest, rfl⟩ := List.exists_cons_of_ne_nil nonempty
  rw [List.forall_mem_cons] at noParens
  exact grounded_foldl_read (grounded_read_empty (near _ rfl) noParens.1) rest noParens.2

end Layout

open Token (weigh)

theorem Token.weigh_eq_nil_iff (balance : Int) (tokens : List Token) :
    weigh balance tokens = [] ↔ ∀ token ∈ tokens, token.lexeme.isParen = true := by
  constructor
  · intro nothing
    induction tokens generalizing balance with
    | nil => simp
    | cons token rest ih =>
      obtain ⟨lexeme, offset⟩ := token
      cases lexeme with
      | word name => simp [weigh] at nothing
      | operator connective => simp [weigh] at nothing
      | openParen => exact List.forall_mem_cons.2 ⟨rfl, ih _ nothing⟩
      | closeParen => exact List.forall_mem_cons.2 ⟨rfl, ih _ nothing⟩
  · exact weigh_of_parens balance

/-- A text is an empty expression exactly where the check of its phrases comes to nothing.  If at most
    one closing parenthesis is too many before the first word or connective, this is only so for texts
    without words and connectives.  A binary connective that lacks an operand in what is a formula
    otherwise is reported itself. -/
theorem Formula.parse_eq_emptyExpression (text : String) :
    ((∀ entry ∈ (weigh 0 (Token.scan text)).head?, -1 ≤ entry.2) →
      (parse text = .error .emptyExpression ↔
        ∀ token ∈ Token.scan text, token.lexeme.isParen = true)) ∧
    (parse text = .error .emptyExpression ↔ MeetsNothing ladder (nest (Token.scan text))) ∧
    ∀ place, Lacks place ladder (nest (Token.scan text)) →
      parse text = .error (.malformedBinary (some place)) := by
  refine ⟨?_, ofPhrases_eq_emptyExpression_iff _, ?_⟩
  · intro near
    have noParens : ∀ entry ∈ weigh 0 (Token.scan text), entry.1.lexeme.isParen = false :=
      fun _ member => (Token.mem_of_mem_weigh member).2
    rw [parse, ofTokens_eq_ofEntries, ofEntries, ofPhrases_eq_emptyExpression_iff,
      ← Token.weigh_eq_nil_iff 0]
    constructor
    · intro meets
      by_contra nonempty
      exact meets.not_grounded (Layout.grounded_ofEntries nonempty noParens near)
    · intro nothing
      rw [nothing, ← ofPhrases_eq_emptyExpression_iff, ofPhrases_eq_ofSplit]
      exact ofSplit_nil _
  · intro place lacks
    rw [parse, ofTokens, ofPhrases_eq_ofLayer]
    exact lacks.ofLayer_eq_error [] rfl

theorem Formula.parse_eq_emptyExpression_unmatched :
    (parse ") ∧ a" = .error .emptyExpression ↔
        ∀ token ∈ Token.scan ") ∧ a", token.lexeme.isParen = true) ∧
      parse ") ∧ a" = .error (.malformedBinary (some 2)) := by
  have shape : nest (Token.scan ") ∧ a") =
      [.group [], .operator (.binary .and) 2, .word "a"] := by
    rfl
  have lacks : Lacks 2 ladder (nest (Token.scan ") ∧ a")) := by
    rw [shape]
    exact .descend <| .descend <| .descend <|
      .here (List.mem_singleton.2 rfl) (.nothing (.inr rfl)) (.tree (.word "a")) (.inl (.inr rfl))
  exact ⟨(parse_eq_emptyExpression ") ∧ a").1 (by decide +kernel),
    (parse_eq_emptyExpression ") ∧ a").2.2 2 lacks⟩

/-- A second closing parenthesis hides that the operand is missing. -/
theorem Formula.parse_unmatched_twice :
    parse ")) ∧ a" = .error .emptyExpression ∧
      ∃ token ∈ Token.scan ")) ∧ a", token.lexeme = .operator (.binary .and) := by
  decide +kernel

end Sentential
