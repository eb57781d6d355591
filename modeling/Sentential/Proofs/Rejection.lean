import Sentential.Proofs.Leaves
import Sentential.Proofs.Scanning

/-! # What an error says

The place of an error is that of an operator, because the shape check only ever looks at the places of
operators, and the stages before it leave every operator where it stood (`operator_of_ofMembers_error`).

Which error it is depends on lists that the passes have rearranged: a later class may tear an operator
out of a triple, and leave two phrases behind that are no negation.  The check never reaches such a
rest.  The operator that was torn out lacks an operand, in its own triple or in the one around it, and
is reported as a malformed binary operator before the check goes any further
(`ofSplit_append_eq_error`).  So every other error comes from a list without binary operators, or from
a negation that has nothing to negate.  In such a list the bound negations leave no operator before
another phrase, and two phrases side by side are no operators (`warranted`).
-/

namespace Sentential

namespace Phrase

/-! ## Lists inside lists -/

/-- A list stands somewhere in phrases: it is the whole list, or stands in one of the groups. -/
inductive Within : List Phrase → List Phrase → Prop
  | whole (phrases : List Phrase) : Within phrases phrases
  | group {inner members phrases : List Phrase} :
      .group members ∈ phrases → Within inner members → Within inner phrases

/-- Somewhere in phrases two stand side by side, and neither is an operator. -/
def Juxtaposed (phrases : List Phrase) : Prop :=
  ∃ before first second after, Within (before ++ first :: second :: after) phrases ∧
    first.isOperator = false ∧ second.isOperator = false

theorem Juxtaposed.of_group {members phrases : List Phrase} (juxtaposed : Juxtaposed members)
    (member : .group members ∈ phrases) : Juxtaposed phrases := by
  obtain ⟨before, first, second, after, within, inner, inner'⟩ := juxtaposed
  exact ⟨before, first, second, after, .group member within, inner, inner'⟩

theorem Juxtaposed.append {phrases : List Phrase} (juxtaposed : Juxtaposed phrases)
    (front back : List Phrase) : Juxtaposed (front ++ phrases ++ back) := by
  obtain ⟨before, first, second, after, within, inner, inner'⟩ := juxtaposed
  cases within with
  | whole =>
    have shape : front ++ (before ++ first :: second :: after) ++ back =
        front ++ before ++ first :: second :: (after ++ back) := by simp
    rw [shape]
    exact ⟨front ++ before, first, second, after ++ back, .whole _, inner, inner'⟩
  | group member within =>
    exact ⟨before, first, second, after, .group (by simp [member]) within, inner, inner'⟩

theorem mem_leavesAll_of_mem {phrase : Phrase} {phrases : List Phrase} {leaf : Leaf}
    (member : phrase ∈ phrases) (inside : leaf ∈ phrase.leaves) : leaf ∈ leavesAll phrases := by
  obtain ⟨before, after, rfl⟩ := List.append_of_mem member
  simp [inside]

theorem exists_leaf_of_offset? {phrase : Phrase} {offset : Nat} (known : phrase.offset? = some offset) :
    ∃ connective, .operator connective offset ∈ phrase.leaves := by
  cases phrase with
  | word name => simp at known
  | group members => simp at known
  | operator connective place =>
    obtain rfl : place = offset := by simpa using known
    exact ⟨connective, by simp⟩

end Phrase

namespace Formula

open Phrase

/-! ## The shape check -/

/-- The ways in which a list of phrases is no formula. -/
inductive Refused : List Phrase → ParseError → Prop
  | nothing : Refused [] .emptyExpression
  | only {phrase : Phrase} {error : ParseError} :
      ofPhrase phrase = .error error → Refused [phrase] error
  | unary {first second : Phrase} :
      Refused [first, second] (.malformedUnary (first.offset?.or second.offset?))
  | operand {operand : Phrase} {offset : Nat} {error : ParseError} :
      ofPhrase operand = .error error → Refused [.operator .not offset, operand] error
  | binary {first second third : Phrase} : Refused [first, second, third]
      (.malformedBinary ((second.offset?.or first.offset?).or third.offset?))
  | left {first third : Phrase} {op : BinaryOp} {offset : Nat} {error : ParseError} :
      ofPhrase first = .error error → Refused [first, .operator (.binary op) offset, third] error
  | right {first third : Phrase} {op : BinaryOp} {offset : Nat} {error : ParseError} :
      ofPhrase third = .error error → Refused [first, .operator (.binary op) offset, third] error
  | many {first second third fourth : Phrase} {rest : List Phrase} :
      Refused (first :: second :: third :: fourth :: rest) .malformedExpression

theorem refused_pair {first second : Phrase} {error : ParseError}
    (unread : ofMembers [first, second] = .error error) : Refused [first, second] error := by
  by_cases negation : ∃ offset, first = .operator .not offset ∧ second.isOperator = false
  · obtain ⟨offset, rfl, inner⟩ := negation
    simp only [ofMembers, inner, Bool.false_eq_true, if_false] at unread
    cases read : ofPhrase second with
    | ok formula => simp [read, Except.map] at unread
    | error error' =>
      obtain rfl : error' = error := by simpa [read, Except.map] using unread
      exact .operand read
  · obtain rfl : ParseError.malformedUnary (first.offset?.or second.offset?) = error := by
      cases first with
      | word name => simpa [ofMembers] using unread
      | group members => simpa [ofMembers] using unread
      | operator connective offset =>
        cases connective with
        | binary op => simpa [ofMembers] using unread
        | not =>
          have operator : second.isOperator = true := by simpa using negation
          simpa [ofMembers, operator] using unread
    exact .unary

theorem refused_triple {first second third : Phrase} {error : ParseError}
    (unread : ofMembers [first, second, third] = .error error) :
    Refused [first, second, third] error := by
  by_cases joined : ∃ op offset, second = .operator (.binary op) offset ∧
      first.isMissing = false ∧ third.isMissing = false
  · obtain ⟨op, offset, rfl, firstThere, thirdThere⟩ := joined
    rw [ofMembers_triple, firstThere, thirdThere] at unread
    -- the left side is read first, and its error is the one that is reported
    cases leftRead : ofPhrase first with
    | error error' =>
      obtain rfl : error' = error := by simpa [leftRead, bind, Except.bind] using unread
      exact .left leftRead
    | ok left =>
      cases rightRead : ofPhrase third with
      | error error' =>
        obtain rfl : error' = error := by simpa [leftRead, rightRead, bind, Except.bind] using unread
        exact .right rightRead
      | ok right => simp [leftRead, rightRead, bind, Except.bind, pure, Except.pure] at unread
  · obtain rfl : ParseError.malformedBinary ((second.offset?.or first.offset?).or third.offset?) =
        error := by
      cases second with
      | word name => simpa [ofMembers] using unread
      | group members => simpa [ofMembers] using unread
      | operator connective offset =>
        cases connective with
        | not => simpa [ofMembers] using unread
        | binary op =>
          have missing : (first.isMissing || third.isMissing) = true := by
            by_contra there
            simp only [Bool.not_eq_true, Bool.or_eq_false_iff] at there
            exact joined ⟨op, offset, rfl, there⟩
          rw [ofMembers_triple, if_pos missing] at unread
          simpa using unread
    exact .binary

theorem refused_of_ofMembers {members : List Phrase} {error : ParseError}
    (unread : ofMembers members = .error error) : Refused members error := by
  match members with
  | [] =>
    obtain rfl : ParseError.emptyExpression = error := by simpa [ofMembers] using unread
    exact .nothing
  | [phrase] => exact .only (by simpa only [ofMembers] using unread)
  | [first, second] => exact refused_pair unread
  | [first, second, third] => exact refused_triple unread
  | first :: second :: third :: fourth :: rest =>
    obtain rfl : ParseError.malformedExpression = error := by simpa [ofMembers] using unread
    exact .many

mutual

theorem operator_of_ofPhrase_error : ∀ (phrase : Phrase) {error : ParseError} {offset : Nat},
    ofPhrase phrase = .error error → error.offset? = some offset →
      ∃ connective, .operator connective offset ∈ phrase.leaves
  | .word name, error, offset, unread, known => by simp [ofPhrase] at unread
  | .operator connective place, error, offset, unread, known => by
    obtain rfl : ParseError.operatorWithoutOperand place = error := by simpa [ofPhrase] using unread
    exact exists_leaf_of_offset? known
  | .group members, error, offset, unread, known => by
    rw [leaves_group]
    exact operator_of_ofMembers_error members (by simpa only [ofPhrase] using unread) known

/-- The place of an error is that of an operator among the phrases. -/
theorem operator_of_ofMembers_error : ∀ (members : List Phrase) {error : ParseError} {offset : Nat},
    ofMembers members = .error error → error.offset? = some offset →
      ∃ connective, .operator connective offset ∈ leavesAll members
  | members, error, offset, unread, known => by
    have here {phrase : Phrase} (member : phrase ∈ members) (place : phrase.offset? = some offset) :
        ∃ connective, .operator connective offset ∈ leavesAll members := by
      obtain ⟨connective, inside⟩ := exists_leaf_of_offset? place
      exact ⟨connective, mem_leavesAll_of_mem member inside⟩
    have below {phrase : Phrase} (member : phrase ∈ members) (unread : ofPhrase phrase = .error error) :
        ∃ connective, .operator connective offset ∈ leavesAll members := by
      obtain ⟨connective, inside⟩ := operator_of_ofPhrase_error phrase unread known
      exact ⟨connective, mem_leavesAll_of_mem member inside⟩
    cases refused_of_ofMembers unread with
    | nothing => simp [ParseError.offset?] at known
    | only unread => exact below (by simp) unread
    | @unary first second =>
      rcases Option.or_eq_some_iff.1 known with known | ⟨-, known⟩
      · exact here (by simp) known
      · exact here (by simp) known
    | operand unread => exact below (by simp) unread
    | @binary first second third =>
      rcases Option.or_eq_some_iff.1 known with known | ⟨-, known⟩
      · rcases Option.or_eq_some_iff.1 known with known | ⟨-, known⟩
        · exact here (by simp) known
        · exact here (by simp) known
      · exact here (by simp) known
    | left unread => exact below (by simp) unread
    | right unread => exact below (by simp) unread
    | many => simp [ParseError.offset?] at known

end

/-! ## Lists with operators of a class -/

/-- Where a list is cut at an operator, that operator lacks an operand, or one of the sides fails. -/
theorem ofSplit_append_eq_error (connectives : List Connective) (classes : List (List Connective))
    (left right : List Phrase) (op : BinaryOp) (offset : Nat) (error : ParseError)
    (inClass : connectives.contains (.binary op) = true)
    (last : ∀ phrase ∈ right, phrase.isOperatorIn connectives = false)
    (unread : ofSplit (connectives :: classes) (left ++ .operator (.binary op) offset :: right) =
      .error error) :
    (∃ place, error = .malformedBinary (some place)) ∨
      ofSplit (connectives :: classes) left = .error error ∨
      ofSplit (connectives :: classes) right = .error error := by
  have inOperator : (operator (.binary op) offset).isOperatorIn connectives = true := inClass
  rw [ofSplit_cons, split_append _ _ _ _ inOperator last, settle_operator] at unread
  by_cases missing : (operand (split connectives left)).isMissing = true ∨
      (operand (split connectives right)).isMissing = true
  · -- whatever the classes to come make of the triple, it is reported as one without an operand
    obtain ⟨place, refused⟩ := ofSplit_of_isMissing classes _ _ (.binary op) offset missing
    rw [refused] at unread
    exact .inl ⟨place, (Except.error.inj unread).symm⟩
  · simp only [not_or, Bool.not_eq_true] at missing
    rw [ofSplit_triple _ _ _ _ _ missing.1 missing.2, ← ofSplit_cons, ← ofSplit_cons] at unread
    right
    cases leftRead : ofSplit (connectives :: classes) left with
    | error error' =>
      rw [leftRead] at unread
      exact .inl unread
    | ok first =>
      cases rightRead : ofSplit (connectives :: classes) right with
      | error error' =>
        rw [leftRead, rightRead] at unread
        exact .inr unread
      | ok second =>
        rw [leftRead, rightRead] at unread
        exact nomatch unread

theorem ofLayer_join_eq_error (done rungs : List (List BinaryOp)) {ops : List BinaryOp}
    {left right : List Phrase} {op : BinaryOp} {offset : Nat} (cut : CutAt ops left op offset right)
    (error : ParseError)
    (unread : ofLayer done (ops :: rungs) (left ++ .operator (.binary op) offset :: right) =
      .error error) :
    (∃ place, error = .malformedBinary (some place)) ∨
      ofLayer done (ops :: rungs) left = .error error ∨
      ofLayer (done ++ [ops]) rungs right = .error error := by
  rw [← ofLayer_descend _ _ _ _ cut.last]
  simp only [ofLayer, cut.bound, List.map_append, List.map_cons, settle_operator] at unread ⊢
  exact ofSplit_append_eq_error _ _ _ _ _ _ _ (by simpa using cut.inOps)
    (forall_mem_map_settle.2 cut.last) unread

/-! ## Lists without operators of any class -/

/-- A negation before an operator is reported itself, unless a pass takes the operator away from it. -/
theorem ofSplit_negation_operator (classes : List (List Connective)) (offset place : Nat)
    (connective : Connective) (binary : ∀ connectives ∈ classes, connectives.contains .not = false) :
    ofSplit classes [.operator .not offset, .operator connective place] =
        .error (.malformedUnary (some offset)) ∨
      ∃ place', ofSplit classes [.operator .not offset, .operator connective place] =
        .error (.malformedBinary (some place')) := by
  induction classes with
  | nil => simp [ofSplit, ofMembers]
  | cons connectives classes ih =>
    rw [List.forall_mem_cons] at binary
    have negationOut : (operator .not offset).isOperatorIn connectives = false := binary.1
    rw [ofSplit_cons]
    cases inClass : (operator connective place).isOperatorIn connectives with
    | false =>
      rw [split_of_none _ _ (by simp only [List.forall_mem_cons, negationOut, inClass]; simp)]
      exact ih binary.2
    | true =>
      -- the operator is cut out with nothing to its right
      have cut := split_append connectives [.operator .not offset] [] _ inClass (by simp)
      rw [List.singleton_append] at cut
      rw [cut, settle_operator]
      exact .inr (ofSplit_of_isMissing classes _ _ connective place (.inr rfl))

theorem ofSplit_negation_eq_error (classes : List (List Connective)) (offset : Nat) (operand : Phrase)
    (error : ParseError) (binary : ∀ connectives ∈ classes, connectives.contains .not = false)
    (unread : ofSplit classes [.operator .not offset, operand] = .error error) :
    error = .malformedUnary (some offset) ∨ (∃ place, error = .malformedBinary (some place)) ∨
      operand.isOperator = false ∧ ofPhrase (settle classes operand) = .error error := by
  cases inner : operand.isOperator with
  | true =>
    cases operand with
    | word name => simp at inner
    | group members => simp at inner
    | operator connective place =>
      rcases ofSplit_negation_operator classes offset place connective binary with
        refused | ⟨place', refused⟩
      · rw [refused] at unread
        exact .inl (Except.error.inj unread).symm
      · rw [refused] at unread
        exact .inr (.inl ⟨place', (Except.error.inj unread).symm⟩)
  | false =>
    right; right
    rw [ofSplit_negation classes offset inner binary] at unread
    cases operandRead : ofPhrase (settle classes operand) with
    | ok formula => simp [operandRead, Except.map] at unread
    | error error' => simpa [operandRead, Except.map] using unread

theorem isOperator_eq_false_of_bound {phrases rest : List Phrase} {phrase next : Phrase}
    (inert : ∀ op offset, .operator (.binary op) offset ∉ bindNegations phrases) (front : List Phrase)
    (bound : bindNegations phrases = front ++ phrase :: next :: rest) : phrase.isOperator = false := by
  cases phrase with
  | word name => rfl
  | group members => rfl
  | operator connective offset =>
    cases connective with
    | not =>
      -- a negation before another phrase would have been bound
      exact absurd bound (bindNegations_ne_append_negation _ _ _ _ _)
    | binary op => exact absurd (by simp [bound]) (inert op offset)

/-! ## Errors are warranted -/

/-- What phrases have in them where an error is reported.  A binary operator that lacks an operand can
    stand anywhere. -/
def Warrants (phrases : List Phrase) : ParseError → Prop
  | .operatorWithoutOperand offset | .malformedUnary (some offset) =>
    .operator .not offset ∈ leavesAll phrases
  | .malformedUnary none | .malformedBinary none | .malformedExpression => Juxtaposed phrases
  | .emptyExpression | .malformedBinary (some _) => True

namespace Warrants

variable {inner outer members phrases : List Phrase} {error : ParseError}

theorem mono (warrants : Warrants inner error) (leaves : ∀ leaf ∈ leavesAll inner, leaf ∈ leavesAll outer)
    (juxtaposed : Juxtaposed inner → Juxtaposed outer) : Warrants outer error := by
  cases error with
  | emptyExpression => trivial
  | operatorWithoutOperand offset => exact leaves _ warrants
  | malformedExpression => exact juxtaposed warrants
  | malformedUnary place =>
    cases place with
    | none => exact juxtaposed warrants
    | some offset => exact leaves _ warrants
  | malformedBinary place =>
    cases place with
    | none => exact juxtaposed warrants
    | some offset => trivial

theorem append (warrants : Warrants phrases error) (front back : List Phrase) :
    Warrants (front ++ phrases ++ back) error := by
  apply warrants.mono
  · intro leaf member
    simp [member]
  · exact fun juxtaposed => juxtaposed.append front back

theorem of_group (warrants : Warrants members error) (member : .group members ∈ phrases) :
    Warrants phrases error := by
  apply warrants.mono
  · exact fun leaf inside => mem_leavesAll_of_mem member (by rwa [leaves_group])
  · exact fun juxtaposed => juxtaposed.of_group member

end Warrants

def ErrorsWarranted (phrases : List Phrase) : Prop :=
  ∀ done rungs error, done ++ rungs = ladder →
    (∀ ops ∈ done, ∀ phrase ∈ bindNegations phrases,
      phrase.isOperatorIn (ops.map .binary) = false) →
    ofLayer done rungs phrases = .error error → Warrants (bindNegations phrases) error

/-- In the last layer a list of one phrase fails inside a group, in the operand of a negation, or as a
    negation by itself. -/
theorem warranted_single {phrases : List Phrase}
    (inert : ∀ op offset, .operator (.binary op) offset ∉ bindNegations phrases)
    (inside : HoldsInside (fun done rungs phrases => ∀ error, ofLayer done rungs phrases = .error error →
      Warrants (bindNegations phrases) error) phrases)
    {phrase : Phrase} {error : ParseError} (bound : bindNegations phrases = [phrase])
    (unread : ofPhrase (settle precedenceClasses phrase) = .error error) :
    Warrants [phrase] error := by
  cases bindsTo_of_bindNegations bound with
  | word name => simp [ofPhrase] at unread
  | operator connective offset =>
    cases connective with
    | binary op => exact absurd (by simp [bound]) (inert op offset)
    | not =>
      obtain rfl : ParseError.operatorWithoutOperand offset = error := by simpa [ofPhrase] using unread
      simp [Warrants]
  | @group members =>
    rw [settle_group, ofPhrase] at unread
    have warrants := inside.group rfl error (by rw [← ofPhrases_eq_ofLayer]; exact unread)
    exact warrants.of_group (by simp)
  | @negation offset tail operand rest =>
    rw [settle_group, ofPhrase] at unread
    rcases ofSplit_negation_eq_error _ _ _ _ not_mem_precedenceClasses unread with
      rfl | ⟨place, rfl⟩ | ⟨inner, operandUnread⟩
    · simp [Warrants]
    · trivial
    · -- the operand is what the rest of the list is read as in the last layer
      have tailUnread : ofLayer ladder [] tail = .error error := by
        rw [ofLayer_last, rest]
        simpa [ofMembers] using operandUnread
      have warrants := inside.negation rfl rest inner error tailUnread
      rw [rest] at warrants
      have inGroup := warrants.append [.operator .not offset] []
      exact inGroup.of_group (by simp)

theorem offset?_eq_none {phrase : Phrase} (inner : phrase.isOperator = false) :
    phrase.offset? = none := by
  cases phrase with
  | word name => rfl
  | group members => rfl
  | operator connective offset => simp at inner

theorem ofMembers_pair (first second : Phrase) (inner : first.isOperator = false) :
    ofMembers [first, second] = .error (.malformedUnary second.offset?) := by
  cases first with
  | word name => simp [ofMembers]
  | group members => simp [ofMembers]
  | operator connective offset => simp at inner

theorem ofMembers_three (first second third : Phrase) (inner : second.isOperator = false) :
    ofMembers [first, second, third] = .error (.malformedBinary (first.offset?.or third.offset?)) := by
  cases second with
  | word name => simp [ofMembers]
  | group members => simp [ofMembers]
  | operator connective offset => simp at inner

/-- In the last layer a list of several phrases fails because the first two are no operators, or
    because a negation has nothing after it. -/
theorem warranted_several {phrases : List Phrase}
    (inert : ∀ op offset, .operator (.binary op) offset ∉ bindNegations phrases)
    {first second : Phrase} {rest : List Phrase} {error : ParseError}
    (bound : bindNegations phrases = first :: second :: rest)
    (unread : ofMembers ((first :: second :: rest).map (settle precedenceClasses)) = .error error) :
    Warrants (first :: second :: rest) error := by
  have firstInner : first.isOperator = false := isOperator_eq_false_of_bound inert [] bound
  have juxtaposed (secondInner : second.isOperator = false) : Juxtaposed (first :: second :: rest) :=
    ⟨[], first, second, rest, .whole _, firstInner, secondInner⟩
  have before {next : Phrase} {others : List Phrase} (rested : rest = next :: others) :
      second.isOperator = false :=
    isOperator_eq_false_of_bound inert [first] (by rw [bound, rested]; rfl)
  match rest with
  | [] =>
    have refused := ofMembers_pair _ (settle precedenceClasses second)
      ((isOperator_settle precedenceClasses first).trans firstInner)
    obtain rfl := Except.error.inj (refused.symm.trans unread)
    cases second with
    | word name => exact juxtaposed rfl
    | group members => exact juxtaposed rfl
    | operator connective offset =>
      cases connective with
      | not => simp [Warrants]
      | binary op => exact absurd (by simp [bound]) (inert op offset)
  | [third] =>
    have secondInner := before rfl
    have refused := ofMembers_three (settle precedenceClasses first) _
      (settle precedenceClasses third) ((isOperator_settle precedenceClasses second).trans secondInner)
    obtain rfl := Except.error.inj (refused.symm.trans unread)
    rw [offset?_eq_none ((isOperator_settle precedenceClasses first).trans firstInner), Option.none_or]
    cases (settle precedenceClasses third).offset? with
    | none => exact juxtaposed secondInner
    | some offset => trivial
  | third :: fourth :: others =>
    obtain rfl : ParseError.malformedExpression = error := by simpa [ofMembers] using unread
    exact juxtaposed (before rfl)

theorem warranted_last {phrases : List Phrase}
    (inert : ∀ op offset, .operator (.binary op) offset ∉ bindNegations phrases)
    (inside : HoldsInside (fun done rungs phrases => ∀ error, ofLayer done rungs phrases = .error error →
      Warrants (bindNegations phrases) error) phrases)
    {error : ParseError} (unread : ofLayer ladder [] phrases = .error error) :
    Warrants (bindNegations phrases) error := by
  rw [ofLayer_last] at unread
  match bound : bindNegations phrases with
  | [] =>
    obtain rfl : ParseError.emptyExpression = error := by simpa [bound, ofMembers] using unread
    trivial
  | [phrase] =>
    have phraseUnread : ofPhrase (settle precedenceClasses phrase) = .error error := by
      simpa [bound, ofMembers] using unread
    exact warranted_single inert inside bound phraseUnread
  | first :: second :: rest =>
    rw [bound] at unread
    exact warranted_several inert bound unread

theorem errorsWarranted (phrases : List Phrase) : ErrorsWarranted phrases := by
  intro done rungs error whole split
  refine layer_induction (motive := fun done rungs phrases => ∀ error,
    ofLayer done rungs phrases = .error error → Warrants (bindNegations phrases) error)
    ?_ ?_ ?_ whole split error
  · intro phrases inert inside error unread
    exact warranted_last inert inside unread
  · intro done ops rungs phrases none ih error unread
    rw [ofLayer_descend _ _ _ _ none] at unread
    exact ih error unread
  · intro done ops rungs left op offset right cut _ _ leftIh rightIh error unread
    rw [cut.bound]
    rcases ofLayer_join_eq_error _ _ cut _ unread with ⟨place, rfl⟩ | leftUnread | rightUnread
    · trivial
    · exact (leftIh error leftUnread).append [] _
    · have warrants := rightIh error rightUnread
      have whole := warrants.append (bindNegations left ++ [.operator (.binary op) offset]) []
      rwa [List.append_nil, List.append_assoc, List.singleton_append] at whole

theorem warranted {phrases : List Phrase} {error : ParseError}
    (unread : ofPhrases phrases = .error error) : Warrants (bindNegations phrases) error :=
  errorsWarranted phrases [] ladder error rfl (by simp) (by rwa [← ofPhrases_eq_ofLayer])

/-! ## Errors of texts -/

theorem mem_scan_of_leaf {text : String} {connective : Connective} {offset : Nat}
    (leaf : .operator connective offset ∈ leavesAll (bindNegations (nest (Token.scan text)))) :
    ⟨.operator connective, offset⟩ ∈ Token.scan text := by
  rw [leavesAll_bindNegations, leavesAll_nest, List.mem_filterMap] at leaf
  obtain ⟨⟨lexeme, place⟩, member, same⟩ := leaf
  cases lexeme with
  | word name => simp [Token.leaf?] at same
  | openParen => simp [Token.leaf?] at same
  | closeParen => simp [Token.leaf?] at same
  | operator connective' =>
    obtain ⟨rfl, rfl⟩ : connective' = connective ∧ place = offset := by
      simpa [Token.leaf?] using same
    exact member

/-- The place of an error is that of an operator in the text.  A missing operand, and a malformed
    negation with a place, are reported at a negation.  Errors without a place, other than that of an
    empty expression, are reported only where two phrases stand side by side with no operator between
    them, once the negations are bound. -/
theorem parse_error_warranted (text : String) (error : ParseError) (unread : parse text = .error error) :
    (∀ offset, error.offset? = some offset →
      ∃ connective, ⟨.operator connective, offset⟩ ∈ Token.scan text) ∧
    (∀ offset, error = .operatorWithoutOperand offset ∨ error = .malformedUnary (some offset) →
      ⟨.operator .not, offset⟩ ∈ Token.scan text ∧
      ∀ token ∈ Token.scan text, token.offset = offset → token.lexeme = .operator .not) ∧
    (error = .malformedExpression ∨ error = .malformedUnary none ∨ error = .malformedBinary none →
      Juxtaposed (bindNegations (nest (Token.scan text)))) := by
  have warrants : Warrants (bindNegations (nest (Token.scan text))) error := warranted unread
  refine ⟨?_, ?_, ?_⟩
  · intro offset known
    obtain ⟨connective, leaf⟩ := operator_of_ofMembers_error _ unread known
    rw [leavesAll_splitAll] at leaf
    exact ⟨connective, mem_scan_of_leaf leaf⟩
  · intro offset negation
    have there : ⟨.operator .not, offset⟩ ∈ Token.scan text := by
      apply mem_scan_of_leaf
      rcases negation with rfl | rfl
      · exact warrants
      · exact warrants
    refine ⟨there, fun token member same => ?_⟩
    rw [Token.eq_of_offset_eq member there same]
  · rintro (rfl | rfl | rfl)
    · exact warrants
    · exact warrants
    · exact warrants

/-- A negation without an operand is reported at its place, and two words side by side without one. -/
theorem parse_error_warranted_unary :
    parse "p ∧ (q ¬)" = .error (.malformedUnary (some 9)) ∧
      ⟨.operator .not, 9⟩ ∈ Token.scan "p ∧ (q ¬)" ∧
      parse "p ∧ (q r)" = .error (.malformedUnary none) ∧
      Juxtaposed (bindNegations (nest (Token.scan "p ∧ (q r)"))) := by
  have negation : parse "p ∧ (q ¬)" = .error (.malformedUnary (some 9)) := by decide +kernel
  have words : parse "p ∧ (q r)" = .error (.malformedUnary none) := by decide +kernel
  exact ⟨negation, ((parse_error_warranted _ _ negation).2.1 9 (.inr rfl)).1, words,
    (parse_error_warranted _ _ words).2.2 (.inr (.inl rfl))⟩

end Formula

end Sentential
