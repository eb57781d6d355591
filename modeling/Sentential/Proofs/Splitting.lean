import Sentential.Formula.Parse

/-! # Splitting, pass by pass

The passes run one after the other over the whole text, groups included, while the meaning of a list
of phrases is found list by list.  The two orders are brought together here.

`splitBy` runs the passes of some classes, and `settle` runs them inside a single phrase.  A list
without operators of the classes is only settled, phrase by phrase (`splitBy_of_inert`), and so is a
triple around an operator whose sides are no operators (`splitBy_triple`).  A list with operators of
the first class is cut at the last of them, and each side is then an operand by itself
(`split_append`).

`ofSplit` is the formula that a list forms after the passes.  For a list with an operator of the
first class `ofSplit_append_eq_ok_iff` gives it from the two sides, whatever they hold: an operator
that lacks an operand may be torn out of its triple by a later pass, but the triple that takes it
lacks an operand again, so that reading fails all the same (`ofSplit_of_isMissing`).
-/

namespace Sentential

namespace Phrase

/-! ## Cutting -/

theorem cutBack_append (connectives : List Connective) (tail before right : List Phrase)
    (none : ∀ phrase ∈ tail, phrase.isOperatorIn connectives = false) :
    cutBack connectives (tail ++ before) right = cutBack connectives before (tail.reverse ++ right) := by
  induction tail generalizing right with
  | nil => rfl
  | cons phrase tail ih =>
    rw [List.forall_mem_cons] at none
    simp only [List.cons_append, cutBack, none.1, Bool.false_eq_true, if_false, ih _ none.2,
      List.reverse_cons, List.append_assoc, List.nil_append]

theorem cut_of_none (connectives : List Connective) (phrases : List Phrase)
    (none : ∀ phrase ∈ phrases, phrase.isOperatorIn connectives = false) :
    cut connectives phrases = phrases := by
  have reversed := cutBack_append connectives phrases.reverse [] []
    (fun phrase member => none phrase (List.mem_reverse.1 member))
  simpa [cut, cutBack] using reversed

/-- A list is cut at its last operator of the class, and the part before it is cut again. -/
theorem cut_append (connectives : List Connective) (left right : List Phrase) (operator : Phrase)
    (inClass : operator.isOperatorIn connectives = true)
    (last : ∀ phrase ∈ right, phrase.isOperatorIn connectives = false) :
    cut connectives (left ++ operator :: right) =
      [operand (cut connectives left), operator, operand right] := by
  have searched := cutBack_append connectives right.reverse (operator :: left.reverse) []
    (fun phrase member => last phrase (List.mem_reverse.1 member))
  simp only [List.reverse_reverse, List.append_nil] at searched
  rw [cut, List.reverse_append, List.reverse_cons, List.append_assoc, List.singleton_append, searched]
  simp only [cutBack, inClass, if_true, cut]

/-- Every list has no operator of a class, or a last one. -/
theorem none_or_last (connectives : List Connective) (phrases : List Phrase) :
    (∀ phrase ∈ phrases, phrase.isOperatorIn connectives = false) ∨
      ∃ left operator right, phrases = left ++ operator :: right ∧
        operator.isOperatorIn connectives = true ∧
        ∀ phrase ∈ right, phrase.isOperatorIn connectives = false := by
  induction phrases with
  | nil => exact .inl fun _ member => nomatch member
  | cons phrase rest ih =>
    rcases ih with none | ⟨left, operator, right, rfl, inClass, last⟩
    · cases inClass : phrase.isOperatorIn connectives with
      | true => exact .inr ⟨[], phrase, rest, rfl, inClass, none⟩
      | false => exact .inl (List.forall_mem_cons.2 ⟨inClass, none⟩)
    · exact .inr ⟨phrase :: left, operator, right, rfl, inClass, last⟩

@[simp] theorem operand_singleton (phrase : Phrase) : operand [phrase] = phrase := rfl

theorem operand_of_length_ne (phrases : List Phrase) (several : phrases.length ≠ 1) :
    operand phrases = .group phrases := by
  cases phrases with
  | nil => rfl
  | cons phrase rest =>
    cases rest with
    | nil => exact absurd rfl several
    | cons next rest => rfl

/-! ## Passes -/

def splitBy (classes : List (List Connective)) (phrases : List Phrase) : List Phrase :=
  classes.foldl (fun phrases connectives => split connectives phrases) phrases

def settle (classes : List (List Connective)) : Phrase → Phrase
  | .group members => .group (splitBy classes members)
  | .word name => .word name
  | .operator connective offset => .operator connective offset

@[simp] theorem splitBy_nil (phrases : List Phrase) : splitBy [] phrases = phrases := rfl

theorem splitBy_cons (connectives : List Connective) (classes : List (List Connective))
    (phrases : List Phrase) :
    splitBy (connectives :: classes) phrases = splitBy classes (split connectives phrases) := rfl

@[simp] theorem settle_word (classes : List (List Connective)) (name : String) :
    settle classes (.word name) = .word name := rfl
@[simp] theorem settle_operator (classes : List (List Connective)) (connective : Connective)
    (offset : Nat) : settle classes (.operator connective offset) = .operator connective offset := rfl
@[simp] theorem settle_group (classes : List (List Connective)) (members : List Phrase) :
    settle classes (.group members) = .group (splitBy classes members) := rfl

@[simp] theorem isOperator_settle (classes : List (List Connective)) (phrase : Phrase) :
    (settle classes phrase).isOperator = phrase.isOperator := by
  cases phrase <;> rfl

@[simp] theorem isOperatorIn_settle (classes : List (List Connective)) (connectives : List Connective)
    (phrase : Phrase) :
    (settle classes phrase).isOperatorIn connectives = phrase.isOperatorIn connectives := by
  cases phrase <;> rfl

theorem settle_eq_operator_iff {classes : List (List Connective)} {phrase : Phrase}
    {connective : Connective} {offset : Nat} :
    settle classes phrase = .operator connective offset ↔ phrase = .operator connective offset := by
  cases phrase <;> simp

theorem settle_nil (phrase : Phrase) : settle [] phrase = phrase := by
  cases phrase <;> rfl

theorem settle_append (done todo : List (List Connective)) (phrase : Phrase) :
    settle (done ++ todo) phrase = settle todo (settle done phrase) := by
  cases phrase with
  | word name => rfl
  | operator connective offset => rfl
  | group members => simp only [settle_group, splitBy, List.foldl_append]

mutual

theorem splitMembers_eq_settle (connectives : List Connective) : ∀ phrase : Phrase,
    splitMembers connectives phrase = settle [connectives] phrase
  | .word name => by simp only [splitMembers, settle_word]
  | .operator connective offset => by simp only [splitMembers, settle_operator]
  | .group members => by simp only [splitMembers, settle_group, splitBy_cons, splitBy_nil, split]

theorem splitEach_eq_map (connectives : List Connective) : ∀ phrases : List Phrase,
    splitEach connectives phrases = phrases.map (settle [connectives])
  | [] => by simp only [splitEach, List.map_nil]
  | phrase :: rest => by
    simp only [splitEach, List.map_cons, splitMembers_eq_settle connectives phrase,
      splitEach_eq_map connectives rest]

end

theorem split_eq_cut (connectives : List Connective) (phrases : List Phrase) :
    split connectives phrases = cut connectives (phrases.map (settle [connectives])) := by
  rw [split, splitEach_eq_map]

theorem forall_mem_map_settle {classes : List (List Connective)} {connectives : List Connective}
    {phrases : List Phrase} :
    (∀ phrase ∈ phrases.map (settle classes), phrase.isOperatorIn connectives = false) ↔
      ∀ phrase ∈ phrases, phrase.isOperatorIn connectives = false := by
  simp only [List.forall_mem_map, isOperatorIn_settle]

theorem split_of_none (connectives : List Connective) (phrases : List Phrase)
    (none : ∀ phrase ∈ phrases, phrase.isOperatorIn connectives = false) :
    split connectives phrases = phrases.map (settle [connectives]) := by
  rw [split_eq_cut, cut_of_none _ _ (forall_mem_map_settle.2 none)]

theorem split_append (connectives : List Connective) (left right : List Phrase) (operator : Phrase)
    (inClass : operator.isOperatorIn connectives = true)
    (last : ∀ phrase ∈ right, phrase.isOperatorIn connectives = false) :
    split connectives (left ++ operator :: right) =
      [operand (split connectives left), settle [connectives] operator,
        operand (split connectives right)] := by
  rw [split_of_none _ _ last, split_eq_cut, split_eq_cut, List.map_append, List.map_cons]
  exact cut_append _ _ _ _ (by rwa [isOperatorIn_settle]) (forall_mem_map_settle.2 last)

theorem eq_operator_of_isOperatorIn {phrase : Phrase} {connectives : List Connective}
    (inClass : phrase.isOperatorIn connectives = true) :
    ∃ connective offset, phrase = .operator connective offset := by
  cases phrase with
  | word name => simp at inClass
  | group members => simp at inClass
  | operator connective offset => exact ⟨connective, offset, rfl⟩

theorem splitBy_of_inert (classes : List (List Connective)) (phrases : List Phrase)
    (inert : ∀ connectives ∈ classes, ∀ phrase ∈ phrases, phrase.isOperatorIn connectives = false) :
    splitBy classes phrases = phrases.map (settle classes) := by
  induction classes generalizing phrases with
  | nil => exact (List.map_id'' settle_nil phrases).symm
  | cons connectives classes ih =>
    rw [List.forall_mem_cons] at inert
    rw [splitBy_cons, split_of_none _ _ inert.1, ih]
    · simp only [List.map_map, Function.comp_def, ← settle_append, List.singleton_append]
    · exact fun connectives member => forall_mem_map_settle.2 (inert.2 connectives member)

theorem isOperatorIn_eq_false {phrase : Phrase} (inner : phrase.isOperator = false)
    (connectives : List Connective) : phrase.isOperatorIn connectives = false := by
  cases phrase with
  | word name => rfl
  | group members => rfl
  | operator connective offset => simp at inner

theorem splitBy_singleton (classes : List (List Connective)) (phrase : Phrase)
    (inner : phrase.isOperator = false) : splitBy classes [phrase] = [settle classes phrase] := by
  rw [splitBy_of_inert]
  · rfl
  · intro connectives _ member singleton
    rw [List.mem_singleton.1 singleton]
    exact isOperatorIn_eq_false inner connectives

/-- A triple whose sides are no operators is only settled, also by the class of its operator. -/
theorem splitBy_triple (classes : List (List Connective)) (first second third : Phrase)
    (firstInner : first.isOperator = false) (thirdInner : third.isOperator = false) :
    splitBy classes [first, second, third] =
      [settle classes first, settle classes second, settle classes third] := by
  induction classes generalizing first second third with
  | nil => simp only [splitBy_nil, settle_nil]
  | cons connectives classes ih =>
    have settled : split connectives [first, second, third] =
        [settle [connectives] first, settle [connectives] second, settle [connectives] third] := by
      have firstOut := isOperatorIn_eq_false firstInner connectives
      have thirdOut := isOperatorIn_eq_false thirdInner connectives
      cases inClass : second.isOperatorIn connectives with
      | false =>
        rw [split_of_none _ _ (by simp [firstOut, thirdOut, inClass])]
        rfl
      | true =>
        rw [show [first, second, third] = [first] ++ second :: [third] from rfl,
          split_append _ _ _ _ inClass (by simp [thirdOut]), split_of_none _ _ (by simp [firstOut]),
          split_of_none _ _ (by simp [thirdOut])]
        rfl
    rw [splitBy_cons, settled, ih _ _ _ (by simpa using firstInner) (by simpa using thirdInner)]
    simp only [← settle_append, List.singleton_append]

/-! ## Missing operands -/

theorem isOperator_eq_false_of_isMissing {phrase : Phrase} (there : phrase.isMissing = false) :
    phrase.isOperator = false := by
  cases phrase with
  | word name => rfl
  | group members => rfl
  | operator connective offset => simp [isMissing] at there

theorem split_eq_nil_iff (connectives : List Connective) (phrases : List Phrase) :
    split connectives phrases = [] ↔ phrases = [] := by
  rcases none_or_last connectives phrases with none | ⟨left, operator, right, rfl, inClass, last⟩
  · rw [split_of_none _ _ none, List.map_eq_nil_iff]
  · simp [split_append _ _ _ _ inClass last]

theorem splitBy_eq_nil_iff (classes : List (List Connective)) (phrases : List Phrase) :
    splitBy classes phrases = [] ↔ phrases = [] := by
  induction classes generalizing phrases with
  | nil => rfl
  | cons connectives classes ih => rw [splitBy_cons, ih, split_eq_nil_iff]

@[simp] theorem isMissing_settle (classes : List (List Connective)) (phrase : Phrase) :
    (settle classes phrase).isMissing = phrase.isMissing := by
  cases phrase with
  | word name => rfl
  | operator connective offset => rfl
  | group members =>
    rw [Bool.eq_iff_iff]
    simp [isMissing, splitBy_eq_nil_iff]

end Phrase

/-! ## Reading what the passes leave -/

namespace Formula

open Phrase

/-- The formula that phrases form once they have been split by some classes. -/
def ofSplit (classes : List (List Connective)) (phrases : List Phrase) : Except ParseError Formula :=
  ofMembers (splitBy classes phrases)

theorem ofPhrases_eq_ofSplit (phrases : List Phrase) :
    ofPhrases phrases = ofSplit precedenceClasses (bindNegations phrases) := rfl

theorem ofSplit_cons (connectives : List Connective) (classes : List (List Connective))
    (phrases : List Phrase) :
    ofSplit (connectives :: classes) phrases = ofSplit classes (split connectives phrases) := rfl

theorem ofPhrase_settle_operand (classes : List (List Connective)) (phrases : List Phrase)
    (inner : (operand phrases).isOperator = false) :
    ofPhrase (settle classes (operand phrases)) = ofSplit classes phrases := by
  by_cases single : phrases.length = 1
  · obtain ⟨phrase, rfl⟩ := List.length_eq_one_iff.1 single
    rw [operand_singleton] at inner ⊢
    rw [ofSplit, splitBy_singleton _ _ inner]
    simp only [ofMembers]
  · rw [operand_of_length_ne _ single, settle_group, ofPhrase, ofSplit]

/-- The three shapes of a list that is a formula. -/
theorem ofMembers_eq_ok {members : List Phrase} {formula : Formula}
    (read : ofMembers members = .ok formula) :
    (∃ phrase, members = [phrase] ∧ ofPhrase phrase = .ok formula) ∨
    (∃ offset operand, members = [.operator .not offset, operand]) ∨
    (∃ first op offset third, members = [first, .operator (.binary op) offset, third]) := by
  match members with
  | [] => simp [ofMembers] at read
  | [phrase] =>
    simp only [ofMembers] at read
    exact .inl ⟨phrase, rfl, read⟩
  | [first, second] =>
    cases first with
    | word name => simp [ofMembers] at read
    | group members => simp [ofMembers] at read
    | operator connective offset =>
      cases connective with
      | not => exact .inr (.inl ⟨offset, second, rfl⟩)
      | binary op => simp [ofMembers] at read
  | [first, second, third] =>
    cases second with
    | word name => simp [ofMembers] at read
    | group members => simp [ofMembers] at read
    | operator connective offset =>
      cases connective with
      | not => simp [ofMembers] at read
      | binary op => exact .inr (.inr ⟨first, op, offset, third, rfl⟩)
  | _ :: _ :: _ :: _ :: _ => simp [ofMembers] at read

theorem ofMembers_triple (first third : Phrase) (op : BinaryOp) (offset : Nat) :
    ofMembers [first, .operator (.binary op) offset, third] =
      if first.isMissing || third.isMissing then .error (.malformedBinary (some offset))
      else do
        let left ← ofPhrase first
        let right ← ofPhrase third
        return .binary op left right := by
  simp only [ofMembers]

theorem ofMembers_triple_of_isMissing (first third : Phrase) (connective : Connective) (offset : Nat)
    (missing : first.isMissing = true ∨ third.isMissing = true) :
    ofMembers [first, .operator connective offset, third] =
      .error (.malformedBinary (some offset)) := by
  cases connective with
  | not => simp [ofMembers]
  | binary op =>
    rw [ofMembers_triple, if_pos]
    simpa using missing

/-- The passes leave a triple in place whose sides are there. -/
theorem ofSplit_triple (classes : List (List Connective)) (left right : List Phrase) (op : BinaryOp)
    (offset : Nat) (leftThere : (operand left).isMissing = false)
    (rightThere : (operand right).isMissing = false) :
    ofSplit classes [operand left, .operator (.binary op) offset, operand right] = (do
      let first ← ofSplit classes left
      let second ← ofSplit classes right
      return .binary op first second) := by
  have leftInner := isOperator_eq_false_of_isMissing leftThere
  have rightInner := isOperator_eq_false_of_isMissing rightThere
  rw [ofSplit, splitBy_triple _ _ _ _ leftInner rightInner, settle_operator, ofMembers_triple,
    ofPhrase_settle_operand _ _ leftInner, ofPhrase_settle_operand _ _ rightInner]
  simp [leftThere, rightThere]

theorem isMissing_operand_split_singleton {connectives : List Connective} {phrase : Phrase}
    (outside : phrase.isOperatorIn connectives = false) :
    (operand (split connectives [phrase])).isMissing = phrase.isMissing := by
  rw [split_of_none _ _ (by simpa using outside), List.map_cons, List.map_nil, operand_singleton,
    isMissing_settle]

/-- A lone operator of the class is cut off in a group of its own, which has no operands. -/
theorem split_lone_operator {connectives : List Connective} {connective : Connective} {offset : Nat}
    (inClass : (operator connective offset).isOperatorIn connectives = true) :
    split connectives [.operator connective offset] =
      [operand (split connectives []), .operator connective offset,
        operand (split connectives [])] := by
  have cut := split_append connectives [] [] _ inClass (by simp)
  rwa [List.nil_append, settle_operator] at cut

/-- Whatever the operator in the middle is, the triple fails where one of its sides does. -/
theorem ofSplit_triple_of_left_error (classes : List (List Connective)) (left right : List Phrase)
    (connective : Connective) (offset : Nat) (leftThere : (operand left).isMissing = false)
    (rightThere : (operand right).isMissing = false) {place : Nat}
    (unread : ofSplit classes left = .error (.malformedBinary (some place))) :
    ∃ place', ofSplit classes [operand left, .operator connective offset, operand right] =
      .error (.malformedBinary (some place')) := by
  cases connective with
  | not =>
    refine ⟨offset, ?_⟩
    rw [ofSplit, splitBy_triple _ _ _ _ (isOperator_eq_false_of_isMissing leftThere)
      (isOperator_eq_false_of_isMissing rightThere)]
    simp [ofMembers]
  | binary op =>
    refine ⟨place, ?_⟩
    rw [ofSplit_triple _ _ _ _ _ leftThere rightThere, unread]
    rfl

/-- A triple that lacks an operand is a malformed binary operator after any passes.  An operator on
    one of its sides may be cut out of it, and then lacks an operand itself. -/
theorem ofSplit_of_isMissing (classes : List (List Connective)) (first third : Phrase)
    (connective : Connective) (offset : Nat)
    (missing : first.isMissing = true ∨ third.isMissing = true) :
    ∃ place, ofSplit classes [first, .operator connective offset, third] =
      .error (.malformedBinary (some place)) := by
  induction classes generalizing first third connective offset with
  | nil => exact ⟨offset, ofMembers_triple_of_isMissing first third connective offset missing⟩
  | cons connectives classes ih =>
    rw [ofSplit_cons]
    rcases none_or_last connectives [first, .operator connective offset, third] with
      none | ⟨left, operator, right, shape, inClass, last⟩
    · rw [split_of_none _ _ none]
      exact ih _ _ _ _ (by simpa using missing)
    · obtain ⟨connective', offset', rfl⟩ := eq_operator_of_isOperatorIn inClass
      have cut := split_append _ left right _ inClass last
      rw [← shape] at cut
      rw [cut, settle_operator]
      match left, shape with
      | [], shape =>
        -- the first phrase is an operator, with nothing before it
        exact ih _ _ _ _ (.inl rfl)
      | [_], shape =>
        simp only [List.singleton_append, List.cons.injEq] at shape
        obtain ⟨rfl, -, rfl⟩ := shape
        have thirdKept := isMissing_operand_split_singleton (last third (.head _))
        cases firstIn : first.isOperatorIn connectives with
        | false =>
          rw [← isMissing_operand_split_singleton firstIn, ← thirdKept] at missing
          exact ih _ _ _ _ missing
        | true =>
          -- the first phrase is cut off in a group of its own, which cannot be read
          obtain ⟨connective'', offset'', rfl⟩ := eq_operator_of_isOperatorIn firstIn
          have alone := split_lone_operator firstIn
          cases thirdMissing : third.isMissing with
          | true => exact ih _ _ _ _ (.inr (thirdKept.trans thirdMissing))
          | false =>
            obtain ⟨place, unread⟩ := ih (operand (split connectives []))
              (operand (split connectives [])) connective'' offset'' (.inl rfl)
            rw [← alone] at unread
            have firstThere :
                (operand (split connectives [.operator connective'' offset''])).isMissing = false := by
              rw [alone]
              rfl
            exact ofSplit_triple_of_left_error classes _ _ connective' offset' firstThere
              (thirdKept.trans thirdMissing) unread
      | [_, _], shape =>
        simp only [List.cons_append, List.nil_append, List.cons.injEq] at shape
        obtain ⟨-, -, -, rfl⟩ := shape
        -- the third phrase is an operator, with nothing after it
        exact ih _ _ _ _ (.inr rfl)
      | _ :: _ :: _ :: _, shape => simp at shape

theorem ofSplit_group (classes : List (List Connective)) (members : List Phrase) :
    ofSplit classes [.group members] = ofSplit classes members := by
  rw [ofSplit, splitBy_singleton _ _ rfl, settle_group]
  simp only [ofMembers, ofPhrase, ofSplit]

theorem ofSplit_nil (classes : List (List Connective)) :
    ofSplit classes [] = .error .emptyExpression := by
  rw [ofSplit, (splitBy_eq_nil_iff classes []).2 rfl]
  simp only [ofMembers]

theorem ofSplit_operator (classes : List (List Connective)) (connective : Connective) (offset : Nat)
    (formula : Formula) : ofSplit classes [.operator connective offset] ≠ .ok formula := by
  induction classes with
  | nil => simp [ofSplit, ofMembers, ofPhrase]
  | cons connectives classes ih =>
    rw [ofSplit_cons]
    cases inClass : (operator connective offset).isOperatorIn connectives with
    | false =>
      rw [split_of_none _ _ (by simpa using inClass)]
      exact ih
    | true =>
      obtain ⟨place, unread⟩ := ofSplit_of_isMissing classes (operand (split connectives []))
        (operand (split connectives [])) connective offset (.inl rfl)
      rw [split_lone_operator inClass, unread]
      simp

/-- What is missing as an operand is no formula by itself. -/
theorem ofSplit_of_isMissing_operand (classes : List (List Connective)) (phrases : List Phrase)
    (missing : (operand phrases).isMissing = true) (formula : Formula) :
    ofSplit classes phrases ≠ .ok formula := by
  match phrases, missing with
  | [], _ => simp [ofSplit_nil]
  | [.word _], missing => simp [isMissing] at missing
  | [.operator connective offset], _ => exact ofSplit_operator classes connective offset formula
  | [.group members], missing =>
    obtain rfl : members = [] := by simpa [isMissing] using missing
    simp [ofSplit_group, ofSplit_nil]
  | _ :: _ :: _, missing => simp [operand, isMissing] at missing

/-- A list is the formula that its last operator of the first class joins from the two sides. -/
theorem ofSplit_append_eq_ok_iff (connectives : List Connective) (classes : List (List Connective))
    (left right : List Phrase) (op : BinaryOp) (offset : Nat) (formula : Formula)
    (inClass : connectives.contains (.binary op) = true)
    (last : ∀ phrase ∈ right, phrase.isOperatorIn connectives = false) :
    ofSplit (connectives :: classes) (left ++ .operator (.binary op) offset :: right) = .ok formula ↔
      ∃ first second, formula = .binary op first second ∧
        ofSplit (connectives :: classes) left = .ok first ∧
        ofSplit (connectives :: classes) right = .ok second := by
  have inOperator : (operator (.binary op) offset).isOperatorIn connectives = true := inClass
  rw [ofSplit_cons, split_append _ _ _ _ inOperator last, settle_operator, ofSplit_cons, ofSplit_cons]
  by_cases missing : (operand (split connectives left)).isMissing = true ∨
      (operand (split connectives right)).isMissing = true
  · obtain ⟨place, unread⟩ := ofSplit_of_isMissing classes _ _ (.binary op) offset missing
    rw [unread]
    refine ⟨nofun, fun ⟨first, second, _, leftRead, rightRead⟩ => ?_⟩
    rcases missing with missing | missing
    · exact absurd leftRead (ofSplit_of_isMissing_operand _ _ missing _)
    · exact absurd rightRead (ofSplit_of_isMissing_operand _ _ missing _)
  · simp only [not_or, Bool.not_eq_true] at missing
    rw [ofSplit_triple _ _ _ _ _ missing.1 missing.2]
    cases ofSplit classes (split connectives left) with
    | error error => exact ⟨nofun, fun ⟨_, _, _, leftRead, _⟩ => nomatch leftRead⟩
    | ok first =>
      cases ofSplit classes (split connectives right) with
      | error error => exact ⟨nofun, fun ⟨_, _, _, _, rightRead⟩ => nomatch rightRead⟩
      | ok second =>
        constructor
        · rintro ⟨⟩
          exact ⟨first, second, rfl, rfl, rfl⟩
        · rintro ⟨_, _, rfl, ⟨⟩, ⟨⟩⟩
          rfl

end Formula

end Sentential
