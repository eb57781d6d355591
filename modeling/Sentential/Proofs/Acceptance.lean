import Sentential.Proofs.Grammar
import Sentential.Proofs.Negation
import Sentential.Proofs.PostOrder

/-! # What is read is what the grammar derives

Reading phrases binds their negations, splits them by the classes of precedence and checks the shape.
`ofPhrases_eq_ok_iff` says that this gives a formula exactly for the lists that the grammar derives,
and then gives the syntax tree of the derivation.

The statement that the induction needs is about a list in the middle of the passes (`ofLayer`): its
own operators wait for the classes of some rungs, while its members have been through the classes of
the rungs above already.  Descending a rung moves one class from the first kind to the second.  What
is said about reading in any layer is shown by one induction, `layer_induction`.
-/

namespace Sentential

open Phrase

def classesOf (rungs : List (List BinaryOp)) : List (List Connective) :=
  rungs.map fun ops => ops.map .binary

theorem precedenceClasses_eq_classesOf : precedenceClasses = classesOf ladder := rfl

theorem classesOf_append (done rungs : List (List BinaryOp)) :
    classesOf (done ++ rungs) = classesOf done ++ classesOf rungs := List.map_append

theorem eq_operator_of_isOperatorIn_binary {ops : List BinaryOp} {phrase : Phrase}
    (inClass : phrase.isOperatorIn (ops.map .binary) = true) :
    ∃ op offset, op ∈ ops ∧ phrase = .operator (.binary op) offset := by
  cases phrase with
  | word name => simp at inClass
  | group members => simp at inClass
  | operator connective offset =>
    cases connective with
    | not => simp at inClass
    | binary op => exact ⟨op, offset, by simpa using inClass, rfl⟩

/-- A list is cut at an operator of a class: binding negations leaves the operator where it is, and
    nothing of the class behind it. -/
structure CutAt (ops : List BinaryOp) (left : List Phrase) (op : BinaryOp) (offset : Nat)
    (right : List Phrase) : Prop where
  inOps : op ∈ ops
  bound : bindNegations (left ++ .operator (.binary op) offset :: right) =
    bindNegations left ++ .operator (.binary op) offset :: bindNegations right
  last : ∀ phrase ∈ bindNegations right, phrase.isOperatorIn (ops.map .binary) = false

/-- Every list has no operator of a class once its negations are bound, or is cut at the last one. -/
theorem none_or_cutAt (ops : List BinaryOp) (phrases : List Phrase) :
    (∀ phrase ∈ bindNegations phrases, phrase.isOperatorIn (ops.map .binary) = false) ∨
      ∃ left op offset right, phrases = left ++ .operator (.binary op) offset :: right ∧
        CutAt ops left op offset right := by
  rcases none_or_last (ops.map .binary) (bindNegations phrases) with
    none | ⟨left, operator, right, bound, inClass, last⟩
  · exact .inl none
  · obtain ⟨op, offset, inOps, rfl⟩ := eq_operator_of_isOperatorIn_binary inClass
    obtain ⟨left, right, rfl, rfl, rfl⟩ := bindNegations_eq_append bound
    exact .inr ⟨left, op, offset, right, rfl, inOps, bound, last⟩

/-- If a list has no operators of some rungs, neither has the left side of a cut, and the right side has
    none of the rung of the cut either. -/
theorem CutAt.split_sides {ops : List BinaryOp} {left right : List Phrase} {op : BinaryOp} {offset : Nat}
    (cut : CutAt ops left op offset right) {done : List (List BinaryOp)}
    (split : ∀ others ∈ done,
      ∀ phrase ∈ bindNegations (left ++ .operator (.binary op) offset :: right),
        phrase.isOperatorIn (others.map .binary) = false) :
    (∀ others ∈ done, ∀ phrase ∈ bindNegations left,
      phrase.isOperatorIn (others.map .binary) = false) ∧
    ∀ others ∈ done ++ [ops], ∀ phrase ∈ bindNegations right,
      phrase.isOperatorIn (others.map .binary) = false := by
  rw [cut.bound] at split
  constructor
  · intro others member phrase inside
    exact split others member phrase (List.mem_append_left _ inside)
  · intro others member phrase inside
    rcases List.mem_append.1 member with member | same
    · exact split others member phrase (List.mem_append_right _ (.tail _ inside))
    · rw [List.mem_singleton.1 same]
      exact cut.last phrase inside

theorem sizeOf_append (left right : List Phrase) :
    sizeOf (left ++ right) + 1 = sizeOf left + sizeOf right := by
  induction left with
  | nil => simp [Nat.add_comm]
  | cons phrase left ih =>
    simp only [List.cons_append, List.cons.sizeOf_spec]
    omega

theorem sizeOf_sides (left : List Phrase) (middle : Phrase) (right : List Phrase) :
    sizeOf left < sizeOf (left ++ middle :: right) ∧ sizeOf right < sizeOf (left ++ middle :: right) := by
  have sizes := sizeOf_append left (middle :: right)
  have positive (phrases : List Phrase) : 0 < sizeOf phrases := by
    cases phrases with
    | nil => decide
    | cons phrase phrases => rw [List.cons.sizeOf_spec]; omega
  have leftPositive := positive left
  have rightPositive := positive right
  simp only [List.cons.sizeOf_spec] at sizes
  omega

theorem nodup_of_append_eq_ladder {done rungs : List (List BinaryOp)} (whole : done ++ rungs = ladder) :
    rungs.flatten.Nodup := by
  have nodup := Derivation.ladder_flatten_nodup
  rw [← whole, List.flatten_append] at nodup
  exact (List.nodup_append.1 nodup).2.1

/-- Of a list with operators of some rungs no operator belongs to a rung above them. -/
theorem inert_of_op_mem_rungs {rungs : List (List BinaryOp)} {ops : List BinaryOp}
    {phrases : List Phrase} (apart : (ops :: rungs).flatten.Nodup)
    (below : ∀ op offset, .operator (.binary op) offset ∈ phrases → op ∈ rungs.flatten) :
    ∀ phrase ∈ bindNegations phrases, phrase.isOperatorIn (ops.map .binary) = false := by
  intro phrase member
  cases inClass : phrase.isOperatorIn (ops.map .binary) with
  | false => rfl
  | true =>
    obtain ⟨op, offset, inOps, rfl⟩ := eq_operator_of_isOperatorIn_binary inClass
    rw [List.flatten_cons, List.nodup_append] at apart
    have inRungs := below op offset (operator_mem_of_mem_bindNegations member)
    exact absurd rfl (apart.2.2 op inOps op inRungs)

theorem CutAt.of_below {ops : List BinaryOp} {rungs : List (List BinaryOp)} {left right : List Phrase}
    {op : BinaryOp} {offset : Nat} (apart : (ops :: rungs).flatten.Nodup) (inOps : op ∈ ops)
    (closed : ∀ place, left.getLast? ≠ some (.operator .not place))
    (below : ∀ op offset, .operator (.binary op) offset ∈ right → op ∈ rungs.flatten) :
    CutAt ops left op offset right where
  inOps := inOps
  bound := bindNegations_append_binary _ _ _ _ closed
  last := inert_of_op_mem_rungs apart below

theorem op_mem_ladder (op : BinaryOp) : op ∈ ladder.flatten := by
  cases op <;> decide

theorem sizeOf_group (members : List Phrase) : sizeOf members < sizeOf [Phrase.group members] := by
  rw [List.cons.sizeOf_spec, Phrase.group.sizeOf_spec]
  omega

theorem sizeOf_tail (phrase : Phrase) (phrases : List Phrase) :
    sizeOf phrases < sizeOf (phrase :: phrases) := by
  rw [List.cons.sizeOf_spec]
  omega

/-- What is inside of the only phrase of a list: the members of a group, which start over from the first
    layer, or the operand of a negation, which stays in the last. -/
structure HoldsInside (motive : List (List BinaryOp) → List (List BinaryOp) → List Phrase → Prop)
    (phrases : List Phrase) : Prop where
  group {members : List Phrase} : phrases = [.group members] → motive [] ladder members
  negation {offset : Nat} {tail : List Phrase} {operand : Phrase} :
    phrases = .operator .not offset :: tail → bindNegations tail = [operand] →
      operand.isOperator = false → motive ladder [] tail

/-- Induction along the layers: before the last one a list goes on to the next layer, or is cut at the
    last operator of its own. -/
theorem layer_induction {motive : List (List BinaryOp) → List (List BinaryOp) → List Phrase → Prop}
    (last : ∀ phrases, (∀ op offset, .operator (.binary op) offset ∉ bindNegations phrases) →
      HoldsInside motive phrases → motive ladder [] phrases)
    (descend : ∀ done ops rungs phrases,
      (∀ phrase ∈ bindNegations phrases, phrase.isOperatorIn (ops.map .binary) = false) →
      motive (done ++ [ops]) rungs phrases → motive done (ops :: rungs) phrases)
    (join : ∀ done ops rungs left op offset right, CutAt ops left op offset right →
      done ++ ops :: rungs = ladder →
      (∀ ops' ∈ done, ∀ phrase ∈ bindNegations left, phrase.isOperatorIn (ops'.map .binary) = false) →
      motive done (ops :: rungs) left → motive (done ++ [ops]) rungs right →
      motive done (ops :: rungs) (left ++ .operator (.binary op) offset :: right))
    {done rungs : List (List BinaryOp)} {phrases : List Phrase} (whole : done ++ rungs = ladder)
    (split : ∀ ops ∈ done, ∀ phrase ∈ bindNegations phrases,
      phrase.isOperatorIn (ops.map .binary) = false) : motive done rungs phrases := by
  induction size : sizeOf phrases using Nat.strongRecOn generalizing phrases done rungs with
  | ind size smaller =>
    subst size
    induction rungs generalizing done with
    | nil =>
      obtain rfl : done = ladder := by simpa using whole
      refine last phrases (fun op offset member => ?_) ⟨?_, ?_⟩
      · obtain ⟨ops, inLadder, inOps⟩ := List.mem_flatten.1 (op_mem_ladder op)
        simpa [inOps] using split ops inLadder _ member
      · rintro members rfl
        exact smaller _ (sizeOf_group members) rfl (by simp) rfl
      · rintro offset tail operand rfl bound inner
        exact smaller _ (sizeOf_tail _ tail) whole (by simp [bound, isOperatorIn_eq_false inner]) rfl
    | cons ops rungs ih =>
      rcases none_or_cutAt ops phrases with none | ⟨left, op, offset, right, rfl, cut⟩
      · exact descend _ _ _ _ none (ih (by simpa using whole)
          (List.forall_mem_append.2 ⟨split, by simpa using none⟩))
      · obtain ⟨leftSplit, rightSplit⟩ := cut.split_sides split
        obtain ⟨leftLess, rightLess⟩ := sizeOf_sides left (.operator (.binary op) offset) right
        exact join _ _ _ _ _ _ _ cut whole leftSplit (smaller _ leftLess whole leftSplit rfl)
          (smaller _ rightLess (by simpa using whole) rightSplit rfl)

namespace Formula

/-- The formula of a list whose operators wait for the classes of `rungs`, while its members have been
    split by the classes of `done`. -/
def ofLayer (done rungs : List (List BinaryOp)) (phrases : List Phrase) : Except ParseError Formula :=
  ofSplit (classesOf rungs) ((bindNegations phrases).map (settle (classesOf done)))

theorem ofPhrases_eq_ofLayer (phrases : List Phrase) :
    ofPhrases phrases = ofLayer [] ladder phrases := by
  rw [ofPhrases_eq_ofSplit, precedenceClasses_eq_classesOf, ofLayer]
  exact congrArg _ (List.map_id'' settle_nil _).symm

theorem ofLayer_descend (done rungs : List (List BinaryOp)) (ops : List BinaryOp)
    (phrases : List Phrase)
    (none : ∀ phrase ∈ bindNegations phrases, phrase.isOperatorIn (ops.map .binary) = false) :
    ofLayer done (ops :: rungs) phrases = ofLayer (done ++ [ops]) rungs phrases := by
  rw [ofLayer, ofLayer, classesOf_append, show classesOf (ops :: rungs) =
    ops.map .binary :: classesOf rungs from rfl, ofSplit_cons,
    split_of_none _ _ (forall_mem_map_settle.2 none), List.map_map]
  simp only [Function.comp_def, ← settle_append]
  rfl

/-- The last operator of the layer joins the formulas of its two sides. -/
theorem ofLayer_join_eq_ok_iff (done rungs : List (List BinaryOp)) {ops : List BinaryOp}
    {left right : List Phrase} {op : BinaryOp} {offset : Nat} (cut : CutAt ops left op offset right)
    (formula : Formula) :
    ofLayer done (ops :: rungs) (left ++ .operator (.binary op) offset :: right) = .ok formula ↔
      ∃ first second, formula = .binary op first second ∧
        ofLayer done (ops :: rungs) left = .ok first ∧
        ofLayer (done ++ [ops]) rungs right = .ok second := by
  rw [← ofLayer_descend _ _ _ _ cut.last]
  simp only [ofLayer, cut.bound, List.map_append, List.map_cons, settle_operator]
  exact ofSplit_append_eq_ok_iff _ _ _ _ _ _ _ (by simpa using cut.inOps)
    (forall_mem_map_settle.2 cut.last)

/-! ## The last layer -/

theorem ofSplit_operators (classes : List (List Connective)) (first second : Connective)
    (place place' : Nat) (formula : Formula) :
    ofSplit classes [.operator first place, .operator second place'] ≠ .ok formula := by
  induction classes with
  | nil => cases first <;> simp [ofSplit, ofMembers]
  | cons connectives classes ih =>
    rw [ofSplit_cons]
    rcases none_or_last connectives [.operator first place, .operator second place'] with
      none | ⟨left, operator, right, shape, inClass, last⟩
    · rw [split_of_none _ _ none]
      exact ih
    · obtain ⟨connective, offset, rfl⟩ := eq_operator_of_isOperatorIn inClass
      have cut := split_append _ left right _ inClass last
      have missing : (operand (split connectives left)).isMissing = true ∨
          (operand (split connectives right)).isMissing = true := by
        cases left with
        | nil => exact .inl rfl
        | cons head left =>
          have later := (List.cons.inj shape).2
          cases left with
          | nil =>
            obtain rfl := (List.cons.inj later).2
            exact .inr rfl
          | cons next left => simp at later
      obtain ⟨offset', unread⟩ := ofSplit_of_isMissing classes _ _ connective offset missing
      rw [shape, cut, settle_operator, unread]
      simp

/-- A negation is read by reading its operand. -/
theorem ofSplit_negation (classes : List (List Connective)) (offset : Nat) {operand : Phrase}
    (inner : operand.isOperator = false)
    (binary : ∀ connectives ∈ classes, connectives.contains .not = false) :
    ofSplit classes [.operator .not offset, operand] =
      (ofPhrase (settle classes operand)).map .not := by
  rw [ofSplit, splitBy_of_inert]
  · simp only [List.map_cons, List.map_nil, settle_operator, ofMembers, isOperator_settle, inner,
      Bool.false_eq_true, if_false]
  · simpa [Phrase.isOperatorIn_eq_false inner] using binary

/-- A negation and its operand are read once the operand is. -/
theorem ofSplit_negation_eq_ok_iff (classes : List (List Connective)) (offset : Nat)
    (operand : Phrase) (formula : Formula)
    (binary : ∀ connectives ∈ classes, connectives.contains .not = false) :
    ofSplit classes [.operator .not offset, operand] = .ok formula ↔
      operand.isOperator = false ∧
        ∃ inner, formula = .not inner ∧ ofPhrase (settle classes operand) = .ok inner := by
  cases inner : operand.isOperator with
  | true =>
    cases operand with
    | word name => simp at inner
    | group members => simp at inner
    | operator connective place => simp [ofSplit_operators]
  | false =>
    rw [ofSplit_negation classes offset inner binary]
    cases ofPhrase (settle classes operand) <;> simp [Except.map, eq_comm]

theorem not_mem_precedenceClasses : ∀ connectives ∈ precedenceClasses,
    connectives.contains .not = false := by decide

theorem ofLayer_last (phrases : List Phrase) :
    ofLayer ladder [] phrases =
      ofMembers ((bindNegations phrases).map (settle precedenceClasses)) := rfl

theorem ofLayer_last_group (members : List Phrase) :
    ofLayer ladder [] [.group members] = ofLayer [] ladder members := by
  rw [ofLayer_last, bindNegations_cons, bindNegation_group, bindNegations_nil, attach_nil,
    ← ofPhrases_eq_ofLayer, ofPhrases_eq_ofSplit, ofSplit]
  simp [ofMembers, ofPhrase]

theorem ofLayer_last_negation {operand : List Phrase} {phrase : Phrase}
    (bound : bindNegations operand = [phrase]) (inner : phrase.isOperator = false) (offset : Nat) :
    ofLayer ladder [] (.operator .not offset :: operand) = (ofLayer ladder [] operand).map .not := by
  have together := ofSplit_negation precedenceClasses offset inner not_mem_precedenceClasses
  rw [ofSplit] at together
  simp [ofLayer_last, bindNegations_cons, bound, attach, ofMembers, ofPhrase, together]

/-- In the last layer nothing is split any more, and a list is read as its only phrase. -/
theorem ofLayer_last_eq_ok {phrases : List Phrase} {formula : Formula}
    (inert : ∀ op offset, .operator (.binary op) offset ∉ bindNegations phrases)
    (read : ofLayer ladder [] phrases = .ok formula) :
    ∃ phrase, bindNegations phrases = [phrase] ∧ phrase.isOperator = false ∧
      ofPhrase (settle precedenceClasses phrase) = .ok formula := by
  rw [ofLayer_last] at read
  rcases ofMembers_eq_ok read with ⟨phrase, shape, inner⟩ | ⟨offset, operand, shape⟩ |
    ⟨first, op, offset, third, shape⟩
  · obtain ⟨phrase, bound, rfl⟩ := List.map_eq_singleton_iff.1 shape
    refine ⟨phrase, bound, ?_, inner⟩
    cases phrase with
    | word name => rfl
    | group members => rfl
    | operator connective offset => simp [ofPhrase] at inner
  · obtain ⟨head, tail, bound, negation, rest⟩ := List.map_eq_cons_iff.1 shape
    obtain ⟨next, _, rfl, -, -⟩ := List.map_eq_cons_iff.1 rest
    rw [settle_eq_operator_iff.1 negation] at bound
    exact absurd bound (bindNegations_ne_append_negation _ [] _ _ _)
  · obtain ⟨head, tail, bound, -, rest⟩ := List.map_eq_cons_iff.1 shape
    obtain ⟨next, _, rfl, operator, -⟩ := List.map_eq_cons_iff.1 rest
    exact absurd (by simp [bound, settle_eq_operator_iff.1 operator]) (inert op offset)

/-! ## What is read is derivable -/

def ReadsDerivable (phrases : List Phrase) : Prop :=
  ∀ done rungs formula, done ++ rungs = ladder →
    (∀ ops ∈ done, ∀ phrase ∈ bindNegations phrases,
      phrase.isOperatorIn (ops.map .binary) = false) →
    ofLayer done rungs phrases = .ok formula →
    ∃ derivation : Derivation rungs phrases, derivation.formula = formula

/-- In the last layer the only phrase is a word, a group, or a negation bound to what comes after. -/
theorem derivable_last {phrases : List Phrase} {formula : Formula}
    (inert : ∀ op offset, .operator (.binary op) offset ∉ bindNegations phrases)
    (inside : HoldsInside (fun done rungs phrases => ∀ formula, ofLayer done rungs phrases = .ok formula →
      ∃ derivation : Derivation rungs phrases, derivation.formula = formula) phrases)
    (read : ofLayer ladder [] phrases = .ok formula) :
    ∃ derivation : Derivation [] phrases, derivation.formula = formula := by
  obtain ⟨phrase, bound, inner, phraseRead⟩ := ofLayer_last_eq_ok inert read
  cases bindsTo_of_bindNegations bound with
  | word name =>
    obtain rfl : Formula.atom name = formula := by simpa [ofPhrase] using phraseRead
    exact ⟨.word name, rfl⟩
  | operator connective offset => simp at inner
  | @group members =>
    rw [ofLayer_last_group] at read
    obtain ⟨derivation, rfl⟩ := inside.group rfl formula read
    exact ⟨.group derivation, rfl⟩
  | @negation offset tail operand rest =>
    rw [settle_group, ofPhrase] at phraseRead
    -- the rest is read as the phrase that the negation took, in the last layer again
    obtain ⟨operandInner, formula, rfl, operandRead⟩ :=
      (ofSplit_negation_eq_ok_iff _ _ _ _ not_mem_precedenceClasses).1 phraseRead
    have tailRead : ofLayer ladder [] tail = .ok formula := by
      rw [ofLayer_last, rest]
      simpa [ofMembers] using operandRead
    obtain ⟨derivation, rfl⟩ := inside.negation rfl rest operandInner formula tailRead
    exact ⟨.negation offset derivation, rfl⟩

theorem readsDerivable (phrases : List Phrase) : ReadsDerivable phrases := by
  intro done rungs formula whole split
  refine layer_induction (motive := fun done rungs phrases => ∀ formula,
    ofLayer done rungs phrases = .ok formula →
      ∃ derivation : Derivation rungs phrases, derivation.formula = formula) ?_ ?_ ?_ whole split formula
  · intro phrases inert inside formula read
    exact derivable_last inert inside read
  · intro done ops rungs phrases none ih formula read
    rw [ofLayer_descend _ _ _ _ none] at read
    obtain ⟨derivation, rfl⟩ := ih formula read
    exact ⟨derivation.descend, rfl⟩
  · intro done ops rungs left op offset right cut _ _ leftIh rightIh formula read
    obtain ⟨first, second, rfl, leftRead, rightRead⟩ := (ofLayer_join_eq_ok_iff _ _ cut _).1 read
    obtain ⟨leftTree, rfl⟩ := leftIh first leftRead
    obtain ⟨rightTree, rfl⟩ := rightIh second rightRead
    exact ⟨.join op offset cut.inOps leftTree rightTree, rfl⟩

/-! ## What is derivable is read -/

end Formula

namespace Derivation

open Formula

variable {rungs : List (List BinaryOp)} {phrases : List Phrase}

theorem exists_bound_operand {phrases : List Phrase} : Derivation [] phrases →
    ∃ phrase, bindNegations phrases = [phrase] ∧ phrase.isOperator = false
  | .word name => ⟨.word name, by simp [bindNegations_cons, attach_nil], rfl⟩
  | @Derivation.group members _ =>
    ⟨.group (bindNegations members), by simp [bindNegations_cons, attach_nil], rfl⟩
  | .negation offset operand => by
    obtain ⟨phrase, bound, -⟩ := exists_bound_operand operand
    exact ⟨.group [.operator .not offset, phrase], by simp [bindNegations_cons, bound, attach], rfl⟩

theorem getLast?_ne_negation (derivation : Derivation rungs phrases) (offset : Nat) :
    phrases.getLast? ≠ some (.operator .not offset) := by
  obtain ⟨front, last, rfl, inner⟩ := derivation.exists_last
  rw [List.getLast?_concat, ne_eq, Option.some.injEq]
  intro negation
  simp [negation] at inner

/-- A derivable list is read as the syntax tree of its derivation. -/
theorem ofLayer_eq_ok (derivation : Derivation rungs phrases) (done : List (List BinaryOp))
    (whole : done ++ rungs = ladder) : ofLayer done rungs phrases = .ok derivation.formula := by
  induction derivation generalizing done with
  | word name =>
    obtain rfl : done = ladder := by simpa using whole
    simp [ofLayer_last, bindNegations_cons, attach_nil, ofMembers, ofPhrase, formula]
  | group inner ih =>
    obtain rfl : done = ladder := by simpa using whole
    rw [ofLayer_last_group, ih [] rfl, formula]
  | negation offset operand ih =>
    obtain rfl : done = ladder := by simpa using whole
    obtain ⟨phrase, bound, inner⟩ := operand.exists_bound_operand
    rw [ofLayer_last_negation bound inner, ih ladder whole, formula]
    rfl
  | @join ops rungs left right op offset inOps leftTree rightTree leftIh rightIh =>
    have apart := nodup_of_append_eq_ladder whole
    have cut : CutAt ops left op offset right := .of_below apart inOps leftTree.getLast?_ne_negation
      fun _ _ => rightTree.op_mem_rungs
    exact (ofLayer_join_eq_ok_iff done rungs cut _).2
      ⟨_, _, rfl, leftIh done whole, rightIh (done ++ [ops]) (by simpa using whole)⟩
  | @descend ops rungs phrases inner ih =>
    have apart := nodup_of_append_eq_ladder whole
    rw [ofLayer_descend _ _ _ _ (inert_of_op_mem_rungs apart fun _ _ => inner.op_mem_rungs)]
    exact ih (done ++ [ops]) (by simpa using whole)

end Derivation

/-- Reading phrases gives a formula exactly when the grammar derives them, and then gives the syntax
    tree of the derivation. -/
theorem Formula.ofPhrases_eq_ok_iff (phrases : List Phrase) (formula : Formula) :
    ofPhrases phrases = .ok formula ↔
      ∃ derivation : Derivation ladder phrases, derivation.formula = formula := by
  rw [ofPhrases_eq_ofLayer]
  constructor
  · exact readsDerivable phrases [] ladder formula rfl (by simp)
  · rintro ⟨derivation, rfl⟩
    exact derivation.ofLayer_eq_ok [] rfl

theorem Formula.storePhrase_group_eq_map (phrases : List Phrase) (table : List Node) :
    storePhrase (.group (splitAll (bindNegations phrases))) table =
      (ofPhrases phrases).map fun formula => formula.store table := by
  rw [storePhrase, ofPhrase, ofPhrases]

/-- Storing phrases in an empty table succeeds exactly when the grammar derives them.  They have at
    most one derivation, and the table is the listing in post-order of its syntax tree. -/
theorem Formula.storePhrase_accepts_grammar (phrases : List Phrase) :
    ((∃ stored, storePhrase (.group (splitAll (bindNegations phrases))) [] = .ok stored) ↔
      Nonempty (Derivation ladder phrases)) ∧
    Subsingleton (Derivation ladder phrases) ∧
    ∀ derivation : Derivation ladder phrases,
      storePhrase (.group (splitAll (bindNegations phrases))) [] =
        .ok (derivation.formula.postorder 0, derivation.formula.size - 1) := by
  have stored (derivation : Derivation ladder phrases) :
      storePhrase (.group (splitAll (bindNegations phrases))) [] =
        .ok (derivation.formula.postorder 0, derivation.formula.size - 1) := by
    have read := (ofPhrases_eq_ok_iff phrases _).2 ⟨derivation, rfl⟩
    rw [storePhrase_group_eq_map, read, Except.map, store_eq_postorder]
    simp
  refine ⟨⟨?_, ?_⟩, derivation_unique phrases, stored⟩
  · rintro ⟨result, success⟩
    rw [storePhrase_group_eq_map] at success
    cases read : ofPhrases phrases with
    | error error => simp [read, Except.map] at success
    | ok formula =>
      obtain ⟨derivation, -⟩ := (ofPhrases_eq_ok_iff phrases formula).1 read
      exact ⟨derivation⟩
  · rintro ⟨derivation⟩
    exact ⟨_, stored derivation⟩

end Sentential
