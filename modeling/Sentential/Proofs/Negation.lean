import Sentential.Phrase.Negation

/-! # Negations and the lists around them

Binding negations leaves the binary operators of a list where they are.  So a list may be taken apart
at a binary operator before or after its negations are bound: joining two lists at an operator commutes
with binding where the left one does not end in a negation (`bindNegations_append`), and whenever an
operator stands in the result, the list can be cut there (`bindNegations_eq_append`).
-/

namespace Sentential

namespace Phrase

theorem attach_nil (phrase : Phrase) : attach phrase [] = [phrase] := by
  cases phrase with
  | word name => rfl
  | group members => rfl
  | operator connective offset => cases connective <;> rfl

theorem attach_of_ne (phrase : Phrase) (rest : List Phrase)
    (other : ∀ offset, phrase ≠ .operator .not offset) : attach phrase rest = phrase :: rest := by
  cases phrase with
  | word name => rfl
  | group members => rfl
  | operator connective offset =>
    cases connective with
    | not => exact absurd rfl (other offset)
    | binary op => rfl

theorem attach_ne_nil (phrase : Phrase) (rest : List Phrase) : attach phrase rest ≠ [] := by
  unfold attach
  split <;> simp

theorem attach_append (phrase : Phrase) (first second : List Phrase) (there : first ≠ []) :
    attach phrase (first ++ second) = attach phrase first ++ second := by
  cases first with
  | nil => exact absurd rfl there
  | cons next rest =>
    cases phrase with
    | word name => rfl
    | group members => rfl
    | operator connective offset => cases connective <;> rfl

@[simp] theorem bindNegations_nil : bindNegations [] = [] := by simp only [bindNegations]

theorem bindNegations_cons (phrase : Phrase) (rest : List Phrase) :
    bindNegations (phrase :: rest) = attach (bindNegation phrase) (bindNegations rest) := by
  simp only [bindNegations]

@[simp] theorem bindNegation_word (name : String) : bindNegation (.word name) = .word name := by
  simp only [bindNegation]

@[simp] theorem bindNegation_operator (connective : Connective) (offset : Nat) :
    bindNegation (.operator connective offset) = .operator connective offset := by
  simp only [bindNegation]

@[simp] theorem bindNegation_group (members : List Phrase) :
    bindNegation (.group members) = .group (bindNegations members) := by
  simp only [bindNegation]

theorem bindNegation_eq_operator_iff {phrase : Phrase} {connective : Connective} {offset : Nat} :
    bindNegation phrase = .operator connective offset ↔ phrase = .operator connective offset := by
  cases phrase <;> simp

@[simp] theorem bindNegations_eq_nil_iff {phrases : List Phrase} :
    bindNegations phrases = [] ↔ phrases = [] := by
  cases phrases with
  | nil => simp
  | cons phrase rest => simp [bindNegations_cons, attach_ne_nil]

/-- An operator that is still there after negations are bound was there before. -/
theorem operator_mem_of_mem_bindNegations {phrases : List Phrase} {connective : Connective}
    {offset : Nat} (member : .operator connective offset ∈ bindNegations phrases) :
    .operator connective offset ∈ phrases := by
  induction phrases with
  | nil => simp at member
  | cons phrase rest ih =>
    rw [bindNegations_cons] at member
    unfold attach at member
    split at member
    · rename_i place operand others _ bound
      have below : .operator connective offset ∈ bindNegations rest := by
        rw [bound]
        simpa using .inr (by simpa using member)
      exact List.mem_cons_of_mem _ (ih below)
    · rcases List.mem_cons.1 member with head | tail
      · exact List.mem_cons.2 (.inl (bindNegation_eq_operator_iff.1 head.symm).symm)
      · exact List.mem_cons_of_mem _ (ih tail)

/-- A negation with something after it is bound to that. -/
theorem bindNegations_ne_append_negation (phrases front : List Phrase) (offset : Nat) (next : Phrase)
    (rest : List Phrase) : bindNegations phrases ≠ front ++ .operator .not offset :: next :: rest := by
  intro bound
  induction phrases generalizing front with
  | nil => simp at bound
  | cons phrase tail ih =>
    rw [bindNegations_cons] at bound
    unfold attach at bound
    split at bound
    · -- the phrase that a negation takes stands before what is left
      rename_i place operand others _ bound'
      cases front with
      | nil => simp at bound
      | cons head front =>
        obtain ⟨-, rfl⟩ := List.cons.inj bound
        exact ih (operand :: front) bound'
    · rename_i other
      cases front with
      | nil =>
        obtain ⟨head, rested⟩ := List.cons.inj bound
        exact other offset next rest head rested
      | cons head front => exact ih front (List.cons.inj bound).2

/-- A list that does not end in a negation keeps apart from what comes after it. -/
theorem bindNegations_append (first second : List Phrase)
    (closed : ∀ offset, first.getLast? ≠ some (.operator .not offset)) :
    bindNegations (first ++ second) = bindNegations first ++ bindNegations second := by
  induction first with
  | nil => simp
  | cons phrase rest ih =>
    rw [List.cons_append, bindNegations_cons, bindNegations_cons]
    cases rest with
    | nil =>
      rw [bindNegations_nil, attach_nil, List.nil_append, attach_of_ne]
      · rfl
      · intro offset negation
        rw [bindNegation_eq_operator_iff] at negation
        exact closed offset (by rw [negation]; rfl)
    | cons next rest =>
      rw [ih (by simpa [List.getLast?_cons_cons] using closed), attach_append]
      simp

theorem bindNegations_append_binary (left right : List Phrase) (op : BinaryOp) (offset : Nat)
    (closed : ∀ place, left.getLast? ≠ some (.operator .not place)) :
    bindNegations (left ++ .operator (.binary op) offset :: right) =
      bindNegations left ++ .operator (.binary op) offset :: bindNegations right := by
  rw [bindNegations_append _ _ closed, bindNegations_cons, bindNegation_operator,
    attach_of_ne _ _ (by simp)]

/-- Where a binary operator stands between bound phrases, the list can be cut at it. -/
theorem bindNegations_eq_append {phrases left right : List Phrase} {op : BinaryOp} {offset : Nat}
    (bound : bindNegations phrases = left ++ .operator (.binary op) offset :: right) :
    ∃ left' right', phrases = left' ++ .operator (.binary op) offset :: right' ∧
      bindNegations left' = left ∧ bindNegations right' = right := by
  induction phrases generalizing left with
  | nil => simp at bound
  | cons phrase rest ih =>
    rw [bindNegations_cons] at bound
    unfold attach at bound
    split at bound
    · -- a negation takes the first phrase after it, which therefore stands before the operator
      rename_i place operand others negation rested
      cases left with
      | nil => simp at bound
      | cons head left =>
        obtain ⟨rfl, rfl⟩ := List.cons.inj bound
        have shape : bindNegations rest =
            (operand :: left) ++ .operator (.binary op) offset :: right := rested
        obtain ⟨left', right', rfl, leftBound, rightBound⟩ := ih shape
        refine ⟨phrase :: left', right', rfl, ?_, rightBound⟩
        rw [bindNegations_cons, negation, leftBound]
        rfl
    · rename_i other
      cases left with
      | nil =>
        obtain ⟨head, rfl⟩ := List.cons.inj bound
        exact ⟨[], rest, by rw [bindNegation_eq_operator_iff.1 head]; rfl, by simp, rfl⟩
      | cons head left =>
        obtain ⟨rfl, tail⟩ := List.cons.inj bound
        obtain ⟨left', right', rfl, leftBound, rightBound⟩ := ih tail
        refine ⟨phrase :: left', right', rfl, ?_, rightBound⟩
        rw [bindNegations_cons, leftBound, attach_of_ne]
        intro place negation
        -- a negation would have taken what comes next, and here there is something
        obtain ⟨next, others, there⟩ := List.exists_cons_of_ne_nil
          (l := bindNegations (left' ++ .operator (.binary op) offset :: right')) (by simp)
        exact other place next others negation there

/-- How a list whose negations are bound can be a single phrase. -/
inductive BindsTo : List Phrase → Phrase → Prop
  | word (name : String) : BindsTo [.word name] (.word name)
  | operator (connective : Connective) (offset : Nat) :
      BindsTo [.operator connective offset] (.operator connective offset)
  | group {members : List Phrase} : BindsTo [.group members] (.group (bindNegations members))
  | negation {offset : Nat} {tail : List Phrase} {operand : Phrase} :
      bindNegations tail = [operand] →
        BindsTo (.operator .not offset :: tail) (.group [.operator .not offset, operand])

theorem bindsTo_of_bindNegations {phrases : List Phrase} {phrase : Phrase}
    (bound : bindNegations phrases = [phrase]) : BindsTo phrases phrase := by
  cases phrases with
  | nil => simp at bound
  | cons head tail =>
    rw [bindNegations_cons] at bound
    unfold attach at bound
    split at bound
    · rename_i offset operand rest negation rested
      obtain ⟨rfl, rfl⟩ := List.cons.inj bound
      rw [bindNegation_eq_operator_iff.1 negation]
      exact .negation rested
    · obtain ⟨rfl, rest⟩ := List.cons.inj bound
      obtain rfl := bindNegations_eq_nil_iff.1 rest
      cases head with
      | word name => exact bindNegation_word name ▸ .word name
      | operator connective offset => exact bindNegation_operator connective offset ▸ .operator _ _
      | group members => exact bindNegation_group members ▸ .group

end Phrase

end Sentential
