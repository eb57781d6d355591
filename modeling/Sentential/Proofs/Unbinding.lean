import Sentential.Proofs.Passes

/-! # Taking negations apart

Binding negations loses nothing.  A negation that has a phrase to its right in its own list takes what
has become of that phrase, also where this is a group that another negation has made before
(`bindNegations_negation`).  In the result a negation by itself ends its list, or is the first of two
phrases (`negationsPlaced_of_within`).

So a group of two that begins with a negation was made by binding: the members of a group that was
there before never come to look like this, because in them the negation would have been bound.
Replacing every such group by its two members gives back the phrases (`unbindAll_bindNegations`), and
different phrases stay different.
-/

namespace Sentential

namespace Phrase

/-! ## What a negation takes -/

/-- What becomes of a phrase that other phrases come after.  A negation goes into a group with what
    becomes of the next one. -/
def boundBefore : Phrase → List Phrase → Phrase
  | .operator .not offset, next :: rest => .group [.operator .not offset, boundBefore next rest]
  | phrase, _ => bindNegation phrase

/-- A phrase as the operand of several negations, the last of which is the innermost. -/
def enclose (places : List Nat) (operand : Phrase) : Phrase :=
  places.foldr (fun offset operand => .group [.operator .not offset, operand]) operand

theorem boundBefore_nil (phrase : Phrase) : boundBefore phrase [] = bindNegation phrase := by
  cases phrase with
  | word name => rfl
  | group members => rfl
  | operator connective offset => cases connective <;> rfl

theorem boundBefore_of_ne (phrase : Phrase) (rest : List Phrase)
    (other : ∀ offset, phrase ≠ .operator .not offset) :
    boundBefore phrase rest = bindNegation phrase := by
  cases rest with
  | nil => exact boundBefore_nil phrase
  | cons next rest =>
    cases phrase with
    | word name => rfl
    | group members => rfl
    | operator connective offset =>
      cases connective with
      | not => exact absurd rfl (other offset)
      | binary op => rfl

theorem bindNegations_negation {operand : Phrase} {tail others : List Phrase}
    (bound : bindNegations tail = operand :: others) (offset : Nat) :
    bindNegations (.operator .not offset :: tail) =
      .group [.operator .not offset, operand] :: others := by
  rw [bindNegations_cons, bindNegation_operator, bound, attach]

theorem exists_boundBefore (phrase : Phrase) (rest : List Phrase) :
    ∃ others, bindNegations (phrase :: rest) = boundBefore phrase rest :: others := by
  induction rest generalizing phrase with
  | nil => exact ⟨[], by rw [bindNegations_cons, bindNegations_nil, attach_nil, boundBefore_nil]⟩
  | cons next rest ih =>
    by_cases negation : ∃ offset, phrase = .operator .not offset
    · obtain ⟨offset, rfl⟩ := negation
      obtain ⟨others, bound⟩ := ih next
      exact ⟨others, bindNegations_negation bound offset⟩
    · have other : ∀ offset, phrase ≠ .operator .not offset := fun offset same => negation ⟨offset, same⟩
      have kept : ∀ offset, bindNegation phrase ≠ .operator .not offset :=
        fun offset same => other offset (bindNegation_eq_operator_iff.1 same)
      exact ⟨_, by rw [bindNegations_cons, attach_of_ne _ _ kept, boundBefore_of_ne _ _ other]⟩

theorem bindNegations_run {operand : Phrase} {tail others : List Phrase}
    (bound : bindNegations tail = operand :: others) (places : List Nat) :
    bindNegations (places.map (.operator .not) ++ tail) = enclose places operand :: others := by
  induction places with
  | nil => exact bound
  | cons offset places ih => exact bindNegations_negation ih offset

/-- Every list ends in a run of negations, which may be empty. -/
theorem exists_run (phrases : List Phrase) : ∃ (before : List Phrase) (places : List Nat),
    phrases = before ++ places.map (.operator .not) ∧
      ∀ offset, before.getLast? ≠ some (.operator .not offset) := by
  induction phrases using List.reverseRecOn with
  | nil => exact ⟨[], [], rfl, by simp⟩
  | append_singleton phrases last ih =>
    by_cases negation : ∃ offset, last = .operator .not offset
    · obtain ⟨offset, rfl⟩ := negation
      obtain ⟨before, places, rfl, closed⟩ := ih
      exact ⟨before, places ++ [offset], by simp, closed⟩
    · refine ⟨phrases ++ [last], [], by simp, fun offset same => negation ⟨offset, ?_⟩⟩
      simpa using same

/-- A negation takes what becomes of the phrase after it, and the group of the two is the operand of the
    negations right before it. -/
theorem bindNegations_append_negation (front : List Phrase) (offset : Nat) (next : Phrase)
    (rest : List Phrase) : ∃ before places others,
      front = before ++ places.map (.operator .not) ∧
      (∀ place, before.getLast? ≠ some (.operator .not place)) ∧
      bindNegations (next :: rest) = boundBefore next rest :: others ∧
      bindNegations (front ++ .operator .not offset :: next :: rest) =
        bindNegations before ++
          enclose places (.group [.operator .not offset, boundBefore next rest]) :: others := by
  obtain ⟨before, places, rfl, closed⟩ := exists_run front
  obtain ⟨others, bound⟩ := exists_boundBefore next rest
  refine ⟨before, places, others, rfl, closed, bound, ?_⟩
  rw [List.append_assoc, bindNegations_append _ _ closed,
    bindNegations_run (bindNegations_negation bound offset)]

/-! ## Where negations are left -/

/-- A negation by itself ends the list, or is the first of two phrases. -/
def NegationsPlaced (phrases : List Phrase) : Prop :=
  ∀ front offset back, phrases = front ++ .operator .not offset :: back →
    back = [] ∨ front = [] ∧ ∃ operand, back = [operand]

theorem negationsPlaced_bindNegations (phrases : List Phrase) :
    NegationsPlaced (bindNegations phrases) := by
  intro front offset back bound
  cases back with
  | nil => exact .inl rfl
  | cons next rest => exact absurd bound (bindNegations_ne_append_negation _ _ _ _ _)

theorem negationsPlaced_pair (offset : Nat) (operand : Phrase) :
    NegationsPlaced [.operator .not offset, operand] := by
  intro front place back shape
  cases front with
  | nil => exact .inr ⟨rfl, operand, (List.cons.inj shape).2.symm⟩
  | cons head front =>
    have later := (List.cons.inj shape).2
    cases front with
    | nil => exact .inl (List.cons.inj later).2.symm
    | cons next front => simp at later

/-- A group among bound phrases was a group before, or is that of a negation and what it took. -/
theorem group_mem_bindNegations {phrases members : List Phrase}
    (member : .group members ∈ bindNegations phrases) :
    (∃ original, .group original ∈ phrases ∧ members = bindNegations original) ∨
      ∃ front offset tail operand, phrases = front ++ .operator .not offset :: tail ∧
        operand ∈ bindNegations tail ∧ members = [.operator .not offset, operand] := by
  induction phrases with
  | nil => simp at member
  | cons phrase rest ih =>
    have later (below : .group members ∈ bindNegations rest) :
        (∃ original, .group original ∈ phrase :: rest ∧ members = bindNegations original) ∨
          ∃ front offset tail operand, phrase :: rest = front ++ .operator .not offset :: tail ∧
            operand ∈ bindNegations tail ∧ members = [.operator .not offset, operand] := by
      rcases ih below with ⟨original, inside, same⟩ | ⟨front, offset, tail, operand, rfl, taken, same⟩
      · exact .inl ⟨original, .tail _ inside, same⟩
      · exact .inr ⟨phrase :: front, offset, tail, operand, rfl, taken, same⟩
    rw [bindNegations_cons] at member
    unfold attach at member
    split at member
    · rename_i offset operand others negation bound
      cases member with
      | head =>
        refine .inr ⟨[], offset, rest, operand, ?_, by simp [bound], rfl⟩
        rw [bindNegation_eq_operator_iff.1 negation]
        rfl
      | tail _ behind => exact later (bound ▸ .tail operand behind)
    · rcases List.mem_cons.1 member with kept | behind
      · cases phrase with
        | word name => simp at kept
        | operator connective offset => simp at kept
        | group original => exact .inl ⟨original, .head _, by simpa using kept⟩
      · exact later behind

theorem negationsPlaced_of_within {inner phrases : List Phrase}
    (within : Within inner (bindNegations phrases)) : NegationsPlaced inner := by
  induction size : sizeOf phrases using Nat.strongRecOn generalizing phrases with
  | ind size smaller =>
    subst size
    cases within with
    | whole => exact negationsPlaced_bindNegations phrases
    | group member within =>
      rcases group_mem_bindNegations member with
        ⟨original, inside, rfl⟩ | ⟨front, offset, tail, operand, rfl, taken, rfl⟩
      · exact smaller _ (sizeOf_members_lt inside) within rfl
      · cases within with
        | whole => exact negationsPlaced_pair offset operand
        | group innerMember within =>
          -- the group is what the negation took, and so stands among the phrases bound after it
          obtain rfl : operand = .group _ := by simpa [eq_comm] using innerMember
          exact smaller _ (sizeOf_sides front _ tail).2 (.group taken within) rfl

theorem exists_within_attach {phrase : Phrase} {rest members inner : List Phrase}
    (member : .group members ∈ rest) (within : Within inner members) :
    ∃ outer, .group outer ∈ attach phrase rest ∧ Within inner outer := by
  unfold attach
  split
  · rename_i offset operand others
    cases member with
    | head => exact ⟨_, .head _, .group (by simp) within⟩
    | tail _ behind => exact ⟨members, .tail _ behind, within⟩
  · exact ⟨members, .tail _ member, within⟩

theorem exists_within_bindNegations {phrases members inner : List Phrase}
    (member : .group members ∈ phrases) (within : Within inner (bindNegations members)) :
    ∃ outer, .group outer ∈ bindNegations phrases ∧ Within inner outer := by
  induction phrases with
  | nil => simp at member
  | cons phrase rest ih =>
    rw [bindNegations_cons]
    cases member with
    | head =>
      rw [bindNegation_group, attach_of_ne _ _ (by simp)]
      exact ⟨_, .head _, within⟩
    | tail _ behind =>
      obtain ⟨outer, there, inside⟩ := ih behind
      exact exists_within_attach there inside

/-- A list that stands somewhere in phrases stands there with its negations bound. -/
theorem Within.bindNegations {members phrases : List Phrase} (within : Within members phrases) :
    Within (bindNegations members) (bindNegations phrases) := by
  induction within with
  | whole => exact .whole _
  | group member _ ih =>
    obtain ⟨outer, there, inside⟩ := exists_within_bindNegations member ih
    exact .group there inside

/-! ## Unbinding -/

mutual

/-- The phrases that a phrase was before negations were bound: a group of a negation and another phrase
    was the two of them. -/
def unbind : Phrase → List Phrase
  | .group [.operator .not offset, operand] => .operator .not offset :: unbind operand
  | .group members => [.group (unbindAll members)]
  | .word name => [.word name]
  | .operator connective offset => [.operator connective offset]

def unbindAll : List Phrase → List Phrase
  | [] => []
  | phrase :: rest => unbind phrase ++ unbindAll rest

end

@[simp] theorem unbind_word (name : String) : unbind (.word name) = [.word name] := by
  simp only [unbind]

@[simp] theorem unbind_operator (connective : Connective) (offset : Nat) :
    unbind (.operator connective offset) = [.operator connective offset] := by
  simp only [unbind]

@[simp] theorem unbind_pair (offset : Nat) (operand : Phrase) :
    unbind (.group [.operator .not offset, operand]) = .operator .not offset :: unbind operand := by
  simp only [unbind]

theorem unbind_group {members : List Phrase}
    (noPair : ∀ offset operand, members ≠ [.operator .not offset, operand]) :
    unbind (.group members) = [.group (unbindAll members)] := by
  rw [unbind]
  exact fun offset operand same => noPair offset operand same

@[simp] theorem unbindAll_nil : unbindAll [] = [] := by simp only [unbindAll]

@[simp] theorem unbindAll_cons (phrase : Phrase) (rest : List Phrase) :
    unbindAll (phrase :: rest) = unbind phrase ++ unbindAll rest := by
  simp only [unbindAll]

theorem unbindAll_attach (phrase : Phrase) (rest : List Phrase) :
    unbindAll (attach phrase rest) = unbind phrase ++ unbindAll rest := by
  unfold attach
  split
  · simp
  · exact unbindAll_cons phrase rest

mutual

theorem unbind_bindNegation : ∀ phrase : Phrase, unbind (bindNegation phrase) = [phrase]
  | .word name => by rw [bindNegation_word, unbind_word]
  | .operator connective offset => by rw [bindNegation_operator, unbind_operator]
  | .group members => by
    -- a negation that stood before another phrase is no longer there
    have noPair : ∀ offset operand, bindNegations members ≠ [.operator .not offset, operand] :=
      fun offset operand => bindNegations_ne_append_negation members [] offset operand []
    rw [bindNegation_group, unbind_group noPair, unbindAll_bindNegations members]

/-- Unbinding gives back the phrases whose negations were bound. -/
theorem unbindAll_bindNegations : ∀ phrases : List Phrase, unbindAll (bindNegations phrases) = phrases
  | [] => by rw [bindNegations_nil, unbindAll_nil]
  | phrase :: rest => by
    rw [bindNegations_cons, unbindAll_attach, unbind_bindNegation phrase, unbindAll_bindNegations rest,
      List.singleton_append]

end

/-- Binding negations leaves them at the end of a list or at the start of a pair, in every list inside
    the result.  In every list inside the phrases, a negation before another phrase becomes a group of
    the negation and what becomes of that phrase, within the groups of the negations right before it.
    Unbinding undoes all of it, and so phrases are known from what binding leaves. -/
theorem bindNegations_reversible (phrases : List Phrase) :
    (∀ inner, Within inner (bindNegations phrases) → NegationsPlaced inner) ∧
    (∀ members, Within members phrases →
      Within (bindNegations members) (bindNegations phrases) ∧
      ∀ front offset next rest, members = front ++ .operator .not offset :: next :: rest →
        ∃ before places others, front = before ++ places.map (.operator .not) ∧
          (∀ place, before.getLast? ≠ some (.operator .not place)) ∧
          bindNegations (next :: rest) = boundBefore next rest :: others ∧
          bindNegations members = bindNegations before ++
            enclose places (.group [.operator .not offset, boundBefore next rest]) :: others) ∧
    unbindAll (bindNegations phrases) = phrases ∧
    ∀ phrases', bindNegations phrases' = bindNegations phrases → phrases' = phrases := by
  refine ⟨?_, ?_, unbindAll_bindNegations phrases, ?_⟩
  · intro inner within
    exact negationsPlaced_of_within within
  · intro members within
    refine ⟨within.bindNegations, ?_⟩
    rintro front offset next rest rfl
    exact bindNegations_append_negation front offset next rest
  · intro phrases' same
    calc phrases' = unbindAll (bindNegations phrases') := (unbindAll_bindNegations phrases').symm
      _ = unbindAll (bindNegations phrases) := by rw [same]
      _ = phrases := unbindAll_bindNegations phrases

/-- Two negations take a group in turn, and the one that was written inside it stays in a group of its
    own. -/
theorem bindNegations_reversible_chain :
    Within [.operator .not 2, .group [.group [.operator .not 5, .word "a"]]]
      (bindNegations
        [.operator .not 0, .operator .not 2, .group [.operator .not 5, .word "a"], .word "b"]) ∧
    NegationsPlaced [.operator .not 2, .group [.group [.operator .not 5, .word "a"]]] ∧
    Within [.operator .not 5, .word "a"]
      [.operator .not 0, .operator .not 2, .group [.operator .not 5, .word "a"], .word "b"] ∧
    Within (bindNegations [.operator .not 5, .word "a"])
      (bindNegations
        [.operator .not 0, .operator .not 2, .group [.operator .not 5, .word "a"], .word "b"]) := by
  have taken : Within [.operator .not 2, .group [.group [.operator .not 5, .word "a"]]]
      (bindNegations
        [.operator .not 0, .operator .not 2, .group [.operator .not 5, .word "a"], .word "b"]) :=
    .group (.head _) (.group (.tail _ (.head _)) (.whole _))
  have written : Within [.operator .not 5, .word "a"]
      [.operator .not 0, .operator .not 2, .group [.operator .not 5, .word "a"], .word "b"] :=
    .group (.tail _ (.tail _ (.head _))) (.whole _)
  obtain ⟨placed, bound, -⟩ := bindNegations_reversible
    [.operator .not 0, .operator .not 2, .group [.operator .not 5, .word "a"], .word "b"]
  exact ⟨taken, placed _ taken, written, (bound _ written).1⟩

end Phrase

end Sentential
