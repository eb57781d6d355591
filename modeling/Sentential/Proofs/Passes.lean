import Sentential.Proofs.Rejection

/-! # What a pass leaves

A pass cuts a list at its last operator of a class, and what stands before that again.  Read from the
left, this is a fold: the operators of the class cut the list into segments, and each operator in turn
takes what has been joined so far as its left operand and the segment after it as its right one
(`cut_eq_foldl_join`).  Nothing is asked of the segments.  They may be empty, or hold operators of other
classes.

The groups that a pass makes are not visited again by it.  All the same no list inside its result is
left to be cut (`isSplit_split`): a part that becomes an operand has been cut itself, or has no operator
of the class, and a phrase that stands for itself is no such operator.  The lists that a pass leaves as
they are, are exactly those with nothing left to cut (`split_eq_self_iff`).
-/

namespace Sentential

namespace Phrase

variable {connectives : List Connective} {phrases : List Phrase}

/-! ## Chains -/

/-- A list in segments: the phrases before its first operator of the class, and every operator of the
    class with the phrases that come after it and before the next. -/
structure Segmentation (connectives : List Connective) (phrases first : List Phrase)
    (links : List (Phrase × List Phrase)) : Prop where
  whole : phrases = first ++ links.flatMap fun link => link.1 :: link.2
  operators : ∀ link ∈ links, link.1.isOperatorIn connectives = true
  firstOutside : ∀ phrase ∈ first, phrase.isOperatorIn connectives = false
  outside : ∀ link ∈ links, ∀ phrase ∈ link.2, phrase.isOperatorIn connectives = false

/-- Joins what has been joined so far with the segment after the next operator. -/
def join (joined : List Phrase) (link : Phrase × List Phrase) : List Phrase :=
  [operand joined, link.1, operand link.2]

namespace Segmentation

variable {phrase : Phrase} {first : List Phrase} {links : List (Phrase × List Phrase)}

theorem nil : Segmentation connectives [] [] [] where
  whole := rfl
  operators := by simp
  firstOutside := by simp
  outside := by simp

theorem cons_operator (inClass : phrase.isOperatorIn connectives = true)
    (later : Segmentation connectives phrases first links) :
    Segmentation connectives (phrase :: phrases) [] ((phrase, first) :: links) where
  whole := by simp [later.whole]
  operators := List.forall_mem_cons.2 ⟨inClass, later.operators⟩
  firstOutside := by simp
  outside := List.forall_mem_cons.2 ⟨later.firstOutside, later.outside⟩

theorem cons_outside (outside : phrase.isOperatorIn connectives = false)
    (later : Segmentation connectives phrases first links) :
    Segmentation connectives (phrase :: phrases) (phrase :: first) links where
  whole := by simp [later.whole]
  operators := later.operators
  firstOutside := List.forall_mem_cons.2 ⟨outside, later.firstOutside⟩
  outside := later.outside

theorem exists_segmentation (connectives : List Connective) (phrases : List Phrase) :
    ∃ first links, Segmentation connectives phrases first links := by
  induction phrases with
  | nil => exact ⟨[], [], nil⟩
  | cons phrase rest ih =>
    obtain ⟨first, links, later⟩ := ih
    cases inClass : phrase.isOperatorIn connectives with
    | true => exact ⟨_, _, later.cons_operator inClass⟩
    | false => exact ⟨_, _, later.cons_outside inClass⟩

theorem of_nil (segmentation : Segmentation connectives [] first links) :
    first = [] ∧ links = [] := by
  obtain ⟨front, behind⟩ := List.append_eq_nil_iff.1 segmentation.whole.symm
  rw [List.flatMap_eq_nil_iff] at behind
  exact ⟨front, List.eq_nil_iff_forall_not_mem.2 fun link member => by simpa using behind link member⟩

theorem of_cons_operator (segmentation : Segmentation connectives (phrase :: phrases) first links)
    (inClass : phrase.isOperatorIn connectives = true) :
    first = [] ∧ ∃ segment later, links = (phrase, segment) :: later ∧
      Segmentation connectives phrases segment later := by
  obtain ⟨whole, operators, firstOutside, outside⟩ := segmentation
  cases first with
  | cons head front =>
    -- the operator would stand in the first segment
    obtain rfl : phrase = head := (List.cons.inj whole).1
    simp [firstOutside phrase (.head _)] at inClass
  | nil =>
    cases links with
    | nil => simp at whole
    | cons link later =>
      obtain ⟨operator, segment⟩ := link
      rw [List.nil_append, List.flatMap_cons, List.cons_append] at whole
      obtain ⟨rfl, rest⟩ := List.cons.inj whole
      exact ⟨rfl, segment, later, rfl, rest, (List.forall_mem_cons.1 operators).2,
        (List.forall_mem_cons.1 outside).1, (List.forall_mem_cons.1 outside).2⟩

theorem of_cons_outside (segmentation : Segmentation connectives (phrase :: phrases) first links)
    (out : phrase.isOperatorIn connectives = false) :
    ∃ front, first = phrase :: front ∧ Segmentation connectives phrases front links := by
  obtain ⟨whole, operators, firstOutside, outside⟩ := segmentation
  cases first with
  | cons head front =>
    rw [List.cons_append] at whole
    obtain ⟨rfl, rest⟩ := List.cons.inj whole
    exact ⟨front, rfl, rest, operators, (List.forall_mem_cons.1 firstOutside).2, outside⟩
  | nil =>
    cases links with
    | nil => simp at whole
    | cons link later =>
      -- the list would begin with an operator of the class
      obtain rfl : phrase = link.1 := (List.cons.inj whole).1
      simp [operators link (.head _)] at out

theorem unique {first' : List Phrase} {links' : List (Phrase × List Phrase)}
    (segmentation : Segmentation connectives phrases first links)
    (segmentation' : Segmentation connectives phrases first' links') :
    first' = first ∧ links' = links := by
  induction phrases generalizing first links first' links' with
  | nil =>
    obtain ⟨rfl, rfl⟩ := segmentation.of_nil
    exact segmentation'.of_nil
  | cons phrase rest ih =>
    cases inClass : phrase.isOperatorIn connectives with
    | true =>
      obtain ⟨rfl, segment, later, rfl, tail⟩ := segmentation.of_cons_operator inClass
      obtain ⟨rfl, segment', later', rfl, tail'⟩ := segmentation'.of_cons_operator inClass
      obtain ⟨rfl, rfl⟩ := ih tail tail'
      exact ⟨rfl, rfl⟩
    | false =>
      obtain ⟨front, rfl, tail⟩ := segmentation.of_cons_outside inClass
      obtain ⟨front', rfl, tail'⟩ := segmentation'.of_cons_outside inClass
      obtain ⟨rfl, rfl⟩ := ih tail tail'
      exact ⟨rfl, rfl⟩

/-- Cutting a list joins its segments from the left. -/
theorem cut_eq (segmentation : Segmentation connectives phrases first links) :
    cut connectives phrases = links.foldl join first := by
  obtain ⟨rfl, operators, firstOutside, outside⟩ := segmentation
  -- on the links from the right: the cut is at the last operator, and what is before it is cut again
  induction links using List.reverseRecOn with
  | nil =>
    rw [List.flatMap_nil, List.append_nil]
    exact cut_of_none _ _ firstOutside
  | append_singleton links link ih =>
    obtain ⟨earlier, last⟩ := List.forall_mem_append.1 operators
    obtain ⟨earlierOutside, lastOutside⟩ := List.forall_mem_append.1 outside
    obtain ⟨operator, segment⟩ := link
    have shape : first ++ (links ++ [(operator, segment)]).flatMap (fun link => link.1 :: link.2) =
        (first ++ links.flatMap fun link => link.1 :: link.2) ++ operator :: segment := by simp
    rw [shape, cut_append _ _ _ _ (by simpa using last) (by simpa using lastOutside),
      ih earlier earlierOutside, List.foldl_append]
    rfl

end Segmentation

/-- Every list has one segmentation by the operators of a class, and cutting it is the fold that joins
    the segments from the left: as an operand a single phrase is itself, and any other list is a group. -/
theorem cut_eq_foldl_join (connectives : List Connective) (phrases : List Phrase) :
    (∃ first links, Segmentation connectives phrases first links ∧
      (∀ first' links', Segmentation connectives phrases first' links' →
        first' = first ∧ links' = links) ∧
      cut connectives phrases = links.foldl join first) ∧
    (∀ phrase, operand [phrase] = phrase) ∧ operand [] = .group [] ∧
    ∀ first second rest, operand (first :: second :: rest) = .group (first :: second :: rest) := by
  refine ⟨?_, operand_singleton, rfl, fun _ _ _ => rfl⟩
  obtain ⟨first, links, segmentation⟩ := Segmentation.exists_segmentation connectives phrases
  refine ⟨first, links, segmentation, ?_, segmentation.cut_eq⟩
  intro first' links' segmentation'
  exact segmentation.unique segmentation'

-- a lone operator after an empty segment is left as an operand without its own
example : cut [.binary .or] [.operator (.binary .or) 0, .operator .not 1, .operator (.binary .or) 2,
    .word "a", .word "b"] =
    [.group [.group [], .operator (.binary .or) 0, .operator .not 1], .operator (.binary .or) 2,
      .group [.word "a", .word "b"]] := by rfl

/-! ## Nothing left to cut -/

/-- A list has no operator of the class, or is one between two phrases that are none. -/
def IsCut (connectives : List Connective) (phrases : List Phrase) : Prop :=
  (∀ phrase ∈ phrases, phrase.isOperatorIn connectives = false) ∨
    ∃ left operator right, phrases = [left, operator, right] ∧
      operator.isOperatorIn connectives = true ∧
      left.isOperatorIn connectives = false ∧ right.isOperatorIn connectives = false

/-- Every list inside phrases has nothing left to cut. -/
def IsSplit (connectives : List Connective) (phrases : List Phrase) : Prop :=
  ∀ inner, Within inner phrases → IsCut connectives inner

/-- What becomes an operand is no operator of the class, as it would have been cut out. -/
theorem IsCut.isOperatorIn_operand (isCut : IsCut connectives phrases) :
    (operand phrases).isOperatorIn connectives = false := by
  by_cases single : phrases.length = 1
  · obtain ⟨phrase, rfl⟩ := List.length_eq_one_iff.1 single
    rcases isCut with none | ⟨left, operator, right, triple, -⟩
    · exact none phrase (.head _)
    · simp at triple
  · rw [operand_of_length_ne _ single, isOperatorIn_group]

theorem IsCut.cut_eq (isCut : IsCut connectives phrases) : cut connectives phrases = phrases := by
  rcases isCut with none | ⟨left, operator, right, rfl, inClass, leftOut, rightOut⟩
  · exact cut_of_none _ _ none
  · have shape : [left, operator, right] = [left] ++ operator :: [right] := rfl
    rw [shape, cut_append _ _ _ _ inClass (by simpa using rightOut),
      cut_of_none _ [left] (by simpa using leftOut)]
    rfl

theorem Within.of_operand {inner members : List Phrase} (within : Within inner members)
    (same : operand phrases = .group members) : Within inner phrases := by
  by_cases single : phrases.length = 1
  · obtain ⟨phrase, rfl⟩ := List.length_eq_one_iff.1 single
    rw [operand_singleton] at same
    exact .group (same ▸ .head _) within
  · rw [operand_of_length_ne _ single, group.injEq] at same
    rwa [same]

theorem IsSplit.of_group {members : List Phrase} (isSplit : IsSplit connectives phrases)
    (member : .group members ∈ phrases) : IsSplit connectives members :=
  fun inner within => isSplit inner (.group member within)

theorem isSplit_of_isCut (isCut : IsCut connectives phrases)
    (inside : ∀ members, .group members ∈ phrases → IsSplit connectives members) :
    IsSplit connectives phrases := by
  intro inner within
  cases within with
  | whole => exact isCut
  | group member within => exact inside _ member inner within

/-- If nothing is left to cut inside the groups of a list, nothing is left after it is cut. -/
theorem isSplit_cut (inside : ∀ members, .group members ∈ phrases → IsSplit connectives members) :
    IsSplit connectives (cut connectives phrases) := by
  induction size : phrases.length using Nat.strongRecOn generalizing phrases with
  | ind size shorter =>
    subst size
    rcases none_or_last connectives phrases with none | ⟨left, operator, right, rfl, inClass, last⟩
    · rw [cut_of_none _ _ none]
      exact isSplit_of_isCut (.inl none) inside
    · -- the part on the left is cut again, the one on the right has no operator of the class
      have leftSplit : IsSplit connectives (cut connectives left) :=
        shorter left.length (by simp) (fun members member => inside members (by simp [member])) rfl
      have rightSplit : IsSplit connectives right :=
        isSplit_of_isCut (.inl last) fun members member => inside members (by simp [member])
      rw [cut_append _ _ _ _ inClass last]
      apply isSplit_of_isCut
      · exact .inr ⟨_, _, _, rfl, inClass, (leftSplit _ (.whole _)).isOperatorIn_operand,
          (rightSplit _ (.whole _)).isOperatorIn_operand⟩
      · intro members member inner within
        -- the operator is no group, so the group is one of the operands
        obtain ⟨connective, offset, rfl⟩ := eq_operator_of_isOperatorIn inClass
        rcases List.mem_cons.1 member with same | member
        · exact leftSplit inner (within.of_operand same.symm)
        · have same : operand right = .group members := by simpa [eq_comm] using member
          exact rightSplit inner (within.of_operand same)

theorem sizeOf_members_lt {members : List Phrase} (member : .group members ∈ phrases) :
    sizeOf members < sizeOf phrases := by
  have inside := List.sizeOf_lt_of_mem member
  rw [group.sizeOf_spec] at inside
  omega

/-- After a pass nothing is left to cut in any list. -/
theorem isSplit_split (connectives : List Connective) (phrases : List Phrase) :
    IsSplit connectives (split connectives phrases) := by
  rw [split_eq_cut]
  apply isSplit_cut
  intro members member
  obtain ⟨phrase, inside, settled⟩ := List.mem_map.1 member
  cases phrase with
  | word name => simp at settled
  | operator connective offset => simp at settled
  | group original =>
    have smaller := sizeOf_members_lt inside
    obtain rfl : split connectives original = members := by simpa [splitBy_cons] using settled
    exact isSplit_split connectives original
termination_by sizeOf phrases

theorem IsSplit.split_eq {phrases : List Phrase} (isSplit : IsSplit connectives phrases) :
    split connectives phrases = phrases := by
  have settled : ∀ phrase ∈ phrases, settle [connectives] phrase = phrase := by
    intro phrase member
    cases phrase with
    | word name => rfl
    | operator connective offset => rfl
    | group members =>
      have smaller := sizeOf_members_lt member
      rw [settle_group, splitBy_cons, splitBy_nil, (isSplit.of_group member).split_eq]
  rw [split_eq_cut, List.map_congr_left settled, List.map_id', (isSplit _ (.whole _)).cut_eq]
termination_by sizeOf phrases

/-- A pass changes nothing exactly where nothing is left to cut. -/
theorem split_eq_self_iff : split connectives phrases = phrases ↔ IsSplit connectives phrases := by
  constructor
  · intro same
    rw [← same]
    exact isSplit_split connectives phrases
  · intro isSplit
    exact isSplit.split_eq

/-- A pass leaves nothing to cut in any list, and so a second pass of the class changes nothing. -/
theorem split_normal_form (connectives : List Connective) (phrases : List Phrase) :
    IsSplit connectives (split connectives phrases) ∧
      split connectives (split connectives phrases) = split connectives phrases := by
  have isSplit := isSplit_split connectives phrases
  exact ⟨isSplit, split_eq_self_iff.2 isSplit⟩

end Phrase

end Sentential
