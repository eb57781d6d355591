import Sentential.Proofs.Acceptance
import Sentential.Proofs.RelativeDepth
import Sentential.Proofs.Spelling

/-! # Reading undoes writing

The parentheses of a spelling are balanced, so the phrases that it is meant to have can be read off
its words and operators at their balances (`Listed`).  Such phrases have no empty group, and no group
right after another: those could not be told from other phrases by the balances alone.  The layout of
the entries is then exactly the phrases (`Listed.foldl_read`), and the grammar derives them, along the
spelling, with the spelled formula as the syntax tree (`Spells.exists_derivation`).
-/

namespace Sentential

/-! ## Phrases at their balances -/

/-- The words and operators of phrases, each at the balance where it stands. -/
inductive Listed : Int → List Phrase → List (Token × Int) → Prop
  | nil {balance : Int} : Listed balance [] []
  | word {balance : Int} {phrases : List Phrase} {entries : List (Token × Int)} (name : String)
      (offset : Nat) : Listed balance phrases entries →
        Listed balance (.word name :: phrases) ((⟨.word name, offset⟩, balance) :: entries)
  | operator {balance : Int} {phrases : List Phrase} {entries : List (Token × Int)}
      (connective : Connective) (offset : Nat) : Listed balance phrases entries →
        Listed balance (.operator connective offset :: phrases)
          ((⟨.operator connective, offset⟩, balance) :: entries)
  | group {balance : Int} {members phrases : List Phrase} {inner entries : List (Token × Int)} :
      members ≠ [] → Listed (balance + 1) members inner →
        (∀ members', phrases.head? ≠ some (.group members')) → Listed balance phrases entries →
          Listed balance (.group members :: phrases) (inner ++ entries)

namespace Listed

theorem entries_ne_nil {balance : Int} {phrases : List Phrase} {entries : List (Token × Int)}
    (listed : Listed balance phrases entries) (nonempty : phrases ≠ []) : entries ≠ [] := by
  induction listed with
  | nil => exact absurd rfl nonempty
  | word name offset later ih => simp
  | operator connective offset later ih => simp
  | group innerNonempty inner apart later innerIh ih =>
    exact fun empty => innerIh innerNonempty (List.append_eq_nil_iff.1 empty).1

/-- What is listed are words and operators, and none stands below the phrases. -/
theorem entry_above {balance : Int} {phrases : List Phrase} {entries : List (Token × Int)}
    (listed : Listed balance phrases entries) :
    ∀ entry ∈ entries, balance ≤ entry.2 ∧ entry.1.lexeme.isParen = false := by
  induction listed with
  | nil => simp
  | word name offset later ih => exact List.forall_mem_cons.2 ⟨⟨Int.le_refl _, rfl⟩, ih⟩
  | operator connective offset later ih =>
    exact List.forall_mem_cons.2 ⟨⟨Int.le_refl _, rfl⟩, ih⟩
  | group nonempty inner apart later innerIh ih =>
    intro entry member
    rcases List.mem_append.1 member with inside | behind
    · obtain ⟨above, noParen⟩ := innerIh entry inside
      exact ⟨by omega, noParen⟩
    · exact ih entry behind

theorem append_operator {balance : Int} {first second : List Phrase}
    {entries entries' : List (Token × Int)} {connective : Connective} {offset : Nat}
    (listed : Listed balance first entries)
    (listed' : Listed balance (.operator connective offset :: second) entries') :
    Listed balance (first ++ .operator connective offset :: second) (entries ++ entries') := by
  induction listed with
  | nil => exact listed'
  | word name offset later ih => exact (ih listed').word name offset
  | operator connective offset later ih => exact (ih listed').operator connective offset
  | @group balance members phrases inner entries nonempty innerListed apart later innerIh ih =>
    rw [List.append_assoc]
    refine .group nonempty innerListed ?_ (ih listed')
    cases phrases with
    | nil => simp
    | cons phrase rest => simpa using apart

end Listed

/-! ## The layout of listed phrases -/

namespace Layout

theorem read_group (floor : Int) (front members : List Phrase) (entry : Token × Int)
    (above : floor < entry.2) :
    read ⟨front ++ [.group members], floor⟩ entry =
      ⟨front ++ [.group (read ⟨members, floor + 1⟩ entry).context], floor⟩ := by
  obtain ⟨token, balance⟩ := entry
  have noMore : (floor - balance).toNat = 0 := by omega
  have noMoreInside : (floor + 1 - balance).toNat = 0 := by omega
  have depth : (balance - floor).toNat = (balance - (floor + 1)).toNat + 1 := by omega
  rcases read_cases token with ⟨phrase, inserted⟩ | ⟨-, passed⟩
  · rw [inserted, inserted]
    simp [insert, put, lower, noMore, noMoreInside, Phrase.wrap, depth, Phrase.insertAt_succ_group]
  · rw [passed, passed]

theorem floor_read_of_le (layout : Layout) (entry : Token × Int) (above : layout.floor ≤ entry.2) :
    (layout.read entry).floor = layout.floor := by
  obtain ⟨token, balance⟩ := entry
  have noMore : (layout.floor - balance).toNat = 0 := by omega
  rcases read_cases token with ⟨phrase, inserted⟩ | ⟨-, passed⟩
  · rw [inserted]
    simp [insert, put, lower, noMore]
  · rw [passed]

theorem foldl_read_group (floor : Int) (front members : List Phrase) (entries : List (Token × Int))
    (above : ∀ entry ∈ entries, floor < entry.2) :
    entries.foldl read ⟨front ++ [.group members], floor⟩ =
      ⟨front ++ [.group (entries.foldl read ⟨members, floor + 1⟩).context], floor⟩ := by
  induction entries generalizing members with
  | nil => rfl
  | cons entry rest ih =>
    obtain ⟨here, later⟩ := List.forall_mem_cons.1 above
    have inside : read ⟨members, floor + 1⟩ entry =
        ⟨(read ⟨members, floor + 1⟩ entry).context, floor + 1⟩ := by
      have floorKept := floor_read_of_le ⟨members, floor + 1⟩ entry here
      exact congrArg (Layout.mk _) floorKept
    rw [List.foldl_cons, List.foldl_cons, read_group _ _ _ _ here, ih _ later, ← inside]

/-- Where no group stands at the end, an entry above the floor opens one. -/
theorem read_opens (floor : Int) (context : List Phrase) (entry : Token × Int)
    (above : floor < entry.2) (noParen : entry.1.lexeme.isParen = false)
    (noGroup : ∀ members, context.getLast? ≠ some (.group members)) :
    read ⟨context, floor⟩ entry = read ⟨context ++ [.group []], floor⟩ entry := by
  obtain ⟨token, balance⟩ := entry
  obtain ⟨phrase, inserted⟩ := exists_phrase noParen
  have noMore : (floor - balance).toNat = 0 := by omega
  have depth : (balance - floor).toNat = (balance - (floor + 1)).toNat + 1 := by omega
  rw [inserted, inserted]
  simp [insert, put, lower, noMore, Phrase.wrap, depth, Phrase.insertAt_succ_group,
    Phrase.insertAt_succ_of_not_group phrase _ context noGroup]

end Layout

/-- The layout of listed entries is the phrases that they list, after what is there already. -/
theorem Listed.foldl_read {balance : Int} {phrases : List Phrase} {entries : List (Token × Int)}
    (listed : Listed balance phrases entries) (context : List Phrase)
    (apart : (∀ members, context.getLast? ≠ some (.group members)) ∨
      ∀ members, phrases.head? ≠ some (.group members)) :
    entries.foldl Layout.read ⟨context, balance⟩ = ⟨context ++ phrases, balance⟩ := by
  induction listed generalizing context with
  | nil => simp
  | @word balance phrases entries name offset later ih =>
    have first : Layout.read ⟨context, balance⟩ (⟨.word name, offset⟩, balance) =
        ⟨context ++ [.word name], balance⟩ := by
      simp [Layout.read, Layout.insert, Layout.put, Layout.lower, Phrase.wrap, Phrase.insertAt]
    rw [List.foldl_cons, first, ih _ (.inl (by simp))]
    simp
  | @operator balance phrases entries connective offset later ih =>
    have first : Layout.read ⟨context, balance⟩ (⟨.operator connective, offset⟩, balance) =
        ⟨context ++ [.operator connective offset], balance⟩ := by
      simp [Layout.read, Layout.insert, Layout.put, Layout.lower, Phrase.wrap, Phrase.insertAt]
    rw [List.foldl_cons, first, ih _ (.inl (by simp))]
    simp
  | @group balance members phrases inner entries nonempty innerListed next later innerIh ih =>
    have noGroup : ∀ members, context.getLast? ≠ some (.group members) := by
      rcases apart with noGroup | noGroup
      · exact noGroup
      · exact absurd rfl (noGroup members)
    have above : ∀ entry ∈ inner, balance < entry.2 :=
      fun entry member => (innerListed.entry_above entry member).1
    -- the first entry of the group opens it, and so nothing is lost by opening it before
    have opened : inner.foldl Layout.read ⟨context, balance⟩ =
        inner.foldl Layout.read ⟨context ++ [.group []], balance⟩ := by
      have innerNonempty := innerListed.entries_ne_nil nonempty
      cases inner with
      | nil => exact absurd rfl innerNonempty
      | cons entry rest =>
        have noParen := (innerListed.entry_above entry (.head _)).2
        rw [List.foldl_cons, List.foldl_cons,
          Layout.read_opens _ _ _ (above entry (.head _)) noParen noGroup]
    rw [List.foldl_append, opened, Layout.foldl_read_group _ _ _ _ above,
      innerIh [] (.inl (by simp)), List.nil_append, ih _ (.inr next)]
    simp

/-! ## Spellings have a derivation -/

def Derives (rungs : List (List BinaryOp)) (phrases : List Phrase) (formula : Formula) : Prop :=
  ∃ derivation : Derivation rungs phrases, derivation.formula = formula

namespace Derives

variable {phrases left right : List Phrase} {formula first second : Formula}

/-- What can stand where only the tighter connectives may, can stand where more of them may. -/
theorem loosen {tight loose : Nat} (derives : Derives (ladder.drop tight) phrases formula)
    (less : loose ≤ tight) (bound : tight ≤ 4) : Derives (ladder.drop loose) phrases formula := by
  obtain ⟨count, rfl⟩ := Nat.exists_eq_add_of_le less
  induction count with
  | zero => exact derives
  | succ count ih =>
    apply ih _ (Nat.le_add_right _ _) (by omega)
    -- each layer contains the next
    have rung : ladder.drop (loose + count) =
        ladder[loose + count] :: ladder.drop (loose + count + 1) :=
      List.drop_eq_getElem_cons (by simp [ladder]; omega)
    obtain ⟨derivation, rfl⟩ := derives
    rw [rung]
    exact ⟨derivation.descend, rfl⟩

theorem join {op : BinaryOp} (offset : Nat) (leftDerives : Derives (ladder.drop op.tightness) left first)
    (rightDerives : Derives (ladder.drop (op.tightness + 1)) right second) :
    Derives (ladder.drop op.tightness) (left ++ .operator (.binary op) offset :: right)
      (.binary op first second) := by
  obtain ⟨ops, rung, inOps⟩ : ∃ ops,
      ladder.drop op.tightness = ops :: ladder.drop (op.tightness + 1) ∧ op ∈ ops := by
    cases op <;> exact ⟨_, rfl, by decide⟩
  rw [rung] at leftDerives ⊢
  obtain ⟨leftDerivation, rfl⟩ := leftDerives
  obtain ⟨rightDerivation, rfl⟩ := rightDerives
  exact ⟨.join op offset inOps leftDerivation rightDerivation, rfl⟩

end Derives

theorem BinaryOp.tightness_lt (op : BinaryOp) : op.tightness < 4 := by
  cases op <;> decide

namespace Token

theorem net_of_operator (connective : Connective) (offset : Nat) (rest : List Token) :
    net (⟨.operator connective, offset⟩ :: rest) = net rest := by
  simp [net]

theorem net_of_parens (tokens : List Token) (offset offset' : Nat) :
    net (⟨.openParen, offset⟩ :: tokens ++ [⟨.closeParen, offset'⟩]) = net tokens := by
  rw [net_append, net_cons, net_openParen, net_closeParen]
  omega

end Token

open Token in
/-- The tokens of a spelling are balanced, and list phrases that derive the formula. -/
theorem Spells.exists_derivation {level : Nat} {formula : Formula} {lexemes : List Lexeme}
    (spells : Spells level formula lexemes) (bound : level ≤ 4) (tokens : List Token)
    (same : tokens.map Token.lexeme = lexemes) :
    net tokens = 0 ∧ ∃ phrases, Derives (ladder.drop level) phrases formula ∧
      ∀ balance, Listed balance phrases (weigh balance tokens) := by
  induction spells generalizing tokens with
  | atom name =>
    obtain ⟨⟨_, offset⟩, rfl, rfl⟩ := List.map_eq_singleton_iff.1 same
    have derives : Derives (ladder.drop 4) [.word name] (.atom name) := ⟨.word name, rfl⟩
    exact ⟨rfl, _, derives.loosen bound (Nat.le_refl _), fun balance => .word name offset .nil⟩
  | @not level operand lexemes inner ih =>
    obtain ⟨⟨_, offset⟩, rest, rfl, rfl, rested⟩ := List.map_eq_cons_iff.1 same
    obtain ⟨balanced, phrases, ⟨derivation, rfl⟩, listed⟩ := ih (Nat.le_refl _) rest rested
    have derives : Derives (ladder.drop 4) (.operator .not offset :: phrases)
        (.not derivation.formula) := ⟨.negation offset derivation, rfl⟩
    refine ⟨by rw [net_of_operator, balanced], _, derives.loosen bound (Nat.le_refl _), ?_⟩
    exact fun balance => (listed balance).operator .not offset
  | @binary level op left right before after looser leftSpells rightSpells leftIh rightIh =>
    have tightness := op.tightness_lt
    obtain ⟨leftTokens, others, rfl, leftSame, othersSame⟩ := List.map_eq_append_iff.1 same
    obtain ⟨⟨_, offset⟩, rightTokens, rfl, rfl, rightSame⟩ := List.map_eq_cons_iff.1 othersSame
    -- the left operand is of the layer of the connective, the right one of the next
    obtain ⟨leftBalanced, leftPhrases, leftDerives, leftListed⟩ :=
      leftIh (by omega) leftTokens leftSame
    obtain ⟨rightBalanced, rightPhrases, rightDerives, rightListed⟩ :=
      rightIh (by omega) rightTokens rightSame
    refine ⟨?_, _, (leftDerives.join offset rightDerives).loosen looser (by omega), ?_⟩
    · rw [net_append, net_of_operator, leftBalanced, rightBalanced, Int.add_zero]
    · intro balance
      rw [weigh_append, leftBalanced, Int.add_zero]
      exact (leftListed balance).append_operator ((rightListed balance).operator _ offset)
  | @parens level formula lexemes inner ih =>
    obtain ⟨opened, closed, rfl, openedSame, closedSame⟩ := List.map_eq_append_iff.1 same
    obtain ⟨⟨_, offset⟩, tokens, rfl, rfl, innerSame⟩ := List.map_eq_cons_iff.1 openedSame
    obtain ⟨⟨_, offset'⟩, rfl, rfl⟩ := List.map_eq_singleton_iff.1 closedSame
    obtain ⟨balanced, phrases, ⟨derivation, rfl⟩, listed⟩ := ih (Nat.zero_le _) tokens innerSame
    -- what stands in parentheses begins at the first layer again
    have derives : Derives (ladder.drop 4) [.group phrases] derivation.formula :=
      ⟨.group derivation, rfl⟩
    refine ⟨by rw [net_of_parens, balanced], _, derives.loosen bound (Nat.le_refl _), ?_⟩
    intro balance
    have entries : weigh balance (⟨.openParen, offset⟩ :: tokens ++ [⟨.closeParen, offset'⟩]) =
        weigh (balance + 1) tokens ++ [] := by
      rw [List.cons_append, weigh]
      exact weigh_append _ _ _
    rw [entries]
    exact .group derivation.ne_nil (listed _) (by simp) .nil

theorem Spells.word_mem_names {level : Nat} {formula : Formula} {lexemes : List Lexeme}
    (spells : Spells level formula lexemes) {name : String} (member : .word name ∈ lexemes) :
    name ∈ formula.names := by
  induction spells with
  | atom name' => simpa [Formula.names] using member
  | not inner ih => exact ih (by simpa using member)
  | binary looser left right leftIh rightIh =>
    rw [Formula.names, List.mem_append]
    rcases List.mem_append.1 member with inLeft | inRight
    · exact .inl (leftIh inLeft)
    · exact .inr (rightIh (by simpa using inRight))
  | parens inner ih => exact ih (by simpa using member)

/-! ## Reading a text that spells a formula -/

def Formula.SpelledBy (formula : Formula) (text : String) : Prop :=
  ∃ lexemes, Spells 0 formula lexemes ∧ Writes false lexemes text.toList

theorem Formula.parse_of_spelledBy {formula : Formula} {text : String}
    (named : ∀ name ∈ formula.names, IsName name) (spelled : formula.SpelledBy text) :
    parse text = .ok formula := by
  obtain ⟨lexemes, spells, writes⟩ := spelled
  have tokens := writes.lexemes_scan fun name member => named name (spells.word_mem_names member)
  obtain ⟨-, phrases, derives, listed⟩ := spells.exists_derivation (Nat.zero_le _) _ tokens
  have layout : (Layout.ofEntries (Token.weigh 0 (Token.scan text))).context = phrases := by
    rw [Layout.ofEntries, Layout.empty, (listed 0).foldl_read [] (.inl (by simp)), List.nil_append]
  rw [parse, ofTokens_eq_ofPhrases_layout, layout, ofPhrases_eq_ok_iff]
  exact derives

theorem Formula.isName_of_mem_names {text : String} {formula : Formula} (read : parse text = .ok formula)
    {name : String} (member : name ∈ formula.names) : IsName name := by
  rw [parse, ofTokens_eq_ofEntries] at read
  obtain ⟨entry, inEntries, word⟩ := word_of_mem_names read member
  exact isName_of_mem_scan (Token.mem_of_mem_weigh inEntries).1 word

open Phrase in
/-- Reading undoes writing: from any text that spells a formula with proper names, that formula is
    read, and its listing stored.  And the names of all formulas that are read are proper. -/
theorem Formula.parse_undoes_spelling :
    (∀ (formula : Formula) (text : String), (∀ name ∈ formula.names, IsName name) →
      formula.SpelledBy text →
        parse text = .ok formula ∧
        storePhrase (.group (splitAll (bindNegations (nest (Token.scan text))))) [] =
          .ok (formula.postorder 0, formula.size - 1)) ∧
    ∀ (text : String) (formula : Formula), parse text = .ok formula →
      ∀ name ∈ formula.names, IsName name := by
  constructor
  · intro formula text named spelled
    have read : parse text = .ok formula := parse_of_spelledBy named spelled
    have phrases : ofPhrases (nest (Token.scan text)) = .ok formula := read
    refine ⟨read, ?_⟩
    rw [storePhrase_group_eq_map, phrases, Except.map, store_eq_postorder]
    simp
  · intro text formula read name member
    exact isName_of_mem_names read member

theorem parse_undoes_spelling_or_implies :
    Formula.SpelledBy (.binary .or (.atom "p") (.binary .implies (.not (.atom "q")) (.atom "r")))
        "p Or ((¬q) -> r)" ∧
      Formula.parse "p Or ((¬q) -> r)" =
        .ok (.binary .or (.atom "p") (.binary .implies (.not (.atom "q")) (.atom "r"))) := by
  have named : ∀ name ∈ ["p", "q", "r"], IsName name := by
    have checked : ∀ name ∈ ["p", "q", "r"], name ≠ "" ∧
        name.toList.all isWordChar = true ∧ Connective.ofAlias? name.toList = none := by
      decide
    intro name member
    obtain ⟨nonempty, wordChars, noAlias⟩ := checked name member
    rw [List.all_eq_true] at wordChars
    exact ⟨nonempty, fun c inside => (isWordChar_iff c).1 (wordChars c inside), noAlias⟩
  have spells : Spells 0
      (.binary .or (.atom "p") (.binary .implies (.not (.atom "q")) (.atom "r")))
      [.word "p", .operator (.binary .or), .openParen, .openParen, .operator .not, .word "q",
        .closeParen, .operator (.binary .implies), .word "r", .closeParen] :=
    .binary (by decide) (.atom "p")
      (.parens (.binary (by decide) (.parens (.not (.atom "q"))) (.atom "r")))
  have letters : IsRun (.operator (.binary .or)) ['O', 'r'] :=
    @IsRun.operator "or" _ _ (by decide) (by decide)
  have arrow : IsRun (.operator (.binary .implies)) ['-', '>'] :=
    @IsRun.operator "->" _ _ (by decide) (by decide)
  have writes : Writes false
      [.word "p", .operator (.binary .or), .openParen, .openParen, .operator .not, .word "q",
        .closeParen, .operator (.binary .implies), .word "r", .closeParen]
      "p Or ((¬q) -> r)".toList :=
    .run (.name "p") <| .blank (by decide) <| .run letters <| .blank (by decide) <|
      .single .openParen <| .single .openParen <| .single (.operator .not) <| .run (.name "q") <|
        .single .closeParen <| .blank (by decide) <| .run arrow <| .blank (by decide) <|
          .run (.name "r") <| .single .closeParen .nil
  have spelled : Formula.SpelledBy
      (.binary .or (.atom "p") (.binary .implies (.not (.atom "q")) (.atom "r")))
      "p Or ((¬q) -> r)" := ⟨_, spells, writes⟩
  exact ⟨spelled, (Formula.parse_undoes_spelling.1 _ _ (by exact named) spelled).1⟩

end Sentential
