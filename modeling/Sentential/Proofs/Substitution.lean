import Sentential.Formula.Eval
import Sentential.Proofs.Listing
import Sentential.Proofs.Parentheses

/-! # Replacing a word by a text

In a text that is a formula, a word may be replaced by another formula in parentheses, wherever the
word stands.  The new text is again a formula, and its value is that of the old one with the value of
the inserted formula given to the word (`Formula.parse_substituteWord`).

The parentheses keep the inserted text apart from what stands next to it, so its lexemes come in between
those of the old text (`lexemes_substituteWord`).  If its own parentheses are balanced, then every lexeme
of the old text keeps its balance, and those of the inserted text stand above the word that they
replace.  In the phrases of a formula no group stands next to a word.  So the inserted group does not
run into another one: where the old entries list phrases that the grammar derives, the new ones list
the same phrases with a group in place of the word (`Derivation.exists_substituted`).
-/

namespace Sentential

/-! ## In a formula -/

namespace Formula

def substitute (name : String) (inner : Formula) : Formula → Formula
  | .atom other => if other = name then inner else .atom other
  | .not operand => .not (substitute name inner operand)
  | .binary op left right => .binary op (substitute name inner left) (substitute name inner right)

theorem eval_substitute (valuation : Valuation) (name : String) (inner formula : Formula) :
    (substitute name inner formula).eval valuation =
      formula.eval (valuation.bind name (inner.eval valuation)) := by
  induction formula with
  | atom other =>
    rw [substitute]
    by_cases same : other = name
    · simp [same, eval, Valuation.value, Valuation.bind]
    · simp [same, eval, Valuation.value, Valuation.bind]
  | not operand ih => rw [substitute, eval, eval, ih]
  | binary op left right leftIh rightIh => rw [substitute, eval, eval, leftIh, rightIh]

end Formula

/-! ## In a text -/

/-- The characters in front of a place, which is counted in bytes. -/
def charsBefore (place : Nat) : List Char → List Char
  | [] => []
  | c :: rest => if c.utf8Size ≤ place then c :: charsBefore (place - c.utf8Size) rest else []

def charsFrom (place : Nat) : List Char → List Char
  | [] => []
  | c :: rest => if c.utf8Size ≤ place then charsFrom (place - c.utf8Size) rest else c :: rest

/-- A text with other characters in place of each word of a name, from its first byte to its last.  The
    last word is replaced first, so that the places of the others do not change. -/
def replaceWords (name : String) (replacement : List Char) (tokens : List Token) (text : List Char) :
    List Char :=
  tokens.foldr
    (fun token text =>
      if token.lexeme = .word name then
        charsBefore token.offset text ++ replacement ++
          charsFrom (token.offset + byteLength name.toList) text
      else text)
    text

/-- A text with another one in parentheses in place of each word of a name. -/
def substituteWord (name inner text : String) : String :=
  String.ofList (replaceWords name ('(' :: inner.toList ++ [')']) (Token.scan text) text.toList)

theorem charsBefore_append (front rest : List Char) :
    charsBefore (byteLength front) (front ++ rest) = front := by
  induction front with
  | nil =>
    cases rest with
    | nil => rfl
    | cons c rest =>
      have positive := c.utf8Size_pos
      simp [charsBefore, byteLength]
      omega
  | cons c front ih =>
    have length : byteLength (c :: front) = c.utf8Size + byteLength front := rfl
    rw [List.cons_append, charsBefore, length, if_pos (Nat.le_add_right _ _), Nat.add_sub_cancel_left, ih]

theorem charsFrom_append (front rest : List Char) :
    charsFrom (byteLength front) (front ++ rest) = rest := by
  induction front with
  | nil =>
    cases rest with
    | nil => rfl
    | cons c rest =>
      have positive := c.utf8Size_pos
      simp [charsFrom, byteLength]
      omega
  | cons c front ih =>
    have length : byteLength (c :: front) = c.utf8Size + byteLength front := rfl
    rw [List.cons_append, charsFrom, length, if_pos (Nat.le_add_right _ _), Nat.add_sub_cancel_left, ih]

/-- What stands between the characters before a word and those behind it is replaced. -/
theorem splice_word (name replacement front rest : List Char) :
    charsBefore (byteLength front) (front ++ (name ++ rest)) ++ replacement ++
        charsFrom (byteLength front + byteLength name) (front ++ (name ++ rest)) =
      front ++ (replacement ++ rest) := by
  have behind := charsFrom_append (front ++ name) rest
  rw [byteLength_append, List.append_assoc] at behind
  rw [charsBefore_append, behind, List.append_assoc]

/-! ## In the lexemes -/

def Lexeme.substitute (name : String) (inner : List Lexeme) (lexeme : Lexeme) : List Lexeme :=
  if lexeme = .word name then .openParen :: inner ++ [.closeParen] else [lexeme]

theorem ofRun_eq_word {run : List Char} {name : String} (word : Lexeme.ofRun run = .word name) :
    run = name.toList := by
  rw [Lexeme.ofRun] at word
  split at word
  · simp at word
  · obtain rfl := Lexeme.word.inj word
    rw [String.toList_ofList]

theorem lexemes_parens (inner rest : List Char) :
    lexemes ('(' :: inner ++ [')'] ++ rest) =
      .openParen :: lexemes inner ++ [.closeParen] ++ lexemes rest := by
  have opened : isWordChar '(' = false := by decide
  have closed : isWordChar ')' = false := by decide
  have shape : '(' :: inner ++ [')'] ++ rest = '(' :: (inner ++ ')' :: rest) := by simp
  rw [shape, lexemes_single opened, lexemes_append_single inner closed, lexemes_single closed]
  simp [Lexeme.ofChar?]

theorem exists_replaced (name : String) (inner text : List Char) :
    ∃ replaced,
      (∀ front, replaceWords name ('(' :: inner ++ [')'])
        (Token.scanFrom (byteLength front) text) (front ++ text) = front ++ replaced) ∧
      ((∀ c ∈ text.head?, isWordChar c = false) → ∀ c ∈ replaced.head?, isWordChar c = false) ∧
      lexemes replaced = (lexemes text).flatMap (Lexeme.substitute name (lexemes inner)) := by
  -- Along the pieces, with what is in front of the text left open: places count from the beginning.  The
  -- second part is for the run before, which must not go on into what replaces the rest.
  induction text using piece_induction with
  | nil => exact ⟨[], fun front => rfl, fun _ => by simp, rfl⟩
  | single c rest alone ih =>
    obtain ⟨replaced, spliced, -, said⟩ := ih
    refine ⟨c :: replaced, fun front => ?_, fun _ => by simpa using alone, ?_⟩
    · have later := spliced (front ++ [c])
      rw [byteLength_append, List.append_assoc, List.append_assoc] at later
      rw [Token.scanFrom_single _ alone]
      cases read : Lexeme.ofChar? c with
      | none => exact later
      | some lexeme =>
        have noWord : lexeme ≠ .word name := fun word => ofChar?_ne_word c name (word ▸ read)
        exact (if_neg noWord).trans later
    · rw [lexemes_single alone, lexemes_single alone, List.flatMap_append, said]
      cases read : Lexeme.ofChar? c with
      | none => rfl
      | some lexeme =>
        have noWord : lexeme ≠ .word name := fun word => ofChar?_ne_word c name (word ▸ read)
        simp [Lexeme.substitute, noWord]
  | run run rest nonempty word ends ih =>
    obtain ⟨replaced, spliced, ends', said⟩ := ih
    have notFirst : ¬ ∀ c ∈ (run ++ rest).head?, isWordChar c = false := by
      intro first
      obtain ⟨c, others, rfl⟩ := List.exists_cons_of_ne_nil nonempty
      have wordChar := word c (.head _)
      rw [first c rfl] at wordChar
      exact nomatch wordChar
    -- the words in the rest are replaced before this one
    have later (front : List Char) :
        replaceWords name ('(' :: inner ++ [')']) (Token.scanFrom (byteLength front + byteLength run) rest)
          (front ++ (run ++ rest)) = front ++ (run ++ replaced) := by
      have after := spliced (front ++ run)
      rwa [byteLength_append, List.append_assoc, List.append_assoc] at after
    by_cases named : Lexeme.ofRun run = .word name
    · obtain rfl := ofRun_eq_word named
      refine ⟨'(' :: inner ++ [')'] ++ replaced, fun front => ?_, fun first => absurd first notFirst, ?_⟩
      · rw [Token.scanFrom_run _ nonempty word ends, replaceWords, List.foldr_cons, if_pos named,
          ← replaceWords, later]
        exact splice_word name.toList _ front replaced
      · rw [lexemes_parens, said, lexemes_run nonempty word ends, List.flatMap_cons,
          Lexeme.substitute, if_pos named]
    · refine ⟨run ++ replaced, fun front => ?_, fun first => absurd first notFirst, ?_⟩
      · rw [Token.scanFrom_run _ nonempty word ends, replaceWords, List.foldr_cons, if_neg named]
        exact later front
      · rw [lexemes_run nonempty word (ends' ends), said, lexemes_run nonempty word ends,
          List.flatMap_cons, Lexeme.substitute, if_neg named]
        rfl

theorem lexemes_substituteWord (name inner text : String) :
    lexemes (substituteWord name inner text).toList =
      (lexemes text.toList).flatMap (Lexeme.substitute name (lexemes inner.toList)) := by
  obtain ⟨replaced, spliced, -, said⟩ := exists_replaced name inner.toList text.toList
  have whole : replaceWords name ('(' :: inner.toList ++ [')']) (Token.scan text) text.toList = replaced :=
    spliced []
  rw [substituteWord, whole, String.toList_ofList, said]

/-! ## In the entries -/

open Token (weigh unplaced net shift)

/-- What stands for an entry when the words of a name are replaced by entries, which begin at the
    ground: they are raised above the word. -/
def substituteEntry (name : String) (inner : List (Token × Int)) (entry : Token × Int) :
    List (Token × Int) :=
  if entry.1.lexeme = .word name then shift (entry.2 + 1) inner else [entry]

theorem weigh_substitute (name : String) (inner : List Lexeme) (balanced : net (unplaced inner) = 0)
    (lexemes : List Lexeme) (balance : Int) :
    weigh balance (unplaced (lexemes.flatMap (Lexeme.substitute name inner))) =
      (weigh balance (unplaced lexemes)).flatMap (substituteEntry name (weigh 0 (unplaced inner))) := by
  induction lexemes generalizing balance with
  | nil => rfl
  | cons lexeme rest ih =>
    have parens : unplaced (.openParen :: inner ++ [.closeParen]) =
        ⟨.openParen, 0⟩ :: unplaced inner ++ [⟨.closeParen, 0⟩] := by simp [unplaced]
    rw [List.flatMap_cons, Token.unplaced_append, Token.weigh_append, ih, Lexeme.substitute]
    by_cases named : lexeme = .word name
    · -- the inserted lexemes end at the balance at which they begin, so the rest keeps its balances
      obtain rfl := named
      have raised : weigh balance (⟨.openParen, 0⟩ :: unplaced inner ++ [⟨.closeParen, 0⟩]) =
          shift (balance + 1) (weigh 0 (unplaced inner)) := by
        rw [List.cons_append, weigh, Token.weigh_append, ← Token.weigh_add]
        simp [weigh]
      rw [if_pos rfl, parens, Token.net_of_parens, balanced, Int.add_zero, raised]
      simp [unplaced, weigh, substituteEntry]
    · rw [if_neg named]
      cases lexeme with
      | word other =>
        have different : other ≠ name := by simpa using named
        simp [unplaced, weigh, substituteEntry, net, different]
      | operator connective => simp [unplaced, weigh, substituteEntry, net]
      | openParen => simp [unplaced, weigh, net]
      | closeParen => simp [unplaced, weigh, net, Int.sub_eq_add_neg]

theorem ground_substitute (name : String) {inner entries : List (Token × Int)} (nonempty : inner ≠ [])
    (innerGround : ∀ entry ∈ inner, 0 ≤ entry.2) (ground : ∀ entry ∈ entries.head?, 0 ≤ entry.2) :
    ∀ entry ∈ (entries.flatMap (substituteEntry name inner)).head?, 0 ≤ entry.2 := by
  cases entries with
  | nil => simp
  | cons entry rest =>
    have above : 0 ≤ entry.2 := ground entry rfl
    rw [List.flatMap_cons, substituteEntry]
    split
    · obtain ⟨first, others, rfl⟩ := List.exists_cons_of_ne_nil nonempty
      have firstAbove := innerGround first (.head _)
      simp [shift]
      omega
    · simpa using above

/-! ## In the phrases -/

namespace Listed

theorem cut_operator {balance : Int} {first second : List Phrase} {entries : List (Token × Int)}
    {connective : Connective} {offset : Nat}
    (listed : Listed balance (first ++ .operator connective offset :: second) entries) :
    ∃ before after, entries = before ++ (⟨.operator connective, offset⟩, balance) :: after ∧
      Listed balance first before ∧ Listed balance second after := by
  induction first generalizing entries with
  | nil =>
    cases listed with
    | operator connective offset later => exact ⟨[], _, rfl, .nil, later⟩
  | cons phrase rest ih =>
    cases listed with
    | word name place later =>
      obtain ⟨before, after, rfl, front, back⟩ := ih later
      exact ⟨_ :: before, after, rfl, front.word name place, back⟩
    | operator connective' place later =>
      obtain ⟨before, after, rfl, front, back⟩ := ih later
      exact ⟨_ :: before, after, rfl, front.operator connective' place, back⟩
    | group nonempty innerListed apart later =>
      obtain ⟨before, after, rfl, front, back⟩ := ih later
      refine ⟨_ ++ before, after, by simp, .group nonempty innerListed ?_ front, back⟩
      cases rest with
      | nil => simp
      | cons next rest => simpa using apart

end Listed

/-- Where a word in a derivable list is replaced by a group, the list is still derivable, and listed by the
    entries in which the word is replaced. -/
theorem Derivation.exists_substituted {rungs : List (List BinaryOp)} {phrases : List Phrase}
    (derivation : Derivation rungs phrases) (name : String) {innerPhrases : List Phrase}
    {innerEntries : List (Token × Int)} {innerFormula : Formula}
    (inner : Listed 0 innerPhrases innerEntries)
    (innerDerives : Derives ladder innerPhrases innerFormula) :
    ∃ phrases', Derives rungs phrases' (Formula.substitute name innerFormula derivation.formula) ∧
      ∀ balance entries, Listed balance phrases entries →
        Listed balance phrases' (entries.flatMap (substituteEntry name innerEntries)) := by
  induction derivation with
  | word other =>
    by_cases same : other = name
    · -- the word is the whole list here, so the group that replaces it has no neighbour
      obtain ⟨innerDerivation, derived⟩ := innerDerives
      refine ⟨[.group innerPhrases], ⟨.group innerDerivation, ?_⟩, fun balance entries listed => ?_⟩
      · simp [formula, derived, Formula.substitute, same]
      · cases listed with
        | word other offset later =>
          cases later
          have raised := inner.shift (balance + 1)
          rw [Int.zero_add] at raised
          simpa [substituteEntry, same] using
            Listed.group innerDerivation.ne_nil raised (by simp) .nil
    · refine ⟨[.word other], ⟨.word other, by simp [formula, Formula.substitute, same]⟩,
        fun balance entries listed => ?_⟩
      cases listed with
      | word other offset later =>
        cases later
        simpa [substituteEntry, same] using Listed.word other offset .nil
  | group members ih =>
    obtain ⟨phrases', ⟨derivation', derived⟩, lists⟩ := ih
    refine ⟨[.group phrases'], ⟨.group derivation', derived⟩, fun balance entries listed => ?_⟩
    cases listed with
    | group nonempty innerListed apart later =>
      cases later
      simpa using Listed.group derivation'.ne_nil (lists _ _ innerListed) (by simp) .nil
  | negation offset operand ih =>
    obtain ⟨phrases', ⟨derivation', derived⟩, lists⟩ := ih
    refine ⟨.operator .not offset :: phrases', ⟨.negation offset derivation', ?_⟩,
      fun balance entries listed => ?_⟩
    · rw [formula, derived, formula, Formula.substitute]
    · cases listed with
      | operator connective offset later =>
        simpa [substituteEntry] using (lists _ _ later).operator .not offset
  | join op offset inOps left right leftIh rightIh =>
    obtain ⟨left', ⟨leftDerivation, leftDerived⟩, leftLists⟩ := leftIh
    obtain ⟨right', ⟨rightDerivation, rightDerived⟩, rightLists⟩ := rightIh
    refine ⟨left' ++ .operator (.binary op) offset :: right',
      ⟨.join op offset inOps leftDerivation rightDerivation, ?_⟩, fun balance entries listed => ?_⟩
    · rw [formula, leftDerived, rightDerived, formula, Formula.substitute]
    · obtain ⟨before, after, rfl, front, back⟩ := listed.cut_operator
      have behind := (rightLists _ _ back).operator (.binary op) offset
      simpa [substituteEntry] using (leftLists _ _ front).append_operator behind
  | descend lower ih =>
    obtain ⟨phrases', ⟨derivation', derived⟩, lists⟩ := ih
    exact ⟨phrases', ⟨derivation'.descend, derived⟩, lists⟩

/-! ## The law -/

namespace Formula

/-- Words may be replaced by what is a formula with balanced parentheses itself.  The result is the
    formula with the atoms replaced, and has the value that the formula has when the name is given the
    value of the inserted one. -/
theorem parse_substituteWord (text inner name : String) (formula innerFormula : Formula)
    (read : parse text = .ok formula) (innerRead : parse inner = .ok innerFormula)
    (balanced : Balanced inner.toList) :
    parse (substituteWord name inner text) = .ok (substitute name innerFormula formula) ∧
      ∀ valuation : Valuation, (substitute name innerFormula formula).eval valuation =
        formula.eval (valuation.bind name (innerFormula.eval valuation)) := by
  refine ⟨?_, fun valuation => eval_substitute valuation name innerFormula formula⟩
  rw [parse_eq_ok_iff] at read innerRead ⊢
  have noParens (lexemes : List Lexeme) :
      ∀ entry ∈ weigh 0 (unplaced lexemes), entry.1.lexeme.isParen = false :=
    fun _ member => (Token.mem_of_mem_weigh member).2
  -- the inserted entries list their phrases from the ground on
  have innerListed := Layout.listed_ofEntries (noParens (lexemes inner.toList))
    fun entry first => balanced.ground entry (List.mem_of_mem_head? first)
  have innerFloor : (Layout.ofEntries (weigh 0 (unplaced (lexemes inner.toList)))).floor = 0 :=
    Layout.floor_foldl_read balanced.ground
  rw [innerFloor] at innerListed
  obtain ⟨ground, floor, phrases, listed, derivation, rfl⟩ :=
    (ofEntries_eq_ok_iff (noParens (lexemes text.toList))).1 read
  obtain ⟨phrases', derives, lists⟩ :=
    derivation.exists_substituted name innerListed (derives_of_ofEntries innerRead)
  rw [lexemes_substituteWord, weigh_substitute _ _ balanced.net_eq_zero]
  refine ofEntries_of_listed (lists floor _ listed) derives (ground_substitute name ?_ balanced.ground ground)
  obtain ⟨innerDerivation, -⟩ := derives_of_ofEntries innerRead
  exact innerListed.entries_ne_nil innerDerivation.ne_nil

/-- In a text that closes more than it opens, a word may be replaced by a formula that mentions it. -/
theorem parse_substituteWord_unbalanced :
    parse "p ∧ q) ∨ p" = .ok (.binary .or (.binary .and (.atom "p") (.atom "q")) (.atom "p")) ∧
      parse "p → r" = .ok (.binary .implies (.atom "p") (.atom "r")) ∧
      Balanced "p → r".toList ∧
      substituteWord "p" "p → r" "p ∧ q) ∨ p" = "(p → r) ∧ q) ∨ (p → r)" ∧
      parse "(p → r) ∧ q) ∨ (p → r)" =
        .ok (.binary .or (.binary .and (.binary .implies (.atom "p") (.atom "r")) (.atom "q"))
          (.binary .implies (.atom "p") (.atom "r"))) := by
  have outer : parse "p ∧ q) ∨ p" =
      .ok (.binary .or (.binary .and (.atom "p") (.atom "q")) (.atom "p")) := by decide +kernel
  have inserted : parse "p → r" = .ok (.binary .implies (.atom "p") (.atom "r")) := by
    decide +kernel
  have balanced : Balanced "p → r".toList := by
    have none (front : List Char) (begins : front <+: "p → r".toList) : front.count ')' = 0 :=
      List.count_eq_zero.2 fun member => absurd (begins.subset member) (by decide)
    exact ⟨fun front begins => by simp [none front begins], by decide⟩
  have text : substituteWord "p" "p → r" "p ∧ q) ∨ p" = "(p → r) ∧ q) ∨ (p → r)" := by
    decide +kernel
  have read := (parse_substituteWord _ _ "p" _ _ outer inserted balanced).1
  rw [text] at read
  exact ⟨outer, inserted, balanced, text, read⟩

end Formula

end Sentential
