import Sentential.Proofs.Listing
import Sentential.Proofs.MissingOperands
import Sentential.Proofs.Parentheses
import Sentential.Proofs.Rejection
import Sentential.Proofs.Spans
import Mathlib.Data.List.Infix

/-! # Dangling connectives

A connective too many, before or behind a text that is a formula, is reported at its own place.

Behind a derivable list a binary connective may bind looser than some of the operators in it and tighter
than others.  It is then split off at its own layer, in the rightmost operand of the looser ones, where
it has a left operand and lacks a right one (`Derivation.lacks_append`).  Before the list it stands in
the leftmost operand in the same way (`Derivation.lacks_cons`).  A negation is never split off: at the end
of the rightmost operand of all it has nothing to negate, and the check finds two phrases there
(`Derivation.ofLayer_append_negation`).  In every case what is to the left of that operand is a formula,
and so there is nothing to report before.

In a text with balanced parentheses what is added stands at the ground, beside the phrases of the text.
-/

namespace Sentential

open Phrase

/-! ## In the phrases -/

namespace Derivation

open Formula

variable {rungs : List (List BinaryOp)} {phrases : List Phrase}

theorem isMissing_operand_append (derivation : Derivation rungs phrases) (phrase : Phrase) :
    (operand (phrases ++ [phrase])).isMissing = false := by
  obtain ⟨first, rest, rfl⟩ := List.exists_cons_of_ne_nil derivation.ne_nil
  cases rest <;> rfl

theorem isMissing_operand_cons (derivation : Derivation rungs phrases) (phrase : Phrase) :
    (operand (phrase :: phrases)).isMissing = false := by
  obtain ⟨first, rest, rfl⟩ := List.exists_cons_of_ne_nil derivation.ne_nil
  rfl

/-- A binary connective behind a derivable list lacks its right operand. -/
theorem lacks_append (derivation : Derivation rungs phrases) {op : BinaryOp} (place : Nat)
    (inRungs : op ∈ rungs.flatten) : Lacks place rungs (phrases ++ [.operator (.binary op) place]) := by
  induction derivation with
  | word name => simp at inRungs
  | group inner _ => simp at inRungs
  | negation offset inner _ => simp at inRungs
  | @join ops rungs left right op' offset inOps leftTree rightTree _ rightIh =>
    by_cases here : op ∈ ops
    · exact .here here (.tree (.join op' offset inOps leftTree rightTree)) (.nothing (.inl rfl))
        (.inr (.inl rfl))
    · -- the connective binds tighter, and goes with the right operand
      have later : op ∈ rungs.flatten := by simpa [here] using inRungs
      rw [List.append_assoc, List.cons_append]
      exact .inRight offset inOps leftTree (rightTree.isMissing_operand_append _) (rightIh later)
  | @descend ops rungs phrases inner ih =>
    by_cases here : op ∈ ops
    · exact .here here (.tree inner.descend) (.nothing (.inl rfl)) (.inr (.inl rfl))
    · have later : op ∈ rungs.flatten := by simpa [here] using inRungs
      exact .descend (ih later)

/-- A binary connective before a derivable list lacks its left operand. -/
theorem lacks_cons (derivation : Derivation rungs phrases) {op : BinaryOp} (place : Nat)
    (inRungs : op ∈ rungs.flatten) : Lacks place rungs (.operator (.binary op) place :: phrases) := by
  induction derivation with
  | word name => simp at inRungs
  | group inner _ => simp at inRungs
  | negation offset inner _ => simp at inRungs
  | @join ops rungs left right op' offset inOps leftTree rightTree leftIh _ =>
    -- the connective goes with the left operand, which is cut again in the same layer
    exact .inLeft offset inOps (leftTree.isMissing_operand_cons _) (leftIh inRungs) rightTree
  | @descend ops rungs phrases inner ih =>
    by_cases here : op ∈ ops
    · exact .here here (.nothing (.inl rfl)) (.tree inner) (.inl (.inl rfl))
    · have later : op ∈ rungs.flatten := by simpa [here] using inRungs
      exact .descend (ih later)

theorem ofLayer_last_append_negation (derivation : Derivation [] phrases) (place : Nat) :
    ofLayer ladder [] (phrases ++ [.operator .not place]) = .error (.malformedUnary (some place)) := by
  obtain ⟨phrase, bound, inner⟩ := derivation.exists_bound_operand
  have two : bindNegations (phrases ++ [.operator .not place]) = [phrase, .operator .not place] := by
    rw [bindNegations_append _ _ derivation.getLast?_ne_negation, bound, bindNegations_cons,
      bindNegations_nil, attach_nil, bindNegation_operator]
    rfl
  rw [ofLayer_last, two, List.map_cons, List.map_cons, List.map_nil,
    ofMembers_pair _ _ ((isOperator_settle precedenceClasses phrase).trans inner)]
  rfl

/-- A negation behind a derivable list is reported as a negation without an operand. -/
theorem ofLayer_append_negation (derivation : Derivation rungs phrases) (place : Nat)
    (done : List (List BinaryOp)) (whole : done ++ rungs = ladder) :
    ofLayer done rungs (phrases ++ [.operator .not place]) = .error (.malformedUnary (some place)) := by
  have last {phrases : List Phrase} (derivation : Derivation [] phrases) {done : List (List BinaryOp)}
      (whole : done ++ [] = ladder) :
      ofLayer done [] (phrases ++ [.operator .not place]) = .error (.malformedUnary (some place)) := by
    obtain rfl : done = ladder := by simpa using whole
    exact derivation.ofLayer_last_append_negation place
  induction derivation generalizing done with
  | word name => exact last (.word name) whole
  | group inner _ => exact last (.group inner) whole
  | negation offset inner _ => exact last (.negation offset inner) whole
  | @join ops rungs left right op offset inOps leftTree rightTree _ rightIh =>
    have below : ∀ op offset, .operator (.binary op) offset ∈ right ++ [.operator .not place] →
        op ∈ rungs.flatten := by
      intro op offset member
      exact rightTree.op_mem_rungs (by simpa using member)
    have cut : CutAt ops left op offset (right ++ [.operator .not place]) :=
      .of_below (nodup_of_append_eq_ladder whole) inOps leftTree.getLast?_ne_negation below
    rw [List.append_assoc, List.cons_append,
      ofLayer_join done rungs cut (isMissing_side done ops leftTree.isMissing_operand)
        (isMissing_side done ops (rightTree.isMissing_operand_append _)),
      leftTree.ofLayer_eq_ok done whole, rightIh (done ++ [ops]) (by simpa using whole)]
    rfl
  | @descend ops rungs phrases inner ih =>
    have below : ∀ op offset, .operator (.binary op) offset ∈ phrases ++ [.operator .not place] →
        op ∈ rungs.flatten := by
      intro op offset member
      exact inner.op_mem_rungs (by simpa using member)
    rw [ofLayer_descend _ _ _ _ (inert_of_op_mem_rungs (nodup_of_append_eq_ladder whole) below)]
    exact ih (done ++ [ops]) (by simpa using whole)

end Derivation

/-! ## In the text -/

open Token (weigh scanFrom)

theorem scanFrom_symbol (offset : Nat) (connective : Connective) (rest : List Char) :
    scanFrom offset (connective.symbol :: rest) =
      ⟨.operator connective, offset⟩ :: scanFrom (offset + connective.symbol.utf8Size) rest := by
  have single := IsSingle.operator connective
  rw [Token.scanFrom_single _ single.isWordChar_eq_false, single.ofChar?_eq]
  rfl

theorem scan_push_symbol (text : String) (connective : Connective) :
    Token.scan (text.push connective.symbol) =
      Token.scan text ++ [⟨.operator connective, text.utf8ByteSize⟩] := by
  have size : byteLength text.toList = text.utf8ByteSize := by
    rw [← utf8ByteSize_ofList, String.ofList_toList]
  have alone := (IsSingle.operator connective).isWordChar_eq_false
  rw [Token.scan_eq_scanFrom, String.toList_push, Token.scanFrom_append_single _ _ alone, scanFrom_symbol,
    Token.scanFrom_nil, Nat.zero_add, size, Token.scan_eq_scanFrom]

namespace Formula

/-- Entries at the ground are read as the phrases that they list. -/
theorem ofEntries_of_listed_ground {phrases : List Phrase} {entries : List (Token × Int)}
    (listed : Listed 0 phrases entries) : ofEntries entries = ofPhrases phrases := by
  rw [ofEntries, Layout.ofEntries, Layout.empty, listed.foldl_read [] (.inl (by simp)), List.nil_append]

/-- A formula whose parentheses are balanced lists a derivable list at the ground, wherever it stands. -/
theorem exists_listed_ground {text : String} {formula : Formula} (read : parse text = .ok formula)
    (balanced : Balanced text.toList) (offset : Nat) :
    ∃ phrases, Nonempty (Derivation ladder phrases) ∧
      Listed 0 phrases (weigh 0 (scanFrom offset text.toList)) := by
  rw [parse_eq_ok_iff, ← ofEntries_scanFrom_eq_ok_iff offset] at read
  obtain ⟨derivation, -⟩ := derives_of_ofEntries read
  have ground := balanced.ground_scanFrom offset
  have listed := Layout.listed_ofEntries (fun _ member => (Token.mem_of_mem_weigh member).2)
    fun entry first => ground entry (List.mem_of_mem_head? first)
  have floor : (Layout.ofEntries (weigh 0 (scanFrom offset text.toList))).floor = 0 :=
    Layout.floor_foldl_read ground
  rw [floor] at listed
  exact ⟨_, ⟨derivation⟩, listed⟩

theorem parse_push_symbol {text : String} {phrases : List Phrase} (balanced : Balanced text.toList)
    (listed : Listed 0 phrases (weigh 0 (scanFrom 0 text.toList))) (connective : Connective) :
    parse (text.push connective.symbol) =
      ofPhrases (phrases ++ [.operator connective text.utf8ByteSize]) := by
  have entries : weigh 0 (Token.scan (text.push connective.symbol)) =
      weigh 0 (scanFrom 0 text.toList) ++ [(⟨.operator connective, text.utf8ByteSize⟩, 0)] := by
    rw [scan_push_symbol, Token.weigh_append, Token.scan_eq_scanFrom, balanced.net_scanFrom]
    rfl
  have behind : Listed 0 [.operator connective text.utf8ByteSize]
      [(⟨.operator connective, text.utf8ByteSize⟩, 0)] := .operator _ _ .nil
  rw [parse, ofTokens_eq_ofEntries, entries, ofEntries_of_listed_ground (listed.append_operator behind)]

theorem parse_symbol_append {text : String} {phrases : List Phrase} (connective : Connective)
    (listed : Listed 0 phrases (weigh 0 (scanFrom connective.symbol.utf8Size text.toList))) :
    parse (String.singleton connective.symbol ++ text) =
      ofPhrases (.operator connective 0 :: phrases) := by
  have entries : weigh 0 (Token.scan (String.singleton connective.symbol ++ text)) =
      (⟨.operator connective, 0⟩, 0) :: weigh 0 (scanFrom connective.symbol.utf8Size text.toList) := by
    rw [Token.scan_eq_scanFrom, String.toList_append, String.toList_singleton, List.singleton_append,
      scanFrom_symbol, Nat.zero_add]
    rfl
  rw [parse, ofTokens_eq_ofEntries, entries, ofEntries_of_listed_ground (listed.operator connective 0)]

/-- A symbol of a connective at an end of a formula with balanced parentheses is reported at its place: a
    binary connective as one, before or behind the formula, and a negation behind it as one. -/
theorem parse_dangling {text : String} {formula : Formula} (read : parse text = .ok formula)
    (balanced : Balanced text.toList) :
    (∀ op : BinaryOp,
      parse (text.push op.symbol) = .error (.malformedBinary (some text.utf8ByteSize)) ∧
      parse (String.singleton op.symbol ++ text) = .error (.malformedBinary (some 0))) ∧
    parse (text.push Connective.not.symbol) = .error (.malformedUnary (some text.utf8ByteSize)) := by
  obtain ⟨phrases, ⟨derivation⟩, listed⟩ := exists_listed_ground read balanced 0
  refine ⟨fun op => ⟨?_, ?_⟩, ?_⟩
  · have lacks := derivation.lacks_append text.utf8ByteSize (op_mem_ladder op)
    have behind := parse_push_symbol balanced listed (.binary op)
    rw [ofPhrases_eq_ofLayer, lacks.ofLayer_eq_error [] rfl] at behind
    exact behind
  · -- behind the connective the tokens of the text stand further on
    obtain ⟨phrases, ⟨derivation⟩, listed⟩ := exists_listed_ground read balanced op.symbol.utf8Size
    have lacks := derivation.lacks_cons 0 (op_mem_ladder op)
    have before := parse_symbol_append (.binary op) listed
    rw [ofPhrases_eq_ofLayer, lacks.ofLayer_eq_error [] rfl] at before
    exact before
  · rw [parse_push_symbol balanced listed, ofPhrases_eq_ofLayer,
      derivation.ofLayer_append_negation _ [] rfl]

/-- The connective behind the formula binds tighter than the last operator of it. -/
theorem parse_dangling_conjunction :
    parse "¬(p ∧ q) ↔ r" = .ok (.binary .iff (.not (.binary .and (.atom "p") (.atom "q"))) (.atom "r")) ∧
      Balanced "¬(p ∧ q) ↔ r".toList ∧
      parse "¬(p ∧ q) ↔ r∧" = .error (.malformedBinary (some 17)) ∧
      parse "∧¬(p ∧ q) ↔ r" = .error (.malformedBinary (some 0)) ∧
      parse "¬(p ∧ q) ↔ r¬" = .error (.malformedUnary (some 17)) := by
  have read : parse "¬(p ∧ q) ↔ r" =
      .ok (.binary .iff (.not (.binary .and (.atom "p") (.atom "q"))) (.atom "r")) := by
    decide +kernel
  have balanced : Balanced "¬(p ∧ q) ↔ r".toList := by
    have above : ∀ front ∈ "¬(p ∧ q) ↔ r".toList.inits, front.count ')' ≤ front.count '(' := by decide
    exact ⟨fun front begins => above front ((List.mem_inits _ _).2 begins), by decide⟩
  obtain ⟨binary, negation⟩ := parse_dangling read balanced
  exact ⟨read, balanced, (binary .and).1, (binary .and).2, negation⟩

end Formula

end Sentential
