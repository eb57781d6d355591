import Sentential.Proofs.Dangling
import Sentential.Proofs.Leaves
import Sentential.Proofs.RoundTrip

/-! # Reading a linear form

In order a formula ends in a word: behind every connective there is an operand.  Reading a text keeps the
words and operators as they stand, so a text that is a formula has a word as the last of them, and no
text that ends in the symbol of a connective is a formula (`exists_error_push_symbol`), whatever the
rest of it says.

A linear form has its connectives behind their operands, with nothing between the parts.  Names side by
side are scanned as one, even as the alias of a connective, so what stands before the last symbol may be
anything.  But the symbol is there, unless the formula is an atom.
-/

namespace Sentential

namespace Formula

/-! ## The last word -/

theorem exists_inOrder_eq_append_word (formula : Formula) :
    ∃ front name, formula.inOrder = front ++ [.word name] := by
  induction formula with
  | atom name => exact ⟨[], name, rfl⟩
  | not operand ih =>
    obtain ⟨front, name, ends⟩ := ih
    exact ⟨.operator .not :: front, name, by rw [inOrder, ends, List.cons_append]⟩
  | binary op left right _ rightIh =>
    obtain ⟨front, name, ends⟩ := rightIh
    refine ⟨left.inOrder ++ .operator (.binary op) :: front, name, ?_⟩
    rw [inOrder, ends, List.append_assoc, List.cons_append]

/-- A text that ends in the symbol of a connective is no formula. -/
theorem exists_error_push_symbol (text : String) (connective : Connective) :
    ∃ error, parse (text.push connective.symbol) = .error error := by
  cases read : parse (text.push connective.symbol) with
  | error error => exact ⟨error, rfl⟩
  | ok formula =>
    -- the symbol would be the last that the formula says in order
    have walked := inOrder_of_parse read
    obtain ⟨front, name, ends⟩ := formula.exists_inOrder_eq_append_word
    rw [ends, scan_push_symbol, List.filterMap_append, List.map_append] at walked
    have last : [Lexeme.word name] = [.operator connective] := List.append_inj_right' walked rfl
    simp at last

/-! ## Linear forms -/

theorem parse_name {name : String} (named : IsName name) : parse name = .ok (.atom name) := by
  have writes : Writes false [.word name] (name.toList ++ []) := .run (.name name) .nil
  rw [List.append_nil] at writes
  exact parse_of_spelledBy (List.forall_mem_singleton.2 named) ⟨[.word name], .atom name, writes⟩

theorem exists_linearForm_eq_push {formula : Formula} (compound : ∀ name, formula ≠ .atom name) :
    ∃ (text : String) (connective : Connective),
      formula.linearForm = text.push connective.symbol := by
  cases formula with
  | atom name => exact absurd rfl (compound name)
  | not operand => exact ⟨operand.linearForm, .not, rfl⟩
  | binary op left right => exact ⟨left.linearForm ++ right.linearForm, .binary op, rfl⟩

/-- The linear form of a formula that is read can be read again only if the formula is an atom, and then
    it is that atom.  That of a formula with a connective is no formula. -/
theorem parse_linearForm {text : String} {formula : Formula} (read : parse text = .ok formula) :
    ((∃ formula', parse formula.linearForm = .ok formula') ↔ ∃ name, formula = .atom name) ∧
    (∀ name, formula = .atom name → parse formula.linearForm = .ok formula) ∧
    ((∃ node ∈ formula.nodes, node.connective? ≠ none) →
      ∃ error, parse formula.linearForm = .error error) := by
  have atom (name : String) (isAtom : formula = .atom name) : parse formula.linearForm = .ok formula := by
    subst isAtom
    exact parse_name (isName_of_mem_names read (.head _))
  have compound (isCompound : ∀ name, formula ≠ .atom name) :
      ∃ error, parse formula.linearForm = .error error := by
    obtain ⟨front, connective, ends⟩ := exists_linearForm_eq_push isCompound
    rw [ends]
    exact exists_error_push_symbol front connective
  refine ⟨⟨fun ⟨formula', again⟩ => ?_, fun ⟨name, isAtom⟩ => ⟨formula, atom name isAtom⟩⟩, atom, ?_⟩
  · by_contra isCompound
    obtain ⟨error, failed⟩ := compound fun name isAtom => isCompound ⟨name, isAtom⟩
    rw [again] at failed
    cases failed
  · rintro ⟨node, member, connective⟩
    refine compound fun name isAtom => ?_
    -- the only node of an atom has no connective
    subst isAtom
    obtain rfl : node = .atom name := List.mem_singleton.1 member
    exact connective rfl

/-- The two names and the symbol come together as a disjunction and a conjunction without operands. -/
theorem parse_linearForm_alias :
    parse "o ∧ r" = .ok (.binary .and (.atom "o") (.atom "r")) ∧
      linearForm (.binary .and (.atom "o") (.atom "r")) = "or∧" ∧
      (∃ error, parse "or∧" = .error error) ∧
      parse "((or1))" = .ok (.atom "or1") ∧
      parse "or1" = .ok (.atom "or1") := by
  have read : parse "o ∧ r" = .ok (.binary .and (.atom "o") (.atom "r")) := by decide +kernel
  have readAtom : parse "((or1))" = .ok (.atom "or1") := by decide +kernel
  have refused := (parse_linearForm read).2.2 ⟨.binary .and 0 1, by decide, by decide⟩
  have kept := (parse_linearForm readAtom).2.1 "or1" rfl
  exact ⟨read, rfl, refused, readAtom, kept⟩

end Formula

end Sentential
