import Sentential.Connective
import Sentential.Text.LowerCase

/-! # Letter case of whole words

The lower case form of a text in ASCII is that of its letters one by one (`lowerAfter_of_ascii`).  No
other character has a letter of an alias in its lower case form, except beside characters that no alias
has (`exists_foreign`).  So for aliases the letter case of ASCII is the letter case of Unicode
(`ofAlias?_eq_ofText?`).
-/

namespace Sentential

namespace Text

def IsAscii (c : Char) : Prop := c.toNat < 0x80

/-! ## Characters of ASCII -/

theorem ascii_forall {p : Char → Prop} (each : ∀ code < 0x80, p (Char.ofNat code)) {c : Char}
    (ascii : IsAscii c) : p c := by
  have here := each c.toNat ascii
  rwa [Char.ofNat_toNat] at here

theorem lowerBetween_of_ascii (before after : List Char) {c : Char} (ascii : IsAscii c) :
    lowerBetween before c after = [c.toLower] := by
  obtain ⟨noSigma, noDottedI, lower⟩ : c ≠ 'Σ' ∧ c ≠ 'İ' ∧ lowerChar c = c.toLower :=
    ascii_forall (p := fun c => c ≠ 'Σ' ∧ c ≠ 'İ' ∧ lowerChar c = c.toLower) (by decide +kernel) ascii
  rw [lowerBetween, if_neg noSigma, if_neg noDottedI, lower]

theorem lowerAfter_of_ascii (before : List Char) {text : List Char} (ascii : ∀ c ∈ text, IsAscii c) :
    lowerAfter before text = text.map Char.toLower := by
  induction text generalizing before with
  | nil => rfl
  | cons c rest ih =>
    rw [List.forall_mem_cons] at ascii
    rw [lowerAfter, lowerBetween_of_ascii _ _ ascii.1, ih _ ascii.2]
    rfl

/-! ## Other characters -/

/-- No range takes a character outside ASCII into ASCII, except that of the Kelvin sign. -/
theorem lowerCaseRanges_apart : ∀ range ∈ lowerCaseRanges,
    range.last < 0x80 ∨ 0x80 ≤ range.first + range.shift ∨
      range.first = 0x212a ∧ range.last = 0x212a ∧ range.shift = -8383 := by
  decide +kernel

theorem not_isAscii_or_eq_zero {code : Nat} (large : 0x80 ≤ code) :
    ¬ IsAscii (Char.ofNat code) ∨ Char.ofNat code = Char.ofNat 0 := by
  by_cases valid : code.isValidChar
  · left
    have code' : (Char.ofNat code).toNat = code := by
      rw [Char.ofNat, dif_pos valid]
      rfl
    rw [IsAscii, code']
    omega
  · right
    rw [Char.ofNat, dif_neg valid]
    rfl

theorem toLower_of_not_isAscii {c : Char} (foreign : ¬ IsAscii c) : c.toLower = c := by
  have notUpper : ¬ (c.val ≥ 'A'.val ∧ c.val ≤ 'Z'.val) := by
    rintro ⟨-, upper⟩
    have code : c.toNat ≤ 0x5a := upper
    rw [IsAscii] at foreign
    omega
  exact dif_neg notUpper

/-- The lower case form of a character outside ASCII is not in ASCII, or one of two characters. -/
theorem lowerChar_apart {c : Char} (foreign : ¬ IsAscii c) :
    ¬ IsAscii (lowerChar c) ∨ lowerChar c = Char.ofNat 0 ∨ lowerChar c = 'k' := by
  rw [IsAscii, Nat.not_lt] at foreign
  rw [lowerChar]
  cases found : lowerCaseRanges.find? fun range => range.contains c.toNat with
  | none => exact .inl (by simpa [IsAscii] using foreign)
  | some range =>
    have inside := List.find?_some found
    simp only [CaseRange.contains, Bool.and_eq_true, decide_eq_true_eq] at inside
    rcases lowerCaseRanges_apart range (List.mem_of_find?_eq_some found) with small | large |
      ⟨first, last, shift⟩
    · omega
    · have result : 0x80 ≤ (c.toNat + range.shift).toNat := by omega
      rcases not_isAscii_or_eq_zero result with apart | zero
      · exact .inl apart
      · exact .inr (.inl zero)
    · have kelvin : c.toNat = 0x212a := by omega
      simp only [kelvin, shift]
      exact .inr (.inr rfl)

end Text

namespace Connective

open Text

/-- The connective that a text is an alias of, in any letter case that Unicode knows. -/
def ofText? (text : String) : Option Connective :=
  aliases.lookup (lowerCase text)

def aliasLetters : List Char :=
  aliases.flatMap fun entry => entry.1.toList

theorem aliasLetters_ascii : ∀ c ∈ aliasLetters, c.toNat < 0x80 ∧ c ≠ Char.ofNat 0 ∧ c ≠ 'k' := by
  have checked : (aliasLetters.all fun c => c.toNat < 0x80 && c != Char.ofNat 0 && c != 'k') = true := by
    decide
  intro c member
  simpa [and_assoc] using List.all_eq_true.1 checked c member

theorem not_mem_aliasLetters {c : Char}
    (apart : ¬ IsAscii c ∨ c = Char.ofNat 0 ∨ c = 'k') : c ∉ aliasLetters := by
  intro member
  obtain ⟨ascii, notZero, notK⟩ := aliasLetters_ascii c member
  rcases apart with foreign | zero | k
  · exact foreign ascii
  · exact notZero zero
  · exact notK k

theorem exists_foreign_between (before after : List Char) {c : Char} (foreign : ¬ IsAscii c) :
    ∃ letter ∈ lowerBetween before c after, letter ∉ aliasLetters := by
  rw [lowerBetween]
  split
  · split
    · exact ⟨'ς', by simp, by decide⟩
    · exact ⟨'σ', by simp, by decide⟩
  · split
    · exact ⟨'\u0307', by simp, by decide⟩
    · exact ⟨lowerChar c, by simp, not_mem_aliasLetters (lowerChar_apart foreign)⟩

/-- A text with a character outside ASCII has one in its lower case form that no alias has. -/
theorem exists_foreign (before : List Char) {text : List Char} {c : Char} (member : c ∈ text)
    (foreign : ¬ IsAscii c) : ∃ letter ∈ lowerAfter before text, letter ∉ aliasLetters := by
  induction text generalizing before with
  | nil => simp at member
  | cons head rest ih =>
    rw [lowerAfter]
    rcases List.mem_cons.1 member with rfl | later
    · obtain ⟨letter, inside, apart⟩ := exists_foreign_between before rest foreign
      exact ⟨letter, List.mem_append_left _ inside, apart⟩
    · obtain ⟨letter, inside, apart⟩ := ih (head :: before) later
      exact ⟨letter, List.mem_append_right _ inside, apart⟩

theorem lookup_aliases_eq_none {word : List Char} {letter : Char} (member : letter ∈ word)
    (foreign : letter ∉ aliasLetters) : aliases.lookup (String.ofList word) = none := by
  rw [List.lookup_eq_none_iff]
  intro entry listed
  rw [bne_iff_ne]
  intro same
  apply foreign
  rw [aliasLetters, List.mem_flatMap]
  exact ⟨entry, listed, by simpa [← same] using member⟩

/-- A word is an alias exactly when its lower case form is listed, whatever its characters. -/
theorem ofAlias?_eq_ofText? (word : List Char) : ofAlias? word = ofText? (String.ofList word) := by
  rw [ofAlias?, ofText?, lowerCase, String.toList_ofList]
  by_cases ascii : ∀ c ∈ word, IsAscii c
  · rw [lowerAfter_of_ascii _ ascii]
  · -- neither form is listed: each has a character that no alias has
    obtain ⟨c, member, foreign⟩ : ∃ c ∈ word, ¬ IsAscii c := by simpa using ascii
    obtain ⟨letter, inside, apart⟩ := exists_foreign [] member foreign
    rw [lookup_aliases_eq_none inside apart, lookup_aliases_eq_none (List.mem_map_of_mem member)]
    rw [toLower_of_not_isAscii foreign]
    exact not_mem_aliasLetters (.inl foreign)

end Connective

end Sentential
