import Sentential.Proofs.LetterCase
import Sentential.Proofs.Scanning

/-! # What the tokens cover

Every character of a text that is no blank belongs to exactly one token, and every token stands for a
stretch of the text: a single character, or a run of word characters that cannot be made longer on
either side.  The pieces of a text tile it (`tiles_scanFrom`), and the stretches of the tokens are read
off the tiles (`Tiles.exists_stretches`).
-/

namespace Sentential

theorem utf8ByteSize_ofList (text : List Char) : (String.ofList text).utf8ByteSize = byteLength text := by
  induction text with
  | nil => rfl
  | cons c rest ih => simp [String.ofList_cons, ih, byteLength]

/-! ## Runs and single characters -/

/-- A run of word characters that goes on neither to the left nor to the right. -/
structure IsMaximalRun (before run after : List Char) : Prop where
  nonempty : run ≠ []
  nameChars : ∀ c ∈ run, IsNameChar c
  begins : ∀ c ∈ before.getLast?, ¬ IsNameChar c
  ends : ∀ c ∈ after.head?, ¬ IsNameChar c

/-- What the middle part of a text says. -/
inductive Reads (before : List Char) : List Char → List Char → Lexeme → Prop
  | single {c : Char} {after : List Char} {lexeme : Lexeme} :
      IsSingle lexeme c → Reads before [c] after lexeme
  | operator {run after : List Char} {connective : Connective} :
      IsMaximalRun before run after → Connective.ofText? (String.ofList run) = some connective →
        Reads before run after (.operator connective)
  | name {run after : List Char} :
      IsMaximalRun before run after → Connective.ofText? (String.ofList run) = none →
        Reads before run after (.word (String.ofList run))

theorem isSingle_of_ofChar? {c : Char} {lexeme : Lexeme} (read : Lexeme.ofChar? c = some lexeme) :
    IsSingle lexeme c := by
  rw [Lexeme.ofChar?] at read
  split at read
  · rename_i isOpen
    obtain rfl : Lexeme.openParen = lexeme := by simpa using read
    exact isOpen ▸ .openParen
  · split at read
    · rename_i isClose
      obtain rfl : Lexeme.closeParen = lexeme := by simpa using read
      exact isClose ▸ .closeParen
    · obtain ⟨connective, found, rfl⟩ := Option.map_eq_some_iff.1 read
      have symbol := List.find?_some found
      rw [beq_iff_eq] at symbol
      exact symbol ▸ .operator connective

/-- A character is a blank, stands alone or extends a run. -/
theorem char_cases (c : Char) : c ∈ blanks ∨ (∃ lexeme, IsSingle lexeme c) ∨ IsNameChar c := by
  by_cases blank : c ∈ blanks
  · exact .inl blank
  · cases alone : Lexeme.ofChar? c with
    | some lexeme => exact .inr (.inl ⟨lexeme, isSingle_of_ofChar? alone⟩)
    | none =>
      rw [← isBlank_iff, Bool.not_eq_true] at blank
      exact .inr (.inr ((isWordChar_iff c).1 (by simp [isWordChar, blank, alone])))

theorem not_isNameChar_iff (c : Char) : ¬ IsNameChar c ↔ isWordChar c = false := by
  rw [← isWordChar_iff, Bool.not_eq_true]

theorem IsSingle.not_mem_blanks {lexeme : Lexeme} {c : Char} (single : IsSingle lexeme c) :
    c ∉ blanks := by
  intro blank
  have silent := (blanks_read c blank).2
  simp [single.ofChar?_eq] at silent

theorem Reads.not_mem_blanks {before source after : List Char} {lexeme : Lexeme}
    (reads : Reads before source after lexeme) : ∀ c ∈ source, c ∉ blanks := by
  intro c member
  cases reads with
  | single single =>
    obtain rfl := List.mem_singleton.1 member
    exact single.not_mem_blanks
  | operator maximal _ => exact (maximal.nameChars c member).1
  | name maximal _ => exact (maximal.nameChars c member).1

theorem Reads.ne_nil {before source after : List Char} {lexeme : Lexeme}
    (reads : Reads before source after lexeme) : source ≠ [] := by
  cases reads with
  | single _ => simp
  | operator maximal _ => exact maximal.nonempty
  | name maximal _ => exact maximal.nonempty

theorem reads_ofRun {before run after : List Char} (maximal : IsMaximalRun before run after) :
    Reads before run after (.ofRun run) := by
  rw [Lexeme.ofRun, Connective.ofAlias?_eq_ofText?]
  cases found : Connective.ofText? (String.ofList run) with
  | some connective => exact .operator maximal found
  | none => exact .name maximal found

/-! ## Tiles -/

/-- The rest of a text falls apart into blanks and the sources of tokens. -/
inductive Tiles : List Char → List Char → List Token → Prop
  | nil {before : List Char} : Tiles before [] []
  | blank {before after : List Char} {c : Char} {tokens : List Token} :
      c ∈ blanks → Tiles (before ++ [c]) after tokens → Tiles before (c :: after) tokens
  | token {before source after : List Char} {lexeme : Lexeme} {tokens : List Token} :
      Reads before source after lexeme → Tiles (before ++ source) after tokens →
        Tiles before (source ++ after) (⟨lexeme, byteLength before⟩ :: tokens)

theorem tiles_scanFrom (before text : List Char)
    (apart : ∀ c ∈ before.getLast?, ∀ next ∈ text.head?, isWordChar next = true → isWordChar c = false) :
    Tiles before text (Token.scanFrom (byteLength before) text) := by
  induction text using piece_induction generalizing before with
  | nil => exact .nil
  | single c rest alone ih =>
    have later : Tiles (before ++ [c]) rest (Token.scanFrom (byteLength before + c.utf8Size) rest) := by
      have place : byteLength (before ++ [c]) = byteLength before + c.utf8Size := by
        rw [byteLength_append]
        rfl
      rw [← place]
      exact ih _ (by simpa using fun _ _ _ => alone)
    rw [Token.scanFrom_single _ alone]
    rcases char_cases c with blank | ⟨lexeme, single⟩ | nameChar
    · rw [(blanks_read c blank).2]
      exact .blank blank later
    · rw [single.ofChar?_eq]
      exact .token (.single single) later
    · exact absurd nameChar ((not_isNameChar_iff c).2 alone)
  | run run rest nonempty word ends ih =>
    rw [Token.scanFrom_run _ nonempty word ends, ← byteLength_append]
    refine .token (reads_ofRun ⟨nonempty, ?_, ?_, ?_⟩) (ih _ ?_)
    · exact fun c member => (isWordChar_iff c).1 (word c member)
    · -- what stands before a run is no word character, as the run starts with one
      intro c last
      obtain ⟨first, others, rfl⟩ := List.exists_cons_of_ne_nil nonempty
      exact (not_isNameChar_iff c).2 (apart c last first (by simp) (word first (.head _)))
    · exact fun c member => (not_isNameChar_iff c).2 (ends c member)
    · intro c _ next first wordChar
      simp [ends next first] at wordChar

/-! ## Stretches -/

/-- A stretch of a text: the number of characters before its start, and before its end. -/
structure Stretch where
  start : Nat
  stop : Nat

/-- A stretch of a text is the source of a token, whose place is the number of bytes before it. -/
structure IsSource (text : List Char) (stretch : Stretch) (token : Token) : Prop where
  inside : stretch.stop ≤ text.length
  nonempty : stretch.start < stretch.stop
  offset : token.offset = (String.ofList (text.take stretch.start)).utf8ByteSize
  reads : Reads (text.take stretch.start) ((text.take stretch.stop).drop stretch.start)
    (text.drop stretch.stop) token.lexeme

/-- Stretches of a text are the sources of tokens.  They lie one behind the other, and together they
    are all characters except the blanks. -/
structure AreSources (text : List Char) (stretches : List Stretch) (tokens : List Token) : Prop where
  each : List.Forall₂ (IsSource text) stretches tokens
  disjoint : stretches.Pairwise fun first second => first.stop ≤ second.start
  covered : ∀ (index : Nat) (c : Char), text[index]? = some c →
    ((∃ stretch ∈ stretches, stretch.start ≤ index ∧ index < stretch.stop) ↔ c ∉ blanks)

theorem isSource_middle {before source after : List Char} {lexeme : Lexeme}
    (reads : Reads before source after lexeme) :
    IsSource (before ++ (source ++ after)) ⟨before.length, before.length + source.length⟩
      ⟨lexeme, byteLength before⟩ where
  inside := by simp
  nonempty := by simpa using List.length_pos_of_ne_nil reads.ne_nil
  offset := by simp [utf8ByteSize_ofList]
  reads := by
    have whole : before ++ (source ++ after) = (before ++ source) ++ after := by simp
    rw [List.take_left, whole, ← List.length_append, List.take_left, List.drop_left, List.drop_left]
    exact reads

theorem Tiles.exists_stretches {before rest : List Char} {tokens : List Token}
    (tiles : Tiles before rest tokens) :
    ∃ stretches : List Stretch, List.Forall₂ (IsSource (before ++ rest)) stretches tokens ∧
      (stretches.Pairwise fun first second => first.stop ≤ second.start) ∧
      (∀ stretch ∈ stretches, before.length ≤ stretch.start) ∧
      ∀ (index : Nat) (c : Char), rest[index]? = some c →
        ((∃ stretch ∈ stretches,
          stretch.start ≤ before.length + index ∧ before.length + index < stretch.stop) ↔
            c ∉ blanks) := by
  induction tiles with
  | nil => exact ⟨[], .nil, .nil, by simp, by simp⟩
  | @blank before after c tokens blank later ih =>
    obtain ⟨stretches, sources, disjoint, behind, covered⟩ := ih
    rw [List.append_assoc, List.singleton_append] at sources
    simp only [List.length_append, List.length_singleton] at behind covered
    refine ⟨stretches, sources, disjoint, fun stretch member => ?_, ?_⟩
    · have start := behind stretch member
      omega
    · intro index next there
      cases index with
      | zero =>
        obtain rfl : c = next := by simpa using there
        simp only [blank, not_true_eq_false, iff_false, not_exists, not_and]
        intro stretch member begun
        have start := behind stretch member
        omega
      | succ index =>
        have inside := covered index next (by simpa using there)
        rwa [Nat.add_assoc, Nat.add_comm 1 index] at inside
  | @token before source after lexeme tokens reads later ih =>
    obtain ⟨stretches, sources, disjoint, behind, covered⟩ := ih
    rw [List.append_assoc] at sources
    simp only [List.length_append] at behind covered
    refine ⟨⟨before.length, before.length + source.length⟩ :: stretches,
      .cons (isSource_middle reads) sources, List.pairwise_cons.2 ⟨behind, disjoint⟩, ?_, ?_⟩
    · intro stretch member
      rcases List.mem_cons.1 member with rfl | member
      · exact Nat.le_refl _
      · have start := behind stretch member
        omega
    · intro index c there
      by_cases here : index < source.length
      · -- the characters of the source, which the first stretch covers
        rw [List.getElem?_append_left here] at there
        have noBlank := reads.not_mem_blanks c (List.mem_of_getElem? there)
        simp only [noBlank, not_false_eq_true, iff_true]
        exact ⟨_, .head _, by simp, by simpa using here⟩
      · rw [List.getElem?_append_right (by omega)] at there
        rw [← covered (index - source.length) c there]
        have same : before.length + source.length + (index - source.length) = before.length + index := by
          omega
        rw [same, List.exists_mem_cons_iff]
        constructor
        · rintro (⟨-, bound⟩ | inside)
          · simp only at bound
            omega
          · exact inside
        · exact .inr

theorem exists_areSources (text : String) :
    ∃ stretches, AreSources text.toList stretches (Token.scan text) := by
  obtain ⟨stretches, sources, disjoint, -, covered⟩ :=
    (tiles_scanFrom [] text.toList (by simp)).exists_stretches
  exact ⟨stretches, sources, disjoint, by simpa using covered⟩

end Sentential
