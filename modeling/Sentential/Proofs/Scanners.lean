import Sentential.Proofs.Spans

/-! # Other scanners

Two other ways to read a text give the same tokens.  The `Scanner` goes on character by character: it
ends the run in progress at every blank and at every character that stands alone, and only when it is
done it tells the aliases from the names.  `Lexes` is the loop of a generated scanner, which takes the
longest match of any of its rules off the text, as long as one of them matches; it always comes to the
end of the text.
-/

namespace Sentential

/-! ## Character by character -/

/-- What a run says: the connective it is an alias of, or itself. -/
def Lexeme.classify : Lexeme → Lexeme
  | .word run =>
    match Connective.ofText? run with
    | some connective => .operator connective
    | none => .word run
  | lexeme => lexeme

def Token.classify (token : Token) : Token :=
  { token with lexeme := token.lexeme.classify }

theorem Lexeme.classify_word (run : List Char) : (word (String.ofList run)).classify = .ofRun run := by
  have reads := Connective.ofAlias?_eq_ofText? run
  cases text : Connective.ofText? (String.ofList run) with
  | none => simp only [classify, ofRun, reads, text]
  | some connective => simp only [classify, ofRun, reads, text]

theorem Token.classify_single {lexeme : Lexeme} {c : Char} (single : IsSingle lexeme c) (offset : Nat) :
    classify ⟨lexeme, offset⟩ = ⟨lexeme, offset⟩ := by
  cases single <;> rfl

structure Scanner where
  /-- The tokens so far, with every run as a word. -/
  tokens : List Token
  /-- The place where the run in progress begins, or the next token if there is no run. -/
  start : Nat
  run : List Char

namespace Scanner

def empty : Scanner := ⟨[], 0, []⟩

def close (scanner : Scanner) : Scanner :=
  if scanner.run = [] then
    scanner
  else
    { tokens := scanner.tokens ++ [⟨.word (String.ofList scanner.run), scanner.start⟩]
      start := scanner.start + byteLength scanner.run
      run := [] }

def step (scanner : Scanner) (c : Char) : Scanner :=
  if c ∈ blanks then
    { scanner.close with start := scanner.close.start + c.utf8Size }
  else
    match Lexeme.ofChar? c with
    | some lexeme =>
      { scanner.close with
        tokens := scanner.close.tokens ++ [⟨lexeme, scanner.close.start⟩]
        start := scanner.close.start + c.utf8Size }
    | none => { scanner with run := scanner.run ++ [c] }

def scan (text : String) : List Token :=
  (text.toList.foldl step empty).close.tokens.map Token.classify

theorem run_close (scanner : Scanner) : scanner.close.run = [] := by
  rw [close]
  split
  · assumption
  · rfl

theorem close_scanFrom (scanner : Scanner) (word : ∀ c ∈ scanner.run, isWordChar c = true)
    (rest : List Char) (ends : ∀ c ∈ rest.head?, isWordChar c = false) :
    scanner.close.tokens.map Token.classify ++ Token.scanFrom scanner.close.start rest =
      scanner.tokens.map Token.classify ++ Token.scanFrom scanner.start (scanner.run ++ rest) := by
  rw [close]
  split
  · rename_i noRun
    rw [noRun, List.nil_append]
  · -- a whole run is read as one piece, so its word may be classified now or later
    rename_i nonempty
    rw [Token.scanFrom_run _ nonempty word ends]
    simp [Token.classify, Lexeme.classify_word]

/-- A character leaves the tokens the same that are read at last, from the start of the run in
    progress on. -/
theorem step_scanFrom (scanner : Scanner) (word : ∀ c ∈ scanner.run, isWordChar c = true) (c : Char)
    (rest : List Char) :
    (∀ other ∈ (scanner.step c).run, isWordChar other = true) ∧
      (scanner.step c).tokens.map Token.classify ++
          Token.scanFrom (scanner.step c).start ((scanner.step c).run ++ rest) =
        scanner.tokens.map Token.classify ++ Token.scanFrom scanner.start (scanner.run ++ c :: rest) := by
  have closed (alone : isWordChar c = false) := scanner.close_scanFrom word (c :: rest)
    (by simpa using alone)
  rcases char_cases c with blank | ⟨lexeme, single⟩ | nameChar
  · -- a blank ends the run, as a character that stands alone does, but is no token
    obtain ⟨alone, silent⟩ := blanks_read c blank
    rw [← closed alone, Token.scanFrom_single _ alone, silent, step, if_pos blank]
    simp [run_close]
  · have alone := single.isWordChar_eq_false
    rw [← closed alone, Token.scanFrom_single _ alone, step, if_neg single.not_mem_blanks,
      single.ofChar?_eq]
    simp [run_close, Token.classify_single single]
  · have wordChar := (isWordChar_iff c).2 nameChar
    have silent : Lexeme.ofChar? c = none := by
      simpa [isWordChar] using (Bool.and_eq_true_iff.1 wordChar).2
    rw [step, if_neg nameChar.1, silent]
    refine ⟨?_, by simp⟩
    intro other member
    rcases List.mem_append.1 member with inRun | last
    · exact word other inRun
    · rwa [List.mem_singleton.1 last]

theorem foldl_step_scanFrom (text : List Char) (scanner : Scanner)
    (word : ∀ c ∈ scanner.run, isWordChar c = true) :
    (text.foldl step scanner).close.tokens.map Token.classify =
      scanner.tokens.map Token.classify ++ Token.scanFrom scanner.start (scanner.run ++ text) := by
  induction text generalizing scanner with
  | nil => simpa using scanner.close_scanFrom word [] (by simp)
  | cons c rest ih =>
    obtain ⟨stillWord, same⟩ := scanner.step_scanFrom word c rest
    rw [List.foldl_cons, ih _ stillWord, same]

theorem scan_eq (text : String) : scan text = Token.scan text :=
  foldl_step_scanFrom text.toList empty (by simp [empty])

end Scanner

/-! ## The longest match -/

inductive Rule where
  | blanks
  | single (lexeme : Lexeme)
  | run

namespace Rule

def Fits (matched : List Char) : Rule → Prop
  | .blanks => matched ≠ [] ∧ ∀ c ∈ matched, c ∈ Sentential.blanks
  | .single lexeme => ∃ c, matched = [c] ∧ IsSingle lexeme c
  | .run => matched ≠ [] ∧ ∀ c ∈ matched, IsNameChar c

def lexeme? (matched : List Char) : Rule → Option Lexeme
  | .blanks => none
  | .single lexeme => some lexeme
  | .run => some (Lexeme.word (String.ofList matched)).classify

end Rule

/-- The match of a rule is as long as any match of any rule at the start of the text. -/
structure IsLongest (rule : Rule) (matched rest : List Char) : Prop where
  fits : rule.Fits matched
  longest : ∀ (other : Rule) (matched' rest' : List Char), matched ++ rest = matched' ++ rest' →
    other.Fits matched' → matched'.length ≤ matched.length

/-- The tokens of the rest of a text, which starts at a place. -/
inductive Lexes : Nat → List Char → List Token → Prop
  | stop {offset : Nat} {text : List Char} :
      (∀ (rule : Rule) (matched rest : List Char), text = matched ++ rest → ¬ rule.Fits matched) →
        Lexes offset text []
  | next {offset : Nat} {rule : Rule} {matched rest : List Char} {tokens : List Token} :
      IsLongest rule matched rest → Lexes (offset + byteLength matched) rest tokens →
        Lexes offset (matched ++ rest)
          (((rule.lexeme? matched).map fun lexeme => ⟨lexeme, offset⟩).toList ++ tokens)

theorem Rule.exists_fits (c : Char) : ∃ rule : Rule, rule.Fits [c] := by
  rcases char_cases c with blank | ⟨lexeme, single⟩ | nameChar
  · exact ⟨.blanks, by simp, by simpa using blank⟩
  · exact ⟨.single lexeme, c, rfl, single⟩
  · exact ⟨.run, by simp, by simpa using nameChar⟩

theorem Rule.Fits.ne_nil {rule : Rule} {matched : List Char} (fits : rule.Fits matched) :
    matched ≠ [] := by
  cases rule with
  | blanks => exact fits.1
  | single lexeme =>
    obtain ⟨c, rfl, -⟩ := fits
    simp
  | run => exact fits.1

theorem IsLongest.ends {run rest : List Char} (longest : IsLongest .run run rest) :
    ∀ c ∈ rest.head?, isWordChar c = false := by
  intro c first
  rw [← not_isNameChar_iff]
  intro nameChar
  obtain ⟨others, rfl⟩ : ∃ others, rest = c :: others := by
    cases rest with
    | nil => simp at first
    | cons head others =>
      obtain rfl : head = c := by simpa using first
      exact ⟨others, rfl⟩
  -- otherwise one more character would match
  have longer : Rule.run.Fits (run ++ [c]) :=
    ⟨by simp, by simpa [or_imp, forall_and, nameChar] using longest.fits.2⟩
  have bound := longest.longest .run (run ++ [c]) others (by simp) longer
  rw [List.length_append, List.length_singleton] at bound
  omega

theorem scanFrom_blanks (offset : Nat) {matched : List Char} (rest : List Char)
    (blank : ∀ c ∈ matched, c ∈ blanks) :
    Token.scanFrom offset (matched ++ rest) = Token.scanFrom (offset + byteLength matched) rest := by
  induction matched generalizing offset with
  | nil => rfl
  | cons c matched ih =>
    rw [List.forall_mem_cons] at blank
    obtain ⟨alone, silent⟩ := blanks_read c blank.1
    have place : byteLength (c :: matched) = c.utf8Size + byteLength matched := rfl
    rw [List.cons_append, Token.scanFrom_single _ alone, silent, ih _ blank.2, place, Nat.add_assoc]
    rfl

theorem IsLongest.scanFrom_eq {rule : Rule} {matched rest : List Char}
    (longest : IsLongest rule matched rest) (offset : Nat) :
    Token.scanFrom offset (matched ++ rest) =
      ((rule.lexeme? matched).map fun lexeme => ⟨lexeme, offset⟩).toList ++
        Token.scanFrom (offset + byteLength matched) rest := by
  cases rule with
  | blanks => exact scanFrom_blanks offset rest longest.fits.2
  | single lexeme =>
    obtain ⟨c, rfl, single⟩ := longest.fits
    rw [List.singleton_append, Token.scanFrom_single _ single.isWordChar_eq_false, single.ofChar?_eq]
    rfl
  | run =>
    have word : ∀ c ∈ matched, isWordChar c = true :=
      fun c member => (isWordChar_iff c).2 (longest.fits.2 c member)
    rw [Token.scanFrom_run _ longest.fits.1 word longest.ends, Rule.lexeme?, Lexeme.classify_word]
    rfl

theorem Lexes.eq_scanFrom {offset : Nat} {text : List Char} {tokens : List Token}
    (lexes : Lexes offset text tokens) : tokens = Token.scanFrom offset text := by
  induction lexes with
  | @stop offset text unmatched =>
    cases text with
    | nil => rfl
    | cons c rest =>
      obtain ⟨rule, fits⟩ := Rule.exists_fits c
      exact absurd fits (unmatched rule [c] rest rfl)
  | next longest later ih => rw [ih, longest.scanFrom_eq]

/-! ## The longest match exists -/

/-- A match of characters of one kind cannot be longer where another kind follows. -/
theorem length_le_of_ends {p : Char → Prop} {matched rest matched' rest' : List Char}
    (ends : ∀ c ∈ rest.head?, ¬ p c) (same : matched ++ rest = matched' ++ rest')
    (all : ∀ c ∈ matched', p c) : matched'.length ≤ matched.length := by
  rcases List.append_eq_append_iff.1 same with ⟨more, rfl, shape⟩ | ⟨less, rfl, -⟩
  · cases more with
    | nil => simp
    | cons c more => exact absurd (all c (by simp)) (ends c (by simp [shape]))
  · simp

/-- A match is the longest if no character of its kind follows, and every match with the same first
    character is of its kind or a single character. -/
theorem isLongest_of_ends {p : Char → Prop} {rule : Rule} {c : Char} {matched rest : List Char}
    (fits : rule.Fits (c :: matched)) (ends : ∀ next ∈ rest.head?, ¬ p next)
    (kind : ∀ (other : Rule) (matched' : List Char), other.Fits (c :: matched') →
      matched' = [] ∨ ∀ next ∈ c :: matched', p next) :
    IsLongest rule (c :: matched) rest where
  fits := fits
  longest := by
    intro other matched' rest' same fits'
    obtain ⟨first, others, rfl⟩ := List.exists_cons_of_ne_nil fits'.ne_nil
    obtain rfl : c = first := (List.cons.inj same).1
    rcases kind other others fits' with rfl | all
    · simp
    · exact length_le_of_ends ends same all

theorem exists_stretch (q : Char → Bool) (text : List Char) : ∃ matched rest,
    text = matched ++ rest ∧ (∀ c ∈ matched, q c = true) ∧ ∀ c ∈ rest.head?, ¬ q c = true := by
  refine ⟨text.takeWhile q, text.dropWhile q, List.takeWhile_append_dropWhile.symm, ?_, ?_⟩
  · exact fun c member => List.mem_takeWhile_imp member
  · exact fun c first => by simp [head?_dropWhile q text c first]

/-- Every text that goes on has a longest match at its start: the three kinds of characters do not
    overlap, so all matches of more than one character are of the kind of the first. -/
theorem exists_isLongest (c : Char) (text : List Char) :
    ∃ rule matched rest, text = matched ++ rest ∧ IsLongest rule (c :: matched) rest := by
  rcases char_cases c with blank | ⟨lexeme, single⟩ | nameChar
  · obtain ⟨matched, rest, rfl, inside, ends⟩ := exists_stretch isBlank text
    simp only [isBlank_iff] at inside ends
    refine ⟨.blanks, matched, rest, rfl,
      isLongest_of_ends ⟨by simp, List.forall_mem_cons.2 ⟨blank, inside⟩⟩ ends ?_⟩
    rintro (_ | lexeme | _) matched' fits
    · exact .inr fits.2
    · obtain ⟨c', shape, -⟩ := fits
      exact .inl (List.cons.inj shape).2
    · exact absurd blank (fits.2 c (.head _)).1
  · refine ⟨.single lexeme, [], text, rfl, isLongest_of_ends (p := fun _ => False) ⟨c, rfl, single⟩
      (by simp) ?_⟩
    rintro (_ | lexeme' | _) matched' fits
    · exact absurd (fits.2 c (.head _)) single.not_mem_blanks
    · obtain ⟨c', shape, -⟩ := fits
      exact .inl (List.cons.inj shape).2
    · exact absurd (fits.2 c (.head _)) ((not_isNameChar_iff c).2 single.isWordChar_eq_false)
  · obtain ⟨matched, rest, rfl, inside, ends⟩ := exists_stretch isWordChar text
    simp only [isWordChar_iff] at inside ends
    refine ⟨.run, matched, rest, rfl,
      isLongest_of_ends ⟨by simp, List.forall_mem_cons.2 ⟨nameChar, inside⟩⟩ ends ?_⟩
    rintro (_ | lexeme | _) matched' fits
    · exact absurd (fits.2 c (.head _)) nameChar.1
    · obtain ⟨c', shape, -⟩ := fits
      exact .inl (List.cons.inj shape).2
    · exact .inr fits.2

theorem lexes_scanFrom (offset : Nat) (text : List Char) :
    Lexes offset text (Token.scanFrom offset text) := by
  match text with
  | [] =>
    refine .stop fun rule matched rest same fits => fits.ne_nil ?_
    exact (List.append_eq_nil_iff.1 same.symm).1
  | c :: text =>
    obtain ⟨rule, matched, rest, shape, longest⟩ := exists_isLongest c text
    have shorter : rest.length ≤ text.length := by simp [shape]
    have read := Lexes.next longest (lexes_scanFrom (offset + byteLength (c :: matched)) rest)
    rwa [← longest.scanFrom_eq, List.cons_append, ← shape] at read
termination_by text.length
decreasing_by
  rw [List.length_cons]
  omega

namespace Token

/-- The tokens of a text stand at increasing places, for stretches of the text that do not overlap and
    leave out nothing but the blanks.  They are the tokens that a scan by characters finds, and the
    only ones that taking the longest match off the text can give. -/
theorem scan_covers (text : String) :
    ((scan text).Pairwise fun first second => first.offset < second.offset) ∧
    (∃ stretches, AreSources text.toList stretches (scan text)) ∧
    Scanner.scan text = scan text ∧
    ∀ tokens, Lexes 0 text.toList tokens ↔ tokens = scan text := by
  refine ⟨scanFrom_increasing 0 text.toList, exists_areSources text, Scanner.scan_eq text, ?_⟩
  intro tokens
  constructor
  · exact Lexes.eq_scanFrom
  · rintro rfl
    exact lexes_scanFrom 0 text.toList

end Token

end Sentential
