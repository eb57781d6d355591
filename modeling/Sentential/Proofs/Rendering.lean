import Sentential.Proofs.Leaves
import Sentential.Proofs.Listing
import Sentential.Proofs.Parentheses
import Sentential.Proofs.Reopening
import Sentential.Proofs.Respelling

/-! # Nesting undoes writing

Phrases are written with a space between each two and with parentheses around the members of a group.
Where the words are names, the text says again what was written (`lexemes_renderAll`).  Its parentheses
are balanced, so that reopening groups makes no difference to what is nested: that is the layout of the
words and operators at their balances (`nest_of_balanced`).  And the layout is the phrases themselves if
they are `Separated`.  An empty group has no word to tell of it, and two groups side by side are read as
one.

In turn, what is nested from tokens that begin above the ground is separated, whatever their
parentheses (`separated_nest`).  It is written and read again without a change if the words are names.
Tokens with other words are never read from a text, and those are not read again either.
-/

namespace Sentential

open Token (weigh net unplaced)

/-! ## Balanced tokens -/

namespace Token

namespace Balanced

theorem append {first second : List Token} (balanced : Balanced first) (balanced' : Balanced second) :
    Balanced (first ++ second) where
  above := by
    intro front begins
    rcases List.prefix_or_prefix_of_prefix begins (List.prefix_append first second) with inside | beyond
    · exact balanced.above front inside
    · obtain ⟨others, rfl⟩ := beyond
      have behind := balanced'.above others ((List.prefix_append_right_inj first).1 begins)
      rw [net_append, balanced.settled]
      omega
  settled := by rw [net_append, balanced.settled, balanced'.settled, Int.add_zero]

theorem of_noParens {tokens : List Token} (noParens : ∀ token ∈ tokens, token.lexeme.isParen = false) :
    Balanced tokens where
  above := by
    intro front begins
    have level := net_of_noParens fun token member => noParens token (begins.subset member)
    omega
  settled := net_of_noParens noParens

theorem parens {tokens : List Token} (balanced : Balanced tokens) (offset offset' : Nat) :
    Balanced (⟨.openParen, offset⟩ :: tokens ++ [⟨.closeParen, offset'⟩]) where
  above := by
    intro front begins
    rw [List.cons_append, List.prefix_cons_iff] at begins
    rcases begins with rfl | ⟨inner, rfl, begins⟩
    · exact Int.le_refl _
    · have opened : net (⟨.openParen, offset⟩ :: inner) = 1 + net inner := by
        rw [net_cons, net_openParen]
      rw [opened]
      rcases List.prefix_concat_iff.1 begins with rfl | inside
      · rw [net_append, net_closeParen, balanced.settled]
        omega
      · have above := balanced.above inner inside
        omega
  settled := by rw [net_of_parens, balanced.settled]

end Balanced

end Token

theorem Layout.insert_ground (context : List Phrase) (depth : Nat) (phrase : Phrase) :
    Layout.insert ⟨context, 0⟩ depth phrase = ⟨phrase.insertAt depth context, 0⟩ := by
  simp [insert, put, lower, Phrase.wrap]

theorem Token.weigh_parens (balance : Int) (tokens : List Token) (offset offset' : Nat) :
    weigh balance (⟨.openParen, offset⟩ :: tokens ++ [⟨.closeParen, offset'⟩]) =
      weigh (balance + 1) tokens := by
  rw [List.cons_append, weigh, weigh_append]
  exact List.append_nil _

/-- While no parenthesis closes more than is open, the plain grouper keeps to the layout that stands on
    the ground. -/
theorem Nesting.context_foldl_stepPlain (tokens : List Token) (nesting : Nesting)
    (above : ∀ front, front <+: tokens → 0 ≤ nesting.depth + net front) :
    (tokens.foldl stepPlain nesting).context =
      ((weigh nesting.depth tokens).foldl Layout.read ⟨nesting.context, 0⟩).context := by
  induction tokens generalizing nesting with
  | nil => rfl
  | cons token rest ih =>
    have stepped := depth_stepPlain nesting token (above [token] ⟨rest, rfl⟩)
    have later := ih (nesting.stepPlain token) fun front begins => by
      have longer := above (token :: front) ((List.prefix_cons_inj token).2 begins)
      rwa [stepped, Int.add_assoc, ← Token.net_cons]
    obtain ⟨lexeme, offset⟩ := token
    obtain ⟨context, depth, unmatched⟩ := nesting
    cases lexeme with
    | openParen => exact later
    | closeParen =>
      cases depth with
      | zero => simpa [Token.net_closeParen] using above [⟨.closeParen, offset⟩] ⟨rest, rfl⟩
      | succ depth =>
        have closed : ((depth + 1 : Nat) : Int) - 1 = depth := by omega
        rw [weigh, closed]
        exact later
    | word name =>
      show _ = ((weigh depth rest).foldl Layout.read
        (Layout.insert ⟨context, 0⟩ depth (.word name))).context
      rw [Layout.insert_ground]
      exact later
    | operator connective =>
      show _ = ((weigh depth rest).foldl Layout.read
        (Layout.insert ⟨context, 0⟩ depth (.operator connective offset))).context
      rw [Layout.insert_ground]
      exact later

/-- Balanced parentheses nest words and operators at their balances, without groups around them. -/
theorem Phrase.nest_of_balanced {tokens : List Token} (balanced : Token.Balanced tokens) :
    nest tokens = (Layout.ofEntries (weigh 0 tokens)).context := by
  obtain ⟨count, deep⟩ := Nesting.DeeperBy.exists_deeperBy tokens
  -- the plain grouper ends at depth zero, so it has no group too many
  have depth := deep.depth
  rw [Nesting.depth_foldl_stepPlain_of_balanced balanced] at depth
  obtain rfl : count = 0 := by omega
  have plain := Nesting.context_foldl_stepPlain tokens .start fun front begins => by
    have ground : (Nesting.start.depth : Int) = 0 := rfl
    have above := balanced.above front begins
    omega
  rw [deep.context] at plain
  exact plain

/-! ## What phrases are written as -/

theorem Writes.anywhere {lexemes : List Lexeme} {text : List Char}
    (writes : Writes true lexemes text) : Writes false lexemes text := by
  cases writes with
  | nil => exact .nil
  | blank blank later => exact .blank blank later
  | single single later => exact .single single later

namespace Phrase

mutual

def spelling : Phrase → List Lexeme
  | .word name => [.word name]
  | .operator connective _ => [.operator connective]
  | .group members => .openParen :: spellingAll members ++ [.closeParen]

def spellingAll : List Phrase → List Lexeme
  | [] => []
  | phrase :: rest => phrase.spelling ++ spellingAll rest

end

theorem spelling_group (members : List Phrase) :
    (group members).spelling = .openParen :: spellingAll members ++ [.closeParen] := by
  simp only [spelling]

theorem spellingAll_cons (phrase : Phrase) (rest : List Phrase) :
    spellingAll (phrase :: rest) = phrase.spelling ++ spellingAll rest := by
  simp only [spellingAll]

mutual

theorem writes_render {lexemes : List Lexeme} {text : List Char} (behind : Writes true lexemes text) :
    ∀ phrase : Phrase, Writes false (phrase.spelling ++ lexemes) (phrase.render.toList ++ text)
  | .word name => by
    simp only [spelling, render]
    exact .run (.name name) behind
  | .operator connective offset => by
    simp only [spelling, render, String.toList_singleton]
    exact .single (.operator connective) behind.anywhere
  | .group members => by
    have closed : Writes true (.closeParen :: lexemes) (')' :: text) :=
      .single .closeParen behind.anywhere
    have inner := writes_renderAll closed members
    simpa [spelling, render] using Writes.single .openParen inner

theorem writes_renderAll {lexemes : List Lexeme} {text : List Char} (behind : Writes true lexemes text) :
    ∀ phrases : List Phrase,
      Writes false (spellingAll phrases ++ lexemes) ((renderAll phrases).toList ++ text)
  | [] => by
    simp only [spellingAll, renderAll]
    exact behind.anywhere
  | [phrase] => by
    have alone := writes_render behind phrase
    simpa only [spellingAll, renderAll, List.append_nil] using alone
  | phrase :: next :: rest => by
    have gap : Writes true (spellingAll (next :: rest) ++ lexemes)
        (' ' :: ((renderAll (next :: rest)).toList ++ text)) :=
      .blank (by decide) (writes_renderAll behind (next :: rest))
    have first := writes_render gap phrase
    simpa [spellingAll_cons phrase, renderAll] using first

end

mutual

theorem word_mem_spelling_iff {name : String} : ∀ phrase : Phrase,
    .word name ∈ phrase.spelling ↔ .word name ∈ phrase.leaves
  | .word other => by simp [spelling]
  | .operator connective offset => by simp [spelling]
  | .group members => by simp [spelling, word_mem_spellingAll_iff members]

theorem word_mem_spellingAll_iff {name : String} : ∀ phrases : List Phrase,
    .word name ∈ spellingAll phrases ↔ .word name ∈ leavesAll phrases
  | [] => by simp [spellingAll]
  | phrase :: rest => by
    rw [spellingAll_cons, leavesAll_cons, List.mem_append, List.mem_append,
      word_mem_spelling_iff phrase, word_mem_spellingAll_iff rest]

end

/-- The lexemes of the text that phrases are written as. -/
theorem lexemes_renderAll (phrases : List Phrase)
    (named : ∀ name, .word name ∈ leavesAll phrases → IsName name) :
    lexemes (renderAll phrases).toList = spellingAll phrases := by
  have writes := writes_renderAll .nil phrases
  rw [List.append_nil, List.append_nil] at writes
  rw [← map_lexeme_scanFrom 0]
  exact writes.lexemes_ofPieces (fun name member =>
    named name ((word_mem_spellingAll_iff phrases).1 member)) 0

/-! ## Separated phrases -/

/-- No group inside phrases is empty, and none comes right after another. -/
inductive Separated : List Phrase → Prop
  | nil : Separated []
  | word {phrases : List Phrase} (name : String) : Separated phrases → Separated (.word name :: phrases)
  | operator {phrases : List Phrase} (connective : Connective) (offset : Nat) :
      Separated phrases → Separated (.operator connective offset :: phrases)
  | group {members phrases : List Phrase} : members ≠ [] → Separated members →
      (∀ members', phrases.head? ≠ some (.group members')) → Separated phrases →
        Separated (.group members :: phrases)

/-- Phrases with all their operators at one place. -/
def placeless (phrases : List Phrase) : List Phrase :=
  phrases.map (relabel id fun _ => 0)

theorem head?_placeless_ne_group {phrases : List Phrase}
    (apart : ∀ members, phrases.head? ≠ some (.group members)) (members : List Phrase) :
    (placeless phrases).head? ≠ some (.group members) := by
  cases phrases with
  | nil => simp [placeless]
  | cons phrase rest =>
    cases phrase with
    | word name => simp [placeless]
    | operator connective offset => simp [placeless]
    | group inner => simp at apart

/-- What separated phrases are written with is balanced, and lists the phrases. -/
theorem Separated.listed {phrases : List Phrase} (separated : Separated phrases) :
    Token.Balanced (unplaced (spellingAll phrases)) ∧ ∀ balance,
      Listed balance (placeless phrases) (weigh balance (unplaced (spellingAll phrases))) := by
  induction separated with
  | nil => exact ⟨.of_noParens (by simp [spellingAll, unplaced]), fun balance => .nil⟩
  | @word phrases name later ih =>
    obtain ⟨balanced, listed⟩ := ih
    have first : Token.Balanced (unplaced [.word name]) :=
      .of_noParens (by simp [unplaced, Lexeme.isParen])
    rw [spellingAll_cons, spelling]
    exact ⟨first.append balanced, fun balance => .word name 0 (listed balance)⟩
  | @operator phrases connective offset later ih =>
    obtain ⟨balanced, listed⟩ := ih
    have first : Token.Balanced (unplaced [.operator connective]) :=
      .of_noParens (by simp [unplaced, Lexeme.isParen])
    rw [spellingAll_cons, spelling]
    exact ⟨first.append balanced, fun balance => .operator connective 0 (listed balance)⟩
  | @group members phrases nonempty inner apart later innerIh ih =>
    obtain ⟨innerBalanced, innerListed⟩ := innerIh
    obtain ⟨balanced, listed⟩ := ih
    have parens := innerBalanced.parens 0 0
    have tokens : unplaced (spellingAll (.group members :: phrases)) =
        (⟨.openParen, 0⟩ :: unplaced (spellingAll members) ++ [⟨.closeParen, 0⟩]) ++
          unplaced (spellingAll phrases) := by
      rw [spellingAll_cons, spelling_group, Token.unplaced_append]
      simp [unplaced]
    rw [tokens]
    -- the parentheses of the group bring the balance back to where the others go on
    refine ⟨parens.append balanced, fun balance => ?_⟩
    rw [Token.weigh_append, parens.settled, Int.add_zero, Token.weigh_parens, placeless, List.map_cons,
      relabel_group]
    exact .group (by simpa using nonempty) (innerListed _) (head?_placeless_ne_group apart) (listed _)

theorem nest_unplaced_spellingAll {phrases : List Phrase} (separated : Separated phrases) :
    nest (unplaced (spellingAll phrases)) = placeless phrases := by
  obtain ⟨balanced, listed⟩ := separated.listed
  rw [nest_of_balanced balanced, Layout.ofEntries, Layout.empty,
    (listed 0).foldl_read [] (.inl (by simp)), List.nil_append]

theorem placeless_nest_scan (text : String) :
    placeless (nest (Token.scan text)) = nest (unplaced (lexemes text.toList)) := by
  rw [← Token.map_relabel_scan, nest_relabel, placeless]

/-- Writing separated phrases with proper names and nesting the tokens gives the phrases back, at other
    places. -/
theorem Separated.placeless_nest {phrases : List Phrase} (separated : Separated phrases)
    (named : ∀ name, .word name ∈ leavesAll phrases → IsName name) :
    placeless (nest (Token.scan (renderAll phrases))) = placeless phrases := by
  rw [placeless_nest_scan, lexemes_renderAll phrases named, nest_unplaced_spellingAll separated]

mutual

theorem spelling_relabel (move : Nat → Nat) : ∀ phrase : Phrase,
    (phrase.relabel id move).spelling = phrase.spelling
  | .word name => by simp only [relabel_word, spelling, id]
  | .operator connective offset => by simp only [relabel_operator, spelling]
  | .group members => by simp only [relabel_group, spelling_group, spellingAll_relabel move members]

theorem spellingAll_relabel (move : Nat → Nat) : ∀ phrases : List Phrase,
    spellingAll (phrases.map (relabel id move)) = spellingAll phrases
  | [] => by simp only [List.map_nil]
  | phrase :: rest => by
    rw [List.map_cons, spellingAll_cons, spellingAll_cons, spelling_relabel move phrase,
      spellingAll_relabel move rest]

end

theorem word_mem_of_placeless_eq {phrases phrases' : List Phrase} {name : String}
    (same : placeless phrases = placeless phrases') (member : .word name ∈ leavesAll phrases') :
    .word name ∈ leavesAll phrases := by
  have spellings := congrArg spellingAll same
  rw [placeless, placeless, spellingAll_relabel, spellingAll_relabel] at spellings
  rwa [← word_mem_spellingAll_iff, spellings, word_mem_spellingAll_iff]

theorem word_mem_leavesAll_nest {tokens : List Token} {name : String} :
    .word name ∈ leavesAll (nest tokens) ↔ ∃ token ∈ tokens, token.lexeme = .word name := by
  rw [leavesAll_nest, List.mem_filterMap]
  refine exists_congr fun token => and_congr_right fun _ => ?_
  obtain ⟨lexeme, offset⟩ := token
  cases lexeme <;> simp [Token.leaf?]

/-! ## What is nested is separated -/

theorem Separated.wrap {phrases : List Phrase} (separated : Separated phrases) (nonempty : phrases ≠ [])
    (count : Nat) : Separated (Phrase.wrap count phrases) := by
  induction count with
  | zero => exact separated
  | succ count ih =>
    have there : Phrase.wrap count phrases ≠ [] := by
      cases count with
      | zero => exact nonempty
      | succ count => simp [Phrase.wrap]
    exact .group there ih (by simp) .nil

theorem Separated.of_wrap {count : Nat} {phrases : List Phrase}
    (separated : Separated (Phrase.wrap count phrases)) : Separated phrases := by
  induction count with
  | zero => exact separated
  | succ count ih =>
    cases separated with
    | group nonempty inner apart later => exact ih inner

end Phrase

theorem Listed.separated {balance : Int} {phrases : List Phrase} {entries : List (Token × Int)}
    (listed : Listed balance phrases entries) : Phrase.Separated phrases := by
  induction listed with
  | nil => exact .nil
  | word name offset later ih => exact .word name ih
  | operator connective offset later ih => exact .operator connective offset ih
  | group nonempty inner apart later innerIh ih => exact .group nonempty innerIh apart ih

/-- Tokens begin above the ground: there is a first word or operator, and before it stand at least as many
    opening as closing parentheses. -/
def Token.BeginsAbove (tokens : List Token) : Prop :=
  ∃ parens first rest, tokens = parens ++ first :: rest ∧
    (∀ paren ∈ parens, paren.lexeme.isParen = true) ∧ first.lexeme.isParen = false ∧ 0 ≤ net parens

theorem Token.BeginsAbove.weigh_eq {tokens : List Token} (begins : BeginsAbove tokens) :
    ∃ first balance entries, weigh 0 tokens = (first, balance) :: entries ∧ 0 ≤ balance := by
  obtain ⟨parens, first, rest, rfl, allParens, noParen, above⟩ := begins
  refine ⟨first, net parens, weigh (net parens) rest, ?_, above⟩
  rw [weigh_append, weigh_of_parens _ allParens, List.nil_append, Int.zero_add]
  obtain ⟨lexeme, offset⟩ := first
  cases lexeme with
  | word name => rfl
  | operator connective => rfl
  | openParen => simp [Lexeme.isParen] at noParen
  | closeParen => simp [Lexeme.isParen] at noParen

namespace Phrase

theorem separated_nest {tokens : List Token} (begins : Token.BeginsAbove tokens) :
    Separated (nest tokens) := by
  obtain ⟨first, balance, entries, weighed, above⟩ := begins.weigh_eq
  have noParens : ∀ entry ∈ weigh 0 tokens, entry.1.lexeme.isParen = false :=
    fun _ member => (Token.mem_of_mem_weigh member).2
  have listed := Layout.listed_ofEntries noParens (by simpa [weighed] using above)
  have nonempty : (Layout.ofEntries (weigh 0 tokens)).context ≠ [] := by
    -- an empty list would list no words, and there is a first one
    intro empty
    rw [empty, weighed] at listed
    cases listed
  -- nesting and layout differ by groups around everything, and those do not matter
  obtain ⟨m, n, same⟩ := Nesting.nest_layout tokens
  have wrapped := listed.separated.wrap nonempty n
  rw [← same] at wrapped
  exact wrapped.of_wrap

/-- What is nested from tokens that begin above the ground is written and nested again without a change
    but of places, provided that all words are names, and only then. -/
theorem placeless_nest_renderAll_nest_iff {tokens : List Token} (begins : Token.BeginsAbove tokens) :
    placeless (nest (Token.scan (renderAll (nest tokens)))) = placeless (nest tokens) ↔
      ∀ token ∈ tokens, ∀ name, token.lexeme = .word name → IsName name := by
  constructor
  · intro same token member name word
    have inside := word_mem_leavesAll_nest.2 ⟨token, member, word⟩
    obtain ⟨other, inText, word'⟩ := word_mem_leavesAll_nest.1 (word_mem_of_placeless_eq same inside)
    exact isName_of_mem_scan inText word'
  · intro named
    apply (separated_nest begins).placeless_nest
    intro name member
    obtain ⟨token, inTokens, word⟩ := word_mem_leavesAll_nest.1 member
    exact named token inTokens name word

/-- Nesting undoes the writing of separated phrases whose words are names.  What is nested from tokens that
    begin above the ground is separated, so writing and nesting it again reproduces it exactly if the words
    of the tokens are names, as those of every text are. -/
theorem nest_undoes_writing :
    (∀ phrases, Separated phrases → (∀ name, .word name ∈ leavesAll phrases → IsName name) →
      placeless (nest (Token.scan (renderAll phrases))) = placeless phrases) ∧
    (∀ tokens, Token.BeginsAbove tokens →
      Separated (nest tokens) ∧
      (placeless (nest (Token.scan (renderAll (nest tokens)))) = placeless (nest tokens) ↔
        ∀ token ∈ tokens, ∀ name, token.lexeme = .word name → IsName name)) ∧
    ∀ text, Token.BeginsAbove (Token.scan text) →
      placeless (nest (Token.scan (renderAll (nest (Token.scan text))))) =
        placeless (nest (Token.scan text)) := by
  refine ⟨?_, ?_, ?_⟩
  · intro phrases separated named
    exact separated.placeless_nest named
  · intro tokens begins
    exact ⟨separated_nest begins, placeless_nest_renderAll_nest_iff begins⟩
  · intro text begins
    rw [placeless_nest_renderAll_nest_iff begins]
    intro token member name word
    exact isName_of_mem_scan member word

/-- A group inside a group comes back, and so does what two groups side by side are read as after a
    parenthesis that closes too much. -/
theorem nest_undoes_writing_unbalanced :
    (Separated [.group [.word "a", .operator (.binary .and) 7, .group [.word "b"]], .operator .not 3] ∧
      placeless (nest (Token.scan (renderAll
          [.group [.word "a", .operator (.binary .and) 7, .group [.word "b"]], .operator .not 3]))) =
        placeless [.group [.word "a", .operator (.binary .and) 7, .group [.word "b"]], .operator .not 3]) ∧
    Token.scan "a)(b)(c" = [⟨.word "a", 0⟩, ⟨.closeParen, 1⟩, ⟨.openParen, 2⟩, ⟨.word "b", 3⟩,
      ⟨.closeParen, 4⟩, ⟨.openParen, 5⟩, ⟨.word "c", 6⟩] ∧
    Token.BeginsAbove (Token.scan "a)(b)(c") ∧
    Separated (nest (Token.scan "a)(b)(c")) ∧
    placeless (nest (Token.scan (renderAll (nest (Token.scan "a)(b)(c"))))) =
      placeless (nest (Token.scan "a)(b)(c")) := by
  have separated : Separated
      [.group [.word "a", .operator (.binary .and) 7, .group [.word "b"]], .operator .not 3] :=
    .group (by simp) (.word _ (.operator _ _ (.group (by simp) (.word _ .nil) (by simp) .nil)))
      (by simp) (.operator _ _ .nil)
  have named : ∀ name, .word name ∈ leavesAll
      [.group [.word "a", .operator (.binary .and) 7, .group [.word "b"]], .operator .not 3] →
        IsName name := by
    intro name member
    obtain rfl | rfl : name = "a" ∨ name = "b" := by simpa using member
    · decide
    · decide
  have tokens : Token.scan "a)(b)(c" = [⟨.word "a", 0⟩, ⟨.closeParen, 1⟩, ⟨.openParen, 2⟩,
      ⟨.word "b", 3⟩, ⟨.closeParen, 4⟩, ⟨.openParen, 5⟩, ⟨.word "c", 6⟩] := by decide +kernel
  have begins : Token.BeginsAbove (Token.scan "a)(b)(c") := by
    rw [tokens]
    exact ⟨[], _, _, rfl, by simp, rfl, by decide⟩
  exact ⟨⟨separated, nest_undoes_writing.1 _ separated named⟩, tokens, begins,
    (nest_undoes_writing.2.1 _ begins).1, nest_undoes_writing.2.2 _ begins⟩

/-- A word that is not a name of its own is read as two. -/
theorem placeless_nest_spaced :
    Token.BeginsAbove [⟨.word "a b", 0⟩] ∧
      placeless (nest (Token.scan (renderAll (nest [⟨.word "a b", 0⟩])))) ≠
        placeless (nest [⟨.word "a b", 0⟩]) := by
  refine ⟨⟨[], ⟨.word "a b", 0⟩, [], rfl, by simp, rfl, by decide⟩, fun same => ?_⟩
  have two : (placeless (nest (Token.scan (renderAll (nest [⟨.word "a b", 0⟩]))))).length = 2 := by
    decide +kernel
  rw [same] at two
  exact absurd two (by decide)

end Phrase

end Sentential
