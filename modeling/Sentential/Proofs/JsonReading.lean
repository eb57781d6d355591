import Sentential.Json
import Mathlib.Data.List.Forall2
import Mathlib.Data.List.TakeWhile

/-! # Reading JSON back

The grammar of JSON, as far as it is about values without numbers and `null`: which texts denote a value,
whatever the layout and whichever way a character is escaped.  It is written without regard to how
`Json.pretty` writes.  A `Reading` relates a text to what is left of it once a value has been read, with
blanks in front of it skipped.  A character outside the sixteen-bit range is read only as itself, not
from a pair of codes.

A text that `Json.pretty` writes denotes the value it was written for and no other
(`Json.denotes_pretty_iff`).  So nothing is lost in the escapes, and the text of a string cannot end it
early or add a field.
-/

namespace Sentential

namespace Json

/-! ## The grammar -/

/-- A text, and what is left of it behind what has been read. -/
abbrev Reading : Type := List Char → List Char → Prop

def isBlank (c : Char) : Bool :=
  c == ' ' || c == '\t' || c == '\n' || c == '\r'

def skip (text : List Char) : List Char :=
  text.dropWhile isBlank

/-- The character that a backslash and a mark stand for. -/
def escaped? : Char → Option Char
  | '"' => some '"'
  | '\\' => some '\\'
  | '/' => some '/'
  | 'b' => some '\x08'
  | 'f' => some '\x0c'
  | 'n' => some '\n'
  | 'r' => some '\r'
  | 't' => some '\t'
  | _ => none

def hexDigit? (c : Char) : Option Nat :=
  if '0' ≤ c ∧ c ≤ '9' then some (c.toNat - '0'.toNat)
  else if 'a' ≤ c ∧ c ≤ 'f' then some (c.toNat - 'a'.toNat + 10)
  else if 'A' ≤ c ∧ c ≤ 'F' then some (c.toNat - 'A'.toNat + 10)
  else none

/-- The number that exactly four hexadecimal digits write. -/
def code? (digits : List Char) : Option Nat :=
  match digits.mapM hexDigit? with
  | some [first, second, third, fourth] => some (((first * 16 + second) * 16 + third) * 16 + fourth)
  | _ => none

/-- The characters of a string behind its opening quote, up to the quote that closes it. -/
inductive ReadsChars : List Char → List Char → List Char → Prop
  | close (rest : List Char) : ReadsChars [] ('"' :: rest) rest
  | plain {c : Char} {chars text rest : List Char} (noQuote : c ≠ '"') (noEscape : c ≠ '\\')
      (noControl : 0x20 ≤ c.toNat) (behind : ReadsChars chars text rest) :
      ReadsChars (c :: chars) (c :: text) rest
  | mark {mark c : Char} {chars text rest : List Char} (marked : escaped? mark = some c)
      (behind : ReadsChars chars text rest) : ReadsChars (c :: chars) ('\\' :: mark :: text) rest
  | code {c : Char} {chars text rest : List Char} (coded : code? (text.take 4) = some c.toNat)
      (behind : ReadsChars chars (text.drop 4) rest) : ReadsChars (c :: chars) ('\\' :: 'u' :: text) rest

def readsWord (word : String) : Reading :=
  fun text rest => skip text = word.toList ++ rest

def readsString (content : String) : Reading :=
  fun text rest => ∃ inner, skip text = '"' :: inner ∧ ReadsChars content.toList inner rest

/-- Parts, each behind a comma, and the bracket that closes them. -/
inductive Series (closing : Char) : List Reading → List Char → List Char → Prop
  | close {text rest : List Char} (closed : skip text = closing :: rest) : Series closing [] text rest
  | part {part : Reading} {parts : List Reading} {text inner middle rest : List Char}
      (comma : skip text = ',' :: inner) (first : part inner middle)
      (behind : Series closing parts middle rest) : Series closing (part :: parts) text rest

/-- Parts between brackets, with a comma between any two. -/
inductive Bracketed (opening closing : Char) : List Reading → List Char → List Char → Prop
  | empty {text inner rest : List Char} (opened : skip text = opening :: inner)
      (closed : skip inner = closing :: rest) : Bracketed opening closing [] text rest
  | filled {part : Reading} {parts : List Reading} {text inner middle rest : List Char}
      (opened : skip text = opening :: inner) (first : part inner middle)
      (behind : Series closing parts middle rest) : Bracketed opening closing (part :: parts) text rest

def readsField (key : String) (value : Reading) : Reading :=
  fun text rest => ∃ behind inner, readsString key text behind ∧ skip behind = ':' :: inner ∧
    value inner rest

mutual

/-- The readings of a text as a value. -/
def reads : Json → Reading
  | .bool true => readsWord "true"
  | .bool false => readsWord "false"
  | .string content => readsString content
  | .array items => Bracketed '[' ']' (readsItems items)
  | .object fields => Bracketed '\x7b' '\x7d' (readsFields fields)

def readsItems : List Json → List Reading
  | [] => []
  | item :: rest => reads item :: readsItems rest

def readsFields : List (String × Json) → List Reading
  | [] => []
  | (key, value) :: rest => readsField key (reads value) :: readsFields rest

end

/-- The whole text reads as the value, up to blanks around it. -/
def Denotes (text : String) (json : Json) : Prop :=
  ∃ rest, reads json text.toList rest ∧ skip rest = []

/-! ## What is written is read -/

/-- The line reads as the part, with any blanks in front of it and any text behind it. -/
def Covers (part : Reading) (line : String) : Prop :=
  ∀ ⦃blanks : List Char⦄, (∀ c ∈ blanks, isBlank c = true) →
    ∀ rest : List Char, part (blanks ++ (line.toList ++ rest)) rest

theorem skip_cons {c : Char} (ink : isBlank c = false) (text : List Char) :
    skip (c :: text) = c :: text := by
  rw [skip, List.dropWhile_cons_of_neg (by simp [ink])]

theorem skip_blanks {blanks : List Char} (blank : ∀ c ∈ blanks, isBlank c = true) {c : Char}
    (ink : isBlank c = false) (text : List Char) : skip (blanks ++ c :: text) = c :: text := by
  rw [skip, List.dropWhile_append_of_pos blank]
  exact skip_cons ink text

theorem code?_controlDigits {c : Char} (control : c.toNat < 0x20) :
    code? (controlDigits c).toList = some c.toNat ∧ (controlDigits c).toList.length = 4 := by
  have each : ∀ code < 0x20, code? (controlDigits (Char.ofNat code)).toList = some code ∧
      (controlDigits (Char.ofNat code)).toList.length = 4 := by decide +kernel
  have coded := each c.toNat control
  rwa [Char.ofNat_toNat] at coded

theorem readsChars_escapeChar (c : Char) {chars text rest : List Char}
    (behind : ReadsChars chars text rest) :
    ReadsChars (c :: chars) ((escapeChar c).toList ++ text) rest := by
  unfold escapeChar
  split_ifs with isQuote isBackslash isLine isTab isReturn isBackspace isFeed isControl
  · subst isQuote
    exact .mark rfl behind
  · subst isBackslash
    exact .mark rfl behind
  · subst isLine
    exact .mark rfl behind
  · subst isTab
    exact .mark rfl behind
  · subst isReturn
    exact .mark rfl behind
  · subst isBackspace
    exact .mark rfl behind
  · subst isFeed
    exact .mark rfl behind
  · obtain ⟨coded, four⟩ := code?_controlDigits isControl
    have shape : ("\\u" ++ controlDigits c).toList ++ text =
        '\\' :: 'u' :: ((controlDigits c).toList ++ text) := by simp
    rw [shape]
    refine .code ?_ ?_
    · rw [List.take_left' four, coded]
    · rwa [List.drop_left' four]
  · rw [String.toList_singleton]
    exact .plain isQuote isBackslash (by omega) behind

theorem readsChars_escaped (chars rest : List Char) :
    ReadsChars chars (chars.flatMap (fun c => (escapeChar c).toList) ++ '"' :: rest) rest := by
  induction chars with
  | nil => exact .close rest
  | cons c chars ih =>
    rw [List.flatMap_cons, List.append_assoc]
    exact readsChars_escapeChar c ih

theorem toList_quote (content : String) :
    (quote content).toList = '"' :: content.toList.flatMap (fun c => (escapeChar c).toList) ++ ['"'] := by
  simp [quote, List.flatMap_map]

theorem covers_quote (content : String) : Covers (readsString content) (quote content) := by
  intro blanks blank rest
  rw [toList_quote, List.cons_append, List.cons_append]
  refine ⟨_, skip_blanks blank (by decide) _, ?_⟩
  rw [List.append_assoc]
  exact readsChars_escaped _ _

theorem covers_word {word : String} {c : Char} {chars : List Char} (written : word.toList = c :: chars)
    (ink : isBlank c = false) : Covers (readsWord word) word := by
  intro blanks blank rest
  rw [readsWord, written, List.cons_append]
  exact skip_blanks blank ink _

theorem covers_field (key : String) {value : Reading} {line : String} (covers : Covers value line) :
    Covers (readsField key value) (quote key ++ ": " ++ line) := by
  intro blanks blank rest
  have shape : (quote key ++ ": " ++ line).toList ++ rest =
      (quote key).toList ++ ':' :: ([' '] ++ (line.toList ++ rest)) := by simp
  rw [shape]
  exact ⟨_, _, covers_quote key blank _, skip_cons (by decide) _,
    covers (List.forall_mem_singleton.2 rfl) rest⟩

theorem blank_of_mem_lineStart (level : Nat) : ∀ c ∈ (lineStart level).toList, isBlank c = true := by
  intro c member
  rw [lineStart, String.toList_ofList, List.mem_cons, List.mem_replicate] at member
  obtain rfl | ⟨-, rfl⟩ := member
  · rfl
  · rfl

theorem series_lines {closing : Char} (ink : isBlank closing = false) (level : Nat)
    {parts : List Reading} {lines : List String} (covers : List.Forall₂ Covers parts lines)
    {blanks : List Char} (blank : ∀ c ∈ blanks, isBlank c = true) (rest : List Char) :
    Series closing parts
      ((String.join (lines.map fun line => "," ++ lineStart level ++ line)).toList ++
        (blanks ++ closing :: rest)) rest := by
  induction covers with
  | nil => exact .close (skip_blanks blank ink rest)
  | @cons part line parts lines first _ ih =>
    rw [List.map_cons, String.join_cons]
    have shape : ∀ later : String, ("," ++ lineStart level ++ line ++ later).toList ++
        (blanks ++ closing :: rest) =
        ',' :: ((lineStart level).toList ++ (line.toList ++
          (later.toList ++ (blanks ++ closing :: rest)))) := by simp
    rw [shape]
    exact .part (skip_cons (by decide) _) (first (blank_of_mem_lineStart level) _) ih

theorem covers_block {bracket bracket' : String} {opening closing : Char}
    (opens : bracket.toList = [opening]) (closes : bracket'.toList = [closing])
    (ink : isBlank opening = false) (ink' : isBlank closing = false) (level : Nat)
    {parts : List Reading} {lines : List String} (covers : List.Forall₂ Covers parts lines) :
    Covers (Bracketed opening closing parts) (block bracket bracket' level lines) := by
  intro blanks blank rest
  cases covers with
  | nil =>
    have shape : (block bracket bracket' level []).toList ++ rest = opening :: closing :: rest := by
      simp [block, opens, closes]
    rw [shape]
    exact .empty (skip_blanks blank ink _) (skip_cons ink' rest)
  | @cons part line parts lines first later =>
    have shape : (block bracket bracket' level (line :: lines)).toList ++ rest =
        opening :: ((lineStart (level + 1)).toList ++ (line.toList ++
          ((String.join (lines.map fun line => "," ++ lineStart (level + 1) ++ line)).toList ++
            ((lineStart level).toList ++ closing :: rest)))) := by
      simp [block, opens, closes]
    rw [shape]
    exact .filled (skip_blanks blank ink _) (first (blank_of_mem_lineStart _) _)
      (series_lines ink' _ later (blank_of_mem_lineStart level) rest)

mutual

theorem covers_pretty (level : Nat) : (json : Json) → Covers (reads json) (pretty level json)
  | .bool true => by
    rw [reads, pretty]
    exact covers_word rfl (by decide)
  | .bool false => by
    rw [reads, pretty]
    exact covers_word rfl (by decide)
  | .string content => by
    rw [reads, pretty]
    exact covers_quote content
  | .array items => by
    rw [reads, pretty]
    exact covers_block rfl rfl (by decide) (by decide) level (covers_items (level + 1) items)
  | .object fields => by
    rw [reads, pretty]
    exact covers_block rfl rfl (by decide) (by decide) level (covers_fields (level + 1) fields)

theorem covers_items (level : Nat) :
    (items : List Json) → List.Forall₂ Covers (readsItems items) (prettyItems level items)
  | [] => .nil
  | item :: rest => .cons (covers_pretty level item) (covers_items level rest)

theorem covers_fields (level : Nat) : (fields : List (String × Json)) →
    List.Forall₂ Covers (readsFields fields) (prettyFields level fields)
  | [] => .nil
  | (key, value) :: rest =>
    .cons (covers_field key (covers_pretty level value)) (covers_fields level rest)

end

/-! ## A text denotes one value -/

/-- A text that reads as this member of a family reads as no other, and ends at one place. -/
def ReadsOnly {α : Type} (part : α → Reading) (member : α) : Prop :=
  ∀ ⦃text rest : List Char⦄, part member text rest → ∀ ⦃other : α⦄ ⦃rest' : List Char⦄,
    part other text rest' → other = member ∧ rest' = rest

theorem ReadsChars.unique {chars chars' text rest rest' : List Char} (read : ReadsChars chars text rest)
    (read' : ReadsChars chars' text rest') : chars' = chars ∧ rest' = rest := by
  induction read generalizing chars' with
  | close rest =>
    cases read' with
    | close => exact ⟨rfl, rfl⟩
    | plain noQuote => exact absurd rfl noQuote
  | plain noQuote noEscape _ _ ih =>
    cases read' with
    | close => exact absurd rfl noQuote
    | plain _ _ _ behind =>
      obtain ⟨rfl, rfl⟩ := ih behind
      exact ⟨rfl, rfl⟩
    | mark => exact absurd rfl noEscape
    | code => exact absurd rfl noEscape
  | mark marked _ ih =>
    cases read' with
    | plain _ noEscape => exact absurd rfl noEscape
    | mark marked' behind =>
      obtain ⟨rfl, rfl⟩ := ih behind
      rw [Option.some.inj (marked.symm.trans marked')]
      exact ⟨rfl, rfl⟩
    -- a code is marked by a letter that marks no single character
    | code => exact nomatch marked
  | code coded _ ih =>
    cases read' with
    | plain _ noEscape => exact absurd rfl noEscape
    | mark marked' => exact nomatch marked'
    | code coded' behind =>
      obtain ⟨rfl, rfl⟩ := ih behind
      rw [Char.toNat_inj.1 (Option.some.inj (coded.symm.trans coded'))]
      exact ⟨rfl, rfl⟩

theorem skip_unique {text inner inner' : List Char} {c c' : Char} (found : skip text = c :: inner)
    (found' : skip text = c' :: inner') : c' = c ∧ inner' = inner :=
  List.cons.inj (found'.symm.trans found)

theorem readsOnly_string (content : String) : ReadsOnly readsString content := by
  rintro text rest ⟨inner, opened, chars⟩ other rest' ⟨inner', opened', chars'⟩
  obtain ⟨-, rfl⟩ := skip_unique opened opened'
  obtain ⟨same, rfl⟩ := chars.unique chars'
  exact ⟨String.toList_inj.1 same, rfl⟩

section

variable {α : Type} {part : α → Reading} {members members' : List α} {opening closing : Char}
  {text rest rest' : List Char}

theorem Series.unique (apart : closing ≠ ',') (only : ∀ member ∈ members, ReadsOnly part member)
    (series : Series closing (members.map part) text rest)
    (series' : Series closing (members'.map part) text rest') : members' = members ∧ rest' = rest := by
  induction members generalizing members' text with
  | nil =>
    obtain ⟨closed⟩ := series
    cases members' with
    | nil =>
      obtain ⟨closed'⟩ := series'
      exact ⟨rfl, (skip_unique closed closed').2⟩
    | cons member' members' =>
      obtain - | ⟨comma', -, -⟩ := series'
      exact absurd (skip_unique comma' closed).1 apart
  | cons member members ih =>
    rw [List.forall_mem_cons] at only
    obtain - | ⟨comma, first, behind⟩ := series
    cases members' with
    | nil =>
      obtain ⟨closed'⟩ := series'
      exact absurd (skip_unique comma closed').1 apart
    | cons member' members' =>
      obtain - | ⟨comma', first', behind'⟩ := series'
      obtain ⟨-, rfl⟩ := skip_unique comma comma'
      obtain ⟨rfl, rfl⟩ := only.1 first first'
      obtain ⟨rfl, rfl⟩ := ih only.2 behind behind'
      exact ⟨rfl, rfl⟩

/-- No part may begin with the closing bracket, for brackets around such a part would read as empty. -/
theorem Bracketed.unique (apart : closing ≠ ',')
    (begins : ∀ member text rest, part member text rest → (skip text).head? ≠ some closing)
    (only : ∀ member ∈ members, ReadsOnly part member)
    (bracketed : Bracketed opening closing (members.map part) text rest)
    (bracketed' : Bracketed opening closing (members'.map part) text rest') :
    members' = members ∧ rest' = rest := by
  cases members with
  | nil =>
    obtain ⟨opened, closed⟩ := bracketed
    cases members' with
    | nil =>
      obtain ⟨opened', closed'⟩ := bracketed'
      obtain ⟨-, rfl⟩ := skip_unique opened opened'
      exact ⟨rfl, (skip_unique closed closed').2⟩
    | cons member' members' =>
      obtain - | ⟨opened', first', -⟩ := bracketed'
      obtain ⟨-, rfl⟩ := skip_unique opened opened'
      exact absurd (by rw [closed, List.head?_cons]) (begins _ _ _ first')
  | cons member members =>
    rw [List.forall_mem_cons] at only
    obtain - | ⟨opened, first, behind⟩ := bracketed
    cases members' with
    | nil =>
      obtain ⟨opened', closed'⟩ := bracketed'
      obtain ⟨-, rfl⟩ := skip_unique opened opened'
      exact absurd (by rw [closed', List.head?_cons]) (begins _ _ _ first)
    | cons member' members' =>
      obtain - | ⟨opened', first', behind'⟩ := bracketed'
      obtain ⟨-, rfl⟩ := skip_unique opened opened'
      obtain ⟨rfl, rfl⟩ := only.1 first first'
      obtain ⟨rfl, rfl⟩ := behind.unique apart only.2 behind'
      exact ⟨rfl, rfl⟩

end

/-- The first character of a value tells of which kind it is. -/
def firstChar : Json → Char
  | .bool true => 't'
  | .bool false => 'f'
  | .string _ => '"'
  | .array _ => '['
  | .object _ => '\x7b'

theorem Bracketed.head?_skip {opening closing : Char} {parts : List Reading} {text rest : List Char}
    (bracketed : Bracketed opening closing parts text rest) : (skip text).head? = some opening := by
  obtain ⟨opened, -⟩ | ⟨opened, -, -⟩ := bracketed
  · rw [opened, List.head?_cons]
  · rw [opened, List.head?_cons]

theorem head?_skip_of_reads {json : Json} {text rest : List Char} (read : reads json text rest) :
    (skip text).head? = some json.firstChar := by
  cases json with
  | bool value =>
    cases value with
    | true =>
      rw [reads, readsWord] at read
      rw [read]
      rfl
    | false =>
      rw [reads, readsWord] at read
      rw [read]
      rfl
  | string content =>
    rw [reads] at read
    obtain ⟨inner, opened, -⟩ := read
    rw [opened, List.head?_cons, firstChar]
  | array items =>
    rw [reads] at read
    exact read.head?_skip
  | object fields =>
    rw [reads] at read
    exact read.head?_skip

theorem firstChar_ne_close (json : Json) : json.firstChar ≠ ']' := by
  cases json with
  | bool value => cases value <;> simp [firstChar]
  | _ => simp [firstChar]

theorem firstChar_eq_of_reads {json json' : Json} {text rest rest' : List Char}
    (read : reads json text rest) (read' : reads json' text rest') : json'.firstChar = json.firstChar :=
  Option.some.inj ((head?_skip_of_reads read').symm.trans (head?_skip_of_reads read))

theorem readsItems_eq_map (items : List Json) : readsItems items = items.map reads := by
  induction items with
  | nil => rfl
  | cons item rest ih => rw [readsItems, ih, List.map_cons]

def readsEntry (entry : String × Json) : Reading :=
  readsField entry.1 (reads entry.2)

theorem readsFields_eq_map (fields : List (String × Json)) :
    readsFields fields = fields.map readsEntry := by
  induction fields with
  | nil => rfl
  | cons field rest ih =>
    obtain ⟨key, value⟩ := field
    rw [readsFields, ih, List.map_cons, readsEntry]

theorem head?_skip_of_readsEntry {entry : String × Json} {text rest : List Char}
    (read : readsEntry entry text rest) : (skip text).head? = some '"' := by
  obtain ⟨_, _, ⟨inner, opened, -⟩, -⟩ := read
  rw [opened, List.head?_cons]

theorem readsOnly_entry {entry : String × Json} (only : ReadsOnly reads entry.2) :
    ReadsOnly readsEntry entry := by
  rintro text rest ⟨behind, inner, key, colon, value⟩
  rintro other rest' ⟨behind', inner', key', colon', value'⟩
  obtain ⟨sameKey, rfl⟩ := readsOnly_string entry.1 key key'
  obtain ⟨-, rfl⟩ := skip_unique colon colon'
  obtain ⟨sameValue, rfl⟩ := only value value'
  exact ⟨Prod.ext sameKey sameValue, rfl⟩

theorem readsWord_unique {word : String} {text rest rest' : List Char} (read : readsWord word text rest)
    (read' : readsWord word text rest') : rest' = rest :=
  List.append_cancel_left (read'.symm.trans read)

mutual

theorem readsOnly : (json : Json) → ReadsOnly reads json
  | .bool true => by
    intro text rest read other rest' read'
    match other, firstChar_eq_of_reads read read' with
    | .bool true, _ =>
      rw [reads] at read read'
      exact ⟨rfl, readsWord_unique read read'⟩
  | .bool false => by
    intro text rest read other rest' read'
    match other, firstChar_eq_of_reads read read' with
    | .bool false, _ =>
      rw [reads] at read read'
      exact ⟨rfl, readsWord_unique read read'⟩
  | .string content => by
    intro text rest read other rest' read'
    match other, firstChar_eq_of_reads read read' with
    | .string content', _ =>
      rw [reads] at read read'
      obtain ⟨rfl, rfl⟩ := readsOnly_string content read read'
      exact ⟨rfl, rfl⟩
  | .array items => by
    intro text rest read other rest' read'
    match other, firstChar_eq_of_reads read read' with
    | .array items', _ =>
      rw [reads, readsItems_eq_map] at read read'
      have begins : ∀ item text rest, reads item text rest → (skip text).head? ≠ some ']' := by
        intro item text rest read
        rw [head?_skip_of_reads read]
        exact fun same => firstChar_ne_close item (Option.some.inj same)
      obtain ⟨rfl, rfl⟩ := read.unique (by decide) begins (readsOnly_items items) read'
      exact ⟨rfl, rfl⟩
  | .object fields => by
    intro text rest read other rest' read'
    match other, firstChar_eq_of_reads read read' with
    | .object fields', _ =>
      rw [reads, readsFields_eq_map] at read read'
      have begins : ∀ entry text rest, readsEntry entry text rest →
          (skip text).head? ≠ some '\x7d' := by
        intro entry text rest read
        rw [head?_skip_of_readsEntry read]
        decide
      obtain ⟨rfl, rfl⟩ := read.unique (by decide) begins (readsOnly_fields fields) read'
      exact ⟨rfl, rfl⟩

theorem readsOnly_items : (items : List Json) → ∀ item ∈ items, ReadsOnly reads item
  | [] => nofun
  | item :: rest => List.forall_mem_cons.2 ⟨readsOnly item, readsOnly_items rest⟩

theorem readsOnly_fields : (fields : List (String × Json)) →
    ∀ field ∈ fields, ReadsOnly readsEntry field
  | [] => nofun
  | (_, value) :: rest =>
    List.forall_mem_cons.2 ⟨readsOnly_entry (readsOnly value), readsOnly_fields rest⟩

end

/-- What is written for a value, with blanks behind it, denotes the value and no other. -/
theorem denotes_pretty_iff (level : Nat) (json : Json) {ending : String}
    (blank : ∀ c ∈ ending.toList, isBlank c = true) {other : Json} :
    Denotes (pretty level json ++ ending) other ↔ other = json := by
  have read : reads json (pretty level json ++ ending).toList ending.toList := by
    rw [String.toList_append]
    have covered := covers_pretty level json (List.forall_mem_nil _) ending.toList
    rwa [List.nil_append] at covered
  constructor
  · rintro ⟨rest, read', -⟩
    exact (readsOnly json read read').1
  · rintro rfl
    exact ⟨_, read, List.dropWhile_eq_nil_iff.2 blank⟩

end Json

end Sentential
