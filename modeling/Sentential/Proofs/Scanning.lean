import Sentential.Proofs.Spelling
import Mathlib.Data.List.Nodup
import Mathlib.Data.List.TakeWhile

/-! # Tokens and their places

A text is read piece by piece: a character that stands alone, or a whole run of word characters.  What
is said of every text is therefore proved along its pieces (`piece_induction`), with the tokens of the
rest read from the place where the piece ends (`Token.scanFrom`).

Every piece has a character and every character a byte, so the places of the tokens increase
(`Token.scanFrom_increasing`): no two tokens of a text stand at one place.
-/

namespace Sentential

theorem byteLength_append (first second : List Char) :
    byteLength (first ++ second) = byteLength first + byteLength second := by
  induction first with
  | nil => simp [byteLength]
  | cons c rest ih =>
    simp only [byteLength, List.cons_append, List.foldr_cons] at ih ⊢
    omega

/-! ## Piece by piece -/

/-- What holds of the empty text, and still holds when a character that stands alone or a whole run of
    word characters is put in front, holds of every text. -/
@[elab_as_elim]
theorem piece_induction {motive : List Char → Prop} (text : List Char) (nil : motive [])
    (single : ∀ c rest, isWordChar c = false → motive rest → motive (c :: rest))
    (run : ∀ run rest, run ≠ [] → (∀ c ∈ run, isWordChar c = true) →
      (∀ c ∈ rest.head?, isWordChar c = false) → motive rest → motive (run ++ rest)) :
    motive text := by
  match text with
  | [] => exact nil
  | c :: rest =>
    cases wordChar : isWordChar c with
    | false => exact single c rest wordChar (piece_induction rest nil single run)
    | true =>
      -- the run goes on to the first character that stands alone
      have first : (c :: rest).takeWhile isWordChar ≠ [] := by simp [wordChar]
      have ends := head?_dropWhile isWordChar (c :: rest)
      rw [← List.takeWhile_append_dropWhile (p := isWordChar) (l := c :: rest)]
      exact run _ _ first (fun other member => List.mem_takeWhile_imp member) ends
        (piece_induction _ nil single run)
termination_by text.length
decreasing_by
  · simp
  · have shorter := (List.dropWhile_suffix isWordChar (l := rest)).length_le
    simp only [List.dropWhile_cons, wordChar, if_true, List.length_cons]
    omega

namespace Token

def scanFrom (offset : Nat) (text : List Char) : List Token :=
  ofPieces offset (pieces text)

theorem scan_eq_scanFrom (text : String) : scan text = scanFrom 0 text.toList := rfl

@[simp] theorem scanFrom_nil (offset : Nat) : scanFrom offset [] = [] := rfl

theorem scanFrom_single (offset : Nat) {c : Char} (alone : isWordChar c = false) (rest : List Char) :
    scanFrom offset (c :: rest) =
      ((Lexeme.ofChar? c).map fun lexeme => ⟨lexeme, offset⟩).toList ++
        scanFrom (offset + c.utf8Size) rest := by
  have place : offset + byteLength [c] = offset + c.utf8Size := rfl
  simp only [scanFrom, pieces_single alone, ofPieces, Lexeme.ofPiece?, alone, Bool.false_eq_true,
    if_false, place]
  cases Lexeme.ofChar? c <;> rfl

theorem scanFrom_run (offset : Nat) {run rest : List Char} (nonempty : run ≠ [])
    (word : ∀ c ∈ run, isWordChar c = true) (ends : ∀ c ∈ rest.head?, isWordChar c = false) :
    scanFrom offset (run ++ rest) =
      ⟨.ofRun run, offset⟩ :: scanFrom (offset + byteLength run) rest := by
  have piece : Lexeme.ofPiece? run = some (.ofRun run) := by
    cases run with
    | nil => exact absurd rfl nonempty
    | cons c run => rw [Lexeme.ofPiece?, if_pos (word c (.head _))]
  simp only [scanFrom, pieces_run nonempty word ends, ofPieces, piece]

/-- A character that stands alone belongs to no token of what is before it. -/
theorem scanFrom_append_single (offset : Nat) (text : List Char) {c : Char}
    (alone : isWordChar c = false) (rest : List Char) :
    scanFrom offset (text ++ c :: rest) =
      scanFrom offset text ++ scanFrom (offset + byteLength text) (c :: rest) := by
  induction text using piece_induction generalizing offset with
  | nil => rfl
  | single first text firstAlone ih =>
    have place : offset + first.utf8Size + byteLength text = offset + byteLength (first :: text) :=
      Nat.add_assoc _ _ _
    rw [List.cons_append, scanFrom_single offset firstAlone, scanFrom_single offset firstAlone, ih,
      place, List.append_assoc]
  | run run text nonempty word ends ih =>
    have ends' : ∀ c' ∈ (text ++ c :: rest).head?, isWordChar c' = false := by
      cases text with
      | nil => simpa using alone
      | cons next text => simpa using ends
    rw [List.append_assoc, scanFrom_run offset nonempty word ends', scanFrom_run offset nonempty word ends,
      ih, Nat.add_assoc, ← byteLength_append, List.cons_append]

/-! ## What the tokens say -/

end Token

def lexemes (text : List Char) : List Lexeme :=
  (pieces text).filterMap Lexeme.ofPiece?

theorem map_lexeme_ofPieces (offset : Nat) (pieces : List (List Char)) :
    (Token.ofPieces offset pieces).map Token.lexeme = pieces.filterMap Lexeme.ofPiece? := by
  induction pieces generalizing offset with
  | nil => rfl
  | cons piece rest ih =>
    cases read : Lexeme.ofPiece? piece <;> simp [Token.ofPieces, read, ih]

theorem map_lexeme_scanFrom (offset : Nat) (text : List Char) :
    (Token.scanFrom offset text).map Token.lexeme = lexemes text :=
  map_lexeme_ofPieces offset (pieces text)

@[simp] theorem lexemes_nil : lexemes [] = [] := rfl

theorem lexemes_single {c : Char} (alone : isWordChar c = false) (rest : List Char) :
    lexemes (c :: rest) = (Lexeme.ofChar? c).toList ++ lexemes rest := by
  rw [← map_lexeme_scanFrom 0, Token.scanFrom_single 0 alone, List.map_append, map_lexeme_scanFrom]
  cases Lexeme.ofChar? c <;> rfl

theorem lexemes_run {run rest : List Char} (nonempty : run ≠ [])
    (word : ∀ c ∈ run, isWordChar c = true) (ends : ∀ c ∈ rest.head?, isWordChar c = false) :
    lexemes (run ++ rest) = .ofRun run :: lexemes rest := by
  rw [← map_lexeme_scanFrom 0, Token.scanFrom_run 0 nonempty word ends, List.map_cons,
    map_lexeme_scanFrom]

theorem lexemes_append_single (text : List Char) {c : Char} (alone : isWordChar c = false)
    (rest : List Char) : lexemes (text ++ c :: rest) = lexemes text ++ lexemes (c :: rest) := by
  rw [← map_lexeme_scanFrom 0, Token.scanFrom_append_single 0 text alone, List.map_append,
    map_lexeme_scanFrom, map_lexeme_scanFrom]

namespace Token

/-! ## Places increase -/

theorem byteLength_pos {text : List Char} (nonempty : text ≠ []) : 0 < byteLength text := by
  cases text with
  | nil => exact absurd rfl nonempty
  | cons c rest =>
    have positive := c.utf8Size_pos
    simp only [byteLength, List.foldr_cons]
    omega

theorem le_offset_of_mem_scanFrom {offset : Nat} {text : List Char} {token : Token}
    (member : token ∈ scanFrom offset text) : offset ≤ token.offset := by
  induction text using piece_induction generalizing offset with
  | nil => simp at member
  | single c rest alone ih =>
    rw [scanFrom_single offset alone, List.mem_append] at member
    rcases member with here | later
    · obtain ⟨lexeme, -, rfl⟩ : ∃ lexeme, Lexeme.ofChar? c = some lexeme ∧ ⟨lexeme, offset⟩ = token := by
        simpa using here
      exact Nat.le_refl _
    · exact Nat.le_trans (Nat.le_add_right _ _) (ih later)
  | run run rest nonempty word ends ih =>
    rw [scanFrom_run offset nonempty word ends] at member
    rcases List.mem_cons.1 member with rfl | later
    · exact Nat.le_refl _
    · exact Nat.le_trans (Nat.le_add_right _ _) (ih later)

/-- The tokens of a text stand one after the other. -/
theorem scanFrom_increasing (offset : Nat) (text : List Char) :
    (scanFrom offset text).Pairwise fun first second => first.offset < second.offset := by
  induction text using piece_induction generalizing offset with
  | nil => exact .nil
  | single c rest alone ih =>
    have positive := c.utf8Size_pos
    rw [scanFrom_single offset alone]
    cases Lexeme.ofChar? c with
    | none => exact ih _
    | some lexeme =>
      refine List.pairwise_cons.2 ⟨fun token later => ?_, ih _⟩
      have behind := le_offset_of_mem_scanFrom later
      simp only
      omega
  | run run rest nonempty word ends ih =>
    have positive := byteLength_pos nonempty
    rw [scanFrom_run offset nonempty word ends]
    refine List.pairwise_cons.2 ⟨fun token later => ?_, ih _⟩
    have behind := le_offset_of_mem_scanFrom later
    simp only
    omega

/-- Two tokens of a text at one place are the same token. -/
theorem eq_of_offset_eq {text : String} {first second : Token} (inText : first ∈ scan text)
    (inText' : second ∈ scan text) (same : first.offset = second.offset) : first = second := by
  have distinct : ((scan text).map Token.offset).Nodup :=
    List.pairwise_map.2 ((scanFrom_increasing 0 text.toList).imp Nat.ne_of_lt)
  exact List.inj_on_of_nodup_map distinct inText inText' same

end Token

end Sentential
