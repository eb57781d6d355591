import Sentential.Proofs.RoundTrip

/-! # Layouts list their entries

What is listed has itself as its layout.  Here the converse: the layout of entries that begin above the
ground lists them (`Layout.listed_ofEntries`).  An entry goes to the end of the innermost list that is
still open, and opens groups where it stands deeper; what is wrapped on the way down is not empty.  So
each entry that is read is listed after the others, in phrases without empty groups and without groups
side by side.

Entries are then read as a formula exactly if they begin above the ground and list phrases that the
grammar derives (`Formula.ofEntries_eq_ok_iff`).
-/

namespace Sentential

open Token (shift)

/-! ## Reading one more entry -/

/-- A word or an operator as a token, and the phrase that it is inserted as. -/
inductive Token.ReadAs : Token → Phrase → Prop
  | word (name : String) (offset : Nat) : ReadAs ⟨.word name, offset⟩ (.word name)
  | operator (connective : Connective) (offset : Nat) :
      ReadAs ⟨.operator connective, offset⟩ (.operator connective offset)

namespace Token.ReadAs

theorem of_noParen {token : Token} (noParen : token.lexeme.isParen = false) :
    ∃ phrase, token.ReadAs phrase := by
  obtain ⟨lexeme, offset⟩ := token
  cases lexeme with
  | word name => exact ⟨_, .word name offset⟩
  | operator connective => exact ⟨_, .operator connective offset⟩
  | openParen => simp [Lexeme.isParen] at noParen
  | closeParen => simp [Lexeme.isParen] at noParen

variable {token : Token} {phrase : Phrase} (readAs : token.ReadAs phrase)

include readAs

theorem ne_group (members : List Phrase) : phrase ≠ .group members := by
  cases readAs <;> simp

theorem read_eq (layout : Layout) (balance : Int) :
    layout.read (token, balance) = layout.insert balance phrase := by
  cases readAs <;> rfl

theorem listed {balance : Int} {phrases : List Phrase} {entries : List (Token × Int)}
    (later : Listed balance phrases entries) :
    Listed balance (phrase :: phrases) ((token, balance) :: entries) := by
  cases readAs with
  | word name offset => exact later.word name offset
  | operator connective offset => exact later.operator connective offset

end Token.ReadAs

theorem Phrase.insertAt_cons_of_ne_group (phrase : Phrase) (depth : Nat) {first : Phrase}
    (noGroup : ∀ members, first ≠ .group members) (others : List Phrase) :
    phrase.insertAt depth (first :: others) = first :: phrase.insertAt depth others := by
  cases others with
  | cons next rest => exact phrase.insertAt_cons depth first (by simp)
  | nil =>
    cases depth with
    | zero => rfl
    | succ depth =>
      rw [insertAt_succ_of_not_group _ _ _ (by simpa using noGroup), insertAt_nil, insertAt_nil]
      rfl

namespace Listed

variable {balance : Int} {phrases : List Phrase} {entries : List (Token × Int)}

theorem wrap (count : Nat) (listed : Listed (balance + count) phrases entries)
    (nonempty : phrases ≠ []) : Listed balance (Phrase.wrap count phrases) entries := by
  induction count generalizing balance with
  | zero => simpa [Phrase.wrap] using listed
  | succ count ih =>
    have deeper : balance + (count + 1 : Nat) = balance + 1 + count := by omega
    have inner := ih (deeper ▸ listed)
    have there : Phrase.wrap count phrases ≠ [] := by
      cases count with
      | zero => exact nonempty
      | succ count => simp [Phrase.wrap]
    simpa [Phrase.wrap] using Listed.group there inner (by simp) .nil

theorem shift (c : Int) (listed : Listed balance phrases entries) :
    Listed (balance + c) phrases (Token.shift c entries) := by
  induction listed with
  | nil => exact .nil
  | word name offset later ih => exact ih.word name offset
  | operator connective offset later ih => exact ih.operator connective offset
  | @group balance members phrases inner entries nonempty innerListed apart later innerIh ih =>
    have deeper : balance + 1 + c = balance + c + 1 := by omega
    rw [Token.shift, List.map_append]
    exact .group nonempty (deeper ▸ innerIh) apart ih

theorem insertAt {token : Token} {phrase : Phrase} (readAs : token.ReadAs phrase)
    (listed : Listed balance phrases entries) (depth : Nat) :
    Listed balance (phrase.insertAt depth phrases) (entries ++ [(token, balance + depth)]) := by
  -- only the last phrase matters: a group takes in what stands deeper, and nothing else is changed
  induction listed generalizing depth with
  | nil =>
    rw [Phrase.insertAt_nil]
    exact (readAs.listed .nil).wrap depth (by simp)
  | word name offset later ih =>
    rw [Phrase.insertAt_cons_of_ne_group _ _ (by simp)]
    exact (ih depth).word name offset
  | operator connective offset later ih =>
    rw [Phrase.insertAt_cons_of_ne_group _ _ (by simp)]
    exact (ih depth).operator connective offset
  | @group balance members phrases inner entries nonempty innerListed apart later innerIh ih =>
    cases phrases with
    | cons next rest =>
      -- what comes after the group is no group, and stays where it is
      have noGroup : ∀ members', next ≠ .group members' := by simpa using apart
      rw [Phrase.insertAt_cons _ _ _ (by simp), List.append_assoc]
      refine .group nonempty innerListed ?_ (ih depth)
      rw [Phrase.insertAt_cons_of_ne_group _ _ noGroup]
      simpa using noGroup
    | nil =>
      cases later
      rw [List.append_nil]
      cases depth with
      | zero =>
        have behind : Listed balance [phrase] [(token, balance)] := readAs.listed .nil
        rw [Int.natCast_zero, Int.add_zero]
        exact .group nonempty innerListed (by simpa using readAs.ne_group) behind
      | succ depth =>
        have deeper : balance + (depth + 1 : Nat) = balance + 1 + depth := by omega
        have inside := Phrase.insertAt_succ_group phrase depth [] members
        rw [List.nil_append] at inside
        rw [inside, deeper]
        simpa using Listed.group (phrase.insertAt_ne_nil depth members) (innerIh depth) (by simp) .nil

end Listed

namespace Layout

theorem listed_read {layout : Layout} {entries : List (Token × Int)} {entry : Token × Int}
    (listed : Listed layout.floor layout.context entries)
    (noParen : entry.1.lexeme.isParen = false)
    (there : layout.context ≠ [] ∨ layout.floor ≤ entry.2) :
    Listed (layout.read entry).floor (layout.read entry).context (entries ++ [entry]) := by
  obtain ⟨context, floor⟩ := layout
  obtain ⟨token, balance⟩ := entry
  obtain ⟨phrase, readAs⟩ := Token.ReadAs.of_noParen noParen
  rw [readAs.read_eq]
  obtain ⟨count, wrapped⟩ : ∃ count, (floor - balance).toNat = count := ⟨_, rfl⟩
  -- an entry below the floor wraps what there is, and then stands at the floor itself
  have lowered : Listed (floor - count) (Phrase.wrap count context) entries := by
    cases count with
    | zero => simpa [Phrase.wrap] using listed
    | succ count =>
      have nonempty : context ≠ [] := there.resolve_right (by simp only; omega)
      have whole : floor - (count + 1 : Nat) + (count + 1 : Nat) = floor := by omega
      exact Listed.wrap _ (whole.symm ▸ listed) nonempty
  have level : floor - count + ((balance - (floor - count)).toNat : Int) = balance := by omega
  have added := lowered.insertAt readAs (balance - (floor - count)).toNat
  rw [level] at added
  simpa only [insert, lower, put, wrapped] using added

theorem context_read_ne_nil (layout : Layout) {entry : Token × Int}
    (noParen : entry.1.lexeme.isParen = false) : (layout.read entry).context ≠ [] := by
  obtain ⟨token, balance⟩ := entry
  obtain ⟨phrase, readAs⟩ := Token.ReadAs.of_noParen noParen
  rw [readAs.read_eq]
  exact phrase.insertAt_ne_nil _ _

theorem listed_foldl_read {layout : Layout} {done : List (Token × Int)} (entries : List (Token × Int))
    (listed : Listed layout.floor layout.context done) (there : layout.context ≠ [])
    (noParens : ∀ entry ∈ entries, entry.1.lexeme.isParen = false) :
    Listed (entries.foldl read layout).floor (entries.foldl read layout).context (done ++ entries) := by
  induction entries generalizing layout done with
  | nil => simpa using listed
  | cons entry rest ih =>
    obtain ⟨noParen, later⟩ := List.forall_mem_cons.1 noParens
    have next := listed_read listed noParen (.inl there)
    simpa using ih next (context_read_ne_nil layout noParen) later

/-- The layout of entries that begin above the ground lists them. -/
theorem listed_ofEntries {entries : List (Token × Int)}
    (noParens : ∀ entry ∈ entries, entry.1.lexeme.isParen = false)
    (ground : ∀ entry ∈ entries.head?, 0 ≤ entry.2) :
    Listed (ofEntries entries).floor (ofEntries entries).context entries := by
  cases entries with
  | nil => exact .nil
  | cons entry rest =>
    obtain ⟨noParen, later⟩ := List.forall_mem_cons.1 noParens
    have above : empty.floor ≤ entry.2 := ground entry rfl
    have first := listed_read .nil noParen (.inr above)
    exact listed_foldl_read rest first (context_read_ne_nil empty noParen) later

theorem floor_foldl_read {layout : Layout} {entries : List (Token × Int)}
    (above : ∀ entry ∈ entries, layout.floor ≤ entry.2) :
    (entries.foldl read layout).floor = layout.floor := by
  induction entries generalizing layout with
  | nil => rfl
  | cons entry rest ih =>
    obtain ⟨here, later⟩ := List.forall_mem_cons.1 above
    have kept := floor_read_of_le layout entry here
    rw [List.foldl_cons, ih (by rwa [kept]), kept]

end Layout

/-! ## What is read as a formula -/

namespace Formula

theorem ofEntries_of_listed {floor : Int} {phrases : List Phrase} {entries : List (Token × Int)}
    {formula : Formula} (listed : Listed floor phrases entries)
    (derives : Derives ladder phrases formula) (ground : ∀ entry ∈ entries.head?, 0 ≤ entry.2) :
    ofEntries entries = .ok formula := by
  -- moved to the ground, the entries are those of the phrases themselves
  have moved := listed.shift (-floor)
  rw [Int.add_right_neg] at moved
  have layout : (Layout.ofEntries (shift (-floor) entries)).context = phrases := by
    rw [Layout.ofEntries, Layout.empty, moved.foldl_read [] (.inl (by simp)), List.nil_append]
  rw [← ofEntries_shift (-floor), ofEntries, layout, ofPhrases_eq_ok_iff]
  · exact derives
  · intro entry first
    obtain ⟨above, noParen⟩ := listed.entry_above entry (List.mem_of_mem_head? first)
    exact ⟨noParen, ground entry first, by omega⟩

theorem derives_of_ofEntries {entries : List (Token × Int)} {formula : Formula}
    (read : ofEntries entries = .ok formula) :
    Derives ladder (Layout.ofEntries entries).context formula :=
  (ofPhrases_eq_ok_iff _ formula).1 read

/-- Entries are read as a formula exactly if they begin above the ground and list phrases that derive
    it. -/
theorem ofEntries_eq_ok_iff {entries : List (Token × Int)} {formula : Formula}
    (noParens : ∀ entry ∈ entries, entry.1.lexeme.isParen = false) :
    ofEntries entries = .ok formula ↔ (∀ entry ∈ entries.head?, 0 ≤ entry.2) ∧
      ∃ floor phrases, Listed floor phrases entries ∧ Derives ladder phrases formula := by
  constructor
  · intro read
    have ground := ground_of_ofEntries_ok read noParens
    exact ⟨ground, _, _, Layout.listed_ofEntries noParens ground, derives_of_ofEntries read⟩
  · rintro ⟨ground, floor, phrases, listed, derives⟩
    exact ofEntries_of_listed listed derives ground

end Formula

end Sentential
