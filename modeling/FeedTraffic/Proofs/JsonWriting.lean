import FeedTraffic.Json.Writer
import FeedTraffic.Proofs.PageTexts

/-!
# What is written is read back

A written value is a text of a value, and no string in it can end early.  The value is the same
up to the spelling of strings: a control character for which there is no letter is written by its
number, and that is how it is read.  The strings themselves come back as they were.
-/

namespace FeedTraffic.Json

/-! ## Strings -/

/-- A piece the way it is written: a control character without a letter by its number. -/
def Piece.written : Piece → Piece
  | .char c => if c.toNat < 0x20 ∧ letters.lookup c = none then .unit c.toNat else .char c
  | .unit n => .unit n

theorem charText_letter : ∀ p ∈ letters, p.1.toNat < 0x20 → charText p.1 = ['\\', p.2] := by
  decide

theorem charText_number : ∀ n < 0x20, letters.lookup (Char.ofNat n) = none →
    charText (Char.ofNat n) =
      ['\\', 'u', Nat.digitChar 0, Nat.digitChar 0, Nat.digitChar (n / 16),
        Nat.digitChar (n % 16)] := by
  decide

theorem isPiece_charText (c : Char) : IsPiece (Piece.written (.char c)) (charText c) := by
  by_cases control : c.toNat < 0x20
  · cases found : letters.lookup c with
    | some l =>
      have listed : (c, l) ∈ letters := by
        obtain ⟨before, after, parts, -⟩ := List.lookup_eq_some_iff.mp found
        simp [parts]
      have text : charText c = ['\\', l] := charText_letter (c, l) listed control
      have same : Piece.written (.char c) = .char c := by simp [Piece.written, found]
      rw [same, text]
      exact .letter listed
    | none =>
      have text := charText_number c.toNat control
      rw [Char.ofNat_toNat] at text
      have number : Piece.written (.char c) =
          .unit (((0 * 16 + 0) * 16 + c.toNat / 16) * 16 + c.toNat % 16) := by
        rw [Piece.written, if_pos ⟨control, found⟩]
        congr 1
        omega
      rw [number, text found]
      exact .number (.lower (by decide)) (.lower (by decide)) (.lower (by omega))
        (.lower (by omega))
  · have same : Piece.written (.char c) = .char c := by simp [Piece.written, control]
    rw [same]
    by_cases quote : c = '"'
    · subst quote
      exact .letter (by decide)
    by_cases backslash : c = '\\'
    · subst backslash
      exact .letter (by decide)
    have text : charText c = [c] := by
      rw [charText.eq_def]
      split
      case h_1 => exact absurd rfl quote
      case h_2 => exact absurd rfl backslash
      case h_8 => exact if_neg control
      all_goals exact absurd (by decide) control
    rw [text]
    exact .literal quote backslash (by omega)

theorem arePieces_written {ps : List Piece} (chars : ∀ p ∈ ps, ∃ c, p = .char c) :
    ArePieces (ps.map Piece.written) (ps.flatMap pieceText) := by
  induction ps with
  | nil => exact .nil
  | cons p ps ih =>
    obtain ⟨c, rfl⟩ := chars p List.mem_cons_self
    exact .cons (isPiece_charText c) (ih fun q member => chars q (List.mem_cons_of_mem _ member))

/-- Written or not, the pieces of a text are that text. -/
theorem spells_written (cs : List Char) : Spells cs ((cs.map .char).map Piece.written) := by
  induction cs with
  | nil => exact .nil
  | cons c cs ih =>
    simp only [List.map_cons, Piece.written]
    split
    · rename_i control
      exact .number (by omega) ih
    · exact .char ih

/-! ## Values -/

mutual

/-- A value with its strings the way they are written. -/
def written : Json → Json
  | .null => .null
  | .bool b => .bool b
  | .number ds => .number ds
  | .text ps => .text (ps.map Piece.written)
  | .array items => .array (writtenItems items)
  | .object members => .object (writtenMembers members)

def writtenItems : List Json → List Json
  | [] => []
  | v :: vs => written v :: writtenItems vs

def writtenMembers : List (List Piece × Json) → List (List Piece × Json)
  | [] => []
  | (k, v) :: ms => (k.map Piece.written, written v) :: writtenMembers ms

end

mutual

/-- A value whose numbers are spelled as numbers and whose strings are made of characters. -/
def IsPlain : Json → Prop
  | .null => True
  | .bool _ => True
  | .number ds => IsNumber ds
  | .text ps => ∀ p ∈ ps, ∃ c, p = .char c
  | .array items => ArePlainItems items
  | .object members => ArePlainMembers members

def ArePlainItems : List Json → Prop
  | [] => True
  | v :: vs => IsPlain v ∧ ArePlainItems vs

def ArePlainMembers : List (List Piece × Json) → Prop
  | [] => True
  | (k, v) :: ms => (∀ p ∈ k, ∃ c, p = .char c) ∧ IsPlain v ∧ ArePlainMembers ms

end

/-- Items behind the first, each behind a comma. -/
theorem itemsText_cons (v : Json) (vs : List Json) :
    itemsText (v :: vs) = chars v ++ vs.flatMap fun w => ',' :: chars w := by
  induction vs generalizing v with
  | nil => simp [itemsText]
  | cons w vs ih => simp [itemsText, ih w]

theorem membersText_cons (k : List Piece) (v : Json) (ms : List (List Piece × Json)) :
    membersText ((k, v) :: ms) = stringText k ++ ':' :: chars v ++
      ms.flatMap fun m => ',' :: (stringText m.1 ++ ':' :: chars m.2) := by
  induction ms generalizing k v with
  | nil => simp [membersText]
  | cons m ms ih => simp [membersText, ih m.1 m.2]

theorem no_blanks : Blanks [] := nofun

theorem isMember_written {k : List Piece} {v : Json} {cs : List Char}
    (key : ∀ p ∈ k, ∃ c, p = .char c) (value : IsText v cs) :
    IsMember (k.map Piece.written, v) (stringText k ++ ':' :: cs) := by
  have whole := IsMember.mk no_blanks (arePieces_written key) no_blanks value
  simpa [stringText] using whole

mutual

/-- What is written is a text of the value, without any blanks. -/
theorem isText_chars {v : Json} (plain : IsPlain v) : IsText (written v) v.chars := by
  cases v with
  | null => exact IsText.null no_blanks
  | bool b =>
    cases b with
    | false => exact IsText.false no_blanks
    | true => exact IsText.true no_blanks
  | number ds => exact IsText.number no_blanks plain
  | text ps => exact IsText.text no_blanks (arePieces_written plain)
  | array items =>
    cases items with
    | nil => exact IsText.noItems no_blanks no_blanks
    | cons v vs =>
      have whole := IsText.array no_blanks (isText_chars plain.1) (furtherItems_chars plain.2)
        no_blanks
      simpa [chars, itemsText_cons, written, writtenItems] using whole
  | object members =>
    cases members with
    | nil => exact IsText.noMembers no_blanks no_blanks
    | cons m ms =>
      obtain ⟨k, v⟩ := m
      have whole := IsText.object no_blanks (isMember_written plain.1 (isText_chars plain.2.1))
        (furtherMembers_chars plain.2.2) no_blanks
      simpa [chars, membersText_cons, written, writtenMembers] using whole

theorem furtherItems_chars {vs : List Json} (plain : ArePlainItems vs) :
    FurtherItems (writtenItems vs) (vs.flatMap fun w => ',' :: chars w) := by
  cases vs with
  | nil => exact .none
  | cons v vs =>
    exact FurtherItems.more no_blanks (isText_chars plain.1) (furtherItems_chars plain.2)

theorem furtherMembers_chars {ms : List (List Piece × Json)} (plain : ArePlainMembers ms) :
    FurtherMembers (writtenMembers ms)
      (ms.flatMap fun m => ',' :: (stringText m.1 ++ ':' :: chars m.2)) := by
  cases ms with
  | nil => exact .none
  | cons m ms =>
    obtain ⟨k, v⟩ := m
    exact FurtherMembers.more no_blanks (isMember_written plain.1 (isText_chars plain.2.1))
      (furtherMembers_chars plain.2.2)

end

theorem isDocument_toText {v : Json} (plain : IsPlain v) : IsDocument (written v) v.toText := by
  refine ⟨v.chars, [], isText_chars plain, no_blanks, ?_⟩
  rw [toText, String.toList_ofList, List.append_nil]

/-- A value that was written is read the way it was written. -/
theorem ofText?_toText {v : Json} (plain : IsPlain v) : ofText? v.toText = some (written v) :=
  ofText?_of_isDocument (isDocument_toText plain)

end FeedTraffic.Json
