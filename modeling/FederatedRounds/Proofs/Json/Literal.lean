import FederatedRounds.Json.Printer
import FederatedRounds.Proofs.Json.Spelling

/-! The tokens of JSON text are written in one of their spellings: numbers of any length, and strings
of any characters. -/
namespace FederatedRounds.Json

theorem exponentText_spelling (e : Int) : ExponentSpelling (some e)
    ('e' :: (if e < 0 then '-' else '+') :: Digit.text (Digit.spell e.natAbs)) := by
  have nonempty := Digit.spell_ne_nil e.natAbs
  by_cases below : e < 0
  · have spelled := ExponentSpelling.minus (Or.inl rfl) nonempty
    have whole : -(e.natAbs : Int) = e := by omega
    rw [Digit.value_spell, whole] at spelled
    rw [if_pos below]
    exact spelled
  · have spelled := ExponentSpelling.plus (Or.inl rfl) nonempty
    have whole : (e.natAbs : Int) = e := by omega
    rw [Digit.value_spell, whole] at spelled
    rw [if_neg below]
    exact spelled

theorem numeralText_spelling (n : Numeral) : n.Spelling (numeralText n) := by
  obtain ⟨negative, whole, fraction, exponent⟩ := n
  unfold numeralText
  rw [List.append_assoc, List.append_assoc]
  cases exponent with
  | none => exact .intro .absent
  | some e => exact .intro (exponentText_spelling e)

/-- A piece of a literal that stands for a character. -/
inductive Spells : Char → Piece → Prop
  | char (c : Char) : Spells c (.char c)
  | unit (c : Char) (control : c.toNat < 0x20) : Spells c (.unit c.toNat)

theorem unit?_padded {n : Nat} (small : n < 0x20) : ∃ a b c d,
    Hexadecimal.padded 4 n = [a, b, c, d] ∧ unit? a b c d = some n := by
  refine ⟨_, _, _, _, rfl, ?_⟩
  interval_cases n <;> rfl

theorem escape_spelling (c : Char) : ∃ piece, Spells c piece ∧ piece.Spelling (escape c) := by
  unfold escape
  split
  case h_8 quote slash _ _ _ _ _ =>
    split
    · next control =>
      obtain ⟨_, _, _, _, padded, spelled⟩ := unit?_padded control
      rw [padded]
      exact ⟨.unit _, .unit c control, .unit spelled⟩
    · next visible => exact ⟨.char c, .char c, .plain visible quote slash⟩
  all_goals exact ⟨.char _, .char _, .letter rfl⟩

/-- The pieces of a literal that spell its text, one for each character. -/
theorem escapes_spelling (text : List Char) : ∃ found, List.Forall₂ Spells text found ∧
    PieceSpellings found (text.flatMap escape) := by
  induction text with
  | nil => exact ⟨[], .nil, .nil⟩
  | cons c text ih =>
    obtain ⟨found, spells, written⟩ := ih
    obtain ⟨piece, spelled, first⟩ := escape_spelling c
    exact ⟨piece :: found, .cons spelled spells, .cons first written⟩

/-- No control character is half of a pair of surrogates. -/
theorem assemble_spells {text : List Char} {found : List Piece}
    (spells : List.Forall₂ Spells text found) : assemble found = some text := by
  induction spells with
  | nil => rfl
  | @cons c piece text found spelled _ ih =>
    cases spelled with
    | char =>
      rw [assemble, ih]
      rfl
    | unit control =>
      have high : isHighSurrogate c.toNat = false := by
        simp only [isHighSurrogate, Bool.and_eq_false_iff, decide_eq_false_iff_not]
        omega
      have low : isLowSurrogate c.toNat = false := by
        simp only [isLowSurrogate, Bool.and_eq_false_iff, decide_eq_false_iff_not]
        omega
      have step : assemble (.unit c.toNat :: found) =
          (assemble found).map (Char.ofNat c.toNat :: ·) := by
        cases found with
        | nil => simp [assemble, high, low]
        | cons next others => cases next <;> simp [assemble, high, low]
      rw [step, ih, Char.ofNat_toNat]
      rfl

theorem quoted_spelling (text : Text) : (Token.string text).Spelling (quoted text) := by
  cases text with
  | none =>
    have unpaired : PieceSpellings [.unit 0xD800] ['\\', 'u', 'd', '8', '0', '0'] :=
      .cons (.unit rfl) .nil
    exact .string unpaired
  | some text =>
    obtain ⟨found, spells, written⟩ := escapes_spelling text.toList
    have spelled := Token.Spelling.string written
    rw [assemble_spells spells, Option.map_some, String.ofList_toList] at spelled
    exact spelled

theorem Token.text_spelling (token : Token) : token.Spelling token.text := by
  cases token with
  | number literal => exact .number (numeralText_spelling literal)
  | string text => exact quoted_spelling text
  | _ => exact .fixed rfl

end FederatedRounds.Json
