import FederatedRounds.Json.Token
import FederatedRounds.Json.Printer
import FederatedRounds.Proofs.Number.Digits
import Mathlib.Tactic.IntervalCases

/-! The spellings of JSON tokens. A number has digits without a leading zero, a fraction and an
exponent; the exponent may have leading zeros and a plus, and its mark may be a capital. A character
of a string stands for itself or is escaped by a letter or by number. Each spelling of a token is read
as that token, and nothing else is read as it. -/
namespace FederatedRounds

open Digit (Stops run_eq_iff)

/-- An exponent is spelled with a mark, a sign or none, and some digits. -/
inductive ExponentSpelling : Option Int → List Char → Prop
  | absent : ExponentSpelling none []
  | unsigned {mark : Char} {digits : List Digit} (marks : mark = 'e' ∨ mark = 'E')
      (nonempty : digits ≠ []) :
      ExponentSpelling (some (Digit.value digits)) (mark :: Digit.text digits)
  | plus {mark : Char} {digits : List Digit} (marks : mark = 'e' ∨ mark = 'E')
      (nonempty : digits ≠ []) :
      ExponentSpelling (some (Digit.value digits)) (mark :: '+' :: Digit.text digits)
  | minus {mark : Char} {digits : List Digit} (marks : mark = 'e' ∨ mark = 'E')
      (nonempty : digits ≠ []) :
      ExponentSpelling (some (-Digit.value digits)) (mark :: '-' :: Digit.text digits)

def fractionText (fraction : List Digit) : List Char :=
  if fraction.isEmpty then [] else '.' :: Digit.text fraction

inductive Numeral.Spelling (n : Numeral) : List Char → Prop
  | intro {exponent : List Char} (spelled : ExponentSpelling n.exponent exponent) :
      n.Spelling ((if n.negative then ['-'] else []) ++
        (Digit.text (Digit.spell n.whole) ++ (fractionText n.fraction ++ exponent)))

namespace Json

/-- The text does not go on with what could belong to a number. -/
structure Apart (text : List Char) : Prop where
  stops : Stops text
  unmarked : ∀ c ∈ text.head?, c ≠ '.' ∧ c ≠ 'e' ∧ c ≠ 'E'

section Numbers
open Digit

theorem stops_cons {c : Char} (other : ofChar? c = none) (rest : List Char) : Stops (c :: rest) := by
  rintro _ ⟨⟩
  exact other

theorem wholePart?_eq_some_iff {text rest : List Char} {n : Nat} :
    wholePart? text = some (n, rest) ↔ text = Digit.text (spell n) ++ rest ∧ Stops rest := by
  constructor
  · intro read
    unfold wholePart? at read
    split at read
    · cases read
    · next d rest found =>
      cases read
      obtain ⟨rfl, stops⟩ := run_eq_iff.mp found
      have spelled : spell (value [d]) = [d] := spell_value (List.cons_ne_nil _ _) (by simp)
      have single : value [d] = d.val := Nat.zero_add _
      rw [← single, spelled]
      exact ⟨rfl, stops⟩
    · next d ds rest _ found =>
      split at read
      · cases read
      · next leading =>
        cases read
        obtain ⟨rfl, stops⟩ := run_eq_iff.mp found
        rw [spell_value (List.cons_ne_nil _ _) (by rintro _ ⟨⟩; exact Or.inr leading)]
        exact ⟨rfl, stops⟩
  · rintro ⟨rfl, stops⟩
    have spelled := value_spell n
    unfold wholePart?
    rw [run_text_of_stops _ stops]
    cases front : spell n with
    | nil => exact absurd front (spell_ne_nil n)
    | cons d others =>
      rw [front] at spelled
      cases others with
      | nil =>
        have same : d.val = n := by
          rw [← spelled]
          exact (Nat.zero_add _).symm
        simp only [same]
      | cons e others =>
        have first : d ≠ 0 := (spell_head front).resolve_left (List.cons_ne_nil _ _)
        simp only [if_neg first, spelled]

theorem fractionPart?_text (fraction : List Digit) {rest : List Char} (stops : Stops rest)
    (undotted : ∀ c ∈ rest.head?, c ≠ '.') :
    fractionPart? (fractionText fraction ++ rest) = some (fraction, rest) := by
  cases fraction with
  | nil =>
    change fractionPart? rest = _
    unfold fractionPart?
    split
    · exact absurd rfl (undotted '.' rfl)
    · rfl
  | cons d others =>
    change fractionPart? ('.' :: (Digit.text (d :: others) ++ rest)) = _
    simp only [fractionPart?, run_text_of_stops (d :: others) stops]

/-- What is left after a fraction stops as well. -/
theorem text_of_fractionPart? {text rest : List Char} {fraction : List Digit} (stops : Stops text)
    (read : fractionPart? text = some (fraction, rest)) :
    text = fractionText fraction ++ rest ∧ Stops rest := by
  unfold fractionPart? at read
  split at read
  · split at read
    · cases read
    · next nonempty found =>
      cases read
      obtain ⟨rfl, after⟩ := run_eq_iff.mp found
      refine ⟨?_, after⟩
      cases fraction with
      | nil => exact absurd rfl nonempty
      | cons d others => rfl
  · cases read
    exact ⟨rfl, stops⟩

theorem exponentDigits?_text (negative : Bool) {digits : List Digit} (nonempty : digits ≠ [])
    {rest : List Char} (stops : Stops rest) :
    exponentDigits? negative (Digit.text digits ++ rest) =
      some (some (if negative then -(value digits : Int) else value digits), rest) := by
  unfold exponentDigits?
  rw [run_text_of_stops _ stops]
  cases digits with
  | nil => exact absurd rfl nonempty
  | cons d others => rfl

theorem text_of_exponentDigits? {negative : Bool} {text rest : List Char} {exponent : Option Int}
    (read : exponentDigits? negative text = some (exponent, rest)) :
    ∃ digits, digits ≠ [] ∧ text = Digit.text digits ++ rest ∧ Stops rest ∧
      exponent = some (if negative then -(value digits : Int) else value digits) := by
  unfold exponentDigits? at read
  split at read
  · cases read
  · next digits rest nonempty found =>
    cases read
    obtain ⟨rfl, stops⟩ := run_eq_iff.mp found
    exact ⟨digits, nonempty, rfl, stops, rfl⟩

/-- Without a sign, the digits follow on the mark. -/
theorem exponentPart?_digit {mark : Char} (marks : mark = 'e' ∨ mark = 'E') (d : Digit)
    (rest : List Char) :
    exponentPart? (mark :: d.char :: rest) = exponentDigits? false (d.char :: rest) := by
  obtain ⟨value, bound⟩ := d
  rcases marks with rfl | rfl <;> interval_cases value <;> rfl

theorem exponentPart?_text {exponent : Option Int} {text rest : List Char}
    (spelled : ExponentSpelling exponent text) (apart : Apart rest) :
    exponentPart? (text ++ rest) = some (exponent, rest) := by
  cases spelled with
  | absent =>
    change exponentPart? rest = _
    unfold exponentPart?
    split
    · next c tail =>
      obtain ⟨_, small, capital⟩ := apart.unmarked c rfl
      simp [small, capital]
    · next c tail =>
      obtain ⟨_, small, capital⟩ := apart.unmarked c rfl
      simp [small, capital]
    · next c tail _ _ =>
      obtain ⟨_, small, capital⟩ := apart.unmarked c rfl
      simp [small, capital]
    · rfl
  | @unsigned mark digits marks nonempty =>
    have read := exponentDigits?_text false nonempty apart.stops
    cases digits with
    | nil => exact absurd rfl nonempty
    | cons d others => exact (exponentPart?_digit marks d _).trans read
  | plus marks nonempty =>
    have read := exponentDigits?_text false nonempty apart.stops
    simp only [List.cons_append, exponentPart?, if_pos marks]
    exact read
  | minus marks nonempty =>
    have read := exponentDigits?_text true nonempty apart.stops
    simp only [List.cons_append, exponentPart?, if_pos marks]
    exact read

theorem text_of_exponentPart? {text rest : List Char} {exponent : Option Int} (stops : Stops text)
    (read : exponentPart? text = some (exponent, rest)) :
    ∃ front, ExponentSpelling exponent front ∧ text = front ++ rest ∧ Stops rest := by
  unfold exponentPart? at read
  split at read
  · next mark tail =>
    split at read
    · next marks =>
      obtain ⟨digits, nonempty, rfl, after, rfl⟩ := text_of_exponentDigits? read
      exact ⟨_, .minus marks nonempty, rfl, after⟩
    · cases read
      exact ⟨[], .absent, rfl, stops⟩
  · next mark tail =>
    split at read
    · next marks =>
      obtain ⟨digits, nonempty, rfl, after, rfl⟩ := text_of_exponentDigits? read
      exact ⟨_, .plus marks nonempty, rfl, after⟩
    · cases read
      exact ⟨[], .absent, rfl, stops⟩
  · next mark tail _ _ =>
    split at read
    · next marks =>
      obtain ⟨digits, nonempty, rfl, after, rfl⟩ := text_of_exponentDigits? read
      exact ⟨_, .unsigned marks nonempty, rfl, after⟩
    · cases read
      exact ⟨[], .absent, rfl, stops⟩
  · cases read
    exact ⟨[], .absent, rfl, stops⟩

theorem stops_exponentText {exponent : Option Int} {text rest : List Char}
    (spelled : ExponentSpelling exponent text) (apart : Apart rest) :
    Stops (text ++ rest) ∧ ∀ c ∈ (text ++ rest).head?, c ≠ '.' := by
  cases spelled with
  | absent => exact ⟨apart.stops, fun c first => (apart.unmarked c first).1⟩
  | unsigned marks | plus marks | minus marks =>
    rcases marks with rfl | rfl
    all_goals exact ⟨stops_cons rfl _, by rintro _ ⟨⟩; decide⟩

/-- A numeral without its sign. -/
theorem unsigned?_text (n : Numeral) {exponent rest : List Char}
    (spelled : ExponentSpelling n.exponent exponent) (apart : Apart rest) :
    unsigned? n.negative (Digit.text (spell n.whole) ++
      (fractionText n.fraction ++ (exponent ++ rest))) = some (n, rest) := by
  obtain ⟨stops, undotted⟩ := stops_exponentText spelled apart
  have fraction := fractionPart?_text n.fraction stops undotted
  have pointed : Stops (fractionText n.fraction ++ (exponent ++ rest)) := by
    unfold fractionText
    split
    · exact stops
    · exact stops_cons rfl _
  unfold unsigned?
  rw [wholePart?_eq_some_iff.mpr ⟨rfl, pointed⟩]
  simp only [Option.bind_eq_bind, Option.bind_some, fraction, exponentPart?_text spelled apart]
  rfl

theorem text_of_unsigned? {negative : Bool} {text rest : List Char} {n : Numeral}
    (read : unsigned? negative text = some (n, rest)) :
    ∃ exponent, ExponentSpelling n.exponent exponent ∧ n.negative = negative ∧ Stops rest ∧
      text = Digit.text (spell n.whole) ++ (fractionText n.fraction ++ (exponent ++ rest)) := by
  simp only [unsigned?, Option.bind_eq_bind, Option.bind_eq_some_iff, Option.pure_def,
    Option.some.injEq, Prod.mk.injEq, Prod.exists] at read
  obtain ⟨whole, _, whole_read, fraction, _, fraction_read, exponent, _, exponent_read, rfl, rfl⟩ :=
    read
  obtain ⟨rfl, stops⟩ := wholePart?_eq_some_iff.mp whole_read
  obtain ⟨rfl, behind⟩ := text_of_fractionPart? stops fraction_read
  obtain ⟨front, spelled, rfl, after⟩ := text_of_exponentPart? behind exponent_read
  exact ⟨front, spelled, rfl, after, rfl⟩

theorem next?_digit (d : Digit) (rest : List Char) :
    next? (d.char :: rest) =
      match unsigned? false (d.char :: rest) with
      | some (literal, rest) => some (.number literal, rest)
      | none => none := by
  obtain ⟨value, bound⟩ := d
  interval_cases value <;> rfl

theorem next?_minus (rest : List Char) :
    next? ('-' :: rest) =
      match unsigned? true rest with
      | some (literal, rest) => some (.number literal, rest)
      | none => none := rfl

theorem next?_numeral {n : Numeral} {text rest : List Char} (spelled : n.Spelling text)
    (apart : Apart rest) : next? (text ++ rest) = some (.number n, rest) := by
  obtain ⟨exponent⟩ := spelled
  have read := unsigned?_text n exponent apart
  simp only [List.append_assoc]
  cases sign : n.negative with
  | true =>
    rw [sign] at read
    rw [if_pos rfl, List.singleton_append, next?_minus, read]
  | false =>
    rw [sign] at read
    cases front : spell n.whole with
    | nil => exact absurd front (spell_ne_nil _)
    | cons d others =>
      rw [front] at read
      change next? (d.char :: _) = _
      rw [next?_digit]
      change (match unsigned? false (Digit.text (d :: others) ++ _) with
        | some (literal, rest) => some (Token.number literal, rest)
        | none => none) = _
      rw [read]

theorem text_of_numeral? {text rest : List Char} {n : Numeral}
    (read : numeral? text = some (n, rest)) :
    ∃ front, n.Spelling front ∧ text = front ++ rest ∧ Stops rest := by
  unfold numeral? at read
  split at read
  · obtain ⟨exponent, spelled, sign, stops, rfl⟩ := text_of_unsigned? read
    refine ⟨_, .intro spelled, ?_, stops⟩
    simp [sign]
  · obtain ⟨exponent, spelled, sign, stops, rfl⟩ := text_of_unsigned? read
    refine ⟨_, .intro spelled, ?_, stops⟩
    simp [sign]

end Numbers

/-- A character of a string stands for itself, or is escaped by a letter; a number of four
hexadecimal digits gives a unit. -/
inductive Piece.Spelling : Piece → List Char → Prop
  | plain {c : Char} (visible : ¬c.toNat < 0x20) (quote : c ≠ '"') (slash : c ≠ '\\') :
      Spelling (.char c) [c]
  | letter {letter c : Char} (stands : simpleEscape? letter = some c) :
      Spelling (.char c) ['\\', letter]
  | unit {a b c d : Char} {value : Nat} (spelled : unit? a b c d = some value) :
      Spelling (.unit value) ['\\', 'u', a, b, c, d]

inductive PieceSpellings : List Piece → List Char → Prop
  | nil : PieceSpellings [] []
  | cons {piece : Piece} {found : List Piece} {front rest : List Char}
      (spelled : piece.Spelling front) (others : PieceSpellings found rest) :
      PieceSpellings (piece :: found) (front ++ rest)

section Strings

theorem pieces_piece {piece : Piece} {text : List Char} (spelled : piece.Spelling text)
    (rest : List Char) :
    pieces (text ++ rest) = (pieces rest).map fun read => (piece :: read.1, read.2) := by
  cases spelled with
  | @plain c visible quote slash =>
    change pieces (c :: rest) = _
    rw [pieces, if_neg (not_or.mpr ⟨visible, slash⟩)]
    · cases pieces rest <;> rfl
    · exact fun same => absurd same quote
    · exact fun _ _ _ _ _ same => absurd same slash
    · exact fun _ _ same => absurd same slash
  | @letter letter c stands =>
    change pieces ('\\' :: letter :: rest) = _
    rw [pieces, stands]
    · cases pieces rest <;> rfl
    · rintro _ _ _ _ _ rfl
      cases stands
  | unit spelled =>
    change pieces ('\\' :: 'u' :: _ :: _ :: _ :: _ :: rest) = _
    rw [pieces, spelled]
    cases pieces rest <;> rfl

private theorem body_cons {piece : Piece} {front text rest : List Char} {found : List Piece}
    (spelled : piece.Spelling front)
    (others : ∃ body, PieceSpellings found body ∧ text = body ++ '"' :: rest) :
    ∃ body, PieceSpellings (piece :: found) body ∧ front ++ text = body ++ '"' :: rest := by
  obtain ⟨body, others, rfl⟩ := others
  exact ⟨front ++ body, .cons spelled others, (List.append_assoc _ _ _).symm⟩

theorem pieces_eq_some_iff {text rest : List Char} {found : List Piece} :
    pieces text = some (found, rest) ↔
      ∃ body, PieceSpellings found body ∧ text = body ++ '"' :: rest := by
  constructor
  · intro read
    fun_induction pieces text generalizing found rest with
    | case1 | case4 | case6 | case7 | case9 => cases read
    | case2 =>
      cases read
      exact ⟨[], .nil, rfl⟩
    | case3 a b c d tail value more after others number ih =>
      cases read
      exact body_cons (.unit number) (ih others)
    | case5 letter tail _ c more after others stands ih =>
      cases read
      exact body_cons (.letter stands) (ih others)
    | case8 c tail quote _ _ visible more after others ih =>
      cases read
      obtain ⟨visible, slash⟩ := not_or.mp visible
      exact body_cons (.plain visible quote slash) (ih others)
  · rintro ⟨body, spelled, rfl⟩
    induction spelled with
    | nil => rw [List.nil_append, pieces]
    | cons first _ ih =>
      rw [List.append_assoc, pieces_piece first, ih]
      rfl

end Strings

namespace Token

def isFixed : Token → Bool
  | number _ | string _ => false
  | _ => true

/-- Numbers and strings have many spellings, all other tokens one. A string in which the units do not
pair up has no text. -/
inductive Spelling : Token → List Char → Prop
  | fixed {token : Token} (one : token.isFixed = true) : Spelling token token.text
  | number {literal : Numeral} {text : List Char} (spelled : literal.Spelling text) :
      Spelling (.number literal) text
  | string {found : List Piece} {body : List Char} (spelled : PieceSpellings found body) :
      Spelling (.string ((assemble found).map String.ofList)) ('"' :: (body ++ ['"']))

end Token

theorem next?_spelling {token : Token} {text rest : List Char} (spelled : token.Spelling text)
    (apart : ∀ literal, token = .number literal → Apart rest) :
    next? (text ++ rest) = some (token, rest) := by
  cases spelled with
  | fixed one =>
    cases token with
    | boolean value => cases value <;> rfl
    | number literal | string text => cases one
    | _ => rfl
  | number spelled => exact next?_numeral spelled (apart _ rfl)
  | string spelled =>
    have read : pieces (_ ++ '"' :: rest) = some (_, rest) :=
      pieces_eq_some_iff.mpr ⟨_, spelled, rfl⟩
    rw [List.cons_append, List.append_assoc, List.singleton_append, next?, read]

theorem text_of_next? {token : Token} {text rest : List Char}
    (read : next? text = some (token, rest)) :
    ∃ front, token.Spelling front ∧ text = front ++ rest ∧
      ∀ literal, token = .number literal → Stops rest := by
  unfold next? at read
  split at read
  case h_10 body =>
    split at read
    · next found after pieces =>
      cases read
      obtain ⟨body, spelled, rfl⟩ := pieces_eq_some_iff.mp pieces
      exact ⟨_, .string spelled, by simp, nofun⟩
    · cases read
  case h_11 =>
    split at read
    · next literal after number =>
      cases read
      obtain ⟨front, spelled, rfl, stops⟩ := text_of_numeral? number
      exact ⟨front, .number spelled, rfl, fun _ _ => stops⟩
    · cases read
  all_goals
    cases read
    exact ⟨_, .fixed rfl, rfl, nofun⟩

private theorem digit_starts (d : Digit) :
    isBlank d.char = false ∧ d.char ≠ '.' ∧ d.char ≠ 'e' ∧ d.char ≠ 'E' := by
  revert d
  decide

/-- What a spelling starts with, which is no blank and does not go on a number. -/
theorem Token.Spelling.starts {token : Token} {text : List Char} (spelled : token.Spelling text) :
    ∃ c more, text = c :: more ∧ isBlank c = false ∧ c ≠ '.' ∧ c ≠ 'e' ∧ c ≠ 'E' := by
  cases spelled with
  | fixed one =>
    cases token with
    | boolean value => cases value <;> exact ⟨_, _, rfl, by decide⟩
    | number literal | string text => cases one
    | _ => exact ⟨_, _, rfl, by decide⟩
  | @number literal _ spelled =>
    obtain ⟨exponent⟩ := spelled
    cases literal.negative with
    | true => exact ⟨'-', _, rfl, by decide⟩
    | false =>
      cases front : Digit.spell literal.whole with
      | nil => exact absurd front (Digit.spell_ne_nil _)
      | cons d others => exact ⟨d.char, _, rfl, digit_starts d⟩
  | string spelled => exact ⟨_, _, rfl, by decide⟩

end Json
end FederatedRounds
