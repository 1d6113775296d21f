import FederatedRounds.Proofs.Json.Reading
import FederatedRounds.Proofs.Json.Spelling

/-! The texts of a JSON value. A text is a row of spelled tokens with any blanks around them, and the
reader accepts it just when these are the tokens of a value. -/
namespace FederatedRounds.Json
open Digit (Stops)

/-- A text that consists of tokens, each in one of its spellings, with blanks before, between and
after them. No digit follows a number, as it would belong to it. -/
inductive Laid : List Token → List Char → Prop
  | done : Laid [] []
  | blank {c : Char} {tokens : List Token} {text : List Char} (mark : isBlank c = true)
      (rest : Laid tokens text) : Laid tokens (c :: text)
  | token {token : Token} {front : List Char} {tokens : List Token} {text : List Char}
      (spelled : token.Spelling front) (apart : ∀ literal, token = .number literal → Stops text)
      (rest : Laid tokens text) : Laid (token :: tokens) (front ++ text)

theorem Laid.unmarked {tokens : List Token} {text : List Char} (laid : Laid tokens text) :
    ∀ c ∈ text.head?, c ≠ '.' ∧ c ≠ 'e' ∧ c ≠ 'E' := by
  cases laid with
  | done => exact nofun
  | blank mark =>
    rintro c ⟨⟩
    refine ⟨?_, ?_, ?_⟩
    all_goals
      rintro rfl
      cases mark
  | token spelled =>
    obtain ⟨c, more, rfl, _, other⟩ := spelled.starts
    rintro _ ⟨⟩
    exact other

theorem ofChar?_blank {c : Char} (mark : isBlank c = true) : Digit.ofChar? c = none := by
  simp only [isBlank, Bool.or_eq_true, decide_eq_true_eq] at mark
  rcases mark with ((rfl | rfl) | rfl) | rfl <;> rfl

theorem scan_nil : scan [] = some [] := by rw [scan]

theorem scan_blank {c : Char} (mark : isBlank c = true) (text : List Char) :
    scan (c :: text) = scan text := by
  rw [scan, if_pos mark]

theorem scan_of_next? {text rest : List Char} {token : Token} {c : Char} {more : List Char}
    (starts : text = c :: more) (mark : isBlank c = false)
    (found : next? text = some (token, rest)) : scan text = (scan rest).map (token :: ·) := by
  subst starts
  rw [scan, mark]
  simp only [Bool.false_eq_true, if_false]
  split
  · next token' rest' found' =>
    rw [found] at found'
    cases found'
    rfl
  · next none =>
    rw [found] at none
    cases none

theorem scan_spelling {token : Token} {front rest : List Char} (spelled : token.Spelling front)
    (apart : ∀ literal, token = .number literal → Apart rest) :
    scan (front ++ rest) = (scan rest).map (token :: ·) := by
  obtain ⟨c, more, starts, mark, _⟩ := spelled.starts
  exact scan_of_next? (congrArg (· ++ rest) starts) mark (next?_spelling spelled apart)

/-- A text is scanned into the tokens that it consists of. -/
theorem scan_eq_some_iff {text : List Char} {tokens : List Token} :
    scan text = some tokens ↔ Laid tokens text := by
  constructor
  · intro read
    fun_induction scan text generalizing tokens with
    | case1 =>
      cases read
      exact .done
    | case2 c rest mark ih => exact .blank mark (ih read)
    | case3 c rest mark token after found ih =>
      obtain ⟨others, scanned, rfl⟩ := Option.map_eq_some_iff.mp read
      obtain ⟨front, spelled, split, stops⟩ := text_of_next? found
      rw [split]
      exact .token spelled stops (ih scanned)
    | case4 => cases read
  · intro laid
    induction laid with
    | done => exact scan_nil
    | blank mark _ ih => rw [scan_blank mark, ih]
    | token spelled apart rest ih =>
      rw [scan_spelling spelled fun literal number => ⟨apart literal number, rest.unmarked⟩, ih]
      rfl

/-- A blank may be added between any two tokens, and before and after all of them. -/
theorem Laid.insert_blank {first second : List Token} {before after : List Char} {c : Char}
    (front : Laid first before) (back : Laid second after) (mark : isBlank c = true) :
    Laid (first ++ second) (before ++ c :: after) := by
  induction front with
  | done => exact .blank mark back
  | blank other _ ih => exact .blank other ih
  | @token token text tokens between spelled apart rest ih =>
    rw [List.append_assoc]
    refine .token spelled (fun literal number => ?_) ih
    cases between with
    | nil =>
      rintro _ ⟨⟩
      exact ofChar?_blank mark
    | cons d more => exact apart literal number

/-- A text that consists of the tokens of the value. -/
def Written (value : Json) (text : String) : Prop := Laid value.toTokens text.toList

/-- The texts that are read as a value are all those in which it is written. -/
theorem parse?_eq_some_iff {text : String} {value : Json} :
    parse? text = some value ↔ Written value text := by
  rw [parse?, Option.bind_eq_some_iff, Written, ← scan_eq_some_iff]
  constructor
  · rintro ⟨tokens, scanned, read⟩
    rw [scanned, ofTokens?_eq_some_iff.mp read]
  · intro scanned
    exact ⟨_, scanned, ofTokens?_eq_some_iff.mpr rfl⟩

end FederatedRounds.Json
