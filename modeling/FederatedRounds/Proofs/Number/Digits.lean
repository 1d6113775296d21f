import FederatedRounds.Number.Digits
import Mathlib.Data.List.Basic
import Mathlib.Data.List.Induction

/-! Digits read back what was spelled. A run of digits is read as far as it goes. -/
namespace FederatedRounds

namespace Digit

theorem ofChar?_char (d : Digit) : ofChar? d.char = some d := by
  revert d
  decide

theorem char_of_ofChar? {c : Char} {d : Digit} (read : ofChar? c = some d) : d.char = c := by
  unfold ofChar? at read
  dsimp only at read
  split at read
  · next bound =>
    cases read
    have zero : '0'.toNat ≤ c.toNat := bound.1
    unfold char
    rw [Nat.add_sub_cancel' zero, Char.ofNat_toNat]
  · cases read

theorem run_text (digits : List Digit) (rest : List Char) :
    run (text digits ++ rest) = (digits ++ (run rest).1, (run rest).2) := by
  induction digits with
  | nil => rfl
  | cons d digits ih =>
    change run (d.char :: (text digits ++ rest)) = _
    simp only [run, ofChar?_char, ih, List.cons_append]

/-- The text does not go on with a digit. -/
def Stops (text : List Char) : Prop := ∀ c ∈ text.head?, ofChar? c = none

theorem run_of_stops {text : List Char} (stops : Stops text) : run text = ([], text) := by
  cases text with
  | nil => rfl
  | cons c rest => simp only [run, stops c rfl]

theorem run_text_of_stops (digits : List Digit) {rest : List Char} (stops : Stops rest) :
    run (text digits ++ rest) = (digits, rest) := by
  rw [run_text, run_of_stops stops, List.append_nil]

/-- A run is all the digits that a text starts with. -/
theorem run_eq_iff {text rest : List Char} {digits : List Digit} :
    run text = (digits, rest) ↔ text = Digit.text digits ++ rest ∧ Stops rest := by
  constructor
  · intro found
    induction text generalizing digits with
    | nil =>
      cases found
      exact ⟨rfl, nofun⟩
    | cons c more ih =>
      unfold run at found
      split at found
      · next none =>
        cases found
        refine ⟨rfl, ?_⟩
        rintro _ ⟨⟩
        exact none
      · next d digit =>
        cases found
        obtain ⟨split, stops⟩ := ih rfl
        refine ⟨?_, stops⟩
        change c :: more = d.char :: (Digit.text (run more).1 ++ (run more).2)
        rw [← split, char_of_ofChar? digit]
  · rintro ⟨rfl, stops⟩
    exact run_text_of_stops digits stops

theorem value_concat (digits : List Digit) (d : Digit) :
    value (digits ++ [d]) = 10 * value digits + d.val := by
  unfold value
  rw [List.foldl_append]
  rfl

theorem value_spell (n : Nat) : value (spell n) = n := by
  induction n using spell.induct with
  | case1 n small =>
    rw [spell, dif_pos small]
    exact Nat.zero_add n
  | case2 n large ih =>
    rw [spell, dif_neg large, value_concat, ih]
    exact Nat.div_add_mod n 10

theorem spell_ne_nil (n : Nat) : spell n ≠ [] := by
  rw [spell]
  split <;> simp

/-- Only a zero alone starts with a zero. -/
theorem spell_head {n : Nat} {d : Digit} {rest : List Digit} (spelled : spell n = d :: rest) :
    rest = [] ∨ d ≠ 0 := by
  induction n using spell.induct generalizing d rest with
  | case1 n small =>
    rw [spell, dif_pos small] at spelled
    cases spelled
    exact Or.inl rfl
  | case2 n large ih =>
    rw [spell, dif_neg large] at spelled
    cases front : spell (n / 10) with
    | nil => exact absurd front (spell_ne_nil _)
    | cons first others =>
      rw [front, List.cons_append] at spelled
      cases spelled
      rcases ih front with rfl | other
      · refine Or.inr ?_
        rintro rfl
        have zero : n / 10 = 0 := by
          rw [← value_spell (n / 10), front]
          rfl
        omega
      · exact Or.inr other

/-- Digits that do not start with a zero are the spelling of their value. -/
theorem spell_value {digits : List Digit} (nonempty : digits ≠ [])
    (leading : ∀ d ∈ digits.head?, digits = [d] ∨ d ≠ 0) : spell (value digits) = digits := by
  induction digits using List.reverseRecOn with
  | nil => exact absurd rfl nonempty
  | append_singleton digits last ih =>
    rw [value_concat, spell]
    cases digits with
    | nil =>
      have nothing : value [] = 0 := rfl
      rw [nothing, dif_pos (by omega)]
      simp
    | cons first others =>
      have positive : first ≠ 0 := (leading first rfl).resolve_left (by simp)
      have front := ih (List.cons_ne_nil _ _) (by rintro _ ⟨⟩; exact Or.inr positive)
      have nonzero : value (first :: others) ≠ 0 := by
        intro zero
        rw [zero, spell, dif_pos (by decide)] at front
        cases front
        exact positive rfl
      have tens : (10 * value (first :: others) + last.val) / 10 = value (first :: others) := by omega
      have units : (10 * value (first :: others) + last.val) % 10 = last.val := by omega
      rw [dif_neg (by omega), tens, front]
      simp [units]

theorem spell_length_le {n places : Nat} (nonzero : places ≠ 0) (bound : n < Nat.pow 10 places) :
    (spell n).length ≤ places := by
  induction n using spell.induct generalizing places with
  | case1 n small =>
    rw [spell, dif_pos small]
    exact Nat.one_le_iff_ne_zero.mpr nonzero
  | case2 n large ih =>
    obtain ⟨fewer, rfl⟩ := Nat.exists_eq_succ_of_ne_zero nonzero
    have more : fewer ≠ 0 := by
      rintro rfl
      exact large bound
    have tens : n < 10 * Nat.pow 10 fewer := Nat.mul_comm _ 10 ▸ bound
    have shorter := ih more (Nat.div_lt_of_lt_mul tens)
    rw [spell, dif_neg large, List.length_append, List.length_singleton]
    exact Nat.succ_le_succ shorter

theorem char_injective : Function.Injective char := fun a b same =>
  Option.some.inj (by rw [← ofChar?_char a, ← ofChar?_char b, same])

theorem text_injective : Function.Injective text := List.map_injective_iff.mpr char_injective

end Digit

theorem natText_injective : Function.Injective natText := fun a b same => by
  have digits := Digit.text_injective (String.ofList_injective same)
  rw [← Digit.value_spell a, digits, Digit.value_spell]

end FederatedRounds
