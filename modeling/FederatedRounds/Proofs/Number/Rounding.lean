import FederatedRounds.Number.Ieee
import Mathlib.Order.Monotone.Basic
import Mathlib.Tactic.Linarith
import Mathlib.Tactic.Ring

/-! Rounding to the magnitudes of a format. Codes are in the order of their magnitudes, and the steps
between these double from one binade to the next. A fraction is rounded above a code when it lies
beyond the middle of the step that follows, or in the middle if the code is odd. -/
namespace FederatedRounds

namespace Format
variable {f : Format}

theorem binade_pos (f : Format) : 0 < f.binade := Nat.two_pow_pos _

theorem one_pos (f : Format) : 0 < f.one := Nat.two_pow_pos _

theorem two_mul_binade (precise : 0 < f.precision) : 2 * f.binade = 2 ^ f.precision := by
  unfold binade
  rw [Nat.pow_eq, ← Nat.pow_succ']
  congr 1
  omega

theorem binade_even (precise : 1 < f.precision) : 2 ∣ f.binade :=
  dvd_pow_self 2 (by omega)

/-- Within a binade, its upper end included, a code stands for a multiple of the step. -/
theorem units_add {exponent rest : Nat} (full : exponent = 0 ∨ f.binade ≤ rest)
    (bound : rest ≤ 2 * f.binade) : f.units (exponent * f.binade + rest) = rest * 2 ^ exponent := by
  have positive := f.binade_pos
  unfold units
  split
  · next small =>
    have none : exponent = 0 := by
      by_contra some
      have : f.binade ≤ exponent * f.binade := Nat.le_mul_of_pos_left _ (by omega)
      omega
    simp [none]
  · next large =>
    rcases Nat.lt_or_eq_of_le bound with inside | rfl
    · have full : f.binade ≤ rest := full.resolve_left (by rintro rfl; omega)
      have split : exponent * f.binade + rest =
          (rest - f.binade) + f.binade * (exponent + 1) := by
        rw [Nat.mul_succ, Nat.mul_comm]
        omega
      rw [split, Nat.add_mul_mod_self_left, Nat.add_mul_div_left _ _ positive,
        Nat.mod_eq_of_lt (by omega), Nat.div_eq_of_lt (by omega)]
      simp [Nat.add_sub_cancel' full]
    · rw [← Nat.add_mul, Nat.mul_mod_left, Nat.mul_div_cancel _ positive]
      change (f.binade + 0) * 2 ^ (exponent + 1) = _
      ring

theorem exists_units_add (f : Format) (code : Nat) : ∃ rest,
    code = (code / f.binade - 1) * f.binade + rest ∧
      (code / f.binade - 1 = 0 ∨ f.binade ≤ rest) ∧ rest < 2 * f.binade := by
  have split := Nat.div_add_mod' code f.binade
  have small := Nat.mod_lt code f.binade_pos
  cases exponent : code / f.binade with
  | zero =>
    rw [exponent] at split
    exact ⟨code, by omega, Or.inl rfl, by omega⟩
  | succ exponent =>
    rw [exponent, Nat.succ_mul] at split
    refine ⟨f.binade + code % f.binade, ?_, Or.inr (Nat.le_add_right _ _), by omega⟩
    simp only [Nat.add_sub_cancel]
    omega

theorem units_succ (f : Format) (code : Nat) :
    f.units (code + 1) = f.units code + 2 ^ (code / f.binade - 1) := by
  obtain ⟨rest, split, full, bound⟩ := f.exists_units_add code
  generalize code / f.binade - 1 = exponent at split full
  subst split
  rw [Nat.add_assoc, units_add (full.imp_right (Nat.le_add_right_of_le ·)) bound,
    units_add full (Nat.le_of_lt bound)]
  ring

theorem units_strictMono (f : Format) : StrictMono f.units := by
  apply strictMono_nat_of_lt_succ
  intro code
  rw [units_succ]
  exact Nat.lt_add_of_pos_right (Nat.two_pow_pos _)

theorem units_mono {a b : Nat} (le : a ≤ b) : f.units a ≤ f.units b :=
  f.units_strictMono.monotone le

theorem units_zero (f : Format) : f.units 0 = 0 :=
  if_pos (Nat.mul_pos (by decide) f.binade_pos)

theorem units_pos_iff {code : Nat} : 0 < f.units code ↔ code ≠ 0 := by
  rw [← Nat.pos_iff_ne_zero]
  conv_lhs => rw [← f.units_zero]
  exact f.units_strictMono.lt_iff_lt

/-- A number that needs no more digits than the precision has is the magnitude of a code. -/
theorem exists_units_eq {n : Nat} (exponent : Nat) (bound : n ≤ 2 * f.binade) :
    ∃ code, f.units code = n * 2 ^ exponent := by
  induction exponent generalizing n with
  | zero => exact ⟨_, units_add (Or.inl rfl) bound⟩
  | succ exponent ih =>
    by_cases full : f.binade ≤ n
    · exact ⟨_, units_add (Or.inr full) bound⟩
    · obtain ⟨code, units⟩ := @ih (2 * n) (by omega)
      exact ⟨code, by rw [units]; ring⟩

theorem exists_units_whole {n : Nat} (bound : n ≤ 2 * f.binade) :
    ∃ code, f.units code = n * f.one := exists_units_eq f.scale bound

/-- A magnitude of more whole digits than the precision has is a whole number. -/
theorem units_whole {code : Nat} (large : 2 * f.binade * f.one ≤ f.units code) :
    f.units code / f.one * f.one = f.units code := by
  obtain ⟨rest, split, full, bound⟩ := f.exists_units_add code
  generalize code / f.binade - 1 = exponent at split full
  subst split
  rw [units_add full (Nat.le_of_lt bound)] at large ⊢
  have above : f.scale ≤ exponent := by
    by_contra below
    have : rest * 2 ^ exponent < 2 * f.binade * f.one :=
      Nat.mul_lt_mul_of_lt_of_le bound (Nat.pow_le_pow_right (by decide) (by omega)) f.one_pos
    omega
  exact Nat.div_mul_cancel (Dvd.dvd.mul_left (pow_dvd_pow 2 above) rest)

/-! Rounding to whole numbers, and from there to codes. -/

theorem lt_halfEven_iff {num den whole : Nat} (positive : 0 < den) :
    whole < halfEven num den ↔ (2 * whole + 1) * den < 2 * num ∨
      ((2 * whole + 1) * den = 2 * num ∧ whole % 2 = 1) := by
  have split := Nat.div_add_mod' num den
  have rest := Nat.mod_lt num positive
  have middle : (2 * whole + 1) * den = 2 * (whole * den) + den := by ring
  rw [middle]
  unfold halfEven
  dsimp only
  generalize num % den = part at split rest
  rcases Nat.lt_trichotomy whole (num / den) with below | same | above
  · have step : (whole + 1) * den ≤ num / den * den := Nat.mul_le_mul_right _ below
    rw [Nat.succ_mul] at step
    split_ifs <;> omega
  · rw [← same] at split ⊢
    split_ifs <;> omega
  · have step : (num / den + 1) * den ≤ whole * den := Nat.mul_le_mul_right _ above
    rw [Nat.succ_mul] at step
    split_ifs <;> omega

theorem le_halfEven {num den whole : Nat} (positive : 0 < den) (reaches : whole * den ≤ num) :
    whole ≤ halfEven num den := by
  cases whole with
  | zero => exact Nat.zero_le _
  | succ whole =>
    apply (lt_halfEven_iff positive).mpr
    left
    calc (2 * whole + 1) * den < 2 * (whole + 1) * den := Nat.mul_lt_mul_of_pos_right (by omega) positive
      _ = 2 * ((whole + 1) * den) := Nat.mul_assoc _ _ _
      _ ≤ 2 * num := Nat.mul_le_mul_left _ reaches

theorem halfEven_le {num den whole : Nat} (positive : 0 < den) (bounded : num ≤ whole * den) :
    halfEven num den ≤ whole := by
  have middle : (2 * whole + 1) * den = 2 * (whole * den) + den := by ring
  rw [← Nat.not_lt, lt_halfEven_iff positive, middle]
  omega

/-- The bits that are cut off leave as many as the precision asks for, if any are. -/
private theorem dropped_bits (precise : 0 < f.precision) (whole : Nat) :
    (whole.log2 + 1 - f.precision = 0 ∨
      f.binade * 2 ^ (whole.log2 + 1 - f.precision) ≤ whole) ∧
      whole < 2 * f.binade * 2 ^ (whole.log2 + 1 - f.precision) := by
  generalize exponent : whole.log2 + 1 - f.precision = dropped
  constructor
  · rcases Nat.eq_zero_or_pos dropped with none | some
    · exact Or.inl none
    · right
      have nonzero : whole ≠ 0 := by
        rintro rfl
        rw [Nat.log2_zero] at exponent
        omega
      calc f.binade * 2 ^ dropped = 2 ^ (f.precision - 1 + dropped) := (Nat.pow_add _ _ _).symm
        _ = 2 ^ whole.log2 := by congr 1; omega
        _ ≤ whole := Nat.log2_self_le nonzero
  · rw [two_mul_binade precise, ← Nat.pow_add]
    exact Nat.lt_of_lt_of_le Nat.lt_log2_self (Nat.pow_le_pow_right (by decide) (by omega))

/-- The nearest code lies in the binade of the fraction, or at its end. -/
private theorem nearest_eq (precise : 0 < f.precision) {num den : Nat} (positive : 0 < den) :
    ∃ exponent, f.nearest num den = exponent * f.binade + halfEven num (den * 2 ^ exponent) ∧
      (exponent = 0 ∨ f.binade * (den * 2 ^ exponent) ≤ num) ∧
      num < 2 * f.binade * (den * 2 ^ exponent) := by
  obtain ⟨leading, bounded⟩ := dropped_bits precise (num / den)
  refine ⟨_, rfl, ?_, ?_⟩
  · refine leading.imp_right fun reached => ?_
    rw [Nat.mul_comm den, ← Nat.mul_assoc]
    exact (Nat.le_div_iff_mul_le positive).mp reached
  · rw [Nat.mul_comm den, ← Nat.mul_assoc]
    exact (Nat.div_lt_iff_lt_mul positive).mp bounded

private theorem middle_lt {num den code : Nat} (positive : 0 < den)
    (reaches : f.units (code + 1) * den ≤ num) :
    (f.units code + f.units (code + 1)) * den < 2 * num := by
  have step := f.units_strictMono (Nat.lt_add_one code)
  calc (f.units code + f.units (code + 1)) * den
      < (2 * f.units (code + 1)) * den := Nat.mul_lt_mul_of_pos_right (by omega) positive
    _ = 2 * (f.units (code + 1) * den) := Nat.mul_assoc _ _ _
    _ ≤ 2 * num := Nat.mul_le_mul_left _ reaches

private theorem lt_middle {num den code : Nat} (positive : 0 < den)
    (bounded : num ≤ f.units code * den) :
    2 * num < (f.units code + f.units (code + 1)) * den := by
  have step := f.units_strictMono (Nat.lt_add_one code)
  calc 2 * num ≤ 2 * (f.units code * den) := Nat.mul_le_mul_left _ bounded
    _ = (2 * f.units code) * den := (Nat.mul_assoc _ _ _).symm
    _ < (f.units code + f.units (code + 1)) * den := Nat.mul_lt_mul_of_pos_right (by omega) positive

/-- A fraction is rounded to the nearest code, and from the middle of a step to the even one. -/
theorem lt_nearest_iff (precise : 1 < f.precision) {num den code : Nat} (positive : 0 < den) :
    code < f.nearest num den ↔ (f.units code + f.units (code + 1)) * den < 2 * num ∨
      ((f.units code + f.units (code + 1)) * den = 2 * num ∧ code % 2 = 1) := by
  obtain ⟨exponent, nearest, leading, bounded⟩ := nearest_eq (by omega : 0 < f.precision) positive
  have scaled : 0 < den * 2 ^ exponent := Nat.mul_pos positive (Nat.two_pow_pos _)
  rw [nearest]
  by_cases lower : exponent ≠ 0 ∧ code < exponent * f.binade + f.binade
  · -- The fraction is in a higher binade than the code, and is rounded within that.
    obtain ⟨some, below⟩ := lower
    have reached := leading.resolve_left some
    have kept := le_halfEven scaled reached
    have bottom : f.units (exponent * f.binade + f.binade) = f.binade * 2 ^ exponent :=
      units_add (Or.inr (Nat.le_refl _)) (by omega)
    refine iff_of_true (by omega) (Or.inl (middle_lt positive ?_))
    calc f.units (code + 1) * den ≤ (f.binade * 2 ^ exponent) * den :=
          Nat.mul_le_mul_right _ (bottom ▸ units_mono below)
      _ = f.binade * (den * 2 ^ exponent) := by ring
      _ ≤ num := reached
  by_cases higher : exponent * f.binade + 2 * f.binade ≤ code
  · -- The fraction is rounded to the end of its binade at most.
    have kept := halfEven_le scaled (Nat.le_of_lt bounded)
    have top : f.units (exponent * f.binade + 2 * f.binade) = 2 * f.binade * 2 ^ exponent :=
      units_add (Or.inr (by omega)) (Nat.le_refl _)
    have beyond : 2 * num < (f.units code + f.units (code + 1)) * den := by
      apply lt_middle positive
      calc num ≤ 2 * f.binade * (den * 2 ^ exponent) := Nat.le_of_lt bounded
        _ = (2 * f.binade * 2 ^ exponent) * den := by ring
        _ ≤ f.units code * den := Nat.mul_le_mul_right _ (top ▸ units_mono higher)
    exact iff_of_false (by omega) (by omega)
  · -- In one binade all steps have the same size.
    have full : exponent = 0 ∨ exponent * f.binade + f.binade ≤ code := by omega
    have reached : exponent * f.binade ≤ code := by
      rcases full with rfl | above <;> omega
    obtain ⟨rest, rfl⟩ := Nat.exists_eq_add_of_le reached
    replace full : exponent = 0 ∨ f.binade ≤ rest := full.imp_right (by omega)
    have middle : f.units (exponent * f.binade + rest) + f.units (exponent * f.binade + rest + 1) =
        (2 * rest + 1) * 2 ^ exponent := by
      rw [Nat.add_assoc, units_add full (by omega),
        units_add (full.imp_right (Nat.le_add_right_of_le ·)) (by omega)]
      ring
    have parity : (exponent * f.binade + rest) % 2 = rest % 2 := by
      obtain ⟨half, even⟩ := binade_even precise
      rw [even, Nat.mul_left_comm]
      omega
    rw [middle, parity, Nat.mul_assoc, Nat.mul_comm (2 ^ exponent), Nat.add_lt_add_iff_left]
    exact lt_halfEven_iff scaled

/-- A fraction that reaches the magnitude of a code is rounded to that code or above. -/
theorem le_nearest (precise : 1 < f.precision) {num den code : Nat} (positive : 0 < den)
    (reaches : f.units code * den ≤ num) : code ≤ f.nearest num den := by
  cases code with
  | zero => exact Nat.zero_le _
  | succ code => exact (lt_nearest_iff precise positive).mpr (Or.inl (middle_lt positive reaches))

/-- A magnitude needs no rounding. -/
theorem nearest_units (precise : 1 < f.precision) (code : Nat) :
    f.nearest (f.units code) 1 = code := by
  apply Nat.le_antisymm
  · rw [← Nat.not_lt, lt_nearest_iff precise Nat.one_pos, units_succ]
    have := Nat.two_pow_pos (code / f.binade - 1)
    omega
  · exact le_nearest precise Nat.one_pos (Nat.le_of_eq (Nat.mul_one _))

theorem nearest_mono (precise : 1 < f.precision) {num other den : Nat} (positive : 0 < den)
    (le : num ≤ other) : f.nearest num den ≤ f.nearest other den := by
  apply le_of_forall_lt
  intro code below
  rw [lt_nearest_iff precise positive] at below ⊢
  omega

end Format
end FederatedRounds
