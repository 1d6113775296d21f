import FederatedRounds.Proofs.Number.Bounds

/-! The whole part of a rounded quotient, multiplied back by the divisor. The quotient, its whole part
and the product may all be too small, but by less than one together: the product is rounded above the
whole number before the dividend. -/
namespace FederatedRounds.Format
variable {f : Format} {code : Nat}

theorem step_mono {lower upper : Nat} (le : lower ≤ upper) :
    2 ^ (lower / f.binade - 1) ≤ 2 ^ (upper / f.binade - 1) :=
  Nat.pow_le_pow_right (by decide) (Nat.sub_le_sub_right (Nat.div_le_div_right le) 1)

/-- A magnitude of full precision has at least a binade of its steps. -/
theorem step_mul_binade_le (full : f.binade ≤ code) :
    2 ^ (code / f.binade - 1) * f.binade ≤ f.units code := by
  obtain ⟨rest, split, leading, bound⟩ := f.exists_units_add code
  generalize code / f.binade - 1 = exponent at split leading ⊢
  subst split
  have reached : f.binade ≤ rest := by
    rcases leading with rfl | above
    · omega
    · exact above
  rw [units_add leading (Nat.le_of_lt bound), Nat.mul_comm]
  exact Nat.mul_le_mul_right _ reached

/-- From one whole number to the next the steps are no larger than one. -/
theorem step_le_one {n : Nat} (units : f.units code = n * f.one) (bound : n < 2 * f.binade) :
    2 ^ (code / f.binade - 1) ≤ f.one := by
  obtain ⟨next, whole⟩ := exists_units_whole (f := f) (n := n + 1) bound
  rw [Nat.succ_mul] at whole
  have one := f.one_pos
  have above : code < next := f.units_strictMono.lt_iff_lt.mp (by omega)
  have reached := units_mono (f := f) above
  rw [units_succ] at reached
  omega

/-- The whole part of a magnitude is a magnitude. -/
theorem exists_units_floor (f : Format) (code : Nat) :
    ∃ whole, f.units whole = f.units code / f.one * f.one := by
  rcases Nat.le_total (f.units code / f.one) (2 * f.binade) with small | large
  · exact exists_units_whole small
  · exact ⟨code, (units_whole ((Nat.le_div_iff_mul_le f.one_pos).mp large)).symm⟩

theorem two_mul_le_of_nearest_le (precise : 1 < f.precision) {num den : Nat} (positive : 0 < den)
    (le : f.nearest num den ≤ code) : 2 * num ≤ (f.units code + f.units (code + 1)) * den := by
  have below := mt (lt_nearest_iff precise positive).mpr (Nat.not_lt.mpr le)
  omega

/-! The dividend is the number after `before`, for which `code` stands, and `whole` is the whole part of
the quotient. All is doubled, as a rounding is off by half a step at most. -/
section Product
variable {before whole quotient divisor : Nat}

/-- The quotient lies below the next whole number, so it is no nearer to that than to the code
before. -/
private theorem dividend_le_of_small (precise : 1 < f.precision) (positive : 0 < divisor)
    {num : Nat} (rounded : f.nearest num divisor = quotient)
    (floor : f.units quotient < (whole + 1) * f.one) (small : whole < 2 * f.binade)
    (below : f.units code ≤ whole * f.one) :
    2 * num + 2 ^ (code / f.binade - 1) * divisor ≤ 2 * ((whole + 1) * f.one) * divisor := by
  have one := f.one_pos
  obtain ⟨next, units⟩ := exists_units_whole (f := f) (n := whole + 1) small
  cases next with
  | zero =>
    rw [units_zero, Nat.succ_mul] at units
    omega
  | succ last =>
    have nearer : quotient < last + 1 := f.units_strictMono.lt_iff_lt.mp (by omega)
    have after : code < last + 1 := by
      apply f.units_strictMono.lt_iff_lt.mp
      rw [units, Nat.succ_mul]
      omega
    have nearest := two_mul_le_of_nearest_le precise positive (rounded ▸ Nat.le_of_lt_succ nearer)
    have step := step_mono (f := f) (Nat.le_of_lt_succ after)
    calc 2 * num + 2 ^ (code / f.binade - 1) * divisor
        ≤ (f.units last + f.units (last + 1)) * divisor + 2 ^ (last / f.binade - 1) * divisor :=
          Nat.add_le_add nearest (Nat.mul_le_mul_right _ step)
      _ = (f.units (last + 1) + (f.units last + 2 ^ (last / f.binade - 1))) * divisor := by ring
      _ = 2 * ((whole + 1) * f.one) * divisor := by
          rw [← units_succ, units]
          ring

private theorem dividend_lt_of_small (precise : 1 < f.precision) (positive : 0 < divisor)
    (proper : divisor < f.one) {num : Nat} (rounded : f.nearest num divisor = quotient)
    (floor : f.units quotient < (whole + 1) * f.one) (small : whole < 2 * f.binade)
    (below : f.units code ≤ whole * f.one) (narrow : 2 ^ (code / f.binade - 1) ≤ f.one) :
    2 * num + 2 ^ (code / f.binade - 1) * f.one <
      2 * (whole * f.one) * divisor + 2 * (f.one * f.one) := by
  have nearer := dividend_le_of_small precise positive rounded floor small below
  generalize 2 ^ (code / f.binade - 1) = step at nearer narrow ⊢
  obtain ⟨rest, split⟩ := Nat.exists_eq_add_of_lt proper
  have less : step * (rest + 1) < 2 * f.one * (rest + 1) :=
    Nat.mul_lt_mul_of_pos_right (by have := f.one_pos; omega) rest.succ_pos
  calc 2 * num + step * f.one = 2 * num + step * divisor + step * (rest + 1) := by
        rw [split]
        ring
    _ < 2 * ((whole + 1) * f.one) * divisor + 2 * f.one * (rest + 1) :=
        Nat.add_lt_add_of_le_of_lt nearer less
    _ = 2 * (whole * f.one) * divisor + 2 * (f.one * (divisor + rest + 1)) := by ring
    _ = 2 * (whole * f.one) * divisor + 2 * (f.one * f.one) := by rw [← split]

/-- The quotient is a whole number itself, and was rounded by half a step at most. -/
private theorem dividend_lt_of_large (precise : 1 < f.precision) (positive : 0 < divisor)
    {num : Nat} (rounded : f.nearest num divisor = quotient)
    (units : f.units quotient = whole * f.one) (large : 2 * f.binade ≤ whole)
    (less : whole * divisor < f.binade * f.one) :
    2 * num < 2 * (whole * f.one) * divisor + f.one * f.one := by
  have one := f.one_pos
  have full : f.binade ≤ quotient := by
    by_contra short
    have small : f.units quotient = quotient := if_pos (by omega)
    have : whole ≤ whole * f.one := Nat.le_mul_of_pos_right _ one
    omega
  have nearest := two_mul_le_of_nearest_le precise positive (Nat.le_of_eq rounded)
  have step := step_mul_binade_le full
  rw [units_succ, units] at nearest
  rw [units] at step
  generalize 2 ^ (quotient / f.binade - 1) = gap at nearest step
  have moved : gap * divisor < f.one * f.one := by
    apply Nat.lt_of_mul_lt_mul_right (a := f.binade)
    calc gap * divisor * f.binade = gap * f.binade * divisor := Nat.mul_right_comm _ _ _
      _ ≤ whole * f.one * divisor := Nat.mul_le_mul_right _ step
      _ = whole * divisor * f.one := Nat.mul_right_comm _ _ _
      _ < f.binade * f.one * f.one := Nat.mul_lt_mul_of_pos_right less one
      _ = f.one * f.one * f.binade := by ring
  calc 2 * num ≤ (whole * f.one + (whole * f.one + gap)) * divisor := nearest
    _ = 2 * (whole * f.one) * divisor + gap * divisor := by ring
    _ < 2 * (whole * f.one) * divisor + f.one * f.one := Nat.add_lt_add_left moved _

private theorem dividend_lt (precise : 1 < f.precision) (positive : 0 < divisor)
    (fits : before < f.binade) (below : f.units code = before * f.one)
    (rounded : f.nearest ((before + 1) * f.one * f.one) divisor = quotient)
    (floor : f.units quotient / f.one = whole) (le : before + 1 ≤ whole)
    (narrow : 2 ^ (code / f.binade - 1) ≤ f.one) :
    2 * ((before + 1) * f.one * f.one) + 2 ^ (code / f.binade - 1) * f.one <
      2 * (whole * f.one) * divisor + 2 * (f.one * f.one) := by
  have one := f.one_pos
  have lost : 2 ^ (code / f.binade - 1) * f.one ≤ f.one * f.one := Nat.mul_le_mul_right _ narrow
  have square : 0 < f.one * f.one := Nat.mul_pos one one
  rcases Nat.lt_or_ge (whole * divisor) ((before + 1) * f.one) with less | kept
  · rcases Nat.lt_or_ge whole (2 * f.binade) with small | large
    · have proper : divisor < f.one := by
        by_contra full
        exact absurd less (Nat.not_lt.mpr (Nat.mul_le_mul le (Nat.not_lt.mp full)))
      refine dividend_lt_of_small precise positive proper rounded ?_ small ?_ narrow
      · exact (Nat.div_lt_iff_lt_mul one).mp (by omega)
      · rw [below]
        exact Nat.mul_le_mul_right _ (by omega)
    · have units := units_whole ((Nat.le_div_iff_mul_le one).mp (floor.symm ▸ large))
      rw [floor] at units
      have nearer := dividend_lt_of_large precise positive rounded units.symm large
        (Nat.lt_of_lt_of_le less (Nat.mul_le_mul_right _ fits))
      omega
  · have product : 2 * (whole * f.one) * divisor = 2 * (whole * divisor * f.one) := by ring
    have := Nat.mul_le_mul_right f.one kept
    omega

theorem lt_nearest_product (precise : 1 < f.precision) (positive : 0 < divisor)
    (fits : before < f.binade) (below : f.units code = before * f.one)
    (rounded : f.nearest ((before + 1) * f.one * f.one) divisor = quotient)
    (floor : f.units quotient / f.one = whole) (le : before + 1 ≤ whole) :
    code < f.nearest (whole * f.one * divisor) f.one := by
  have narrow := step_le_one below (by omega)
  have less := dividend_lt precise positive fits below rounded floor le narrow
  have split : (before + 1) * f.one * f.one = before * f.one * f.one + f.one * f.one := by ring
  have product : 2 * (whole * f.one * divisor) = 2 * (whole * f.one) * divisor := by ring
  apply (lt_nearest_iff precise f.one_pos).mpr
  left
  rw [units_succ, below, product, Nat.add_mul, Nat.add_mul]
  rw [split] at less
  omega

end Product

end FederatedRounds.Format
