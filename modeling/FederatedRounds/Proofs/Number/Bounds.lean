import FederatedRounds.Proofs.Number.Rounding

/-! Lower bounds of numbers, and what the operations leave of them. A number that overflows is above
every bound, so no result has to be shown to be finite. -/
namespace FederatedRounds.Ieee
variable {f : Format} {x : Ieee f} {least : Nat}

/-- Not negative, and of at least so many units if it is finite. -/
def Reaches (least : Nat) : Ieee f → Prop
  | nan => False
  | infinite negative => negative = false
  | finite negative code => negative = false ∧ least ≤ f.units code

theorem Reaches.cases (reaches : x.Reaches least) : x = infinite false ∨
    ∃ code : Fin f.top, x = finite false code ∧ least ≤ f.units code := by
  cases x with
  | nan => cases reaches
  | infinite negative =>
    cases reaches
    exact Or.inl rfl
  | finite negative code =>
    obtain ⟨rfl, above⟩ := reaches
    exact Or.inr ⟨code, rfl, above⟩

theorem Reaches.mono {lower : Nat} (le : lower ≤ least) (reaches : x.Reaches least) :
    x.Reaches lower := by
  rcases reaches.cases with rfl | ⟨code, rfl, above⟩
  · exact reaches
  · exact ⟨rfl, Nat.le_trans le above⟩

theorem finite_lt_iff {x y : Fin f.top} :
    (finite false x).lt (finite false y) = true ↔ f.units x < f.units y :=
  decide_eq_true_iff.trans Int.ofNat_lt

theorem ofUnits_cases (num den : Nat) : (ofUnits false num den : Ieee f) = infinite false ∨
    ∃ code : Fin f.top, (ofUnits false num den : Ieee f) = finite false code ∧
      code.val = f.nearest num den := by
  by_cases bound : f.nearest num den < f.top
  · exact Or.inr ⟨⟨_, bound⟩, dif_pos bound, rfl⟩
  · exact Or.inl (dif_neg bound)

theorem ofUnits_reaches (num den : Nat) :
    (ofUnits false num den : Ieee f).Reaches (f.units (f.nearest num den)) := by
  rcases ofUnits_cases (f := f) num den with infinite | ⟨code, finite, nearest⟩
  · rw [infinite]
    rfl
  · rw [finite, ← nearest]
    exact ⟨rfl, Nat.le_refl _⟩

theorem ofNat_reaches (precise : 1 < f.precision) {n total code : Nat}
    (units : f.units code = n * f.one) (le : n ≤ total) :
    (ofNat total : Ieee f).Reaches (n * f.one) := by
  apply (ofUnits_reaches (total * f.one) 1).mono
  rw [← units]
  apply Format.units_mono
  apply Format.le_nearest precise Nat.one_pos
  rw [units, Nat.mul_one]
  exact Nat.mul_le_mul_right _ le

theorem ofNat_cases (precise : 1 < f.precision) {n code : Nat} (units : f.units code = n * f.one) :
    (ofNat n : Ieee f) = infinite false ∨
      ∃ whole : Fin f.top, (ofNat n : Ieee f) = finite false whole ∧ whole.val = code := by
  have nearest : f.nearest (n * f.one) 1 = code := units ▸ Format.nearest_units precise code
  exact nearest ▸ ofUnits_cases (n * f.one) 1

section Operations
variable {other : Fin f.top}

theorem Reaches.div (precise : 1 < f.precision) (nonzero : other.val ≠ 0)
    (reaches : x.Reaches least) : (x.div (finite false other)).Reaches
      (f.units (f.nearest (least * f.one) (f.units other))) := by
  rcases reaches.cases with rfl | ⟨code, rfl, above⟩
  · rfl
  · simp only [Ieee.div, if_neg nonzero]
    apply (ofUnits_reaches _ _).mono
    apply Format.units_mono
    exact Format.nearest_mono precise (Format.units_pos_iff.mpr nonzero) (Nat.mul_le_mul_right _ above)

theorem div_ofNat_cases (precise : 1 < f.precision) (nonzero : other.val ≠ 0) {n code : Nat}
    (units : f.units code = n * f.one) : (div (ofNat n) (finite false other)) = infinite false ∨
      ∃ quotient : Fin f.top, div (ofNat n) (finite false other) = finite false quotient ∧
        quotient.val = f.nearest (n * f.one * f.one) (f.units other) := by
  rcases ofNat_cases precise units with infinite | ⟨whole, finite, same⟩
  · rw [infinite]
    exact Or.inl rfl
  · rw [finite, ← units, ← same]
    simp only [Ieee.div, if_neg nonzero]
    exact ofUnits_cases _ _

theorem Reaches.mul (precise : 1 < f.precision) (nonzero : other.val ≠ 0)
    (reaches : x.Reaches least) : (x.mul (finite false other)).Reaches
      (f.units (f.nearest (least * f.units other) f.one)) := by
  rcases reaches.cases with rfl | ⟨code, rfl, above⟩
  · simp only [Ieee.mul, if_neg nonzero]
    rfl
  · apply (ofUnits_reaches _ _).mono
    apply Format.units_mono
    exact Format.nearest_mono precise f.one_pos (Nat.mul_le_mul_right _ above)

end Operations

theorem floorToNat_finite {bits : Nat} {code : Fin f.top}
    (fits : f.units code < 2 ^ bits * f.one) :
    (finite false code).floorToNat bits = f.units code / f.one := by
  apply Nat.min_eq_right
  apply Nat.le_sub_one_of_lt
  exact (Nat.div_lt_iff_lt_mul f.one_pos).mpr fits

theorem Reaches.le_floorToNat {bits n : Nat} (reaches : x.Reaches (n * f.one))
    (fits : n ≤ most bits) : n ≤ x.floorToNat bits := by
  rcases reaches.cases with rfl | ⟨code, rfl, above⟩
  · exact fits
  · exact Nat.le_min.mpr ⟨fits, (Nat.le_div_iff_mul_le f.one_pos).mpr above⟩

theorem Reaches.lt_ceilToNat {bits n : Nat} (reaches : x.Reaches (n * f.one + 1))
    (fits : n < most bits) : n < x.ceilToNat bits := by
  rcases reaches.cases with rfl | ⟨code, rfl, above⟩
  · exact fits
  · have one := f.one_pos
    refine Nat.lt_min.mpr ⟨fits, (Nat.le_div_iff_mul_le one).mpr ?_⟩
    rw [Nat.succ_mul]
    omega

end FederatedRounds.Ieee
