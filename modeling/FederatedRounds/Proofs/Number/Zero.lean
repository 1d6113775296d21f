import FederatedRounds.Proofs.Number.Bounds

/-! The zeros of a format. Adding one of them changes no number but the negative zero, and no sum is
the negative zero unless both of its terms are. A zero times a finite number is a zero again, and
times any other number it is NaN, which stays whatever is added to it. -/
namespace FederatedRounds

theorem Format.nearest_zero {f : Format} (precise : 0 < f.precision) (den : Nat) :
    f.nearest 0 den = 0 := by
  have none : 0 + 1 - f.precision = 0 := by omega
  simp [nearest, halfEven, none]

namespace Ieee
variable {f : Format} {x y : Ieee f}

/-- A zero of either sign. -/
def IsZero (x : Ieee f) : Prop :=
  ∃ (negative : Bool) (code : Fin f.top), x = finite negative code ∧ code.val = 0

def IsNegativeZero (x : Ieee f) : Prop := ∃ code : Fin f.top, x = finite true code ∧ code.val = 0

theorem ofUnits_of_nearest {num den : Nat} {code : Fin f.top} (negative : Bool)
    (nearest : f.nearest num den = code.val) : ofUnits negative num den = finite negative code := by
  unfold ofUnits
  simp only [nearest, code.isLt, dif_pos]

theorem ofUnits_units (precise : 1 < f.precision) (negative : Bool) (code : Fin f.top) :
    ofUnits negative (f.units code) 1 = finite negative code :=
  ofUnits_of_nearest negative (Format.nearest_units precise code)

theorem ofUnits_zero_isZero (precise : 0 < f.precision) (finite : 0 < f.top) (negative : Bool)
    (den : Nat) : (ofUnits negative 0 den : Ieee f).IsZero :=
  ⟨negative, ⟨0, finite⟩, ofUnits_of_nearest negative (Format.nearest_zero precise den), rfl⟩

theorem ofUnits_isNegativeZero (precise : 1 < f.precision) {negative : Bool} {num : Nat}
    (below : (ofUnits negative num 1 : Ieee f).IsNegativeZero) : negative = true ∧ num = 0 := by
  obtain ⟨code, rounded, none⟩ := below
  have least : f.units 1 = 1 := if_pos (by have := f.binade_pos; omega)
  unfold ofUnits at rounded
  dsimp only at rounded
  split at rounded
  · cases rounded
    refine ⟨rfl, Nat.eq_zero_of_not_pos fun some => ?_⟩
    have reached : 1 ≤ f.nearest num 1 := Format.le_nearest precise Nat.one_pos (by omega)
    dsimp only at none
    omega
  · cases rounded

theorem zero_not_isNegativeZero (precise : 1 < f.precision) : ¬(zero : Ieee f).IsNegativeZero :=
  fun below => Bool.false_ne_true (ofUnits_isNegativeZero precise below).1

theorem ofNat_zero_isZero (precise : 0 < f.precision) (finite : 0 < f.top) :
    (ofNat 0 : Ieee f).IsZero := by
  rw [ofNat, ofFraction, Nat.zero_mul]
  exact ofUnits_zero_isZero precise finite _ _

/-- A whole number other than zero is at least one. -/
theorem ofNat_reaches_one (precise : 1 < f.precision) {n : Nat} (some : n ≠ 0) :
    (ofNat n : Ieee f).Reaches f.one := by
  have fits : 1 ≤ 2 * f.binade := by have := f.binade_pos; omega
  obtain ⟨code, units⟩ := Format.exists_units_whole fits
  have reaches := ofNat_reaches precise units (Nat.one_le_iff_ne_zero.mpr some)
  rwa [Nat.one_mul] at reaches

theorem signedUnits_eq_zero_iff {negative : Bool} {code : Fin f.top} :
    signedUnits negative code = 0 ↔ code.val = 0 := by
  have positive : 0 < f.units code ↔ code.val ≠ 0 := f.units_pos_iff
  cases negative <;> simp [signedUnits] <;> omega

/-- A zero that is added changes nothing, save for a negative zero. -/
theorem add_of_isZero (precise : 1 < f.precision) (zero : y.IsZero) (other : ¬x.IsNegativeZero) :
    x.add y = x := by
  obtain ⟨t, nothing, rfl, none⟩ := zero
  cases x with
  | nan => rfl
  | infinite => rfl
  | finite s code =>
    have nothing : signedUnits t nothing = 0 := signedUnits_eq_zero_iff.mpr none
    have size : (signedUnits s code).natAbs = f.units code := by
      cases s <;> simp [signedUnits]
    simp only [add, nothing, Int.add_zero, size]
    rw [ofUnits_units precise]
    congr 1
    by_cases zero : code.val = 0
    · have above : s = false := by
        cases s with
        | false => rfl
        | true => exact absurd ⟨code, rfl, zero⟩ other
      rw [if_pos (signedUnits_eq_zero_iff.mpr zero), above, Bool.false_and]
    · have positive := f.units_pos_iff.mpr zero
      rw [if_neg fun none => zero (signedUnits_eq_zero_iff.mp none)]
      cases s with
      | false => simp [signedUnits]
      | true => simp [signedUnits, positive]

/-- No sum is the negative zero unless both of its terms are. -/
theorem IsNegativeZero.of_add (precise : 1 < f.precision) (below : (x.add y).IsNegativeZero) :
    x.IsNegativeZero := by
  cases x with
  | nan => exact below
  | infinite s =>
    cases y with
    | nan => obtain ⟨_, ⟨⟩, _⟩ := below
    | infinite t =>
      obtain ⟨_, sum, _⟩ := below
      simp only [add] at sum
      split at sum <;> cases sum
    | finite t code => exact below
  | finite s code =>
    cases y with
    | nan => obtain ⟨_, ⟨⟩, _⟩ := below
    | infinite t => obtain ⟨_, ⟨⟩, _⟩ := below
    | finite t addend =>
      obtain ⟨negative, none⟩ := ofUnits_isNegativeZero precise below
      -- The terms cancel, and have the sign of the sum, so that each of them is zero.
      have cancelled := Int.natAbs_eq_zero.mp none
      rw [if_pos cancelled, Bool.and_eq_true] at negative
      obtain ⟨rfl, rfl⟩ := negative
      refine ⟨code, rfl, ?_⟩
      have positive : 0 < f.units code ↔ code.val ≠ 0 := f.units_pos_iff
      simp only [signedUnits, if_true] at cancelled
      omega

theorem add_nan (x : Ieee f) : x.add nan = nan := by
  cases x <;> rfl

theorem mul_isZero (precise : 0 < f.precision) (zero : x.IsZero) (finite : y.isFinite = true) :
    (x.mul y).IsZero := by
  obtain ⟨s, nothing, rfl, none⟩ := zero
  cases y with
  | nan => cases finite
  | infinite => cases finite
  | finite t code =>
    rw [mul, none, Format.units_zero, Nat.zero_mul]
    exact ofUnits_zero_isZero precise nothing.pos _ _

theorem mul_eq_nan (zero : x.IsZero) (other : y.isFinite = false) : x.mul y = nan := by
  obtain ⟨s, nothing, rfl, none⟩ := zero
  cases y with
  | nan => rfl
  | infinite t => exact if_pos none
  | finite t code => cases other

theorem div_isZero (precise : 0 < f.precision) (zero : x.IsZero) {least : Nat} (some : 0 < least)
    (reaches : y.Reaches least) : (x.div y).IsZero := by
  obtain ⟨s, nothing, rfl, none⟩ := zero
  rcases reaches.cases with rfl | ⟨code, rfl, above⟩
  · exact ofUnits_zero_isZero precise nothing.pos _ _
  · have nonzero : code.val ≠ 0 := Format.units_pos_iff.mp (Nat.lt_of_lt_of_le some above)
    rw [div, if_neg nonzero, none, Format.units_zero, Nat.zero_mul]
    exact ofUnits_zero_isZero precise nothing.pos _ _

theorem convert_isZero {g : Format} (precise : 0 < g.precision) (finite : 0 < g.top)
    (zero : x.IsZero) : (x.convert : Ieee g).IsZero := by
  obtain ⟨s, nothing, rfl, none⟩ := zero
  rw [convert, none, Format.units_zero, ofFraction, Nat.zero_mul]
  exact ofUnits_zero_isZero precise finite _ _

end Ieee
end FederatedRounds
