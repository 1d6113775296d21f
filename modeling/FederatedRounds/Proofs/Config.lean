import FederatedRounds.Config
import FederatedRounds.Proofs.Number.Bounds

/-! What the validity of a configuration amounts to, and a first bound on its quorum: a quotient by a
fraction of at most one is rounded to the minimum or above. -/
namespace FederatedRounds

namespace Ieee

private theorem one_cases : ∃ code : Fin Format.double.top,
    (one : Double) = .finite false code ∧ Format.double.units code = Format.double.one :=
  ⟨⟨1023 * 2 ^ 52, by decide +kernel⟩, by decide +kernel, by decide +kernel⟩

private theorem zero_cases : ∃ code : Fin Format.double.top,
    (zero : Double) = .finite false code ∧ Format.double.units code = 0 :=
  ⟨⟨0, by decide +kernel⟩, by decide +kernel, by decide +kernel⟩

theorem fraction_cases {fraction : Double} (positive : Ieee.lt .zero fraction = true)
    (bounded : fraction.le .one = true) :
    ∃ code : Fin Format.double.top, fraction = .finite false code ∧
      0 < Format.double.units code ∧ Format.double.units code ≤ Format.double.one := by
  obtain ⟨none, zero, nothing⟩ := zero_cases
  obtain ⟨whole, one, units⟩ := one_cases
  rw [zero] at positive
  rw [one] at bounded
  cases fraction with
  | nan => simp [lt] at positive
  | infinite negative => cases negative <;> simp [lt, le] at positive bounded
  | finite negative code =>
    simp only [lt, le, signedUnits, nothing, units] at positive bounded
    cases negative with
    | true =>
      simp only [if_true, Bool.false_eq_true, if_false, decide_eq_true_eq] at positive
      omega
    | false =>
      simp only [Bool.false_eq_true, if_false, decide_eq_true_eq, Bool.not_eq_true',
        decide_eq_false_iff_not] at positive bounded
      exact ⟨code, rfl, by omega, by omega⟩

end Ieee

namespace Config

/-- What a valid configuration promises. -/
theorem validate_eq_ok_iff {config : Config} :
    config.validate = .ok () ↔
      1 ≤ config.rounds.toNat ∧ 1 ≤ config.minimum.toNat ∧
        (Ieee.lt .zero config.fraction && config.fraction.le .one) = true ∧
        config.epochs.toNat * config.rounds.toNat < UInt32.size := by
  unfold validate
  simp only [UInt32.lt_iff_toNat_lt, UInt32.toNat_one, Bool.not_eq_true']
  constructor
  · intro valid
    split_ifs at valid with rounds minimum fraction overflow
    exact ⟨Nat.not_lt.mp rounds, Nat.not_lt.mp minimum, by simpa using fraction,
      Nat.not_le.mp overflow⟩
  · intro ⟨rounds, minimum, fraction, total⟩
    rw [if_neg (Nat.not_lt.mpr rounds), if_neg (Nat.not_lt.mpr minimum), fraction,
      if_neg (by decide), if_neg (Nat.not_le.mpr total)]

theorem minimum_lt (config : Config) : config.minimum.toNat < 2 * Format.double.binade :=
  Nat.lt_of_lt_of_le config.minimum.toNat_lt (by decide)

theorem fraction_of_valid {config : Config} (valid : config.validate = .ok ()) :
    ∃ code : Fin Format.double.top, config.fraction = .finite false code ∧
      0 < Format.double.units code ∧ Format.double.units code ≤ Format.double.one := by
  obtain ⟨_, _, inside, _⟩ := validate_eq_ok_iff.mp valid
  obtain ⟨positive, bounded⟩ := (Bool.and_eq_true _ _).mp inside
  exact Ieee.fraction_cases positive bounded

theorem minimum_le_quorum {config : Config} (valid : config.validate = .ok ()) :
    config.minimum.toNat ≤ config.quorum := by
  obtain ⟨fraction, given, positive, proper⟩ := fraction_of_valid valid
  obtain ⟨code, units⟩ := Format.exists_units_whole (Nat.le_of_lt config.minimum_lt)
  have quotient := (Ieee.ofNat_reaches (by decide) units (Nat.le_refl _)).div (by decide)
    (Format.units_pos_iff.mp positive)
  unfold quorum
  rw [given]
  apply (quotient.mono _).le_floorToNat
  · exact Nat.le_of_lt (Nat.lt_trans config.minimum.toNat_lt (by decide))
  · rw [← units]
    apply Format.units_mono
    exact Format.le_nearest (by decide) positive (Nat.mul_le_mul_left _ proper)

theorem one_le_quorum {config : Config} (valid : config.validate = .ok ()) :
    1 ≤ config.quorum :=
  Nat.le_trans (validate_eq_ok_iff.mp valid).2.1 (minimum_le_quorum valid)

end Config
end FederatedRounds
