import FederatedRounds.Proofs.Coordinator.Quorum
import FederatedRounds.Proofs.Number.Quotient

/-! The quorum against the minimum of a round. The quorum is the whole part of the minimum divided by
the fraction that is selected, and the fraction of the quorum is rounded up, so that no rounding of
the quotient and of the product costs a round one of its participants. -/
namespace FederatedRounds

namespace Config
variable {config : Config}

private theorem limit_cases : ∃ limit : Fin Format.double.top,
    (Ieee.ofNat (2 ^ 64) : Double) = .finite false limit ∧
      Format.double.units limit = 2 ^ 64 * Format.double.one :=
  ⟨⟨1087 * 2 ^ 52, by decide +kernel⟩, by decide +kernel, by decide +kernel⟩

/-- A quotient that fits into the type of the quorum has the quorum for its whole part. -/
theorem quorum_eq_floor (valid : config.validate = .ok ())
    (bounded : (Ieee.div (.ofNat config.minimum.toNat) config.fraction).lt (.ofNat (2 ^ 64)) =
      true) : ∃ fraction : Fin Format.double.top, config.fraction = .finite false fraction ∧
      0 < Format.double.units fraction ∧
      Format.double.units (Format.double.nearest
        (config.minimum.toNat * Format.double.one * Format.double.one)
        (Format.double.units fraction)) / Format.double.one = config.quorum := by
  obtain ⟨fraction, given, positive, proper⟩ := fraction_of_valid valid
  obtain ⟨code, units⟩ := Format.exists_units_whole (Nat.le_of_lt config.minimum_lt)
  obtain ⟨limit, whole, top⟩ := limit_cases
  refine ⟨fraction, given, positive, ?_⟩
  rw [given, whole] at bounded
  unfold quorum
  rw [given]
  rcases Ieee.div_ofNat_cases (by decide) (Format.units_pos_iff.mp positive) units with
    infinite | ⟨quotient, finite, nearest⟩
  · rw [infinite] at bounded
    cases bounded
  · rw [finite] at bounded ⊢
    have below := Ieee.finite_lt_iff.mp bounded
    rw [top] at below
    rw [← nearest]
    exact (Ieee.floorToNat_finite below).symm

/-- However many more than the quorum are connected, the fraction of them makes up the minimum. -/
theorem minimum_le_selectionSize (valid : config.validate = .ok ())
    (bounded : (Ieee.div (.ofNat config.minimum.toNat) config.fraction).lt (.ofNat (2 ^ 64)) = true)
    {total : Nat} (full : config.quorum ≤ total) :
    config.minimum.toNat ≤ selectionSize total config.fraction := by
  have enough := minimum_le_quorum valid
  obtain ⟨fraction, given, positive, floor⟩ := quorum_eq_floor valid bounded
  obtain ⟨whole, units⟩ := Format.double.exists_units_floor (Format.double.nearest
    (config.minimum.toNat * Format.double.one * Format.double.one) (Format.double.units fraction))
  rw [floor] at units
  have product := (Ieee.ofNat_reaches (by decide) units full).mul (by decide)
    (Format.units_pos_iff.mp positive)
  have fits : config.minimum.toNat ≤ Format.double.binade :=
    Nat.le_of_lt (Nat.lt_of_lt_of_le config.minimum.toNat_lt (by decide))
  refine Nat.le_min.mpr ⟨Nat.le_trans enough full, Nat.le_trans ?_ (Nat.le_max_right _ _)⟩
  rw [given]
  cases minimum : config.minimum.toNat with
  | zero => exact Nat.zero_le _
  | succ before =>
    rw [minimum] at floor enough fits
    obtain ⟨code, below⟩ := Format.exists_units_whole (f := .double) (n := before) (by omega)
    have above := Format.lt_nearest_product (by decide) positive fits below rfl floor enough
    apply (product.mono _).lt_ceilToNat
    · exact Nat.lt_of_lt_of_le fits (by decide)
    · rw [← below]
      exact Format.double.units_strictMono above

/-- A quotient that does not fit leaves a round that needs two with one participant. -/
example : let config : Config := ⟨1, 1, 2, .ofFraction false 1 (2 ^ 64)⟩
    config.quorum = 2 ^ 64 - 1 ∧ selectionSize config.quorum config.fraction = 1 := by
  decide +kernel

end Config

namespace Coordinator
variable {σ α : Type} {rules : Rules σ α}

theorem minimum_le_openRound (valid : rules.config.validate = .ok ())
    (bounded : (Ieee.div (.ofNat rules.config.minimum.toNat) rules.config.fraction).lt
      (.ofNat (2 ^ 64)) = true) (selects : rules.selector.Exact) {c : Coordinator σ α}
    (full : rules.quorum ≤ c.registry.size) :
    rules.config.minimum.toNat ≤ (openRound rules c).1.round.selected.length := by
  have share : (openRound rules c).1.round.selected.length =
      selectionSize c.registry.size rules.config.fraction := by
    rw [← c.registry.length_ids]
    exact selects.selectFraction_length c.selecting c.registry.once rules.config.fraction
  rw [share]
  exact Config.minimum_le_selectionSize valid bounded full

end Coordinator

theorem minimum_selected_from_quorum {σ α : Type} {rules : Rules σ α}
    (valid : rules.config.validate = .ok ()) :
    let config := rules.config
    config.minimum.toNat ≤ config.quorum ∧
      ((Ieee.div (.ofNat config.minimum.toNat) config.fraction).lt (.ofNat (2 ^ 64)) = true →
        config.minimum.toNat ≤ selectionSize config.quorum config.fraction ∧
          (rules.selector.Exact →
            (∀ c : Coordinator σ α, config.quorum ≤ c.registry.size →
              config.minimum.toNat ≤ (c.openRound rules).1.round.selected.length) ∧
            ∀ (time timeout : Nat) (weights : Weights) (selecting : σ) (aggregating : α)
              (opened : Outcome σ α Unit) (now : Instant) (operations : List Operation),
              rules.open (.empty time timeout) weights selecting aggregating = .ok opened →
              (∀ operation ∈ operations, operation.isOutside = false) →
              let c := ((⟨now, opened.next⟩ : Situation σ α).final rules operations).coordinator
              c.phase = .round → config.minimum.toNat ≤ c.round.selected.length)) := by
  refine ⟨Config.minimum_le_quorum valid, fun bounded => ?_⟩
  have enough := Config.minimum_le_selectionSize valid bounded (Nat.le_refl _)
  refine ⟨enough, fun selects => ⟨?_, ?_⟩⟩
  · intro c full
    exact Coordinator.minimum_le_openRound valid bounded selects full
  · intro time timeout weights selecting aggregating opened now operations starts inside c runs
    obtain ⟨_, rfl⟩ := Rules.open_eq_ok_iff.mp starts
    have quorate : c.Quorate rules.config :=
      Situation.final_quorate selects inside (Coordinator.initial_quorate valid time timeout _ _ _)
    rw [(quorate.running runs).2.share]
    exact enough

namespace Trial

/-- Three tenths of the participants are selected, and at least three. -/
def tenths : Rules Unit Unit :=
  ⟨⟨1, 1, 3, .ofFraction false 3 10⟩, .order, Strategy.identity.aggregator⟩

def ten : Coordinator Unit Unit :=
  .initial (["a", "b", "c", "d", "e", "f", "g", "h", "i", "j"].foldl
    (fun registry name => registry.add 0 ⟨name⟩) (.empty 10000 5000)) [] () ()

end Trial

/-- Three tenths are rounded when they are read, and so are the quotient and the product. -/
theorem three_of_ten_selected :
    Trial.tenths.config.validate = .ok () ∧ Trial.tenths.quorum = 10 ∧
      (Ieee.div (.ofNat 3) Trial.tenths.config.fraction).lt (.ofNat (2 ^ 64)) = true ∧
      3 ≤ selectionSize 10 Trial.tenths.config.fraction ∧ Trial.tenths.selector.Exact ∧
      Trial.ten.registry.size = 10 ∧
      3 ≤ (Trial.ten.openRound Trial.tenths).1.round.selected.length := by
  have valid : Trial.tenths.config.validate = .ok () :=
    Config.validate_eq_ok_iff.mpr (by decide +kernel)
  have bounded : (Ieee.div (.ofNat 3) Trial.tenths.config.fraction).lt (.ofNat (2 ^ 64)) = true :=
    by decide +kernel
  have quorum : Trial.tenths.quorum = 10 := by decide +kernel
  have size : Trial.ten.registry.size = 10 := by decide +kernel
  obtain ⟨_, selected⟩ := minimum_selected_from_quorum valid
  obtain ⟨share, rounds⟩ := selected bounded
  have full : Trial.tenths.config.quorum ≤ Trial.ten.registry.size :=
    Nat.le_of_eq (quorum.trans size.symm)
  exact ⟨valid, quorum, bounded, quorum ▸ share, Selector.order_exact, size,
    (rounds Selector.order_exact).1 Trial.ten full⟩

end FederatedRounds
