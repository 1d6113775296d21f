import FederatedRounds.Aggregation

/-! When the given ways to combine updates complain that there are none: for the empty list only. -/
namespace FederatedRounds

namespace Aggregation
variable {α : Type}

private theorem shapeMismatch?_ne_noUpdates (layer : Nat) (expected actual : Layers α) :
    shapeMismatch? layer expected actual ≠ some .noUpdates := by
  induction expected generalizing layer actual with
  | nil => simp [shapeMismatch?]
  | cons first rest ih =>
    cases actual with
    | nil => simp [shapeMismatch?]
    | cons other others =>
      unfold shapeMismatch?
      split
      · exact ih (layer + 1) others
      · nofun

private theorem mismatch?_ne_noUpdates (expected actual : Layers α) :
    mismatch? expected actual ≠ some .noUpdates := by
  unfold mismatch?
  split
  · exact shapeMismatch?_ne_noUpdates 0 expected actual
  · nofun

theorem agreedLayers_noUpdates {updates : List (Layers α × UInt64)}
    (failed : agreedLayers updates = .error .noUpdates) : updates = [] := by
  cases updates with
  | nil => rfl
  | cons first rest =>
    obtain ⟨expected, weight⟩ := first
    simp only [agreedLayers] at failed
    split at failed
    · next error found =>
      cases failed
      obtain ⟨other, _, differs⟩ := List.exists_of_findSome?_eq_some found
      exact absurd differs (mismatch?_ne_noUpdates _ _)
    · cases failed

end Aggregation

namespace Strategy
open Aggregation

theorem aggregate_noUpdates {strategy : Strategy} {updates : List (Weights × UInt64)}
    (failed : strategy.aggregate updates = .error .noUpdates) : updates = [] := by
  cases strategy with
  | federatedAveraging =>
    change average .single updates = _ at failed
    unfold average at failed
    split at failed
    · next error refused =>
      cases failed
      exact agreedLayers_noUpdates refused
    · dsimp only at failed
      split at failed <;> cases failed
  | identity =>
    change only updates = _ at failed
    unfold only at failed
    split at failed <;> cases failed
  | modelSum =>
    change sum .single updates = _ at failed
    unfold sum at failed
    split at failed
    · next error refused =>
      cases failed
      exact agreedLayers_noUpdates refused
    · cases failed

end Strategy
end FederatedRounds
