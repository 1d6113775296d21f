import FederatedRounds.Proofs.Wire.RoundTrip

/-! What is read from a text is filled: each tensor in it, of the weights as of the metrics, has as
many elements as its extents multiply to. -/
namespace FederatedRounds

/-- An update whose tensors are filled, those of its metrics too. -/
structure Update.Filled (update : Update) : Prop where
  weights : Layers.Filled update.weights
  metrics : ∀ entry ∈ update.metrics, Layers.Filled entry.2

namespace Json
variable {α β : Type} {read? : α → Option β}

theorem exists_of_mem_mapM {values : List α} {items : List β} (read : values.mapM read? = some items)
    {item : β} (member : item ∈ items) : ∃ value ∈ values, read? value = some item := by
  have found : some item ∈ items.map some := List.mem_map_of_mem member
  rw [← mapM_eq_some_iff.mp read] at found
  exact List.mem_map.mp found

/-- What every value that can be read makes, a text that can be read makes too. -/
theorem of_decode? {τ : Type} {read? : Json → Option τ} {P : τ → Prop}
    (each : ∀ {value made}, read? value = some made → P made) {text : String} {made : τ}
    (read : decode? read? text = some made) : P made := by
  obtain ⟨_, _, read⟩ := Option.bind_eq_some_iff.mp read
  exact each read

end Json

namespace Tensor
variable {t : Tensor Single}

theorem filled_of_ofItems? {items : List Json} (read : ofItems? items = some t) : t.Filled := by
  unfold ofItems? at read
  split at read
  · simp only [Option.bind_eq_bind, Option.bind_eq_some_iff] at read
    obtain ⟨_, _, _, _, _, _, checked⟩ := read
    exact (checked?_wellFormed checked).filled
  · cases read

theorem filled_of_ofMembers? {members : List (String × Json)}
    (read : ofMembers? members = some t) : t.Filled := by
  simp only [ofMembers?, Option.bind_eq_bind, Option.bind_eq_some_iff] at read
  obtain ⟨_, _, _, _, _, _, _, _, checked⟩ := read
  exact (checked?_wellFormed checked).filled

theorem filled_of_ofJson? {value : Json} (read : ofJson? value = some t) : t.Filled := by
  -- A list and an object are read in different ways, and both end in the check of the elements.
  unfold ofJson? at read
  split at read
  · exact filled_of_ofItems? read
  · obtain ⟨members, _, read⟩ := Option.bind_eq_some_iff.mp read
    exact filled_of_ofMembers? read

end Tensor

theorem Weights.filled_of_ofJson? {value : Json} {weights : Weights}
    (read : ofJson? value = some weights) : Layers.Filled weights := by
  obtain ⟨items, _, read⟩ := Option.bind_eq_some_iff.mp read
  intro layer member
  obtain ⟨_, _, read⟩ := Json.exists_of_mem_mapM read member
  exact Tensor.filled_of_ofJson? read

theorem Metrics.filled_of_ofJson? {value : Json} {metrics : Metrics}
    (read : ofJson? value = some metrics) : ∀ entry ∈ metrics, Layers.Filled entry.2 := by
  simp only [ofJson?, Option.bind_eq_bind, Option.bind_eq_some_iff, Option.pure_def,
    Option.some.injEq] at read
  obtain ⟨members, _, entries, read, rfl⟩ := read
  intro entry member
  obtain ⟨⟨name, value⟩, _, made⟩ :=
    Json.exists_of_mem_mapM read (Table.mem_of_mem_ofEntries member)
  obtain ⟨epochs, written, rfl⟩ := Option.map_eq_some_iff.mp made
  exact Weights.filled_of_ofJson? written

theorem Update.filled_of_ofJson? {value : Json} {update : Update}
    (read : ofJson? value = some update) : update.Filled := by
  simp only [ofJson?, Option.bind_eq_bind, Option.bind_eq_some_iff] at read
  obtain ⟨field, _, _, _, weights, written, _, _, weight, _, read⟩ := read
  have first := Weights.filled_of_ofJson? written
  split at read
  · obtain ⟨metrics, reported, made⟩ := Option.bind_eq_some_iff.mp read
    cases made
    exact ⟨first, Metrics.filled_of_ofJson? reported⟩
  · cases read
    exact ⟨first, nofun⟩

end FederatedRounds
