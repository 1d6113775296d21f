import FederatedRounds.Proofs.Wire.RoundTrip

/-! Weights are read back from their text exactly when all their elements are finite. An infinity
and NaN are written as null, and null is read as no number. -/
namespace FederatedRounds

/-- There is neither an infinity nor NaN among the elements. -/
def Layers.Finite (weights : Weights) : Prop :=
  ∀ layer ∈ weights, ∀ x ∈ layer.elements, x.isFinite = true

instance : DecidablePred Layers.Finite := fun weights =>
  inferInstanceAs (Decidable (∀ layer ∈ weights, ∀ x ∈ layer.elements, x.isFinite = true))

/-- Every finite element reads back from the text of its number. -/
def Layers.Legible (weights : Weights) : Prop :=
  ∀ layer ∈ weights, ∀ x ∈ layer.elements, x.isFinite = true → Single.ofJson? x.toJson = some x

instance : DecidablePred Layers.Legible := fun weights =>
  inferInstanceAs (Decidable (∀ layer ∈ weights, ∀ x ∈ layer.elements, _ → _))

theorem Json.mapM_map_eq_none {α β γ : Type} {write : α → β} {read? : β → Option γ}
    {values : List α} (one : ∃ value ∈ values, read? (write value) = none) :
    (values.map write).mapM read? = none := by
  obtain ⟨value, member, unread⟩ := one
  rw [Option.eq_none_iff_forall_ne_some]
  intro items read
  have spoiled : none ∈ items.map some := by
    rw [← mapM_eq_some_iff.mp read, List.map_map, ← unread]
    exact List.mem_map_of_mem (f := read? ∘ write) member
  simp at spoiled

theorem Single.ofJson?_toJson_eq_none {x : Single} (special : ¬x.isFinite = true) :
    ofJson? (toJson x) = none := by
  cases x with
  | nan => rfl
  | infinite negative => rfl
  | finite negative code => exact absurd rfl special

theorem Tensor.ofJson?_toJson_eq_none {t : Tensor Single}
    (special : ∃ x ∈ t.elements, ¬x.isFinite = true) : ofJson? (toJson t) = none := by
  have elements : elements? (.array (t.elements.map Single.toJson)) = none := by
    obtain ⟨x, member, special⟩ := special
    exact Json.mapM_map_eq_none ⟨x, member, Single.ofJson?_toJson_eq_none special⟩
  rw [ofJson?_toJson_eq, elements]
  exact Option.bind_fun_none _

/-- Well-formed weights read back from their text when they are finite, and else are no weights. -/
theorem Weights.decode?_render {weights : Weights}
    (wellFormed : ∀ layer ∈ weights, layer.WellFormed) (legible : Layers.Legible weights) :
    Json.decode? ofJson? (toJson weights).render =
      if Layers.Finite weights then some weights else none := by
  rw [Json.decode?, Json.parse?_render, Option.bind_some]
  split
  · next finite =>
    exact Weights.ofJson?_toJson fun layer member =>
      ⟨wellFormed layer member, finite layer member, legible layer member⟩
  · next special =>
    simp only [Layers.Finite, not_forall] at special
    obtain ⟨layer, member, x, inside, special⟩ := special
    exact Json.mapM_map_eq_none ⟨layer, member, Tensor.ofJson?_toJson_eq_none ⟨x, inside, special⟩⟩

end FederatedRounds
