import FederatedRounds.Text.Pieces

/-! A text is cut into pieces in one way: no piece holds the separator, and with a separator before
each of them the pieces give the text with a separator before it. -/
namespace FederatedRounds.Text
variable {separator : Char} {text : List Char} {found : List (List Char)}

theorem pieces_eq_splitOn (separator : Char) (text : List Char) :
    pieces separator text = text.splitOn separator := by
  induction text with
  | nil => rfl
  | cons c rest ih =>
    unfold List.splitOn at ih ⊢
    rw [pieces, ih, List.splitOnP_cons_eq_if_modifyHead]
    by_cases same : c = separator
    · simp [same]
    · obtain ⟨piece, others, cut⟩ :=
        List.exists_cons_of_ne_nil (List.splitOnP_ne_nil (· == separator) rest)
      simp [same, cut]

theorem pieces_ne_nil (separator : Char) (text : List Char) : pieces separator text ≠ [] := by
  rw [pieces_eq_splitOn]
  exact List.splitOn_ne_nil _ _

theorem not_mem_of_mem_pieces {piece : List Char} (member : piece ∈ pieces separator text) :
    separator ∉ piece := by
  induction text generalizing piece with
  | nil =>
    obtain rfl : piece = [] := by simpa [pieces] using member
    exact List.not_mem_nil
  | cons c rest ih =>
    unfold pieces at member
    by_cases same : c = separator
    · rw [if_pos same] at member
      rcases List.mem_cons.mp member with rfl | inside
      · exact List.not_mem_nil
      · exact ih inside
    · rw [if_neg same] at member
      obtain ⟨first, others, cut⟩ := List.exists_cons_of_ne_nil (pieces_ne_nil separator rest)
      rw [cut] at member ih
      rcases List.mem_cons.mp member with rfl | inside
      · have apart := ih List.mem_cons_self
        simp [apart, Ne.symm same]
      · exact ih (List.mem_cons_of_mem _ inside)

theorem intercalate_eq_flatMap (nonempty : found ≠ []) :
    separator :: [separator].intercalate found = found.flatMap (separator :: ·) := by
  induction found with
  | nil => exact absurd rfl nonempty
  | cons piece rest ih =>
    cases rest with
    | nil => simp
    | cons next rest =>
      rw [List.flatMap_cons, ← ih (List.cons_ne_nil _ _), List.intercalate_cons_cons]
      simp

theorem pieces_eq_iff : pieces separator text = found ↔ found ≠ [] ∧
    (∀ piece ∈ found, separator ∉ piece) ∧ separator :: text = found.flatMap (separator :: ·) := by
  constructor
  · rintro rfl
    refine ⟨pieces_ne_nil separator text, fun _ => not_mem_of_mem_pieces, ?_⟩
    rw [← intercalate_eq_flatMap (pieces_ne_nil separator text), pieces_eq_splitOn,
      List.intercalate_splitOn]
  · rintro ⟨nonempty, apart, spelled⟩
    rw [← intercalate_eq_flatMap nonempty] at spelled
    rw [(List.cons.inj spelled).2, pieces_eq_splitOn,
      List.splitOn_intercalate separator apart nonempty]

theorem pieces_append (first rest : List Char) :
    pieces separator (first ++ separator :: rest) =
      pieces separator first ++ pieces separator rest := by
  simp only [pieces_eq_splitOn, List.splitOn]
  exact List.splitOnP_append_cons first rest (beq_self_eq_true separator)

end FederatedRounds.Text
