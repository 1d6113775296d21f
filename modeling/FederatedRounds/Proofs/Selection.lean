import FederatedRounds.Selection
import Mathlib.Data.List.Perm.Subperm
import Mathlib.Data.List.Sort

/-! What a session relies on when it selects participants. A selector is exact when it answers with
as many different candidates as it is asked for. Every selector that sorts the candidates and draws
from them is exact, however it draws. Selection in order is one, and so is selection at random. -/
namespace FederatedRounds

namespace ParticipantId

theorem insert_eq_orderedInsert (id : ParticipantId) (ids : List ParticipantId) :
    insert id ids = ids.orderedInsert (fun a b => a.text ≤ b.text) id := by
  induction ids with
  | nil => rfl
  | cons other rest ih =>
    simp only [insert, precedes, decide_eq_true_eq, List.orderedInsert_cons, ih]

theorem sorted_eq_insertionSort (ids : List ParticipantId) :
    sorted ids = ids.insertionSort fun a b => a.text ≤ b.text := by
  induction ids with
  | nil => rfl
  | cons id rest ih =>
    rw [List.insertionSort_cons, ← ih, ← insert_eq_orderedInsert]
    rfl

theorem sorted_perm (ids : List ParticipantId) : (sorted ids).Perm ids := by
  rw [sorted_eq_insertionSort]
  exact List.perm_insertionSort _ ids

end ParticipantId

theorem selectionSize_le (total : Nat) (fraction : Double) :
    selectionSize total fraction ≤ total := Nat.min_le_left _ _

theorem one_le_selectionSize {total : Nat} (enough : 1 ≤ total) (fraction : Double) :
    1 ≤ selectionSize total fraction :=
  Nat.le_min.mpr ⟨enough, Nat.le_max_left _ _⟩

namespace Selector
variable {σ : Type}

/-- Asked for no more participants than there are candidates, the selector answers with that many
of them, each once. -/
structure Exact (selector : Selector σ) : Prop where
  length : ∀ state size (ids : List ParticipantId), ids.Nodup → size ≤ ids.length →
    (selector.select state size ids).1.length = size
  nodup : ∀ state size (ids : List ParticipantId), ids.Nodup → size ≤ ids.length →
    (selector.select state size ids).1.Nodup
  subset : ∀ state size (ids : List ParticipantId), ids.Nodup → size ≤ ids.length →
    (selector.select state size ids).1 ⊆ ids

/-- A way to draw from a list: so many of it, and others that are left. The list it is given has
that many at least. -/
structure Draws (draw : Nat → σ → List ParticipantId → List ParticipantId × σ) : Prop where
  length : ∀ size state (ids : List ParticipantId), size ≤ ids.length →
    (draw size state ids).1.length = size
  left : ∀ size state (ids : List ParticipantId), size ≤ ids.length →
    ∃ left, ((draw size state ids).1 ++ left).Perm ids

/-- Sorts the candidates and draws from them. -/
def drawing (draw : Nat → σ → List ParticipantId → List ParticipantId × σ) : Selector σ where
  select state size ids := draw size state (ParticipantId.sorted ids)

section Drawing
variable {draw : Nat → σ → List ParticipantId → List ParticipantId × σ} {size : Nat}
  {ids : List ParticipantId}

theorem drawing_length (draws : Draws draw) (state : σ) (enough : size ≤ ids.length) :
    ((drawing draw).select state size ids).1.length = size := by
  refine draws.length size state _ ?_
  rw [(ParticipantId.sorted_perm ids).length_eq]
  exact enough

theorem drawing_subperm (draws : Draws draw) (state : σ) (enough : size ≤ ids.length) :
    ((drawing draw).select state size ids).1.Subperm ids := by
  have sorted := ParticipantId.sorted_perm ids
  obtain ⟨left, split⟩ := draws.left size state _ (enough.trans_eq sorted.length_eq.symm)
  exact (List.sublist_append_left _ left).subperm.trans (split.trans sorted).subperm

theorem nodup_of_subperm {chosen : List ParticipantId} (subperm : chosen.Subperm ids)
    (distinct : ids.Nodup) : chosen.Nodup := by
  obtain ⟨same, permuted, sublist⟩ := subperm
  exact permuted.nodup_iff.mp (sublist.nodup distinct)

/-- Whatever is drawn, it is as many different candidates as are asked for. -/
theorem drawing_exact (draws : Draws draw) : (drawing draw).Exact where
  length state _ _ _ enough := drawing_length draws state enough
  nodup state _ _ distinct enough := nodup_of_subperm (drawing_subperm draws state enough) distinct
  subset state _ _ _ enough := (drawing_subperm draws state enough).subset

end Drawing

theorem take_draws : Draws fun size (state : Unit) ids => (ids.take size, state) where
  length _ _ _ enough := List.length_take_of_le enough
  left size _ ids _ := ⟨ids.drop size, by rw [List.take_append_drop]⟩

theorem order_exact : order.Exact := drawing_exact take_draws

/-- Drawing once takes a candidate out of the list, wherever it stands. -/
private theorem draw_succ (size : Nat) (state : UInt64) (id : ParticipantId)
    (ids : List ParticipantId) :
    ∃ (position : Nat) (bound : position < (id :: ids).length),
      (draw (size + 1) state (id :: ids)).1 =
        (id :: ids)[position] ::
          (draw size (nextState state) ((id :: ids).eraseIdx position)).1 := by
  -- The position is named first: left in place, its value would be computed when this is checked.
  obtain ⟨position, drawn⟩ :
      ∃ position, (nextState state >>> 33).toNat % (ids.length + 1) = position := ⟨_, rfl⟩
  have bound : position < (id :: ids).length := by
    rw [← drawn]
    exact Nat.mod_lt _ (Nat.succ_pos _)
  refine ⟨position, bound, ?_⟩
  simp only [draw, drawn, List.getElem?_eq_getElem bound, Option.getD_some]

theorem draw_length (size : Nat) (state : UInt64) (ids : List ParticipantId)
    (enough : size ≤ ids.length) : (draw size state ids).1.length = size := by
  induction size generalizing state ids with
  | zero => simp [draw]
  | succ size ih =>
    cases ids with
    | nil => simp at enough
    | cons id ids =>
      obtain ⟨position, bound, drawn⟩ := draw_succ size state id ids
      rw [drawn, List.length_cons, ih]
      rw [List.length_eraseIdx_of_lt bound]
      simpa using enough

theorem draw_subperm (size : Nat) (state : UInt64) (ids : List ParticipantId) :
    (draw size state ids).1.Subperm ids := by
  induction size generalizing state ids with
  | zero => simp [draw]
  | succ size ih =>
    cases ids with
    | nil => simp [draw]
    | cons id ids =>
      obtain ⟨position, bound, drawn⟩ := draw_succ size state id ids
      rw [drawn]
      have rest := (List.subperm_cons ((id :: ids)[position])).mpr
        (ih (nextState state) ((id :: ids).eraseIdx position))
      exact rest.trans (List.getElem_cons_eraseIdx_perm bound).subperm

theorem draw_draws : Draws draw where
  length := draw_length
  left size state ids _ := by
    obtain ⟨chosen, permuted, sublist⟩ := draw_subperm size state ids
    obtain ⟨left, split⟩ := sublist.exists_perm_append
    exact ⟨left, (permuted.symm.append_right left).trans split.symm⟩

variable {selector : Selector σ}

theorem Exact.selectFraction_eq (selects : selector.Exact) (state : σ) {ids : List ParticipantId}
    (distinct : ids.Nodup) (fraction : Double) :
    (selector.selectFraction state ids fraction).1 =
      (selector.select state (selectionSize ids.length fraction) ids).1 := by
  have length := selects.length state _ ids distinct (selectionSize_le ids.length fraction)
  exact List.take_of_length_le (Nat.le_of_eq length)

theorem Exact.selectFraction_length (selects : selector.Exact) (state : σ)
    {ids : List ParticipantId} (distinct : ids.Nodup) (fraction : Double) :
    (selector.selectFraction state ids fraction).1.length =
      selectionSize ids.length fraction := by
  rw [selects.selectFraction_eq state distinct fraction]
  exact selects.length state _ ids distinct (selectionSize_le _ _)

theorem Exact.selectFraction_nodup (selects : selector.Exact) (state : σ)
    {ids : List ParticipantId} (distinct : ids.Nodup) (fraction : Double) :
    (selector.selectFraction state ids fraction).1.Nodup := by
  rw [selects.selectFraction_eq state distinct fraction]
  exact selects.nodup state _ ids distinct (selectionSize_le _ _)

theorem Exact.selectFraction_subset (selects : selector.Exact) (state : σ)
    {ids : List ParticipantId} (distinct : ids.Nodup) (fraction : Double) :
    (selector.selectFraction state ids fraction).1 ⊆ ids := by
  rw [selects.selectFraction_eq state distinct fraction]
  exact selects.subset state _ ids distinct (selectionSize_le _ _)

end Selector
end FederatedRounds
