import FederatedRounds.Proofs.Selection

/-! What is promised of the selection of participants: as many as the fraction calls for, each of
them a candidate, and the same ones however the candidates are listed. Selection at random keeps the
promise with any way to draw, because it sorts the candidates before it draws. -/
namespace FederatedRounds

namespace ParticipantId

/-- In increasing order, with repetitions. -/
def Increasing (ids : List ParticipantId) : Prop := ids.Pairwise fun a b => a.text ≤ b.text

instance : Std.Total fun a b : ParticipantId => a.text ≤ b.text :=
  ⟨fun a b => String.le_total a.text b.text⟩

instance : IsTrans ParticipantId fun a b => a.text ≤ b.text := ⟨fun _ _ _ => String.le_trans⟩

theorem sorted_increasing (ids : List ParticipantId) : Increasing (sorted ids) := by
  rw [sorted_eq_insertionSort]
  exact List.pairwise_insertionSort _ ids

/-- There is only one way to list given ids in increasing order. -/
theorem Increasing.unique {ids others : List ParticipantId} (first : Increasing ids)
    (second : Increasing others) (permuted : ids.Perm others) : ids = others := by
  refine List.Perm.eq_of_pairwise ?_ first second permuted
  intro a b _ _ le ge
  cases a
  cases b
  exact congrArg mk (String.le_antisymm le ge)

theorem sorted_of_perm {ids others : List ParticipantId} (permuted : others.Perm ids) :
    sorted others = sorted ids := by
  refine (sorted_increasing others).unique (sorted_increasing ids) ?_
  exact (sorted_perm others).trans (permuted.trans (sorted_perm ids).symm)

end ParticipantId

namespace Selector
open ParticipantId
variable {σ : Type}

/-- What a session may rely on, whatever fraction of whatever candidates is selected. -/
structure Fair (selector : Selector σ) : Prop where
  length : ∀ state (ids : List ParticipantId) fraction,
    (selector.selectFraction state ids fraction).1.length = selectionSize ids.length fraction
  subperm : ∀ state (ids : List ParticipantId) fraction,
    (selector.selectFraction state ids fraction).1.Subperm ids
  perm : ∀ state (ids others : List ParticipantId) fraction, others.Perm ids →
    selector.selectFraction state others fraction = selector.selectFraction state ids fraction

theorem Fair.nodup {selector : Selector σ} (fair : selector.Fair) (state : σ)
    {ids : List ParticipantId} (distinct : ids.Nodup) (fraction : Double) :
    (selector.selectFraction state ids fraction).1.Nodup :=
  nodup_of_subperm (fair.subperm state ids fraction) distinct

theorem length_selectFraction (selector : Selector σ) (state : σ) (ids : List ParticipantId)
    (fraction : Double) : (selector.selectFraction state ids fraction).1.length =
      min (selectionSize ids.length fraction)
        (selector.select state (selectionSize ids.length fraction) ids).1.length :=
  List.length_take

theorem drawing_fair {draw : Nat → σ → List ParticipantId → List ParticipantId × σ}
    (draws : Draws draw) : (drawing draw).Fair where
  length state ids fraction := by
    rw [length_selectFraction, drawing_length draws state (selectionSize_le _ fraction)]
    exact Nat.min_self _
  subperm state ids fraction :=
    (List.take_sublist _ _).subperm.trans
      (drawing_subperm draws state (selectionSize_le _ fraction))
  perm state ids others fraction permuted := by
    simp only [selectFraction, drawing, permuted.length_eq, sorted_of_perm permuted]

theorem order_fair : order.Fair := drawing_fair take_draws

/-! Selection in order. -/

theorem order_selectFraction (ids : List ParticipantId) (fraction : Double) :
    (order.selectFraction () ids fraction).1 = (sorted ids).take (selectionSize ids.length fraction) :=
  (List.take_take ..).trans (congrArg (List.take · _) (Nat.min_self _))

theorem order_takes_first {ids listed : List ParticipantId} (increasing : Increasing listed)
    (permuted : listed.Perm ids) (fraction : Double) :
    (order.selectFraction () ids fraction).1 = listed.take (selectionSize ids.length fraction) := by
  rw [order_selectFraction, ← sorted_of_perm permuted,
    (sorted_increasing listed).unique increasing (sorted_perm listed)]

theorem order_precedes {ids left : List ParticipantId} {fraction : Double}
    (split : ((order.selectFraction () ids fraction).1 ++ left).Perm ids)
    {chosen other : ParticipantId} (selected : chosen ∈ (order.selectFraction () ids fraction).1)
    (passed : other ∈ left) : chosen.text ≤ other.text := by
  rw [order_selectFraction] at split selected
  have increasing := sorted_increasing ids
  rw [← List.take_append_drop (selectionSize ids.length fraction) (sorted ids)] at increasing
  have remaining : left.Perm ((sorted ids).drop (selectionSize ids.length fraction)) := by
    apply (List.perm_append_left_iff _).mp (split.trans _)
    rw [List.take_append_drop]
    exact (sorted_perm ids).symm
  exact (List.pairwise_append.mp increasing).2.2 _ selected _ (remaining.subset passed)

end Selector

open Selector

/-- Selection in order and selection at random, by any way to draw, keep the promise for every
fraction, numbers or not, and every list. The way to draw that this library comes with is one of
them, and of no further importance. What is selected in order stands first in the increasing order,
and no selector at all can make a round larger than the fraction calls for. -/
theorem selection_keeps_promise :
    (∀ (total : Nat) (fraction : Double), selectionSize total fraction ≤ total ∧
      (1 ≤ total → 1 ≤ selectionSize total fraction)) ∧
    order.Fair ∧
    (∀ (σ : Type) (draw : Nat → σ → List ParticipantId → List ParticipantId × σ), Draws draw →
      (drawing draw).Fair) ∧
    (Draws Selector.draw ∧ random = drawing Selector.draw ∧ random.Fair) ∧
    (∀ (σ : Type) (selector : Selector σ), selector.Fair → ∀ state (ids : List ParticipantId),
      ids.Nodup → ∀ fraction, (selector.selectFraction state ids fraction).1.Nodup) ∧
    (∀ (ids listed : List ParticipantId) (fraction : Double), ParticipantId.Increasing listed →
      listed.Perm ids → (order.selectFraction () ids fraction).1 =
        listed.take (selectionSize ids.length fraction)) ∧
    (∀ (ids left : List ParticipantId) (fraction : Double),
      ((order.selectFraction () ids fraction).1 ++ left).Perm ids →
        ∀ chosen ∈ (order.selectFraction () ids fraction).1, ∀ other ∈ left,
          chosen.text ≤ other.text) ∧
    ∀ (σ : Type) (selector : Selector σ) state (ids : List ParticipantId) (fraction : Double),
      (selector.selectFraction state ids fraction).1.length ≤
        selectionSize ids.length fraction := by
  refine ⟨?_, order_fair, ?_, ⟨draw_draws, rfl, drawing_fair draw_draws⟩, ?_, ?_, ?_, ?_⟩
  · exact fun total fraction =>
      ⟨selectionSize_le total fraction, fun enough => one_le_selectionSize enough fraction⟩
  · exact fun σ draw draws => drawing_fair draws
  · exact fun σ selector fair state ids distinct => fair.nodup state distinct
  · exact fun ids listed fraction increasing permuted =>
      order_takes_first increasing permuted fraction
  · exact fun ids left fraction split chosen selected other passed =>
      order_precedes split selected passed
  · intro σ selector state ids fraction
    rw [length_selectFraction]
    exact Nat.min_le_left _ _

namespace Trial

def half : Double := Ieee.div .one (.ofNat 2)

def crowd : List ParticipantId := [⟨"c"⟩, ⟨"a"⟩, ⟨"b"⟩]

end Trial

/-- Two of three are selected, the same two from another list of the three. When all candidates are
alike, every way to draw two of them comes to the same. -/
theorem two_of_three_selected :
    Trial.crowd.reverse.Perm Trial.crowd ∧ Trial.crowd.Nodup ∧
      (random.selectFraction 7 Trial.crowd.reverse Trial.half).1 =
        (random.selectFraction 7 Trial.crowd Trial.half).1 ∧
      (random.selectFraction 7 Trial.crowd Trial.half).1.Nodup ∧
      (order.selectFraction () Trial.crowd Trial.half).1 = [⟨"a"⟩, ⟨"b"⟩] ∧
      (order.selectFraction () Trial.crowd .nan).1 = [⟨"a"⟩] ∧
      (∀ chosen ∈ (order.selectFraction () Trial.crowd Trial.half).1, chosen.text ≤ "c") ∧
      Draws (fun size (state : Unit) ids => (ids.take size, state)) ∧
      ((drawing fun size (state : Unit) ids => (ids.take size, state)).selectFraction ()
        [⟨"a"⟩, ⟨"a"⟩, ⟨"a"⟩] Trial.half).1.length = 2 := by
  obtain ⟨_, _, drawn, ⟨_, _, fair⟩, distinct, first, precedes, _⟩ := selection_keeps_promise
  have permuted : Trial.crowd.reverse.Perm Trial.crowd := List.reverse_perm _
  have nodup : Trial.crowd.Nodup := by decide +kernel
  have increasing : ParticipantId.Increasing [⟨"a"⟩, ⟨"b"⟩, ⟨"c"⟩] := by
    unfold ParticipantId.Increasing
    decide +kernel
  have listed : ([⟨"a"⟩, ⟨"b"⟩, ⟨"c"⟩] : List ParticipantId).Perm Trial.crowd := by decide +kernel
  have three : Trial.crowd.length = 3 := rfl
  have two : selectionSize 3 Trial.half = 2 := by decide +kernel
  have one : selectionSize 3 .nan = 1 := by decide +kernel
  have front := first Trial.crowd _ Trial.half increasing listed
  rw [three, two] at front
  refine ⟨permuted, nodup, ?_, distinct _ _ fair 7 _ nodup _, front, ?_, ?_, take_draws, ?_⟩
  · rw [fair.perm 7 _ _ _ permuted]
  · have alone := first Trial.crowd _ .nan increasing listed
    rw [three, one] at alone
    exact alone
  · intro chosen selected
    have last : ((order.selectFraction () Trial.crowd Trial.half).1 ++ [ParticipantId.mk "c"]).Perm
        Trial.crowd := by
      rw [front]
      exact listed
    exact precedes _ _ _ last chosen selected _ (List.mem_singleton_self _)
  · rw [(drawn Unit _ take_draws).length]
    exact two

end FederatedRounds
