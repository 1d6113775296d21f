import FederatedRounds.Proofs.Coordinator.Failure
import Mathlib.Data.Finset.Card

/-! Updates that are offered to a round by anybody, selected or not, and more than once. The first
of each submitter is kept and the others are refused. Those of the selected participants are taken
out in the order in which the selection names them first, one each. -/
namespace FederatedRounds
namespace Round

/-- The round after an update was offered to it, whether it was recorded or refused. -/
def offer (r : Round) (call : ParticipantId × Update) : Round := (r.submit? call.1 call.2).getD r

def offered (r : Round) (calls : List (ParticipantId × Update)) : Round := calls.foldl offer r

/-- The round holds the first of these updates of each submitter, and no other. -/
structure KeepsFirst (r : Round) (calls : List (ParticipantId × Update)) : Prop where
  once : (r.updates.map (·.1)).Nodup
  first : ∀ id, first? r.updates id = first? calls id

section Offered
variable {r : Round} {id : ParticipantId} {update : Update}
  {calls : List (ParticipantId × Update)}

theorem submit?_eq_none_iff : r.submit? id update = none ↔ id ∈ r.updates.map (·.1) := by
  rw [← hasUpdate_iff, submit?]
  split <;> simp_all

theorem offer_of_mem (again : id ∈ r.updates.map (·.1)) : r.offer (id, update) = r := by
  rw [offer, submit?_eq_none_iff.mpr again]
  rfl

theorem offer_of_not_mem (fresh : id ∉ r.updates.map (·.1)) :
    r.offer (id, update) = { r with updates := r.updates ++ [(id, update)] } := by
  unfold offer submit?
  rw [if_neg (mt (r.hasUpdate_iff id).mp fresh)]
  rfl

theorem offer_eq_self_iff : r.offer (id, update) = r ↔ id ∈ r.updates.map (·.1) := by
  refine ⟨fun same => ?_, offer_of_mem⟩
  by_contra fresh
  rw [offer_of_not_mem fresh] at same
  have longer := congrArg (fun r => r.updates.length) same
  simp at longer

theorem offered_concat (calls : List (ParticipantId × Update)) (call : ParticipantId × Update) :
    r.offered (calls ++ [call]) = (r.offered calls).offer call :=
  List.foldl_concat ..

theorem selected_offer (call : ParticipantId × Update) : (r.offer call).selected = r.selected := by
  obtain ⟨id, update⟩ := call
  by_cases again : id ∈ r.updates.map (·.1)
  · rw [offer_of_mem again]
  · rw [offer_of_not_mem again]

theorem selected_offered (calls : List (ParticipantId × Update)) :
    (r.offered calls).selected = r.selected := by
  induction calls using List.reverseRecOn with
  | nil => rfl
  | append_singleton calls call ih => rw [offered_concat, selected_offer, ih]

theorem KeepsFirst.mem_iff (keeps : r.KeepsFirst calls) :
    id ∈ r.updates.map (·.1) ↔ id ∈ calls.map (·.1) := by
  rw [← not_iff_not, ← first?_eq_none_iff, ← first?_eq_none_iff, keeps.first]

theorem start_keepsFirst (selected : List ParticipantId) : (start selected).KeepsFirst [] :=
  ⟨List.nodup_nil, fun _ => rfl⟩

theorem KeepsFirst.offer (keeps : r.KeepsFirst calls) (call : ParticipantId × Update) :
    (r.offer call).KeepsFirst (calls ++ [call]) := by
  obtain ⟨id, update⟩ := call
  by_cases again : id ∈ r.updates.map (·.1)
  · rw [offer_of_mem again]
    refine ⟨keeps.once, fun other => ?_⟩
    rw [first?_concat_of_mem (keeps.mem_iff.mp again), keeps.first]
  · rw [offer_of_not_mem again]
    refine ⟨?_, fun other => ?_⟩
    · rw [List.map_append]
      exact keeps.once.append (List.nodup_singleton _) (by simpa using again)
    · rw [first?_append, first?_append, keeps.first]

theorem offered_keepsFirst (selected : List ParticipantId)
    (calls : List (ParticipantId × Update)) :
    ((start selected).offered calls).KeepsFirst calls := by
  induction calls using List.reverseRecOn with
  | nil => exact start_keepsFirst selected
  | append_singleton calls call ih =>
    rw [offered_concat]
    exact ih.offer call

theorem KeepsFirst.length_eq (keeps : r.KeepsFirst calls) :
    r.updates.length = (calls.map (·.1)).toFinset.card := by
  have same : (r.updates.map (·.1)).toFinset = (calls.map (·.1)).toFinset := by
    ext id
    rw [List.mem_toFinset, List.mem_toFinset, keeps.mem_iff]
  rw [← same, List.toFinset_card_of_nodup keeps.once, List.length_map]

theorem KeepsFirst.inSelectionOrder (keeps : r.KeepsFirst calls) :
    r.inSelectionOrder = r.selected.eraseDups.filterMap (first? calls) := by
  rw [Round.inSelectionOrder, collect_eq_filterMap, funext keeps.first]

theorem KeepsFirst.sound (keeps : r.KeepsFirst calls) (distinct : r.selected.Nodup)
    (chosen : calls.map (·.1) ⊆ r.selected) : r.Sound :=
  ⟨distinct, keeps.once, fun _ member => chosen (keeps.mem_iff.mp member)⟩

theorem KeepsFirst.isFinished_iff (keeps : r.KeepsFirst calls) (sound : r.Sound) :
    r.isFinished = true ↔ r.selected ⊆ calls.map (·.1) := by
  rw [sound.isFinished_iff, missing, List.filter_eq_nil_iff]
  refine forall₂_congr fun id _ => ?_
  rw [← keeps.mem_iff, ← hasUpdate_iff]
  simp

theorem KeepsFirst.forall₂ (keeps : r.KeepsFirst calls) (sound : r.Sound)
    (complete : r.isFinished = true) :
    List.Forall₂ (fun id entry => entry.1 = id ∧ first? calls id = some entry) r.selected
      r.inSelectionOrder := by
  refine (sound.inSelectionOrder_forall₂ complete).imp ?_
  intro id entry only
  have found : first? r.updates id = some entry := by
    rw [first?, ← List.head?_filter, only]
    rfl
  exact ⟨id_of_first? found, (keeps.first id).symm.trans found⟩

end Offered

/-- Whatever was offered to a new round, the next update is refused exactly if it is not the first
of its participant, and then nothing changes, neither in the round nor in a coordinator that has it.
If nobody is selected twice and only the selected submit, the round is complete when all of them
did, and each of them has one entry. -/
theorem first_updates_kept (selected : List ParticipantId)
    (calls : List (ParticipantId × Update)) :
    let r := (start selected).offered calls
    (∀ (id : ParticipantId) (update : Update),
      (r.submit? id update = none ↔ id ∈ calls.map (·.1)) ∧
      (r.offer (id, update) = r ↔ id ∈ calls.map (·.1)) ∧
      ∀ (σ α : Type) (rules : Rules σ α) (c : Coordinator σ α), c.round = r →
        c.refusal? id .finish = none →
          ((c.endTraining rules id update).reply = .error (.duplicatedUpdate id) ↔
            id ∈ calls.map (·.1)) ∧
          (id ∈ calls.map (·.1) → (c.endTraining rules id update).next = c)) ∧
    r.updates.length = (calls.map (·.1)).toFinset.card ∧
    r.inSelectionOrder = selected.eraseDups.filterMap (first? calls) ∧
    (selected.Nodup → calls.map (·.1) ⊆ selected →
      (r.isFinished = true ↔ selected ⊆ calls.map (·.1)) ∧
      (r.isFinished = true →
        List.Forall₂ (fun id entry => entry.1 = id ∧ first? calls id = some entry) selected
          r.inSelectionOrder)) := by
  intro r
  have keeps : r.KeepsFirst calls := offered_keepsFirst selected calls
  have same : r.selected = selected := selected_offered calls
  refine ⟨?_, keeps.length_eq, ?_, ?_⟩
  · intro id update
    refine ⟨submit?_eq_none_iff.trans keeps.mem_iff, offer_eq_self_iff.trans keeps.mem_iff, ?_⟩
    intro σ α rules c held passes
    have again_iff : c.round.hasUpdate id = true ↔ id ∈ calls.map (·.1) := by
      rw [held, hasUpdate_iff, keeps.mem_iff]
    rw [← again_iff]
    refine ⟨Coordinator.endTraining_duplicated_iff passes, fun again => ?_⟩
    rw [Coordinator.endTraining_repeated passes again]
  · rw [keeps.inSelectionOrder, same]
  · intro distinct chosen
    rw [← same] at distinct chosen ⊢
    have sound := keeps.sound distinct chosen
    exact ⟨keeps.isFinished_iff sound, keeps.forall₂ sound⟩

end Round

namespace Trial

def cat : ParticipantId := ⟨"cat"⟩

/-- The first round, to which Ann has submitted. -/
def annDone : Coordinator Unit Unit :=
  (firstRound.coordinator.endTraining rules ann (update 1)).next

/-- Bob submits twice. -/
def insistent : List (ParticipantId × Update) :=
  [(bob, update 1), (ann, update 2), (bob, update 3)]

end Trial

/-- Ann cannot submit again. A second update of Bob is left out, and so is one of Cat, who is not
selected, even if the selection names Bob twice. -/
theorem repeated_updates_left_out :
    let complete := (Round.start [Trial.ann, Trial.bob]).offered Trial.insistent
    let crowded := (Round.start [Trial.bob, Trial.ann, Trial.bob]).offered
      ((Trial.cat, Trial.update 0) :: Trial.insistent)
    Trial.annDone.round = (Round.start [Trial.ann, Trial.bob]).offered
        [(Trial.ann, Trial.update 1)] ∧
      Trial.annDone.refusal? Trial.ann .finish = none ∧
      (Trial.annDone.endTraining Trial.rules Trial.ann (Trial.update 2)).reply =
        .error (.duplicatedUpdate Trial.ann) ∧
      (Trial.annDone.endTraining Trial.rules Trial.ann (Trial.update 2)).next = Trial.annDone ∧
      [Trial.ann, Trial.bob].Nodup ∧
      Trial.insistent.map (·.1) ⊆ [Trial.ann, Trial.bob] ∧
      complete.isFinished = true ∧
      complete.inSelectionOrder.map (·.1) = [Trial.ann, Trial.bob] ∧
      crowded.updates.length = 3 ∧
      crowded.inSelectionOrder = [(Trial.bob, Trial.update 1), (Trial.ann, Trial.update 2)] := by
  intro complete crowded
  obtain ⟨refuses, _⟩ := Round.first_updates_kept [Trial.ann, Trial.bob]
    [(Trial.ann, Trial.update 1)]
  obtain ⟨_, _, _, whole⟩ := Round.first_updates_kept [Trial.ann, Trial.bob] Trial.insistent
  obtain ⟨_, count, taken, _⟩ := Round.first_updates_kept [Trial.bob, Trial.ann, Trial.bob]
    ((Trial.cat, Trial.update 0) :: Trial.insistent)
  have parts : Trial.annDone.round.selected = [Trial.ann, Trial.bob] ∧
      Trial.annDone.round.updates = [(Trial.ann, Trial.update 1)] := by decide +kernel
  have held : Trial.annDone.round = (Round.start [Trial.ann, Trial.bob]).offered
      [(Trial.ann, Trial.update 1)] := by
    generalize Trial.annDone.round = r at parts
    obtain ⟨selected, updates⟩ := r
    obtain ⟨rfl, rfl⟩ : selected = _ ∧ updates = _ := parts
    rfl
  have passes : Trial.annDone.refusal? Trial.ann .finish = none := by decide +kernel
  obtain ⟨_, _, answers⟩ := refuses Trial.ann (Trial.update 2)
  obtain ⟨reply, next⟩ := answers Unit Unit Trial.rules Trial.annDone held passes
  have again : Trial.ann ∈ [(Trial.ann, Trial.update 1)].map (·.1) := List.mem_singleton_self _
  have distinct : [Trial.ann, Trial.bob].Nodup := by decide
  have chosen : Trial.insistent.map (·.1) ⊆ [Trial.ann, Trial.bob] := by decide
  obtain ⟨finished, ordered⟩ := whole distinct chosen
  have finished : complete.isFinished = true := finished.mpr (by decide)
  have ordered : complete.inSelectionOrder.map (·.1) = [Trial.ann, Trial.bob] := by
    rw [← List.forall₂_eq_eq_eq, List.forall₂_map_left_iff]
    exact ((ordered finished).imp fun _ _ entry => entry.1).flip
  exact ⟨held, passes, reply.mpr again, next again, distinct, chosen, finished, ordered,
    count.trans (by decide), taken.trans (by decide)⟩

end FederatedRounds
