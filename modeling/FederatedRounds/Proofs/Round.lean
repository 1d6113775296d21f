import FederatedRounds.Round
import Mathlib.Data.List.Nodup
import Mathlib.Data.List.Perm.Subperm

/-! What is taken out of a round, whatever was selected: one update for each selected participant
that has one, where the selection names it first. In rounds in which each participant is selected
once and submits at most once, each selected participant has one when all updates are there, and
they are taken out in the order of the selection. -/
namespace FederatedRounds.Round

/-- Each participant stands once in the selection and submits once at most, and only those who are
selected submit. -/
structure Sound (r : Round) : Prop where
  distinct : r.selected.Nodup
  once : (r.updates.map (·.1)).Nodup
  chosen : r.updates.map (·.1) ⊆ r.selected

/-- What a round is even if the selection repeats a participant. -/
structure Tallied (r : Round) : Prop where
  once : (r.updates.map (·.1)).Nodup
  chosen : r.updates.map (·.1) ⊆ r.selected

theorem Sound.tallied {r : Round} (sound : r.Sound) : r.Tallied := ⟨sound.once, sound.chosen⟩

/-- The selected participants that have not submitted yet. -/
def missing (r : Round) : List ParticipantId := r.selected.filter fun id => !r.hasUpdate id

theorem start_sound {selected : List ParticipantId} (distinct : selected.Nodup) :
    (start selected).Sound where
  distinct := distinct
  once := List.nodup_nil
  chosen := List.nil_subset _

theorem empty_sound : empty.Sound := start_sound List.nodup_nil

theorem Tallied.submit {r : Round} (tallied : r.Tallied) {id : ParticipantId}
    (selected : r.isSelected id = true) (first : r.hasUpdate id = false) (update : Update) :
    ({ r with updates := r.updates ++ [(id, update)] } : Round).Tallied where
  once := by
    have apart : ∀ entry ∈ r.updates, entry.1 ≠ id := by simpa [hasUpdate] using first
    rw [List.map_append, List.nodup_append]
    refine ⟨tallied.once, by simp, ?_⟩
    simpa using apart
  chosen := by
    have member : id ∈ r.selected := of_decide_eq_true selected
    rw [List.map_append]
    exact List.append_subset.mpr ⟨tallied.chosen, by simpa using member⟩

theorem Sound.submit {r : Round} (sound : r.Sound) {id : ParticipantId}
    (selected : r.isSelected id = true) (first : r.hasUpdate id = false) (update : Update) :
    ({ r with updates := r.updates ++ [(id, update)] } : Round).Sound :=
  have tallied := sound.tallied.submit selected first update
  ⟨sound.distinct, tallied.once, tallied.chosen⟩

/-- The first of these updates that comes from the participant. -/
def first? (updates : List (ParticipantId × Update)) (id : ParticipantId) :
    Option (ParticipantId × Update) :=
  updates.find? fun entry => entry.1 = id

section First
variable {updates : List (ParticipantId × Update)} {id other : ParticipantId}
  {entry : ParticipantId × Update}

theorem first?_eq_none_iff : first? updates id = none ↔ id ∉ updates.map (·.1) := by
  rw [first?, List.find?_eq_none, List.mem_map]
  simp only [decide_eq_true_eq, not_exists, not_and]

theorem exists_first? (member : id ∈ updates.map (·.1)) :
    ∃ entry, first? updates id = some entry :=
  Option.ne_none_iff_exists'.mp fun absent => first?_eq_none_iff.mp absent member

theorem id_of_first? (found : first? updates id = some entry) : entry.1 = id := by
  unfold first? at found
  simpa using List.find?_some found

theorem first?_append (earlier later : List (ParticipantId × Update)) :
    first? (earlier ++ later) id = (first? earlier id).or (first? later id) :=
  List.find?_append

theorem first?_concat_of_mem (again : id ∈ updates.map (·.1)) (update : Update)
    (other : ParticipantId) : first? (updates ++ [(id, update)]) other = first? updates other := by
  rw [first?_append]
  by_cases same : id = other
  · subst same
    obtain ⟨entry, found⟩ := exists_first? again
    rw [found]
    rfl
  · have absent : first? [(id, update)] other = none := by simpa [first?] using same
    rw [absent, Option.or_none]

theorem first?_of_ne (apart : other ≠ id) :
    first? (updates.filter fun entry => entry.1 ≠ other) id = first? updates id := by
  rw [first?, first?, List.find?_filter]
  congr 1
  funext entry
  by_cases same : entry.1 = id <;> simp [same, apart.symm]

theorem first?_removed : first? (updates.filter fun entry => entry.1 ≠ id) id = none := by
  rw [first?_eq_none_iff, List.mem_map]
  rintro ⟨entry, member, same⟩
  exact of_decide_eq_true (List.mem_filter.mp member).2 same

theorem collect_of_none (absent : first? updates id = none) (ids : List ParticipantId) :
    collect (id :: ids) updates = collect ids updates := by
  unfold first? at absent
  rw [collect, absent]

theorem collect_of_some (found : first? updates id = some entry) (ids : List ParticipantId) :
    collect (id :: ids) updates =
      entry :: collect ids (updates.filter fun entry => entry.1 ≠ id) := by
  unfold first? at found
  rw [collect, found]

theorem collect_without (absent : first? updates id = none) (ids : List ParticipantId) :
    collect (ids.filter fun other => !other == id) updates = collect ids updates := by
  induction ids generalizing updates with
  | nil => rfl
  | cons other ids ih =>
    by_cases same : other = id
    · subst same
      rw [List.filter_cons_of_neg (by simp), ih absent, collect_of_none absent]
    · rw [List.filter_cons_of_pos (by simpa using same)]
      cases found : first? updates other with
      | none => rw [collect_of_none found, collect_of_none found, ih absent]
      | some entry =>
        have absent' : first? (updates.filter fun entry => entry.1 ≠ other) id = none :=
          (first?_of_ne same).trans absent
        rw [collect_of_some found, collect_of_some found, ih absent']

/-- Each participant that has an update is taken once, where it is named first. -/
theorem collect_eq_filterMap (ids : List ParticipantId)
    (updates : List (ParticipantId × Update)) :
    collect ids updates = ids.eraseDups.filterMap (first? updates) := by
  -- Whoever was taken is dropped from the names that follow, which are not the tail any more.
  match ids with
  | [] => rfl
  | id :: ids =>
    rw [List.eraseDups_cons, List.filterMap_cons]
    cases found : first? updates id with
    | none =>
      rw [collect_of_none found, ← collect_without found,
        collect_eq_filterMap (ids.filter fun other => !other == id)]
    | some entry =>
      rw [collect_of_some found, ← collect_without first?_removed,
        collect_eq_filterMap (ids.filter fun other => !other == id)]
      congr 1
      apply List.filterMap_congr
      intro other member
      have apart : other ≠ id := by
        simpa using (List.mem_filter.mp (List.mem_eraseDups.mp member)).2
      exact first?_of_ne apart.symm
termination_by ids.length
decreasing_by
  all_goals exact Nat.lt_succ_of_le (List.length_filter_le _ _)

end First

/-- A participant with an update has no other. -/
private theorem filter_of_mem {updates : List (ParticipantId × Update)}
    (once : (updates.map (·.1)).Nodup) {entry : ParticipantId × Update}
    (member : entry ∈ updates) : updates.filter (fun other => other.1 = entry.1) = [entry] := by
  induction updates with
  | nil => cases member
  | cons head rest ih =>
    obtain ⟨absent, distinct⟩ := List.nodup_cons.mp once
    rcases List.mem_cons.mp member with rfl | inside
    · rw [List.filter_cons_of_pos (by simp), List.filter_eq_nil_iff.mpr]
      intro other found same
      exact absent (List.mem_map.mpr ⟨other, found, of_decide_eq_true same⟩)
    · have apart : ¬head.1 = entry.1 := by
        intro same
        exact absent (List.mem_map.mpr ⟨entry, inside, same.symm⟩)
      rw [List.filter_cons_of_neg (by simpa using apart), ih distinct inside]

private theorem eraseDups_of_nodup {ids : List ParticipantId} (distinct : ids.Nodup) :
    ids.eraseDups = ids := by
  induction ids with
  | nil => rfl
  | cons id ids ih =>
    obtain ⟨absent, distinct⟩ := List.nodup_cons.mp distinct
    have apart : ids.filter (fun other => !other == id) = ids := by
      rw [List.filter_eq_self]
      intro other member
      simpa using ne_of_mem_of_not_mem member absent
    rw [List.eraseDups_cons, apart, ih distinct]

theorem collect_forall₂ {ids : List ParticipantId} (distinct : ids.Nodup)
    {updates : List (ParticipantId × Update)} (once : (updates.map (·.1)).Nodup)
    (present : ids ⊆ updates.map (·.1)) :
    List.Forall₂ (fun id entry => updates.filter (fun other => other.1 = id) = [entry]) ids
      (collect ids updates) := by
  rw [collect_eq_filterMap, eraseDups_of_nodup distinct]
  clear distinct
  induction ids with
  | nil => exact .nil
  | cons id ids ih =>
    obtain ⟨member, present⟩ := List.cons_subset.mp present
    obtain ⟨entry, found⟩ := exists_first? member
    have only := filter_of_mem once (List.mem_of_find?_eq_some found)
    rw [id_of_first? found] at only
    rw [List.filterMap_cons_some found]
    exact .cons only (ih present)

theorem mem_of_mem_collect {ids : List ParticipantId} {updates : List (ParticipantId × Update)}
    {entry : ParticipantId × Update} (member : entry ∈ collect ids updates) : entry ∈ updates := by
  rw [collect_eq_filterMap] at member
  obtain ⟨id, _, found⟩ := List.mem_filterMap.mp member
  exact List.mem_of_find?_eq_some found

/-- With all updates there, it was the selected participants who submitted, each once. -/
theorem Tallied.perm {r : Round} (tallied : r.Tallied) (complete : r.isFinished = true) :
    (r.updates.map (·.1)).Perm r.selected := by
  have count : r.updates.length = r.selected.length := of_decide_eq_true complete
  have inside := List.subperm_of_subset tallied.once tallied.chosen
  have enough : r.selected.length ≤ (r.updates.map (·.1)).length := by
    rw [List.length_map]
    exact Nat.le_of_eq count.symm
  exact inside.perm_of_length_le enough

/-- The updates of a complete round are those of the selected participants, one each and in their
order. -/
theorem Sound.inSelectionOrder_forall₂ {r : Round} (sound : r.Sound)
    (complete : r.isFinished = true) :
    List.Forall₂ (fun id entry => r.updates.filter (fun other => other.1 = id) = [entry])
      r.selected r.inSelectionOrder :=
  collect_forall₂ sound.distinct sound.once (sound.tallied.perm complete).symm.subset

theorem Sound.mem_inSelectionOrder {r : Round} (sound : r.Sound) (complete : r.isFinished = true)
    {entry : ParticipantId × Update} (member : entry ∈ r.updates) : entry ∈ r.inSelectionOrder := by
  have selected : entry.1 ∈ r.selected := sound.chosen (List.mem_map.mpr ⟨entry, member, rfl⟩)
  obtain ⟨position, chosen, same⟩ := List.mem_iff_getElem.mp selected
  have ordered := sound.inSelectionOrder_forall₂ complete
  have taken : position < r.inSelectionOrder.length := ordered.length_eq ▸ chosen
  have only := ordered.get chosen taken
  rw [List.get_eq_getElem, same, filter_of_mem sound.once member] at only
  rw [List.singleton_inj.mp only]
  exact List.get_mem _ _

theorem hasUpdate_iff (r : Round) (id : ParticipantId) :
    r.hasUpdate id = true ↔ id ∈ r.updates.map (·.1) := by
  rw [hasUpdate, List.any_eq_true, List.mem_map]
  simp only [decide_eq_true_eq]

theorem mem_missing {r : Round} {id : ParticipantId} :
    id ∈ r.missing ↔ id ∈ r.selected ∧ r.hasUpdate id = false := by
  rw [missing, List.mem_filter, Bool.not_eq_true']

theorem Sound.missing_nodup {r : Round} (sound : r.Sound) : r.missing.Nodup :=
  sound.distinct.filter _

/-- The selected participants are those who submitted and those who are missing. -/
theorem Sound.selected_perm {r : Round} (sound : r.Sound) :
    r.selected.Perm (r.updates.map (·.1) ++ r.missing) := by
  have apart : (r.updates.map (·.1)).Disjoint r.missing := by
    intro id submitted absent
    rw [← hasUpdate_iff, (mem_missing.mp absent).2] at submitted
    cases submitted
  rw [List.perm_ext_iff_of_nodup sound.distinct (sound.once.append sound.missing_nodup apart)]
  intro id
  rw [List.mem_append, ← hasUpdate_iff, mem_missing]
  constructor
  · intro selected
    cases submitted : r.hasUpdate id with
    | true => exact Or.inl rfl
    | false => exact Or.inr ⟨selected, rfl⟩
  · rintro (submitted | absent)
    · exact sound.chosen ((r.hasUpdate_iff id).mp submitted)
    · exact absent.1

theorem Sound.length_missing {r : Round} (sound : r.Sound) :
    r.updates.length + r.missing.length = r.selected.length := by
  rw [sound.selected_perm.length_eq, List.length_append, List.length_map]

theorem Sound.isFinished_iff {r : Round} (sound : r.Sound) :
    r.isFinished = true ↔ r.missing = [] := by
  have count := sound.length_missing
  rw [isFinished, decide_eq_true_iff, ← List.length_eq_zero_iff]
  omega

/-- An update completes its round when its participant is the only one missing. -/
theorem Sound.isFinished_submit_iff {r : Round} (sound : r.Sound) {id : ParticipantId}
    (absent : id ∈ r.missing) (update : Update) :
    ({ r with updates := r.updates ++ [(id, update)] } : Round).isFinished = true ↔
      r.missing = [id] := by
  have count := sound.length_missing
  rw [isFinished, decide_eq_true_iff, List.length_append, List.length_singleton]
  constructor
  · intro complete
    have complete : r.updates.length + 1 = r.selected.length := complete
    have one : r.missing.length = 1 := by omega
    obtain ⟨other, alone⟩ := List.length_eq_one_iff.mp one
    rw [alone] at absent ⊢
    rw [List.mem_singleton.mp absent]
  · intro alone
    rw [alone, List.length_singleton] at count
    exact count

/-- A round in which as many submitted as were selected repeats nobody. -/
theorem Tallied.sound {r : Round} (tallied : r.Tallied) (complete : r.isFinished = true) :
    r.Sound :=
  ⟨(tallied.perm complete).nodup_iff.mp tallied.once, tallied.once, tallied.chosen⟩

/-- Who completes a round is the last one missing, whatever was selected. -/
theorem Tallied.missing_eq {r : Round} (tallied : r.Tallied) {id : ParticipantId}
    (selected : r.isSelected id = true) (first : r.hasUpdate id = false) {update : Update}
    (complete : ({ r with updates := r.updates ++ [(id, update)] } : Round).isFinished = true) :
    r.missing = [id] := by
  have whole := (tallied.submit selected first update).sound complete
  have sound : r.Sound := ⟨whole.distinct, tallied.once, tallied.chosen⟩
  exact (sound.isFinished_submit_iff (mem_missing.mpr ⟨of_decide_eq_true selected, first⟩)
    update).mp complete

/-- The round after more participants submitted, each its own update. -/
def filled (r : Round) (payload : ParticipantId → Update) (ids : List ParticipantId) : Round :=
  { r with updates := r.updates ++ ids.map fun id => (id, payload id) }

/-- The update that a participant submitted, or the one it has yet to submit. -/
def updateOf (r : Round) (payload : ParticipantId → Update) (id : ParticipantId) : Update :=
  ((r.updates.find? fun entry => entry.1 = id).map (·.2)).getD (payload id)

/-- The updates of all who are selected, in the order of the selection. -/
def contributions (r : Round) (payload : ParticipantId → Update) : List (ParticipantId × Update) :=
  r.selected.map fun id => (id, r.updateOf payload id)

section Filled
variable {r : Round} {payload : ParticipantId → Update} {ids : List ParticipantId}

theorem filled_nil : r.filled payload [] = r := by
  rw [filled, List.map_nil, List.append_nil]

theorem filled_concat (id : ParticipantId) :
    r.filled payload (ids ++ [id]) =
      { r.filled payload ids with
        updates := (r.filled payload ids).updates ++ [(id, payload id)] } := by
  simp [filled]

theorem map_filled : (r.filled payload ids).updates.map (·.1) = r.updates.map (·.1) ++ ids := by
  simp [filled, Function.comp_def]

theorem hasUpdate_filled (id : ParticipantId) :
    (r.filled payload ids).hasUpdate id = true ↔ r.hasUpdate id = true ∨ id ∈ ids := by
  rw [hasUpdate_iff, map_filled, List.mem_append, ← hasUpdate_iff]

theorem Sound.isFinished_filled (sound : r.Sound) :
    (r.filled payload ids).isFinished = true ↔ ids.length = r.missing.length := by
  have count := sound.length_missing
  simp only [isFinished, Round.filled, List.length_append, List.length_map, decide_eq_true_iff]
  omega

theorem first?_payloads {id : ParticipantId} (member : id ∈ ids) :
    first? (ids.map fun id => (id, payload id)) id = some (id, payload id) := by
  have named : id ∈ (ids.map fun id => (id, payload id)).map (·.1) := by
    simpa [Function.comp_def] using member
  obtain ⟨entry, found⟩ := exists_first? named
  obtain ⟨other, _, rfl⟩ := List.mem_map.mp (List.mem_of_find?_eq_some found)
  have same : other = id := id_of_first? found
  rw [found, same]

theorem first?_filled (permuted : ids.Perm r.missing) {id : ParticipantId}
    (selected : id ∈ r.selected) :
    first? (r.filled payload ids).updates id = some (id, r.updateOf payload id) := by
  have split : first? (r.filled payload ids).updates id =
      (first? r.updates id).or (first? (ids.map fun id => (id, payload id)) id) :=
    first?_append ..
  have owed : r.updateOf payload id = ((first? r.updates id).map (·.2)).getD (payload id) := rfl
  cases found : first? r.updates id with
  | some entry =>
    rw [split, owed, found, ← id_of_first? found]
    rfl
  | none =>
    have absent : r.hasUpdate id = false := by
      rw [← Bool.not_eq_true, hasUpdate_iff, ← first?_eq_none_iff, found]
    have member : id ∈ ids := permuted.mem_iff.mpr (mem_missing.mpr ⟨selected, absent⟩)
    rw [split, owed, found, Option.none_or, first?_payloads member]
    rfl

/-- With the updates of all who were missing, a round is taken out in the order of the selection,
whatever the order in which they came. -/
theorem Sound.inSelectionOrder_filled (sound : r.Sound) (permuted : ids.Perm r.missing) :
    (r.filled payload ids).inSelectionOrder = r.contributions payload := by
  have taken : r.selected.filterMap (first? (r.filled payload ids).updates) =
      r.selected.filterMap (some ∘ fun id => (id, r.updateOf payload id)) :=
    List.filterMap_congr fun _ selected => first?_filled permuted selected
  rw [inSelectionOrder, collect_eq_filterMap]
  change r.selected.eraseDups.filterMap _ = _
  rw [eraseDups_of_nodup sound.distinct, taken, List.filterMap_eq_map, contributions]

end Filled

end FederatedRounds.Round
