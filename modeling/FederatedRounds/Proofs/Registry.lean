import FederatedRounds.Registry
import Mathlib.Data.List.Nodup

/-! Expiries, one for each registered participant. Operations on the registry are told apart by what
they do to the expiry of each participant. All expiries given at an instant are the same, and the
next expiration is the least of all, or the one given now when there is none. -/
namespace FederatedRounds.Registry
variable {r : Registry} {now : Instant} {id : ParticipantId} {expiry : Instant}

theorem expiry?_eq_some_iff : r.expiry? id = some expiry ↔ (id, expiry) ∈ r.entries := by
  unfold expiry?
  constructor
  · intro expires
    obtain ⟨entry, found, rfl⟩ := Option.map_eq_some_iff.mp expires
    have same : entry.1 = id := by simpa using List.find?_some found
    rw [← same]
    exact List.mem_of_find?_eq_some found
  · intro member
    cases found : r.entries.find? fun entry => entry.1 = id with
    | none =>
      have differs := List.find?_eq_none.mp found _ member
      exact absurd (decide_eq_true rfl) differs
    | some entry =>
      have same : entry.1 = id := by simpa using List.find?_some found
      have only : entry = (id, expiry) :=
        List.inj_on_of_nodup_map r.once (List.mem_of_find?_eq_some found) member same
      rw [only]
      rfl

theorem contains_iff_expires : r.contains id = true ↔ ∃ expiry, r.expiry? id = some expiry := by
  simp only [contains_iff, expiry?_eq_some_iff, ids, List.mem_map]
  constructor
  · rintro ⟨entry, member, rfl⟩
    exact ⟨entry.2, member⟩
  · rintro ⟨expiry, member⟩
    exact ⟨_, member, rfl⟩

theorem expiry?_of_absent (absent : r.contains id = false) : r.expiry? id = none := by
  cases expires : r.expiry? id with
  | none => rfl
  | some expiry =>
    rw [contains_iff_expires.mpr ⟨expiry, expires⟩] at absent
    cases absent

/-- A participant that is not registered is not refreshed either. -/
theorem expiry?_refresh (r : Registry) (now : Instant) (id other : ParticipantId) :
    (r.refresh now id).expiry? other =
      if other = id then (r.expiry? id).map fun _ => r.expiryFrom now else r.expiry? other := by
  ext expiry
  split
  · subst other
    rw [expiry?_eq_some_iff, Option.map_eq_some_iff]
    simp only [refresh, List.mem_map, expiry?_eq_some_iff]
    constructor
    · rintro ⟨entry, member, same⟩
      split at same
      · rename_i found
        subst found
        exact ⟨entry.2, member, (Prod.mk.inj same).2⟩
      · rename_i differs
        exact absurd (congrArg Prod.fst same) differs
    · rintro ⟨earlier, member, rfl⟩
      exact ⟨_, member, if_pos rfl⟩
  · rename_i differs
    rw [expiry?_eq_some_iff, expiry?_eq_some_iff]
    simp only [refresh, List.mem_map]
    constructor
    · rintro ⟨entry, member, same⟩
      split at same
      · exact absurd (congrArg Prod.fst same).symm differs
      · rwa [← same]
    · intro member
      exact ⟨_, member, if_neg differs⟩

theorem add_of_contains (r : Registry) (now : Instant) {id : ParticipantId}
    (present : r.contains id = true) : r.add now id = r.refresh now id := by
  unfold add
  rw [dif_neg (by simp [present])]

theorem expiry?_add (r : Registry) (now : Instant) (id other : ParticipantId) :
    (r.add now id).expiry? other =
      if other = id then some (r.expiryFrom now) else r.expiry? other := by
  by_cases present : r.contains id = true
  · obtain ⟨expiry, expires⟩ := contains_iff_expires.mp present
    rw [r.add_of_contains now present, expiry?_refresh, expires]
    rfl
  · have absent : r.contains id = false := by simpa using present
    unfold add
    rw [dif_pos absent]
    ext expiry
    rw [expiry?_eq_some_iff, List.mem_append, ← expiry?_eq_some_iff]
    split
    · subst other
      rw [expiry?_of_absent absent]
      simp [eq_comm]
    · simp [*]

theorem expiry?_remove (r : Registry) (id other : ParticipantId) :
    (r.remove id).expiry? other = if other = id then none else r.expiry? other := by
  ext expiry
  rw [expiry?_eq_some_iff]
  simp only [remove, List.mem_filter, ← expiry?_eq_some_iff]
  split <;> simp [*]

theorem isExpired_iff : r.isExpired now id = true ↔ ∃ expiry, r.expiry? id = some expiry ∧
    expiry ≤ now := by
  unfold isExpired
  cases r.expiry? id <;> simp

theorem mem_expired_iff : id ∈ r.expired now ↔ r.isExpired now id = true := by
  simp only [isExpired_iff, expiry?_eq_some_iff, expired, List.mem_map, List.mem_filter,
    decide_eq_true_eq]
  constructor
  · rintro ⟨entry, ⟨member, past⟩, rfl⟩
    exact ⟨entry.2, member, past⟩
  · rintro ⟨expiry, member, past⟩
    exact ⟨_, ⟨member, past⟩, rfl⟩

theorem expiry?_removeIfExpired (r : Registry) (now : Instant) (id other : ParticipantId) :
    (r.removeIfExpired now id).expiry? other =
      if other = id ∧ r.isExpired now id = true then none else r.expiry? other := by
  unfold removeIfExpired
  by_cases expired : r.isExpired now id = true
  · simp only [expired, and_true, if_true]
    exact r.expiry?_remove id other
  · simp [expired]

theorem lt_of_removeIfExpired (expires : (r.removeIfExpired now id).expiry? id = some expiry) :
    now < expiry := by
  rw [expiry?_removeIfExpired] at expires
  split at expires
  · cases expires
  · rename_i alive
    refine Nat.lt_of_not_le fun past => alive ⟨rfl, ?_⟩
    exact isExpired_iff.mpr ⟨expiry, expires, past⟩

theorem expiryFrom_add (r : Registry) (now : Instant) (id : ParticipantId) :
    (r.add now id).expiryFrom = r.expiryFrom := by
  unfold add
  split <;> rfl

theorem expiryFrom_change (r : Registry) (now : Instant) (change : Change) :
    (r.change now change).expiryFrom = r.expiryFrom := by
  cases change with
  | add id => exact r.expiryFrom_add now id
  | removeIfExpired id observed =>
    unfold Registry.change removeIfExpired
    dsimp only
    split <;> rfl
  | _ => rfl

theorem expiryFrom_mono (r : Registry) {earlier later : Instant} (le : earlier ≤ later) :
    r.expiryFrom earlier ≤ r.expiryFrom later :=
  Nat.add_le_add_right (Nat.add_le_add_right le _) _

/-- Whatever is done to the registry, expiries are kept as they are or given now. -/
theorem expiry?_change {change : Change}
    (expires : (r.change now change).expiry? id = some expiry) :
    expiry = r.expiryFrom now ∨ r.expiry? id = some expiry := by
  cases change with
  | add other =>
    rw [Registry.change, expiry?_add] at expires
    split at expires
    · exact Or.inl (Option.some.inj expires).symm
    · exact Or.inr expires
  | remove other =>
    rw [Registry.change, expiry?_remove] at expires
    split at expires
    · cases expires
    · exact Or.inr expires
  | refresh other =>
    rw [Registry.change, expiry?_refresh] at expires
    split at expires
    · obtain ⟨_, _, same⟩ := Option.map_eq_some_iff.mp expires
      exact Or.inl same.symm
    · exact Or.inr expires
  | removeIfExpired other observed =>
    rw [Registry.change, expiry?_removeIfExpired] at expires
    split at expires
    · cases expires
    · exact Or.inr expires

theorem nextExpiration_le (now : Instant) (expires : r.expiry? id = some expiry) :
    r.nextExpiration now ≤ expiry := by
  have member : expiry ∈ r.entries.map (·.2) :=
    List.mem_map_of_mem (f := (·.2)) (expiry?_eq_some_iff.mp expires)
  unfold nextExpiration
  cases least : (r.entries.map (·.2)).min? with
  | none =>
    rw [List.min?_eq_none_iff.mp least] at member
    exact absurd member List.not_mem_nil
  | some first => exact (List.min?_eq_some_iff.mp least).2 expiry member

theorem nextExpiration_attained (r : Registry) (now : Instant) :
    r.nextExpiration now = r.expiryFrom now ∨
      ∃ id, r.expiry? id = some (r.nextExpiration now) := by
  unfold nextExpiration
  cases least : (r.entries.map (·.2)).min? with
  | none => exact Or.inl rfl
  | some first =>
    obtain ⟨entry, member, rfl⟩ := List.mem_map.mp (List.min?_eq_some_iff.mp least).1
    exact Or.inr ⟨entry.1, expiry?_eq_some_iff.mpr member⟩

end FederatedRounds.Registry
