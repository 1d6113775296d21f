import FederatedRounds.Participant
/-! The connected participants and the instants at which they expire unless they are heard from.
Instants and spans are whole milliseconds. A participant that expires at an instant is expired at
that instant. -/
namespace FederatedRounds

abbrev Instant := Nat

/-- Participants are expected at intervals of `time`, with `timeout` as the grace after it. Each
stands once. -/
structure Registry where
  time : Nat
  timeout : Nat
  entries : List (ParticipantId × Instant)
  once : (entries.map (·.1)).Nodup

namespace Registry

def empty (time timeout : Nat) : Registry := ⟨time, timeout, [], List.nodup_nil⟩

def contains (r : Registry) (id : ParticipantId) : Bool := r.entries.any fun entry => entry.1 = id

def size (r : Registry) : Nat := r.entries.length

def ids (r : Registry) : List ParticipantId := r.entries.map (·.1)

theorem contains_iff (r : Registry) (id : ParticipantId) : r.contains id = true ↔ id ∈ r.ids := by
  simp [contains, ids]

theorem length_ids (r : Registry) : r.ids.length = r.size := List.length_map _

def expiry? (r : Registry) (id : ParticipantId) : Option Instant :=
  (r.entries.find? fun entry => entry.1 = id).map (·.2)

/-- The expiry of a participant heard from at an instant. -/
def expiryFrom (r : Registry) (now : Instant) : Instant := now + r.time + r.timeout

private theorem map_keys (entries : List (ParticipantId × Instant)) (id : ParticipantId)
    (expiry : Instant) :
    (entries.map fun entry => if entry.1 = id then (id, expiry) else entry).map (·.1) =
      entries.map (·.1) := by
  rw [List.map_map]
  apply List.map_congr_left
  intro entry _
  by_cases same : entry.1 = id <;> simp [same]

/-- Takes note that a registered participant was heard from. -/
def refresh (r : Registry) (now : Instant) (id : ParticipantId) : Registry where
  time := r.time
  timeout := r.timeout
  entries := r.entries.map fun entry => if entry.1 = id then (id, r.expiryFrom now) else entry
  once := by rw [map_keys]; exact r.once

theorem ids_refresh (r : Registry) (now : Instant) (id : ParticipantId) :
    (r.refresh now id).ids = r.ids := map_keys _ _ _

theorem size_refresh (r : Registry) (now : Instant) (id : ParticipantId) :
    (r.refresh now id).size = r.size := List.length_map _

theorem contains_refresh (r : Registry) (now : Instant) (id other : ParticipantId) :
    (r.refresh now id).contains other = r.contains other := by
  rw [Bool.eq_iff_iff, contains_iff, contains_iff, ids_refresh]

/-- Adds a participant; one that is registered already is refreshed. -/
def add (r : Registry) (now : Instant) (id : ParticipantId) : Registry :=
  if absent : r.contains id = false then
    { time := r.time
      timeout := r.timeout
      entries := r.entries ++ [(id, r.expiryFrom now)]
      once := by
        have missing : ∀ entry ∈ r.entries, entry.1 ≠ id := by simpa [contains] using absent
        rw [List.map_append, List.nodup_append]
        refine ⟨r.once, by simp, ?_⟩
        simpa using missing }
  else r.refresh now id

theorem ids_add (r : Registry) (now : Instant) (id : ParticipantId)
    (absent : r.contains id = false) : (r.add now id).ids = r.ids ++ [id] := by
  simp [add, absent, ids]

theorem size_add (r : Registry) (now : Instant) (id : ParticipantId)
    (absent : r.contains id = false) : (r.add now id).size = r.size + 1 := by
  rw [← length_ids, ids_add r now id absent, List.length_append, length_ids]
  rfl

def remove (r : Registry) (id : ParticipantId) : Registry where
  time := r.time
  timeout := r.timeout
  entries := r.entries.filter fun entry => entry.1 ≠ id
  once := r.once.sublist ((List.filter_sublist).map _)

theorem ids_remove (r : Registry) (id : ParticipantId) :
    (r.remove id).ids = r.ids.filter (· ≠ id) := by
  simp only [remove, ids, List.filter_map]
  rfl

theorem size_remove_lt (r : Registry) (id : ParticipantId) (registered : r.contains id = true) :
    (r.remove id).size < r.size := by
  rw [← length_ids, ← length_ids, ids_remove, List.length_filter_lt_length_iff_exists]
  exact ⟨id, (r.contains_iff id).mp registered, by simp⟩

theorem one_le_size (r : Registry) {id : ParticipantId} (registered : r.contains id = true) :
    1 ≤ r.size :=
  Nat.lt_of_le_of_lt (Nat.zero_le _) (r.size_remove_lt id registered)

def isExpired (r : Registry) (now : Instant) (id : ParticipantId) : Bool :=
  match r.expiry? id with
  | some expiry => decide (expiry ≤ now)
  | none => false

theorem contains_of_isExpired {r : Registry} {now : Instant} {id : ParticipantId}
    (expired : r.isExpired now id = true) : r.contains id = true := by
  unfold isExpired expiry? at expired
  cases found : r.entries.find? fun entry => entry.1 = id with
  | none => simp [found] at expired
  | some entry =>
    have same := List.find?_some found
    rw [contains, List.any_eq_true]
    exact ⟨entry, List.mem_of_find?_eq_some found, same⟩

def removeIfExpired (r : Registry) (now : Instant) (id : ParticipantId) : Registry :=
  if r.isExpired now id then r.remove id else r

def expired (r : Registry) (now : Instant) : List ParticipantId :=
  (r.entries.filter fun entry => entry.2 ≤ now).map (·.1)

/-- The earliest expiry, or the one that a participant added now would get when there is none. -/
def nextExpiration (r : Registry) (now : Instant) : Instant :=
  ((r.entries.map (·.2)).min?).getD (r.expiryFrom now)

inductive Change where
  | add (id : ParticipantId)
  | remove (id : ParticipantId)
  | refresh (id : ParticipantId)
  | removeIfExpired (id : ParticipantId) (observed : Instant)

def change (r : Registry) (now : Instant) : Change → Registry
  | .add id => r.add now id
  | .remove id => r.remove id
  | .refresh id => r.refresh now id
  | .removeIfExpired id observed => r.removeIfExpired observed id

end Registry
end FederatedRounds
