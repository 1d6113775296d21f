import FederatedRounds.Proofs.Storage.Key
import FederatedRounds.Proofs.Wire.RoundTrip

/-! What a tree holds below the directory of a store after writes that succeeded. As long as no key
clashes with one that was written, its file has the latest weights under it, or is not there. Where
one does clash, there is what belongs to the other key. -/
namespace FederatedRounds.Storage

/-- Weights and the keys under which they were written, the latest first. -/
abbrev Writes := List (Key × Weights)

namespace Writes
open Key

/-- What there is at names below the directory of a store. -/
def contents : Writes → List String → Option Entry
  | [], names => if names = [] then some .directory else none
  | (key, weights) :: earlier, names =>
    if names = key.below then some (.file (Weights.toJson weights).render)
    else if names = key.below.dropLast then some .directory
    else contents earlier names

/-- No key was written that clashes with this one. -/
def Clear (writes : Writes) (key : Key) : Prop := ∀ write ∈ writes, ¬Clash write.1 key

/-- No two keys clash of those that were written. -/
def Consistent (writes : Writes) : Prop :=
  writes.Pairwise fun later earlier => ¬Clash later.1 earlier.1

/-- All that was written reads back from its text. -/
def Legible (writes : Writes) : Prop := ∀ write ∈ writes, ∀ t ∈ write.2, t.Sendable

variable {key other : Key} {weights : Weights} {writes : Writes}

theorem clash_of_below_eq_dropLast (same : key.below = other.below.dropLast) : Clash other key := by
  cases key <;> cases other <;> simp_all [below, Clash]

theorem clash_of_dropLast_eq_below (same : key.below.dropLast = other.below) : Clash other key := by
  cases key <;> cases other <;> simp_all [below, Clash]

/-- The file of a key has what was written there last. -/
theorem contents_below (clear : writes.Clear key) : writes.contents key.below =
    (Table.get? key writes).map fun weights => .file (Weights.toJson weights).render := by
  induction writes with
  | nil => cases key <;> rfl
  | cons write earlier ih =>
    obtain ⟨other, weights⟩ := write
    obtain ⟨apart, clear⟩ := List.forall_mem_cons.mp clear
    rw [contents, Table.get?]
    by_cases same : other = key
    · rw [if_pos (same ▸ rfl), if_pos same]
      rfl
    · have file : key.below ≠ other.below := fun equal => same (below_injective equal).symm
      have directory : key.below ≠ other.below.dropLast := fun equal =>
        apart (clash_of_below_eq_dropLast equal)
      rw [if_neg file, if_neg directory, if_neg same]
      exact ih clear

/-- Where the file of a key would stand, there is a directory, or nothing was written yet. -/
theorem contents_dropLast (clear : writes.Clear key) :
    writes.contents key.below.dropLast = some .directory ∨
      writes.contents key.below.dropLast = none ∧ Table.get? key writes = none := by
  induction writes with
  | nil => cases key <;> simp [contents, below, Table.get?]
  | cons write earlier ih =>
    obtain ⟨other, weights⟩ := write
    obtain ⟨apart, clear⟩ := List.forall_mem_cons.mp clear
    have file : key.below.dropLast ≠ other.below := fun equal =>
      apart (clash_of_dropLast_eq_below equal)
    rw [contents, if_neg file, Table.get?]
    by_cases directory : key.below.dropLast = other.below.dropLast
    · exact Or.inl (if_pos directory)
    · have different : other ≠ key := fun same => directory (same ▸ rfl)
      rw [if_neg directory, if_neg different]
      exact ih clear

theorem contents_of_entry_ne {name : String} (different : key.entry ≠ name) :
    contents ((key, weights) :: writes) [name] = writes.contents [name] := by
  cases key with
  | global round => simp [contents, below, show name ≠ FileStore.fileName round from different.symm]
  | participant id round => simp [contents, below, show name ≠ id.text from different.symm]

/-- Under the name of a key that was written there is a file for a round, and a directory for a
participant, whatever else was written, as long as no two of the keys clash. -/
theorem contents_entry (consistent : writes.Consistent)
    (member : (other, weights) ∈ writes) : ∃ found, writes.contents [other.entry] = some found ∧
      (found = .directory ↔ other.isGlobal = false) := by
  induction writes with
  | nil => cases member
  | cons write earlier ih =>
    obtain ⟨key, latest⟩ := write
    obtain ⟨first, consistent⟩ := List.pairwise_cons.mp consistent
    -- A later write under the same name is of the same kind, since it does not clash.
    by_cases shared : key.entry = other.entry
    · have kind : key.isGlobal = other.isGlobal := by
        rcases List.mem_cons.mp member with same | among
        · exact congrArg (fun write => write.1.isGlobal) same.symm
        · exact Decidable.not_not.mp fun differ => first _ among (clash_iff.mpr ⟨shared, differ⟩)
      rw [← shared, ← kind]
      cases key <;> simp [contents, below, entry, isGlobal]
    · have among : (other, weights) ∈ earlier :=
        (List.mem_cons.mp member).resolve_left fun same =>
          shared (congrArg (fun write => write.1.entry) same).symm
      obtain ⟨found, there, kind⟩ := ih consistent among
      exact ⟨found, (contents_of_entry_ne shared).trans there, kind⟩

/-- Under the name of a key that clashes there is what belongs to the other one. -/
theorem contents_of_not_clear (consistent : writes.Consistent) (occupied : ¬writes.Clear key) :
    ∃ found, writes.contents [key.entry] = some found ∧
      (found = .directory ↔ key.isGlobal = true) := by
  simp only [Clear, not_forall, Decidable.not_not] at occupied
  obtain ⟨⟨other, weights⟩, member, clash⟩ := occupied
  obtain ⟨shared, differ⟩ := clash_iff.mp clash
  obtain ⟨found, there, kind⟩ := contents_entry consistent member
  refine ⟨found, shared ▸ there, kind.trans ?_⟩
  dsimp only at differ
  revert differ
  cases other.isGlobal <;> cases key.isGlobal <;> simp

end Writes
end FederatedRounds.Storage
