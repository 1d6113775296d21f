import FederatedRounds.Table
import Mathlib.Data.List.Induction
import Mathlib.Data.List.Nodup

/-! Tables in which every key stands once. They are what their entries make of the empty table, and
what is found in them does not depend on the order of the entries. -/
namespace FederatedRounds.Table
variable {α β : Type} [DecidableEq α]

theorem set_of_absent {key : α} {t : Table α β} (absent : ∀ entry ∈ t, entry.1 ≠ key) (value : β) :
    t.set key value = t ++ [(key, value)] := by
  induction t with
  | nil => rfl
  | cons entry rest ih =>
    obtain ⟨apart, absent⟩ := List.forall_mem_cons.mp absent
    rw [set, if_neg apart, ih absent]
    rfl

theorem ofEntries_append (first rest : List (α × β)) :
    ofEntries (first ++ rest) =
      rest.foldl (fun t entry => t.set entry.1 entry.2) (ofEntries first) :=
  List.foldl_append

theorem mem_of_mem_set {key : α} {value : β} {t : Table α β} {entry : α × β}
    (member : entry ∈ t.set key value) : entry = (key, value) ∨ entry ∈ t := by
  induction t with
  | nil => exact Or.inl (List.mem_singleton.mp member)
  | cons first rest ih =>
    unfold set at member
    split at member
    · exact (List.mem_cons.mp member).imp_right (List.mem_cons_of_mem _)
    · rcases List.mem_cons.mp member with rfl | inside
      · exact Or.inr List.mem_cons_self
      · exact (ih inside).imp_right (List.mem_cons_of_mem _)

theorem mem_of_mem_ofEntries {entries : List (α × β)} {entry : α × β}
    (member : entry ∈ ofEntries entries) : entry ∈ entries := by
  induction entries using List.reverseRecOn with
  | nil => exact member
  | append_singleton entries last ih =>
    rw [ofEntries_append] at member
    rcases mem_of_mem_set member with rfl | inside
    · exact List.mem_append_right _ (List.mem_singleton_self _)
    · exact List.mem_append_left _ (ih inside)

theorem ofEntries_of_nodup {entries : List (α × β)} (distinct : (entries.map (·.1)).Nodup) :
    ofEntries entries = entries := by
  induction entries using List.reverseRecOn with
  | nil => rfl
  | append_singleton entries entry ih =>
    rw [List.map_append, List.nodup_append] at distinct
    obtain ⟨distinct, _, apart⟩ := distinct
    have absent : ∀ other ∈ entries, other.1 ≠ entry.1 := by
      intro other member
      exact apart _ (List.mem_map_of_mem member) _ (List.mem_singleton_self _)
    rw [ofEntries_append, ih distinct]
    exact set_of_absent absent entry.2

theorem mem_of_get? {t : Table α β} {key : α} {value : β} (found : t.get? key = some value) :
    (key, value) ∈ t := by
  induction t with
  | nil => cases found
  | cons entry rest ih =>
    obtain ⟨other, held⟩ := entry
    by_cases same : other = key
    · rw [get?, if_pos same] at found
      rw [same, Option.some.inj found]
      exact List.mem_cons_self
    · rw [get?, if_neg same] at found
      exact List.mem_cons_of_mem _ (ih found)

theorem get?_eq_some_iff {t : Table α β} (distinct : (t.map (·.1)).Nodup) {key : α} {value : β} :
    t.get? key = some value ↔ (key, value) ∈ t := by
  induction t with
  | nil => simp [get?]
  | cons entry rest ih =>
    obtain ⟨other, held⟩ := entry
    obtain ⟨absent, distinct⟩ := List.nodup_cons.mp distinct
    by_cases found : other = key
    · subst found
      have elsewhere : (other, value) ∉ rest := fun member =>
        absent (List.mem_map.mpr ⟨_, member, rfl⟩)
      simp [get?, elsewhere, eq_comm]
    · simp [get?, found, ih distinct, Ne.symm found]

/-- The order of the entries does not matter. -/
theorem get?_of_perm {t other : Table α β} (permuted : other.Perm t)
    (distinct : (t.map (·.1)).Nodup) (key : α) : other.get? key = t.get? key := by
  have distinct' : (other.map (·.1)).Nodup := (permuted.map _).nodup_iff.mpr distinct
  ext value
  rw [get?_eq_some_iff distinct', get?_eq_some_iff distinct, permuted.mem_iff]

end FederatedRounds.Table
