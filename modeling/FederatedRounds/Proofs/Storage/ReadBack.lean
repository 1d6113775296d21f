import FederatedRounds.Proofs.Storage.Confinement
import FederatedRounds.Proofs.Storage.Interchange
import FederatedRounds.Proofs.Wire.Finite

/-! Weights of a round that were written are read back exactly when they are finite, whatever else
is read and written in between, and whether or not that succeeds. Weights that are not finite are
written as well, and from then on the file is no weights. -/
namespace FederatedRounds.Storage

namespace FileTree
variable {t : FileTree} {p q : Path} {weights : Weights}

/-- What is loaded from a file that weights were saved in, by any path that leads to it. -/
theorem HasFile.load (file : t.HasFile p (Weights.toJson weights).render)
    (wellFormed : ∀ layer ∈ weights, layer.WellFormed) (legible : Layers.Legible weights)
    (same : t.locate q = t.locate p) (plain : q.endsInSlash = false) :
    t.loadWeights q = if Layers.Finite weights then .ok weights else .error .malformedWeights := by
  obtain ⟨place, located, there⟩ := file
  have read := read_of_file plain (same.trans located) there
  have back := Weights.decode?_render wellFormed legible
  rw [Json.decode?] at back
  rw [loadWeights, read]
  dsimp only
  rw [back]
  by_cases finite : Layers.Finite weights
  · rw [if_pos finite, if_pos finite]
  · rw [if_neg finite, if_neg finite]

end FileTree

namespace FileStore
open FileTree
variable {s : FileStore} {t : FileTree} {key : Key} {p : Path} {access : Access}
  {accesses : List Access} {text : String}

/-- The tree after some accesses, whatever becomes of them. -/
def after (s : FileStore) (t : FileTree) (accesses : List Access) : FileTree :=
  accesses.foldl (fun t access => (s.access access t).2) t

/-- An access leaves the tree as it is, or saves weights at the path of the key. -/
theorem access_snd (s : FileStore) (access : Access) (t : FileTree) :
    (s.access access t).2 = t ∨ ∃ key weights p, access = .write key weights ∧
      s.path key = .ok p ∧ (s.access access t).2 = (t.saveWeights p weights).2 := by
  cases access with
  | read key => cases key <;> exact Or.inl rfl
  | write key weights =>
    cases found : s.path key with
    | ok p =>
      refine Or.inr ⟨key, weights, p, rfl, found, ?_⟩
      rw [access_write found]
      rfl
    | error error =>
      cases key with
      | global round => cases found
      | participant id round =>
        left
        change (s.writeLocal id round weights t).2 = t
        rw [path] at found
        rw [writeLocal, found]

/-- The file of a key stays as it is as long as nothing is written under the key. -/
theorem hasFile_access (found : s.path key = .ok p) (file : t.HasFile p text)
    (other : ∀ weights, access ≠ .write key weights) : (s.access access t).2.HasFile p text := by
  rcases s.access_snd access t with same | ⟨written, weights, q, rfl, led, after⟩
  · rwa [same]
  · rw [after]
    refine file.saveWeights fun equal => other weights ?_
    rw [(spells_of_path found).reach_eq, (spells_of_path led).reach_eq] at equal
    rw [Key.below_injective (List.append_cancel_left equal)]

theorem hasFile_after (found : s.path key = .ok p) (file : t.HasFile p text)
    (others : ∀ access ∈ accesses, ∀ weights, access ≠ .write key weights) :
    (s.after t accesses).HasFile p text := by
  induction accesses generalizing t with
  | nil => exact file
  | cons access rest ih =>
    obtain ⟨first, others⟩ := List.forall_mem_cons.mp others
    exact ih (hasFile_access found file first) others

end FileStore

/-- Once weights of a round were written, that round is read, until it is written again, as those
weights if they are finite and else as no weights at all. So is its file by any path. -/
theorem written_weights_read_back (s : FileStore) (round : UInt32) (weights : Weights)
    (wellFormed : ∀ layer ∈ weights, layer.WellFormed) (legible : Layers.Legible weights)
    (before written : FileTree) (succeeds : s.writeGlobal round weights before = (.ok (), written))
    (between : List Access)
    (others : ∀ access ∈ between, ∀ later, access ≠ .write (.global round) later) :
    s.readGlobal round (s.after written between) =
        (if Layers.Finite weights then .ok weights else .error .malformedWeights) ∧
      ∀ q, q.endsInSlash = false →
        (s.after written between).locate q =
          (s.after written between).locate (s.globalPath round) →
        (s.after written between).loadWeights q =
          if Layers.Finite weights then .ok weights else .error .malformedWeights := by
  have found : s.path (.global round) = .ok (s.globalPath round) := rfl
  have file := FileStore.hasFile_after found (FileTree.hasFile_saveWeights succeeds) others
  refine ⟨?_, fun q plain same => file.load wellFormed legible same plain⟩
  exact file.load wellFormed legible rfl (FileStore.spells_of_path found).endsInSlash

namespace Trial

/-- A participant named like the file that was written, another round, and reads. -/
def meanwhile : List Access :=
  [.write (.participant ⟨"0.json"⟩ 0) layer, .read (.global 0), .write (.global 1) [],
    .write (.participant ⟨".."⟩ 0) layer, .read (.participant ⟨"p"⟩ 7)]

def overflown : Weights := [⟨[2], [.infinite false, .one]⟩]

end Trial

theorem layer_read_back_meanwhile : ∃ written,
    Trial.folder.writeGlobal 0 Trial.layer (.emptyAt ["work"]) = (.ok (), written) ∧
      Trial.folder.readGlobal 0 (Trial.folder.after written Trial.meanwhile) = .ok Trial.layer ∧
      (Trial.folder.after written Trial.meanwhile).loadWeights ⟨"./store//0.json"⟩ =
        .ok Trial.layer := by
  have wellFormed : ∀ layer ∈ Trial.layer, layer.WellFormed := by decide +kernel
  have legible : Layers.Legible Trial.layer := by decide +kernel
  have finite : Layers.Finite Trial.layer := by decide +kernel
  have succeeds : (Trial.folder.writeGlobal 0 Trial.layer (.emptyAt ["work"])).1 = .ok () := by
    decide +kernel
  have others : ∀ access ∈ Trial.meanwhile, ∀ later, access ≠ .write (.global 0) later := by
    simp [Trial.meanwhile]
  obtain ⟨read, load⟩ := written_weights_read_back Trial.folder 0 Trial.layer wellFormed legible
    (.emptyAt ["work"]) _ (Prod.ext succeeds rfl) Trial.meanwhile others
  rw [if_pos finite] at read load
  have plain : Path.endsInSlash ⟨"./store//0.json"⟩ = false := by decide
  exact ⟨_, Prod.ext succeeds rfl, read, load _ plain (by decide +kernel)⟩

/-- Weights with an infinity are written without an error, and cannot be read. -/
theorem infinite_weights_lost :
    (∀ layer ∈ Trial.overflown, layer.WellFormed) ∧ Layers.Legible Trial.overflown ∧
      (Trial.folder.writeGlobal 0 Trial.overflown (.emptyAt ["work"])).1 = .ok () ∧
      Trial.folder.readGlobal 0 (Trial.folder.writeGlobal 0 Trial.overflown (.emptyAt ["work"])).2 =
        .error .malformedWeights ∧
      (Trial.folder.writeGlobal 0 Trial.overflown (.emptyAt ["work"])).2.loadWeights
        (Trial.folder.globalPath 0) = .error .malformedWeights := by
  decide +kernel

end FederatedRounds.Storage
