import FederatedRounds.Proofs.Storage.Key
import FederatedRounds.Proofs.Storage.Reach

/-! The weights of a participant stay in the directory of the store. An id that is like a path is
refused, and no file is touched. Any other gives a path that is the directory with the id and the
file of the round behind it, whatever dots there are in the directory, and no other participant or
round has it. What is saved changes that file, and directories that were missing on the way. -/
namespace FederatedRounds.Storage

namespace Path

/-- Goes on by a name from names that hold no needless dots. Two dots take away the name before
them; at the root they stand for nothing, and in another path those that lead out of it stay in
front. -/
def goOn (absolute : Bool) (done : List String) (name : String) : List String :=
  if name = ".." then
    match done.getLast? with
    | none => if absolute then [] else [name]
    | some last => if last = ".." then done ++ [name] else done.dropLast
  else done ++ [name]

/-- The names of a path without needless dots. -/
def resolve (p : Path) : List String := p.names.foldl (goOn p.isAbsolute) []

variable {p directory : Path} {names : List String}

theorem foldl_goOn_forward (absolute : Bool) (done : List String)
    (forward : ∀ name ∈ names, name ≠ "..") : names.foldl (goOn absolute) done = done ++ names := by
  induction names generalizing done with
  | nil => exact (List.append_nil done).symm
  | cons name rest ih =>
    obtain ⟨first, others⟩ := List.forall_mem_cons.mp forward
    rw [List.foldl_cons, goOn, if_neg first, ih _ others, List.append_assoc, List.singleton_append]

/-- Names that do not lead out are still there once needless dots are left out. -/
theorem resolve_of_names (joined : p.names = directory.names ++ names)
    (same : p.isAbsolute = directory.isAbsolute) (forward : ∀ name ∈ names, name ≠ "..") :
    p.resolve = directory.resolve ++ names := by
  rw [resolve, joined, same, List.foldl_append, foldl_goOn_forward _ _ forward]
  rfl

end Path

namespace FileTree
variable {names : List String}

theorem reach_goOn {absolute : Bool} {start : List String} (root : absolute = true → start = [])
    (done : List String) (name : String) :
    reach start (Path.goOn absolute done name) = below (reach start done) name := by
  have on (before : List String) (name : String) :
      reach start (before ++ [name]) = below (reach start before) name := reach_append _ _ _
  unfold Path.goOn
  by_cases up : name = ".."
  · subst up
    rw [if_pos rfl]
    rcases List.eq_nil_or_concat done with rfl | ⟨before, last, rfl⟩
    · cases absolute with
      | false => rfl
      | true => rw [root rfl]; rfl
    · rw [List.concat_eq_append, List.getLast?_concat]
      dsimp only
      split
      · exact on _ _
      · next forward =>
        rw [List.dropLast_concat, on, below, if_pos rfl, below, if_neg forward,
          List.dropLast_concat]
  · rw [if_neg up]
    exact on _ _

/-- A path leads to the same place without needless dots. -/
theorem reach_resolve (t : FileTree) (p : Path) :
    reach (t.start p) p.resolve = reach (t.start p) p.names := by
  have root : p.isAbsolute = true → t.start p = [] := fun absolute => if_pos absolute
  have on (done : List String) :
      reach (t.start p) (p.names.foldl (Path.goOn p.isAbsolute) done) =
        reach (reach (t.start p) done) p.names := by
    induction p.names generalizing done with
    | nil => rfl
    | cons name rest ih =>
      rw [List.foldl_cons, ih, reach_goOn root]
      rfl
  exact on []

end FileTree

namespace FileStore
open FileTree

variable {s : FileStore} {id : ParticipantId} {round : UInt32} {p : Path}

/-- The id could be meant as a path, or leave the path as it is. -/
def PathLike (id : ParticipantId) : Prop :=
  id.text ∈ ["", ".", ".."] ∨ '/' ∈ id.text.toList ∨ '\\' ∈ id.text.toList

theorem isUsable_iff_not_pathLike : isUsable id = true ↔ ¬PathLike id := by
  rw [isUsable_iff]
  constructor
  · rintro ⟨isName, notDots, straight⟩ (special | slash | backslash)
    · simp [isName.nonempty, isName.notDot, notDots] at special
    · exact isName.plain slash
    · exact straight backslash
  · intro proper
    simp only [PathLike, List.mem_cons, List.not_mem_nil, or_false, not_or] at proper
    obtain ⟨⟨nonempty, notDot, notDots⟩, plain, straight⟩ := proper
    exact ⟨⟨nonempty, notDot, plain⟩, notDots, straight⟩

instance : DecidablePred PathLike := fun id =>
  inferInstanceAs (Decidable (id.text ∈ ["", ".", ".."] ∨ _ ∈ id.text.toList ∨ _ ∈ id.text.toList))

/-- The path is the place of one participant and one round in the directory of the store. -/
structure Confined (s : FileStore) (id : ParticipantId) (round : UInt32) (p : Path) : Prop where
  isAbsolute : p.isAbsolute = s.directory.isAbsolute
  resolved : p.resolve = s.directory.resolve ++ [id.text, natText round.toNat ++ ".json"]
  own : ∀ other later q, s.localPath other later = .ok q → q.resolve = p.resolve →
    other = id ∧ later = round
  /-- What changes is the file, and directories that were missing on the way to it. -/
  frame : ∀ t weights spot, (s.writeLocal id round weights t).2.find? spot ≠ t.find? spot →
    spot = reach (t.start s.directory) s.directory.resolve ++
        [id.text, natText round.toNat ++ ".json"] ∨
      t.find? spot = none ∧ (s.writeLocal id round weights t).2.find? spot = some .directory ∧
        ∃ passed, passed <+: s.directory.names ++ [id.text] ∧
          spot = reach (t.start s.directory) passed

theorem Spells.resolve {key : Key} (spells : s.Spells key p) :
    p.resolve = s.directory.resolve ++ key.below :=
  Path.resolve_of_names spells.names spells.isAbsolute spells.forward

theorem Spells.start {key : Key} (spells : s.Spells key p) (t : FileTree) :
    t.start p = t.start s.directory :=
  start_congr spells.isAbsolute t

/-- The file of a key stands below the directory of the store. -/
theorem Spells.reach_eq {key : Key} (spells : s.Spells key p) (t : FileTree) :
    reach (t.start p) p.names = reach (t.start s.directory) s.directory.names ++ key.below := by
  rw [spells.names, reach_append, reach_proper _ spells.forward, spells.start]

theorem confined (found : s.localPath id round = .ok p) : s.Confined id round p := by
  have spells : s.Spells (.participant id round) p := spells_of_path found
  refine ⟨spells.isAbsolute, spells.resolve, ?_, ?_⟩
  · intro other later q accepted same
    have there : s.Spells (.participant other later) q := spells_of_path accepted
    rw [there.resolve, spells.resolve] at same
    have keys := Key.below_injective (List.append_cancel_left same)
    exact ⟨congrArg (fun | .participant id _ => id | .global _ => other) keys,
      congrArg Key.round keys⟩
  · intro t weights spot changed
    rw [writeLocal, found] at changed ⊢
    dsimp only at changed ⊢
    rcases saveWeights_frame changed with file | ⟨nothing, made, passed, within, led⟩
    · left
      rw [file, spells.reach_eq, reach_resolve]
      rfl
    · rw [spells.names, List.dropLast_append_of_ne_nil (Key.below_ne_nil _)] at within
      rw [spells.start] at led
      exact Or.inr ⟨nothing, made, passed, within, led⟩

/-- An id that is like a path is refused, with no file touched. Any other has a path of its own for
each round, two names below the directory of the store. -/
theorem local_weights_confined (s : FileStore) (id : ParticipantId) (round : UInt32) :
    (PathLike id ∧ s.localPath id round = .error (.unusableId id) ∧ ∀ t,
      (∀ weights, s.writeLocal id round weights t = (.error (.unusableId id), t)) ∧
        s.readLocal id round t = .error (.unusableId id)) ∨
    (¬PathLike id ∧ ∃ p, s.localPath id round = .ok p ∧ s.Confined id round p) := by
  by_cases usable : isUsable id = true
  · have found : s.localPath id round = .ok _ := if_pos usable
    exact Or.inr ⟨isUsable_iff_not_pathLike.mp usable, _, found, confined found⟩
  · have refused : s.localPath id round = .error (.unusableId id) := if_neg usable
    refine Or.inl ⟨Decidable.not_not.mp fun proper => usable (isUsable_iff_not_pathLike.mpr proper),
      refused, fun t => ⟨fun weights => ?_, ?_⟩⟩
    · rw [writeLocal, refused]
    · rw [readLocal, refused]

example : (FileStore.mk ⟨"/x/../weights/"⟩).localPath ⟨"..."⟩ 7 = .ok ⟨"/x/../weights/.../7.json"⟩ ∧
    Path.resolve ⟨"/x/../weights/.../7.json"⟩ = ["weights", "...", "7.json"] := by decide +kernel

end FileStore
end FederatedRounds.Storage
