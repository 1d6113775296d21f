import FederatedRounds.Proofs.Storage.FileTree
import FederatedRounds.Storage.FileStore

/-! What work on one file leaves of the rest of a tree. Names lead to one place only, whatever there
is in the tree. Directories are made where there was nothing, on the way to the file, and the file
is written; at every other place the tree is as it was, and so all paths lead where they led. -/
namespace FederatedRounds.Storage

namespace FileTree
variable {t made after : FileTree} {start names rest place : List String} {p : Path}

/-- The place that names lead to when every directory on the way is there. -/
def reach (start names : List String) : List String := names.foldl below start

theorem reach_append (start names rest : List String) :
    reach start (names ++ rest) = reach (reach start names) rest := List.foldl_append

theorem reach_proper (start : List String) (forward : ∀ name ∈ names, name ≠ "..") :
    reach start names = start ++ names := by
  induction names generalizing start with
  | nil => exact (List.append_nil start).symm
  | cons name rest ih =>
    obtain ⟨first, others⟩ := List.forall_mem_cons.mp forward
    change reach (below start name) rest = _
    rw [ih (below start name) others, below, if_neg first, List.append_assoc, List.singleton_append]

theorem eq_reach_of_walk (reached : t.walk start names = .ok place) :
    place = reach start names := by
  induction names generalizing start with
  | nil => exact (Except.ok.inj reached).symm
  | cons name rest ih => exact ih (walk_cons_eq_ok_iff.mp reached).2.2

theorem locate_eq_ok_iff : t.locate p = .ok place ↔
    malformed? p = none ∧ p.text ≠ "" ∧ t.walk (t.start p) p.names = .ok place := by
  unfold locate
  cases malformed? p with
  | some error => simp
  | none =>
    by_cases empty : p.text = ""
    · simp [empty]
    · simp [empty]

/-- A tree that has more directories than another, made along some names where there was nothing. -/
structure Extends (t : FileTree) (start names : List String) (made : FileTree) : Prop where
  working : made.working = t.working
  spots : ∀ spot, made.find? spot = t.find? spot ∨
    t.find? spot = none ∧ made.find? spot = some .directory ∧
      ∃ passed, passed <+: names ∧ spot = reach start passed

namespace Extends

theorem refl (t : FileTree) (start names : List String) : t.Extends start names t :=
  ⟨rfl, fun _ => Or.inl rfl⟩

theorem mono (part : rest <+: names) (ext : t.Extends start rest made) :
    t.Extends start names made where
  working := ext.working
  spots spot := (ext.spots spot).imp_right fun ⟨nothing, there, passed, within, led⟩ =>
    ⟨nothing, there, passed, within.trans part, led⟩

theorem trans (first : t.Extends start names made) (second : made.Extends start names after) :
    t.Extends start names after where
  working := second.working.trans first.working
  spots spot := by
    rcases first.spots spot with same | ⟨nothing, there, led⟩
    · rw [← same]
      exact second.spots spot
    · rcases second.spots spot with same | ⟨gone, _⟩
      · exact Or.inr ⟨nothing, same.trans there, led⟩
      · rw [there] at gone
        cases gone

theorem directory (ext : t.Extends start names made) {spot : List String}
    (there : t.find? spot = some .directory) : made.find? spot = some .directory := by
  rcases ext.spots spot with same | ⟨_, found, _⟩
  · exact same.trans there
  · exact found

end Extends

theorem makeDirectory_extends (one : t.makeDirectory start names = .ok made) :
    t.Extends start names made := by
  obtain ⟨place, reached, nothing, rfl⟩ := makeDirectory_eq_ok_iff.mp one
  have outside : ¬place.isPrefixOf t.working := fun inside => by
    rw [find?, if_pos inside] at nothing
    cases nothing
  refine ⟨rfl, fun spot => ?_⟩
  by_cases here : place = spot
  · subst here
    exact Or.inr ⟨nothing, find?_put_self outside, names, List.prefix_refl _,
      eq_reach_of_walk reached⟩
  · exact Or.inl (find?_put_of_ne here)

theorem makeAll_extends (t : FileTree) (start names : List String) :
    t.Extends start names (t.makeAll start names).2 := by
  fun_induction makeAll t start names with
  | case1 => exact .refl _ _ _
  | case2 _ _ _ one => exact makeDirectory_extends one
  | case3 _ _ _ _ _ above ih =>
    rw [above] at ih
    exact ih.mono (List.dropLast_prefix _)
  | case4 _ _ _ _ above _ one ih =>
    rw [above] at ih
    exact (ih.mono (List.dropLast_prefix _)).trans (makeDirectory_extends one)
  | case5 _ _ _ _ above _ _ ih =>
    rw [above] at ih
    rw [acceptDirectory_snd]
    exact ih.mono (List.dropLast_prefix _)
  | case6 =>
    rw [acceptDirectory_snd]
    exact .refl _ _ _

theorem makeDirectories_parent_extends (t : FileTree) (p : Path) :
    t.Extends (t.start p) p.names.dropLast (t.makeDirectories p.parent).2 := by
  unfold makeDirectories
  split
  · exact .refl _ _ _
  · rw [start_parent, Path.names_parent]
    exact makeAll_extends _ _ _

theorem write_eq_ok_iff {text : String} : t.write p text = .ok after ↔
    ∃ place, t.locate p = .ok place ∧ t.find? place ≠ some .directory ∧
      after = t.put place (.file text) := by
  cases located : t.locate p with
  | error error => simp [write, located, bind, Except.bind]
  | ok place =>
    by_cases there : t.find? place = some .directory
    · simp [write_of_directory located there, there]
    · rw [write_of_free located there]
      constructor
      · intro written
        exact ⟨place, rfl, there, (Except.ok.inj written).symm⟩
      · rintro ⟨_, same, _, rfl⟩
        rw [Except.ok.inj same]

/-- All that saving a file can do: directories are made on the way to it, and then it is written
where they lead, or there is an error. -/
theorem saveWeights_cases (t : FileTree) (p : Path) (weights : Weights) : ∃ made,
    t.Extends (t.start p) p.names.dropLast made ∧
      ((∃ error, t.saveWeights p weights = (.error error, made)) ∨
        ∃ place, made.locate p = .ok place ∧ made.find? place ≠ some .directory ∧
          t.saveWeights p weights =
            (.ok (), made.put place (.file (Weights.toJson weights).render))) := by
  have grown := makeDirectories_parent_extends t p
  unfold saveWeights writeBelow
  rcases prepared : t.makeDirectories p.parent with ⟨error | ⟨⟩, made⟩
  · rw [prepared] at grown
    exact ⟨made, grown, Or.inl ⟨_, rfl⟩⟩
  rw [prepared] at grown
  refine ⟨made, grown, ?_⟩
  dsimp only
  cases written : made.write p (Weights.toJson weights).render with
  | error error => exact Or.inl ⟨_, rfl⟩
  | ok after =>
    obtain ⟨place, located, free, rfl⟩ := write_eq_ok_iff.mp written
    exact Or.inr ⟨place, located, free, rfl⟩

theorem Extends.start_eq (ext : t.Extends start names made) (p : Path) :
    made.start p = t.start p := by
  unfold FileTree.start
  rw [ext.working]

theorem Extends.locate (ext : t.Extends start names made) (located : t.locate p = .ok place) :
    made.locate p = .ok place := by
  obtain ⟨fine, nonempty, reached⟩ := locate_eq_ok_iff.mp located
  refine locate_eq_ok_iff.mpr ⟨fine, nonempty, ?_⟩
  rw [ext.start_eq]
  exact walk_of_directories (fun _ => ext.directory) reached

theorem eq_reach_of_locate (located : t.locate p = .ok place) :
    place = reach (t.start p) p.names :=
  eq_reach_of_walk (locate_eq_ok_iff.mp located).2.2

theorem locate_put {spot : List String} {entry : Entry} (located : t.locate p = .ok place)
    (free : t.find? spot ≠ some .directory) : (t.put spot entry).locate p = .ok place := by
  obtain ⟨fine, nonempty, reached⟩ := locate_eq_ok_iff.mp located
  exact locate_eq_ok_iff.mpr ⟨fine, nonempty, walk_put reached free⟩

variable {q : Path} {weights : Weights}

/-- What changes when a file is saved is the file, and directories that were missing on the way. -/
theorem saveWeights_frame {spot : List String}
    (changed : (t.saveWeights p weights).2.find? spot ≠ t.find? spot) :
    spot = reach (t.start p) p.names ∨
      t.find? spot = none ∧ (t.saveWeights p weights).2.find? spot = some .directory ∧
        ∃ passed, passed <+: p.names.dropLast ∧ spot = reach (t.start p) passed := by
  obtain ⟨made, ext, ⟨error, failed⟩ | ⟨place, located, _, saved⟩⟩ := saveWeights_cases t p weights
  · rw [failed] at changed ⊢
    exact Or.inr ((ext.spots spot).resolve_left changed)
  · rw [saved] at changed ⊢
    by_cases here : place = spot
    · left
      rw [← here, eq_reach_of_locate located, ext.start_eq]
    · dsimp only at changed ⊢
      rw [find?_put_of_ne here] at changed ⊢
      exact Or.inr ((ext.spots spot).resolve_left changed)

/-- The path leads to a file with this text. -/
def HasFile (t : FileTree) (p : Path) (text : String) : Prop :=
  ∃ place, t.locate p = .ok place ∧ t.find? place = some (.file text)

/-- What was saved is where its path leads. -/
theorem hasFile_saveWeights (saved : t.saveWeights p weights = (.ok (), after)) :
    after.HasFile p (Weights.toJson weights).render := by
  obtain ⟨made, _, ⟨error, failed⟩ | ⟨place, located, free, written⟩⟩ :=
    saveWeights_cases t p weights
  · rw [saved] at failed
    cases failed
  · rw [saved] at written
    obtain rfl := congrArg Prod.snd written
    have outside : ¬place.isPrefixOf made.working := fun inside => by
      rw [find?, if_pos inside] at free
      exact free rfl
    exact ⟨place, locate_put located free, find?_put_self outside⟩

/-- A file stays where it is and as it is when one is saved at another place. -/
theorem HasFile.saveWeights {text : String} (file : t.HasFile q text)
    (elsewhere : reach (t.start q) q.names ≠ reach (t.start p) p.names) :
    (t.saveWeights p weights).2.HasFile q text := by
  obtain ⟨place, located, there⟩ := file
  refine ⟨place, ?_, ?_⟩
  · obtain ⟨made, ext, ⟨error, failed⟩ | ⟨spot, _, free, saved⟩⟩ := saveWeights_cases t p weights
    · rw [failed]
      exact ext.locate located
    · rw [saved]
      exact locate_put (ext.locate located) free
  · rw [← there]
    refine Decidable.byContradiction fun changed => ?_
    rcases saveWeights_frame changed with here | ⟨nothing, _⟩
    · exact elsewhere ((eq_reach_of_locate located).symm.trans here)
    · rw [there] at nothing
      cases nothing

end FileTree
end FederatedRounds.Storage
