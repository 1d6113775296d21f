import FederatedRounds.Proofs.Storage.Contents

/-! Weights that are saved and loaded in a tree that holds what was written. A key that clashes with
none that was written is served from the latest weights under it, and what is saved under it is held
with the rest. A key that does clash finds a directory where its file should be, or a file where its
directory should be. -/
namespace FederatedRounds.Storage.FileStore
open FileTree

/-- Names lead to the directory of a store, and this is what there is in it. -/
structure Holds (s : FileStore) (t : FileTree) (place : List String)
    (held : List String → Option Entry) : Prop where
  reached : t.walk (t.start s.directory) s.directory.names = .ok place
  outside : ∀ names, names ≠ [] → ¬(place ++ names).isPrefixOf t.working
  root : held [] = some .directory
  found : ∀ names, t.find? (place ++ names) = held names

variable {s : FileStore} {t : FileTree} {place names : List String}
  {held : List String → Option Entry} {writes : Writes} {key : Key} {p : Path} {weights : Weights}

theorem Leads.start (leads : s.Leads key p) (t : FileTree) : t.start p = t.start s.directory :=
  start_congr leads.isAbsolute t

theorem Leads.makeDirectories_parent (leads : s.Leads key p) (t : FileTree) :
    t.makeDirectories p.parent =
      t.makeAll (t.start s.directory) (s.directory.names ++ key.below.dropLast) := by
  have names : p.parent.names = s.directory.names ++ key.below.dropLast := by
    rw [Path.names_parent, leads.names, List.dropLast_append_of_ne_nil key.below_ne_nil]
  rw [makeDirectories, Path.malformed?_parent leads.fine, names, start_parent, leads.start]

namespace Holds

theorem there (holds : s.Holds t place held) : t.find? place = some .directory := by
  rw [← List.append_nil place, holds.found, holds.root]

theorem put (holds : s.Holds t place held) (within : names ≠ [])
    (free : held names ≠ some .directory) (entry : Entry) :
    s.Holds (t.put (place ++ names) entry) place
      fun other => if other = names then some entry else held other where
  reached := walk_put holds.reached (by rwa [holds.found])
  outside := holds.outside
  root := (if_neg within.symm).trans holds.root
  found other := by
    split
    · next same => rw [same, find?_put_self (holds.outside _ within)]
    · next different =>
      rw [find?_put_of_ne fun same => different (List.append_cancel_left same).symm, holds.found]

theorem enter (holds : s.Holds t place held) (admits : s.Admits key) {name : String}
    (member : name ∈ key.below) (directory : held names = some .directory) :
    t.walk (place ++ names) [name] = .ok (place ++ (names ++ [name])) := by
  obtain ⟨short, forward⟩ := admits.proper member
  rw [walk_cons ((holds.found names).trans directory) short, below, if_neg forward,
    List.append_assoc]
  rfl

theorem walk_dropLast (holds : s.Holds t place held) (admits : s.Admits key) :
    t.walk place key.below.dropLast = .ok (place ++ key.below.dropLast) := by
  cases key with
  | global round => exact congrArg Except.ok (List.append_nil place).symm
  | participant id round =>
    have entered := holds.enter admits List.mem_cons_self holds.root
    rwa [List.append_nil] at entered

theorem reach (holds : s.Holds t place held) (names : List String) :
    t.walk (t.start s.directory) (s.directory.names ++ names) = t.walk place names := by
  rw [walk_append, holds.reached]
  rfl

/-- Where the path of a key leads depends on what there is where its file would stand. -/
theorem locate_eq (holds : s.Holds t place held) (admits : s.Admits key) (leads : s.Leads key p) :
    t.locate p = match held key.below.dropLast with
      | none => .error .noEntry
      | some (.file _) => .error .notDirectory
      | some .directory => .ok (place ++ key.below) := by
  -- The names before the last lead to where the file would stand; the last one goes on from there.
  have last : t.locate p = t.walk (place ++ key.below.dropLast) [fileName key.round] := by
    rw [FileTree.locate_eq leads.fine leads.nonempty, leads.start, leads.names, holds.reach,
      key.below_eq, walk_append, ← key.below_eq, holds.walk_dropLast admits]
    rfl
  have standing := holds.found key.below.dropLast
  rw [last]
  cases found : held key.below.dropLast with
  | none => rw [walk, standing, found]
  | some entry =>
    cases entry with
    | file text => rw [walk, standing, found]
    | directory =>
      have member : fileName key.round ∈ key.below := by rw [key.below_eq]; simp
      rw [holds.enter admits member found, ← key.below_eq]

/-- The latest weights under a key are read back. -/
theorem load (holds : s.Holds t place writes.contents) (admits : s.Admits key)
    (leads : s.Leads key p) (clear : writes.Clear key) (legible : writes.Legible) :
    t.loadWeights p = (Table.get? key writes).elim (.error (.notFound (.file p))) .ok := by
  have located := holds.locate_eq admits leads
  have standing := (holds.found key.below).trans (Writes.contents_below clear)
  unfold FileTree.loadWeights
  rcases Writes.contents_dropLast clear with directory | ⟨nothing, never⟩
  · rw [directory] at located
    cases latest : Table.get? key writes with
    | none =>
      rw [latest] at standing
      rw [read_of_none located standing]
      rfl
    | some weights =>
      rw [latest] at standing
      rw [read_of_file leads.endsInSlash located standing]
      have written := Table.mem_of_get? latest
      have back := Json.decode?_render (Weights.ofJson?_toJson (legible _ written))
      rw [Json.decode?] at back
      simp only [back, Option.elim_some]
  · rw [nothing] at located
    rw [read_of_error located, never]
    rfl

/-- The directory for the file of a key is made, unless it is there. -/
theorem prepare (holds : s.Holds t place held) (admits : s.Admits key) (leads : s.Leads key p)
    (fit : held key.below.dropLast = some .directory ∨ held key.below.dropLast = none) :
    ∃ made, t.makeDirectories p.parent = (.ok (), made) ∧ s.Holds made place
      fun names => if names = key.below.dropLast then some .directory else held names := by
  have reached := (holds.reach key.below.dropLast).trans (holds.walk_dropLast admits)
  have standing := holds.found key.below.dropLast
  rw [leads.makeDirectories_parent]
  rcases fit with directory | nothing
  · refine ⟨t, makeAll_of_directory reached (standing.trans directory), ?_⟩
    have same : (fun names => if names = key.below.dropLast then some .directory else held names) =
        held := by
      funext names
      split
      · next here => rw [here, directory]
      · rfl
    rwa [same]
  · have within : key.below.dropLast ≠ [] := by
      intro empty
      rw [empty, holds.root] at nothing
      cases nothing
    exact ⟨_, makeAll_of_none (by simp [within]) reached (standing.trans nothing),
      holds.put within (by simp [nothing]) .directory⟩

/-- What is saved under a key is held with the rest. -/
theorem save (holds : s.Holds t place writes.contents) (admits : s.Admits key)
    (leads : s.Leads key p) (clear : writes.Clear key) (weights : Weights) : ∃ after,
      t.saveWeights p weights = (.ok (), after) ∧
        s.Holds after place (Writes.contents ((key, weights) :: writes)) := by
  obtain ⟨made, prepared, ready⟩ := holds.prepare admits leads
    ((Writes.contents_dropLast clear).imp_right And.left)
  have located := ready.locate_eq admits leads
  rw [if_pos rfl] at located
  have longer : key.below ≠ key.below.dropLast := fun same => by
    have lengths := congrArg List.length same
    rw [key.below_eq] at lengths
    simp at lengths
  have free : (if key.below = key.below.dropLast then some .directory
      else writes.contents key.below) ≠ some .directory := by
    rw [if_neg longer, Writes.contents_below clear]
    cases Table.get? key writes <;> simp
  have written := write_of_free located (by rw [ready.found]; exact free)
    (Weights.toJson weights).render
  refine ⟨made.put (place ++ key.below) (.file (Weights.toJson weights).render), ?_,
    ready.put key.below_ne_nil free _⟩
  rw [saveWeights, writeBelow, prepared]
  simp only [written]

/-- A key in the way of another is refused with an error of the files. -/
theorem load_fails (holds : s.Holds t place writes.contents) (admits : s.Admits key)
    (leads : s.Leads key p) (consistent : writes.Consistent) (occupied : ¬writes.Clear key) :
    ∃ error, t.loadWeights p = .error (.file error) := by
  obtain ⟨found, there, kind⟩ := Writes.contents_of_not_clear consistent occupied
  have located := holds.locate_eq admits leads
  cases key with
  | global round =>
    obtain rfl := kind.mpr rfl
    have root : writes.contents (Key.global round).below.dropLast = some .directory := holds.root
    rw [root] at located
    have standing := (holds.found _).trans there
    refine ⟨.isDirectory, ?_⟩
    rw [loadWeights, read_of_directory located standing]
  | participant id round =>
    cases found with
    | directory => cases kind.mp rfl
    | file text =>
      have between : writes.contents (Key.participant id round).below.dropLast =
          some (.file text) := there
      rw [between] at located
      refine ⟨.notDirectory, ?_⟩
      rw [loadWeights, read_of_error located]

theorem save_fails (holds : s.Holds t place writes.contents) (admits : s.Admits key)
    (leads : s.Leads key p) (consistent : writes.Consistent) (occupied : ¬writes.Clear key)
    (weights : Weights) :
    ∃ error, (t.saveWeights p weights).1 = .error (.file error) := by
  obtain ⟨found, there, kind⟩ := Writes.contents_of_not_clear consistent occupied
  cases key with
  | global round =>
    obtain rfl := kind.mpr rfl
    obtain ⟨made, prepared, ready⟩ := holds.prepare admits leads (Or.inl holds.root)
    have located := ready.locate_eq admits leads
    rw [if_pos rfl] at located
    have standing := (ready.found (Key.global round).below).trans
      ((if_neg (List.cons_ne_nil _ _)).trans there)
    have refused := write_of_directory located standing (Weights.toJson weights).render
    refine ⟨.isDirectory, ?_⟩
    rw [saveWeights, writeBelow, prepared]
    simp only [refused]
  | participant id round =>
    cases found with
    | directory => cases kind.mp rfl
    | file text =>
      have reached := (holds.reach [id.text]).trans (holds.walk_dropLast admits)
      have refused := makeAll_of_file (by simp) reached ((holds.found _).trans there)
      refine ⟨.entryExists, ?_⟩
      have prepared := (leads.makeDirectories_parent t).trans refused
      rw [saveWeights, writeBelow, prepared]

end Holds

/-! The directory of a store need not be there from the start. -/

/-- The directory of the store is there, or can be made, and nothing is in it. -/
def Opens (s : FileStore) (t : FileTree) : Prop := ∃ made place,
  t.makeAll (t.start s.directory) s.directory.names = (.ok (), made) ∧
    s.Holds made place (Writes.contents [])

/-- No names lead below the directory of the store. -/
def Unmade (s : FileStore) (t : FileTree) : Prop := ∀ name rest,
  t.walk (t.start s.directory) (s.directory.names ++ name :: rest) = .error .noEntry

theorem Unmade.load (unmade : s.Unmade t) (leads : s.Leads key p) :
    t.loadWeights p = .error (.notFound (.file p)) := by
  obtain ⟨name, rest, names⟩ := List.exists_cons_of_ne_nil key.below_ne_nil
  have lost : t.locate p = .error .noEntry := by
    rw [FileTree.locate_eq leads.fine leads.nonempty, leads.start, leads.names, names]
    exact unmade name rest
  rw [loadWeights, read_of_error lost]

/-- What is saved first is saved as if the directory had been there. -/
theorem Unmade.save {made : FileTree} (unmade : s.Unmade t)
    (succeeds : t.makeAll (t.start s.directory) s.directory.names = (.ok (), made))
    (holds : s.Holds made place (Writes.contents [])) (admits : s.Admits key)
    (leads : s.Leads key p) (weights : Weights) :
    t.saveWeights p weights = made.saveWeights p weights := by
  have start : made.start s.directory = t.start s.directory := by
    have working := makeAll_working t (t.start s.directory) s.directory.names
    rw [succeeds] at working
    rw [FileTree.start, working]
    rfl
  -- Both make the same directories. From there on the trees are one.
  have parent : t.makeDirectories p.parent = made.makeDirectories p.parent := by
    rw [leads.makeDirectories_parent, leads.makeDirectories_parent, start]
    have reached := (holds.reach key.below.dropLast).trans (holds.walk_dropLast admits)
    have standing := holds.found key.below.dropLast
    rw [start] at reached
    cases key with
    | global round =>
      have root := makeAll_of_directory reached standing
      have whole : s.directory.names ++ (Key.global round).below.dropLast = s.directory.names :=
        List.append_nil _
      rw [whole] at root ⊢
      exact succeeds.trans root.symm
    | participant id round =>
      exact (makeAll_concat succeeds (unmade id.text []) reached standing).trans
        (makeAll_of_none (List.append_ne_nil_of_right_ne_nil _ (List.cons_ne_nil _ _)) reached
          standing).symm
  rw [saveWeights, saveWeights, writeBelow, writeBelow, parent]

theorem Holds.opens (holds : s.Holds t place (Writes.contents [])) : s.Opens t :=
  ⟨t, place, makeAll_of_directory holds.reached holds.there, holds⟩

/-! A directory of the working directory, in a tree that is otherwise empty. -/

section Fresh
variable {name : String} (isName : Path.IsName name)
include isName

theorem start_name (t : FileTree) : t.start ⟨name⟩ = t.working := by
  have relative : Path.isAbsolute ⟨name⟩ = false :=
    decide_eq_false fun first => isName.plain (List.mem_of_mem_head? first)
  rw [FileTree.start, relative]
  rfl

variable (forward : name ≠ "..") (short : name.utf8ByteSize ≤ nameLimit) (working : List String)
include forward short

theorem reached_name :
    (emptyAt working).walk working (Path.names ⟨name⟩) = .ok (working ++ [name]) := by
  have here : (emptyAt working).find? working = some .directory :=
    if_pos (List.isPrefixOf_iff_prefix.mpr (List.prefix_refl _))
  rw [Path.names_eq, isName.namesOf, walk_cons here short, below, if_neg forward]
  rfl

theorem holds_name : Holds ⟨⟨name⟩⟩ ((emptyAt working).put (working ++ [name]) .directory)
    (working ++ [name]) (Writes.contents []) where
  reached := by
    rw [start_name isName]
    exact walk_put (reached_name isName forward short working) (by simp [find?_emptyAt])
  outside names _ := by
    rw [List.append_assoc]
    exact not_isPrefixOf_append_cons working name names
  root := rfl
  found names := by
    rw [List.append_assoc, List.singleton_append]
    by_cases none : names = []
    · rw [none, find?_put_self (not_isPrefixOf_append_cons working name [])]
      rfl
    · have other : working ++ [name] ≠ working ++ name :: names := by simpa using Ne.symm none
      rw [find?_put_of_ne other, find?_emptyAt]
      exact (if_neg none).symm

theorem opens_name : Opens ⟨⟨name⟩⟩ (emptyAt working) := by
  have reached := reached_name isName forward short working
  have nonempty : Path.names ⟨name⟩ ≠ [] := by
    rw [Path.names_eq, isName.namesOf]
    exact List.cons_ne_nil _ _
  refine ⟨_, _, ?_, holds_name isName forward short working⟩
  rw [start_name isName]
  exact makeAll_of_none nonempty reached (find?_emptyAt working name [])

end Fresh

end FederatedRounds.Storage.FileStore
