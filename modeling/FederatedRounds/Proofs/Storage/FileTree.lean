import FederatedRounds.Proofs.Storage.Path

/-! What the operations on a tree do at a place that names lead to. What is put there is found
there, and nothing changes elsewhere, so that names still lead where they led. A directory that is
there need not be made again; a file in its place is in the way. -/
namespace FederatedRounds.Storage.FileTree

variable {t made : FileTree} {start place names rest : List String} {entry : Entry}

theorem find?_put_self (outside : ¬place.isPrefixOf t.working) :
    (t.put place entry).find? place = some entry := by
  unfold find? put
  rw [if_neg outside, Table.get?_set, if_pos rfl]

theorem find?_put_of_ne {other : List String} (different : place ≠ other) :
    (t.put place entry).find? other = t.find? other := by
  unfold find? put
  rw [Table.get?_set, if_neg different]

theorem not_isPrefixOf_append_cons (working : List String) (name : String) (rest : List String) :
    ¬(working ++ name :: rest).isPrefixOf working := fun inside => by
  have shorter := (List.isPrefixOf_iff_prefix.mp inside).length_le
  rw [List.length_append, List.length_cons] at shorter
  omega

theorem find?_emptyAt (working : List String) (name : String) (rest : List String) :
    (emptyAt working).find? (working ++ name :: rest) = none :=
  if_neg (not_isPrefixOf_append_cons working name rest)

theorem walk_cons (there : t.find? place = some .directory) {name : String}
    (short : name.utf8ByteSize ≤ nameLimit) (rest : List String) :
    t.walk place (name :: rest) = t.walk (below place name) rest := by
  rw [walk, there]
  exact if_neg (Nat.not_lt.mpr short)

theorem walk_append (t : FileTree) (start first rest : List String) :
    t.walk start (first ++ rest) = (t.walk start first).bind fun place => t.walk place rest := by
  induction first generalizing start with
  | nil => rfl
  | cons name more ih =>
    rw [List.cons_append, walk, walk]
    cases t.find? start with
    | none => rfl
    | some entry =>
      cases entry with
      | file text => rfl
      | directory =>
        dsimp only
        split
        · rfl
        · exact ih _

theorem walk_cons_eq_ok_iff {name : String} : t.walk start (name :: rest) = .ok place ↔
    t.find? start = some .directory ∧ name.utf8ByteSize ≤ nameLimit ∧
      t.walk (below start name) rest = .ok place := by
  by_cases there : t.find? start = some .directory
  · by_cases short : name.utf8ByteSize ≤ nameLimit
    · simp [walk_cons there short, there, short]
    · simp [walk, there, short, Nat.not_le.mp short]
  · cases found : t.find? start with
    | none => simp [walk, found]
    | some entry =>
      cases entry with
      | file text => simp [walk, found]
      | directory => exact absurd found there

/-- Names lead where they led in a tree that has all the directories of the other. -/
theorem walk_of_directories
    (kept : ∀ spot, t.find? spot = some .directory → made.find? spot = some .directory)
    (reached : t.walk start names = .ok place) : made.walk start names = .ok place := by
  induction names generalizing start with
  | nil => exact reached
  | cons name rest ih =>
    obtain ⟨there, short, onward⟩ := walk_cons_eq_ok_iff.mp reached
    exact walk_cons_eq_ok_iff.mpr ⟨kept start there, short, ih onward⟩

/-- Names lead on to where they led, as long as no directory is taken away. -/
theorem walk_put (reached : t.walk start names = .ok place) {spot : List String}
    (free : t.find? spot ≠ some .directory) : (t.put spot entry).walk start names = .ok place := by
  refine walk_of_directories (fun other there => ?_) reached
  have different : spot ≠ other := fun same => free (same ▸ there)
  exact (find?_put_of_ne different).trans there

theorem start_congr {p q : Path} (same : p.isAbsolute = q.isAbsolute) (t : FileTree) :
    t.start p = t.start q := by
  rw [FileTree.start, same]
  rfl

theorem start_parent (t : FileTree) (p : Path) : t.start p.parent = t.start p :=
  start_congr p.isAbsolute_parent t

theorem makeDirectory_of_none (reached : t.walk start names = .ok place)
    (nothing : t.find? place = none) :
    t.makeDirectory start names = .ok (t.put place .directory) := by
  simp [makeDirectory, reached, nothing, bind, Except.bind]

theorem makeDirectory_of_some (reached : t.walk start names = .ok place)
    (there : t.find? place = some entry) : t.makeDirectory start names = .error .entryExists := by
  simp [makeDirectory, reached, there, bind, Except.bind]

theorem makeDirectory_of_error {error : FileError} (lost : t.walk start names = .error error) :
    t.makeDirectory start names = .error error := by
  simp [makeDirectory, lost, bind, Except.bind]

theorem makeAll_of_none (nonempty : names ≠ []) (reached : t.walk start names = .ok place)
    (nothing : t.find? place = none) :
    t.makeAll start names = (.ok (), t.put place .directory) := by
  rw [makeAll, if_neg nonempty, makeDirectory_of_none reached nothing]

theorem makeAll_of_directory (reached : t.walk start names = .ok place)
    (there : t.find? place = some .directory) : t.makeAll start names = (.ok (), t) := by
  rw [makeAll]
  split
  · rfl
  · simp [makeDirectory_of_some reached there, acceptDirectory, isDirectory, reached, there]

theorem makeAll_of_file (nonempty : names ≠ []) (reached : t.walk start names = .ok place)
    {text : String} (there : t.find? place = some (.file text)) :
    t.makeAll start names = (.error .entryExists, t) := by
  rw [makeAll, if_neg nonempty, makeDirectory_of_some reached there]
  simp [acceptDirectory, isDirectory, reached, there]

theorem makeDirectory_eq_ok_iff : t.makeDirectory start names = .ok made ↔
    ∃ place, t.walk start names = .ok place ∧ t.find? place = none ∧
      made = t.put place .directory := by
  cases reached : t.walk start names with
  | error error => simp [makeDirectory_of_error reached]
  | ok place =>
    cases there : t.find? place with
    | some entry => simp [makeDirectory_of_some reached there, there]
    | none => simp [makeDirectory_of_none reached there, there, eq_comm]

theorem makeDirectory_eq_noEntry_iff :
    t.makeDirectory start names = .error .noEntry ↔ t.walk start names = .error .noEntry := by
  cases reached : t.walk start names with
  | error error => simp [makeDirectory_of_error reached]
  | ok place =>
    cases there : t.find? place with
    | some entry => simp [makeDirectory_of_some reached there]
    | none => simp [makeDirectory_of_none reached there]

@[simp] theorem acceptDirectory_snd (t : FileTree) (start names : List String)
    (error : FileError) : (t.acceptDirectory start names error).2 = t := by
  unfold acceptDirectory
  split <;> rfl

theorem makeDirectory_working (one : t.makeDirectory start names = .ok made) :
    made.working = t.working := by
  obtain ⟨_, _, _, rfl⟩ := makeDirectory_eq_ok_iff.mp one
  rfl

theorem makeAll_working (t : FileTree) (start names : List String) :
    (t.makeAll start names).2.working = t.working := by
  fun_induction makeAll t start names with
  | case1 => rfl
  | case2 _ _ _ one => exact makeDirectory_working one
  | case3 _ _ _ _ _ above ih => rwa [above] at ih
  | case4 _ _ _ _ above _ one ih =>
    rw [above] at ih
    exact (makeDirectory_working one).trans ih
  | case5 _ _ _ _ above _ _ ih =>
    rw [above] at ih
    rwa [acceptDirectory_snd]
  | case6 => rw [acceptDirectory_snd]

/-- A directory that is made was there before, or nothing was found below it. -/
theorem makeAll_cases (succeeds : t.makeAll start names = (.ok (), made)) : made = t ∨
    ∀ name rest, t.walk start (names ++ name :: rest) = .error .noEntry := by
  rw [makeAll] at succeeds
  split at succeeds
  · exact Or.inl (congrArg Prod.snd succeeds).symm
  split at succeeds
  · next one =>
    obtain ⟨place, reached, nothing, _⟩ := makeDirectory_eq_ok_iff.mp one
    refine Or.inr fun name rest => ?_
    rw [walk_append, reached]
    change t.walk place (name :: rest) = _
    rw [walk, nothing]
  · next lost =>
    refine Or.inr fun name rest => ?_
    rw [walk_append, makeDirectory_eq_noEntry_iff.mp lost]
    rfl
  · have kept := congrArg Prod.snd succeeds
    rw [acceptDirectory_snd] at kept
    exact Or.inl kept.symm

/-- One more directory below those that are made. -/
theorem makeAll_concat {name : String} (succeeds : t.makeAll start names = (.ok (), made))
    (lost : t.walk start (names ++ [name]) = .error .noEntry)
    (reached : made.walk start (names ++ [name]) = .ok place)
    (nothing : made.find? place = none) :
    t.makeAll start (names ++ [name]) = (.ok (), made.put place .directory) := by
  rw [makeAll, if_neg (by simp), makeDirectory_of_error lost]
  simp only [List.dropLast_concat, succeeds, makeDirectory_of_none reached nothing]

theorem locate_eq {p : Path} (fine : malformed? p = none) (nonempty : p.text ≠ "") :
    t.locate p = t.walk (t.start p) p.names := by
  rw [locate, fine]
  exact if_neg nonempty

theorem read_of_error {p : Path} {error : FileError} (lost : t.locate p = .error error) :
    t.read p = .error error := by
  simp [read, lost, bind, Except.bind]

theorem read_of_none {p : Path} (located : t.locate p = .ok place)
    (nothing : t.find? place = none) : t.read p = .error .noEntry := by
  simp [read, located, nothing, bind, Except.bind]

theorem read_of_directory {p : Path} (located : t.locate p = .ok place)
    (there : t.find? place = some .directory) : t.read p = .error .isDirectory := by
  simp [read, located, there, bind, Except.bind]

theorem read_of_file {p : Path} (plain : p.endsInSlash = false) (located : t.locate p = .ok place)
    {text : String} (there : t.find? place = some (.file text)) : t.read p = .ok text := by
  simp [read, located, there, plain, bind, Except.bind]

theorem write_of_directory {p : Path} (located : t.locate p = .ok place)
    (there : t.find? place = some .directory) (text : String) :
    t.write p text = .error .isDirectory := by
  simp [write, located, there, bind, Except.bind]

theorem write_of_free {p : Path} (located : t.locate p = .ok place)
    (free : t.find? place ≠ some .directory) (text : String) :
    t.write p text = .ok (t.put place (.file text)) := by
  cases found : t.find? place with
  | none => simp [write, located, found, bind, Except.bind]
  | some entry =>
    cases entry with
    | directory => exact absurd found free
    | file old => simp [write, located, found, bind, Except.bind]

end FederatedRounds.Storage.FileTree
