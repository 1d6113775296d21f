import FederatedRounds.Proofs.Number.Digits
import FederatedRounds.Proofs.Storage.FileTree
import FederatedRounds.Proofs.Storage.Path
import FederatedRounds.Storage.FileStore

/-! The keys of a store and where the files store keeps what is under them. Every key leads to names
of its own below the directory of the store. Two keys clash where the id of one is the name of the
file of the other. -/
namespace FederatedRounds.Storage

namespace FileStore

theorem fileName_injective : Function.Injective fileName := fun _ _ same =>
  UInt32.toNat_inj.mp (natText_injective ((String.append_left_inj _).mp same))

theorem fileName_toList (round : UInt32) :
    (fileName round).toList = Digit.text (Digit.spell round.toNat) ++ ".json".toList := by
  rw [fileName, String.toList_append, natText, String.toList_ofList]

theorem five_le_length_fileName (round : UInt32) : 5 ≤ (fileName round).toList.length := by
  rw [fileName_toList, List.length_append]
  exact Nat.le_add_left _ _

theorem isName_fileName (round : UInt32) : Path.IsName (fileName round) where
  nonempty empty := absurd (five_le_length_fileName round) (by simp [empty])
  notDot dot := absurd (five_le_length_fileName round) (by simp [dot])
  plain slash := by
    have digits : ∀ d : Digit, d.char ≠ '/' := by decide
    rw [fileName_toList, List.mem_append] at slash
    rcases slash with digit | ending
    · obtain ⟨d, _, char⟩ := List.mem_map.mp digit
      exact digits d char
    · revert ending
      decide

theorem fileName_ne_dots (round : UInt32) : fileName round ≠ ".." := fun dots =>
  absurd (five_le_length_fileName round) (by simp [dots])

theorem digits_size (digits : List Digit) :
    (String.ofList (Digit.text digits)).utf8ByteSize = digits.length := by
  have one : ∀ d : Digit, d.char.utf8Size = 1 := by decide
  induction digits with
  | nil => rfl
  | cons d rest ih =>
    change (String.ofList (d.char :: Digit.text rest)).utf8ByteSize = _
    rw [String.ofList_cons, String.utf8ByteSize_append, ih, String.utf8ByteSize_singleton, one,
      List.length_cons, Nat.add_comm]

theorem fileName_short (round : UInt32) :
    (fileName round).utf8ByteSize ≤ FileTree.nameLimit := by
  have places : (Digit.spell round.toNat).length ≤ 10 :=
    Digit.spell_length_le (by decide) (Nat.lt_trans round.toNat_lt (by decide))
  rw [fileName, String.utf8ByteSize_append, natText, digits_size]
  exact Nat.le_trans (Nat.add_le_add_right places _) (by decide)

theorem isUsable_iff {id : ParticipantId} : isUsable id = true ↔
    Path.IsName id.text ∧ id.text ≠ ".." ∧ '\\' ∉ id.text.toList := by
  constructor
  · intro usable
    simp only [isUsable, Bool.and_eq_true, decide_eq_true_eq, Bool.not_eq_true',
      List.any_eq_false, Bool.or_eq_true, not_or] at usable
    obtain ⟨⟨⟨nonempty, notDot⟩, notDots⟩, plain⟩ := usable
    exact ⟨⟨nonempty, notDot, fun slash => (plain _ slash).1 rfl⟩, notDots,
      fun slash => (plain _ slash).2 rfl⟩
  · rintro ⟨⟨nonempty, notDot, plain⟩, notDots, straight⟩
    simp only [isUsable, Bool.and_eq_true, decide_eq_true_eq, Bool.not_eq_true',
      List.any_eq_false, Bool.or_eq_true, not_or]
    refine ⟨⟨⟨nonempty, notDot⟩, notDots⟩, fun c member => ⟨?_, ?_⟩⟩
    · rintro rfl
      exact plain member
    · rintro rfl
      exact straight member

end FileStore

/-- What weights are kept under: a round, or a participant and a round. -/
inductive Key where
  | global (round : UInt32)
  | participant (id : ParticipantId) (round : UInt32)
deriving DecidableEq

namespace Key
open FileStore

/-- The names that lead from the directory of a store to the file of a key. -/
def below : Key → List String
  | global round => [fileName round]
  | participant id round => [id.text, fileName round]

/-- The one of these names that stands in the directory itself. -/
def entry : Key → String
  | global round => fileName round
  | participant id _ => id.text

def round : Key → UInt32
  | global round => round
  | participant _ round => round

def isGlobal : Key → Bool
  | global _ => true
  | participant .. => false

/-- The id of one key is the name of the file of the other. -/
def Clash : Key → Key → Prop
  | global round, participant id _ => id.text = fileName round
  | participant id _, global round => id.text = fileName round
  | _, _ => False

instance : DecidableRel Clash := fun
  | global round, participant id _ => inferInstanceAs (Decidable (id.text = fileName round))
  | participant id _, global round => inferInstanceAs (Decidable (id.text = fileName round))
  | global _, global _ => .isFalse id
  | participant .., participant .. => .isFalse id

variable {key other : Key}

theorem clash_iff : Clash key other ↔ key.entry = other.entry ∧ key.isGlobal ≠ other.isGlobal := by
  cases key <;> cases other <;> simp [Clash, entry, isGlobal, eq_comm]

theorem Clash.symm (clash : Clash key other) : Clash other key :=
  clash_iff.mpr ⟨(clash_iff.mp clash).1.symm, (clash_iff.mp clash).2.symm⟩

theorem below_eq (key : Key) : key.below = key.below.dropLast ++ [fileName key.round] := by
  cases key <;> rfl

theorem below_ne_nil (key : Key) : key.below ≠ [] := by
  cases key <;> exact List.cons_ne_nil _ _

theorem below_injective : Function.Injective below := by
  intro key other same
  cases key with
  | global round =>
    cases other with
    | global later =>
      rw [fileName_injective (List.head_eq_of_cons_eq same)]
    | participant id later => simp [below] at same
  | participant id round =>
    obtain ⟨id⟩ := id
    cases other with
    | global later => simp [below] at same
    | participant third later =>
      obtain ⟨third⟩ := third
      simp only [below, List.cons.injEq, and_true] at same
      rw [same.1, fileName_injective same.2]

end Key

namespace FileStore

def path (s : FileStore) : Key → Except StorageError Path
  | .global round => .ok (s.globalPath round)
  | .participant id round => s.localPath id round

/-- A path that is made for a key, whether or not it can be looked up. -/
structure Spells (s : FileStore) (key : Key) (p : Path) : Prop where
  names : p.names = s.directory.names ++ key.below
  isAbsolute : p.isAbsolute = s.directory.isAbsolute
  endsInSlash : p.endsInSlash = false
  nonempty : p.text ≠ ""
  forward : ∀ name ∈ key.below, name ≠ ".."

theorem localPath_eq_ok_iff {s : FileStore} {id : ParticipantId} {round : UInt32} {p : Path} :
    s.localPath id round = .ok p ↔
      isUsable id ∧ p = (s.directory.join id.text).join (fileName round) := by
  unfold localPath
  split
  · simp [*, eq_comm]
  · simp [*]

theorem spells_of_path {s : FileStore} {key : Key} {p : Path} (found : s.path key = .ok p) :
    s.Spells key p := by
  cases key with
  | global round =>
    obtain rfl := Except.ok.inj found
    have isName := isName_fileName round
    exact ⟨Path.names_join _ isName, Path.isAbsolute_join _ isName, Path.endsInSlash_join _ isName,
      Path.join_text_ne_empty _ isName, List.forall_mem_singleton.mpr (fileName_ne_dots round)⟩
  | participant id round =>
    obtain ⟨usable, rfl⟩ := localPath_eq_ok_iff.mp found
    obtain ⟨isId, notDots, _⟩ := isUsable_iff.mp usable
    have isName := isName_fileName round
    refine ⟨?_, ?_, Path.endsInSlash_join _ isName, Path.join_text_ne_empty _ isName, ?_⟩
    · rw [Path.names_join _ isName, Path.names_join _ isId, List.append_assoc]
      rfl
    · rw [Path.isAbsolute_join _ isName, Path.isAbsolute_join _ isId]
    · exact List.forall_mem_cons.mpr
        ⟨notDots, List.forall_mem_singleton.mpr (fileName_ne_dots round)⟩

/-- The id is accepted and can be one name, and the path of the key can be looked up. -/
def Admits (s : FileStore) : Key → Prop
  | .global round => FileTree.malformed? (s.globalPath round) = none
  | .participant id round => isUsable id ∧ id.text.utf8ByteSize ≤ FileTree.nameLimit ∧
      FileTree.malformed? ((s.directory.join id.text).join (fileName round)) = none

instance (s : FileStore) : DecidablePred s.Admits := fun
  | .global _ => inferInstanceAs (Decidable (_ = _))
  | .participant _ _ => inferInstanceAs (Decidable (_ ∧ _ ∧ _))

/-- A path from the directory of a store to a key. -/
structure Leads (s : FileStore) (key : Key) (p : Path) : Prop where
  names : p.names = s.directory.names ++ key.below
  isAbsolute : p.isAbsolute = s.directory.isAbsolute
  endsInSlash : p.endsInSlash = false
  nonempty : p.text ≠ ""
  fine : FileTree.malformed? p = none

variable {s : FileStore} {key : Key}

theorem Admits.path (admits : s.Admits key) : ∃ p, s.path key = .ok p ∧ s.Leads key p := by
  obtain ⟨p, found, fine⟩ : ∃ p, s.path key = .ok p ∧ FileTree.malformed? p = none := by
    cases key with
    | global round => exact ⟨_, rfl, admits⟩
    | participant id round => exact ⟨_, if_pos admits.1, admits.2.2⟩
  have spells := spells_of_path found
  exact ⟨p, found, spells.names, spells.isAbsolute, spells.endsInSlash, spells.nonempty, fine⟩

/-- What leads below the directory is short, and does not lead out again. -/
theorem Admits.proper (admits : s.Admits key) {name : String} (member : name ∈ key.below) :
    name.utf8ByteSize ≤ FileTree.nameLimit ∧ name ≠ ".." := by
  obtain ⟨p, found, _⟩ := admits.path
  refine ⟨?_, (spells_of_path found).forward name member⟩
  cases key with
  | global round =>
    obtain rfl := List.mem_singleton.mp member
    exact fileName_short round
  | participant id round =>
    obtain ⟨_, short, _⟩ := admits
    rcases List.mem_cons.mp member with rfl | last
    · exact short
    · obtain rfl := List.mem_singleton.mp last
      exact fileName_short round

end FileStore
end FederatedRounds.Storage
