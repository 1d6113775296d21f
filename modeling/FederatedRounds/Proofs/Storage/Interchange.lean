import FederatedRounds.Proofs.Storage.Keeping
import FederatedRounds.Storage.Memory

/-! A store of files may stand for one in memory exactly as long as no key is accessed after a
clashing one was written. Both then answer every access alike, and what is seen of a key depends on
the accesses under that key alone. An id that is the name of a round's file tells them apart. -/
namespace FederatedRounds.Storage

/-- What is asked of a store. -/
inductive Access where
  | write (key : Key) (weights : Weights)
  | read (key : Key)
deriving DecidableEq

/-- What becomes of an access. Which of the names was not found is left out. -/
inductive Outcome where
  | written
  | found (weights : Weights)
  | absent
  | failed (error : StorageError)
deriving DecidableEq

namespace Outcome

def ofWrite : Except StorageError Unit → Outcome
  | .ok () => written
  | .error error => failed error

def ofRead : Except StorageError Weights → Outcome
  | .ok weights => found weights
  | .error (.notFound _) => absent
  | .error error => failed error

theorem ofRead_elim (latest : Option Weights) (what : Missing) :
    ofRead (latest.elim (.error (.notFound what)) .ok) = latest.elim .absent .found := by
  cases latest <;> rfl

end Outcome

def FileStore.access (s : FileStore) : Access → FileTree → Outcome × FileTree
  | .write (.global round) weights, t => Prod.map .ofWrite id (s.writeGlobal round weights t)
  | .write (.participant owner round) weights, t =>
    Prod.map .ofWrite id (s.writeLocal owner round weights t)
  | .read (.global round), t => (.ofRead (s.readGlobal round t), t)
  | .read (.participant owner round), t => (.ofRead (s.readLocal owner round t), t)

def MemoryStore.access : Access → MemoryStore → Outcome × MemoryStore
  | .write (.global round) weights, m => (.written, m.writeGlobal round weights)
  | .write (.participant owner round) weights, m => (.written, m.writeLocal owner round weights)
  | .read (.global round), m => (.ofRead (m.readGlobal round), m)
  | .read (.participant owner round), m => (.ofRead (m.readLocal owner round), m)

/-- The accesses, one after the other, and what becomes of each. -/
def trace {σ : Type} (access : Access → σ → Outcome × σ) : σ → List Access → List (Access × Outcome)
  | _, [] => []
  | state, first :: rest =>
    (first, (access first state).1) :: trace access (access first state).2 rest

namespace Access

def key : Access → Key
  | write key _ => key
  | read key => key

def weights : Access → Weights
  | write _ weights => weights
  | read _ => []

/-- The store takes the key, and the weights read back from their text. -/
structure Fits (s : FileStore) (access : Access) : Prop where
  admits : s.Admits access.key
  sendable : ∀ t ∈ access.weights, t.Sendable

instance (s : FileStore) : DecidablePred (Fits s) := fun access =>
  decidable_of_iff (s.Admits access.key ∧ ∀ t ∈ access.weights, t.Sendable)
    ⟨fun ⟨admits, sendable⟩ => ⟨admits, sendable⟩, fun fits => ⟨fits.admits, fits.sendable⟩⟩

/-- The first access leaves nothing that is in the way of the second. -/
def Apart : Access → Access → Prop
  | write key _, later => ¬key.Clash later.key
  | read _, _ => True

instance : DecidableRel Apart := fun
  | write key _, later => inferInstanceAs (Decidable ¬key.Clash later.key)
  | read _, _ => .isTrue trivial

/-- What is to be answered where these weights are the latest. -/
def answer (latest : Option Weights) : Access → Outcome
  | write .. => .written
  | read _ => latest.elim .absent .found

def onto (writes : Writes) : Access → Writes
  | write key weights => (key, weights) :: writes
  | read _ => writes

/-- The latest weights under a key once there was an access. -/
def latest (key : Key) (before : Option Weights) : Access → Option Weights
  | write other weights => if other = key then some weights else before
  | read _ => before

variable {access : Access} {writes : Writes} {key : Key}

theorem answer_ne_failed (latest : Option Weights) (access : Access) (error : StorageError) :
    access.answer latest ≠ .failed error := by
  cases access <;> cases latest <;> simp [answer]

theorem clear_onto (access : Access) (writes : Writes) (later : Access) :
    (access.onto writes).Clear later.key ↔ access.Apart later ∧ writes.Clear later.key := by
  cases access with
  | write key weights => exact List.forall_mem_cons
  | read key => exact ⟨fun clear => ⟨trivial, clear⟩, And.right⟩

theorem get?_onto (key : Key) (access : Access) (writes : Writes) :
    Table.get? key (access.onto writes) = access.latest key (Table.get? key writes) := by
  cases access <;> rfl

theorem latest_of_ne (different : access.key ≠ key) (before : Option Weights) :
    access.latest key before = before := by
  cases access with
  | write other weights => exact if_neg different
  | read other => rfl

theorem consistent_onto (clear : writes.Clear access.key) (consistent : writes.Consistent) :
    (access.onto writes).Consistent := by
  cases access with
  | write key weights =>
    exact List.pairwise_cons.mpr
      ⟨fun write member clash => clear write member clash.symm, consistent⟩
  | read key => exact consistent

theorem legible_onto (sendable : ∀ t ∈ access.weights, t.Sendable) (legible : writes.Legible) :
    (access.onto writes).Legible := by
  cases access with
  | write key weights => exact List.forall_mem_cons.mpr ⟨sendable, legible⟩
  | read key => exact legible

end Access

namespace MemoryStore

def latest? (m : MemoryStore) : Key → Option Weights
  | .global round => m.global.get? round
  | .participant id round => m.locals.get? (id, round)

/-- The store holds the latest of the weights written under each key. -/
def Recalls (m : MemoryStore) (writes : Writes) : Prop :=
  ∀ key, m.latest? key = Table.get? key writes

variable {m : MemoryStore} {writes : Writes}

theorem access_answers (access : Access) (m : MemoryStore) :
    (MemoryStore.access access m).1 = access.answer (m.latest? access.key) := by
  cases access with
  | write key weights => cases key <;> rfl
  | read key =>
    cases key with
    | global round =>
      change Outcome.ofRead (m.readGlobal round) = (m.global.get? round).elim .absent .found
      unfold readGlobal
      cases m.global.get? round <;> rfl
    | participant id round =>
      change Outcome.ofRead (m.readLocal id round) =
        (m.locals.get? (id, round)).elim .absent .found
      unfold readLocal
      cases m.locals.get? (id, round) <;> rfl

theorem latest?_access (key : Key) (access : Access) (m : MemoryStore) :
    (MemoryStore.access access m).2.latest? key = access.latest key (m.latest? key) := by
  cases access with
  | read other => cases other <;> rfl
  | write other weights =>
    cases other <;> cases key <;>
      simp [MemoryStore.access, writeGlobal, writeLocal, latest?, Access.latest, Table.get?_set]

theorem recalls_access (recalls : m.Recalls writes) (access : Access) :
    (MemoryStore.access access m).2.Recalls (access.onto writes) := fun key => by
  rw [latest?_access, access.get?_onto, recalls key]

end MemoryStore

namespace FileStore

variable {s : FileStore} {t made : FileTree} {place : List String} {writes : Writes} {key : Key}
  {p : Path} {access : Access} {accesses : List Access} {m : MemoryStore}

theorem access_write (found : s.path key = .ok p) (weights : Weights) (t : FileTree) :
    s.access (.write key weights) t = Prod.map .ofWrite id (t.saveWeights p weights) := by
  cases key with
  | global round =>
    obtain rfl := Except.ok.inj found
    rfl
  | participant owner round =>
    change s.localPath owner round = .ok p at found
    change Prod.map _ _ (s.writeLocal owner round weights t) = _
    rw [writeLocal, found]

theorem access_read (found : s.path key = .ok p) (t : FileTree) :
    s.access (.read key) t = (.ofRead (t.loadWeights p), t) := by
  cases key with
  | global round =>
    obtain rfl := Except.ok.inj found
    rfl
  | participant owner round =>
    change s.localPath owner round = .ok p at found
    change (Outcome.ofRead (s.readLocal owner round t), t) = _
    rw [readLocal, found]

namespace Holds

/-- An access that nothing is in the way of is answered from the latest weights under its key. -/
theorem access_answers (holds : s.Holds t place writes.contents) (fits : access.Fits s)
    (clear : writes.Clear access.key) (legible : writes.Legible) :
    ∃ after, s.access access t = (access.answer (Table.get? access.key writes), after) ∧
      s.Holds after place (access.onto writes).contents := by
  obtain ⟨p, found, leads⟩ := fits.admits.path
  cases access with
  | write key weights =>
    obtain ⟨after, saved, held⟩ := holds.save fits.admits leads clear weights
    refine ⟨after, (access_write found weights t).trans ?_, held⟩
    rw [saved]
    rfl
  | read key =>
    refine ⟨t, (access_read found t).trans ?_, holds⟩
    rw [holds.load fits.admits leads clear legible]
    exact congrArg (·, t) (Outcome.ofRead_elim _ _)

/-- An access that something is in the way of fails. -/
theorem access_fails (holds : s.Holds t place writes.contents) (admits : s.Admits access.key)
    (consistent : writes.Consistent) (occupied : ¬writes.Clear access.key) :
    ∃ error, (s.access access t).1 = .failed error := by
  obtain ⟨p, found, leads⟩ := admits.path
  cases access with
  | write key weights =>
    obtain ⟨error, failed⟩ := holds.save_fails admits leads consistent occupied weights
    exact ⟨.file error, (congrArg Prod.fst (access_write found weights t)).trans
      (congrArg Outcome.ofWrite failed)⟩
  | read key =>
    obtain ⟨error, failed⟩ := holds.load_fails admits leads consistent occupied
    exact ⟨.file error, (congrArg Prod.fst (access_read found t)).trans
      (congrArg Outcome.ofRead failed)⟩

theorem trace_eq_iff (holds : s.Holds t place writes.contents) (recalls : m.Recalls writes)
    (consistent : writes.Consistent) (legible : writes.Legible)
    (fits : ∀ access ∈ accesses, access.Fits s) :
    trace s.access t accesses = trace MemoryStore.access m accesses ↔
      (∀ access ∈ accesses, writes.Clear access.key) ∧ accesses.Pairwise Access.Apart := by
  -- The tree holds, and the memory recalls, the writes so far; the first access that one of them is
  -- in the way of tells the stores apart.
  induction accesses generalizing t m writes with
  | nil => simp [trace]
  | cons access rest ih =>
    obtain ⟨fitting, fits⟩ := List.forall_mem_cons.mp fits
    have remembered := MemoryStore.access_answers access m
    rw [recalls access.key] at remembered
    rw [trace, trace, List.cons_eq_cons, Prod.mk_right_inj, remembered]
    by_cases clear : writes.Clear access.key
    · obtain ⟨after, answered, held⟩ := holds.access_answers fitting clear legible
      have later := ih held (MemoryStore.recalls_access recalls access)
        (Access.consistent_onto clear consistent) (Access.legible_onto fitting.sendable legible)
        fits
      rw [answered, later, List.forall_mem_cons, List.pairwise_cons]
      simp only [Access.clear_onto, forall_and]
      tauto
    · obtain ⟨error, failed⟩ := holds.access_fails fitting.admits consistent clear
      constructor
      · rintro ⟨same, _⟩
        exact absurd (same.symm.trans failed) (access.answer_ne_failed _ error)
      · rintro ⟨all, _⟩
        exact absurd (all access List.mem_cons_self) clear

end Holds

/-- A store does not show whether its directory was there before the first write. -/
theorem trace_unmade (unmade : s.Unmade t)
    (succeeds : t.makeAll (t.start s.directory) s.directory.names = (.ok (), made))
    (holds : s.Holds made place (Writes.contents []))
    (fits : ∀ access ∈ accesses, access.Fits s) :
    trace s.access t accesses = trace s.access made accesses := by
  induction accesses with
  | nil => rfl
  | cons access rest ih =>
    obtain ⟨fitting, others⟩ := List.forall_mem_cons.mp fits
    obtain ⟨p, found, leads⟩ := fitting.admits.path
    cases access with
    | write key weights =>
      have same : s.access (.write key weights) t = s.access (.write key weights) made := by
        refine (access_write found weights t).trans (.trans ?_ (access_write found weights made).symm)
        rw [unmade.save succeeds holds fitting.admits leads]
      rw [trace, trace, same]
    | read key =>
      have before : s.access (.read key) t = (.absent, t) := by
        refine (access_read found t).trans ?_
        rw [unmade.load leads]
        rfl
      have after : s.access (.read key) made = (.absent, made) := by
        refine (access_read found made).trans ?_
        rw [holds.load fitting.admits leads (List.forall_mem_nil _) (List.forall_mem_nil _)]
        rfl
      rw [trace, trace, before, after, ih others]

theorem trace_eq_iff_of_opens (opens : s.Opens t) (fits : ∀ access ∈ accesses, access.Fits s) :
    trace s.access t accesses = trace MemoryStore.access .empty accesses ↔
      accesses.Pairwise Access.Apart := by
  obtain ⟨made, place, succeeds, holds⟩ := opens
  have recalls : MemoryStore.empty.Recalls [] := fun key => by cases key <;> rfl
  have settled := holds.trace_eq_iff recalls .nil (List.forall_mem_nil _) fits
  have same : trace s.access t accesses = trace s.access made accesses := by
    rcases FileTree.makeAll_cases succeeds with rfl | unmade
    · rfl
    · exact trace_unmade unmade succeeds holds fits
  have clear : ∀ access ∈ accesses, Writes.Clear [] access.key :=
    fun _ _ => List.forall_mem_nil _
  rw [same, settled, and_iff_right clear]

end FileStore

namespace MemoryStore

/-- What is seen of a key depends on the accesses under that key alone. -/
theorem trace_filter {key : Key} {accesses : List Access} {m other : MemoryStore}
    (same : m.latest? key = other.latest? key) :
    (trace MemoryStore.access m accesses).filter (fun entry => entry.1.key = key) =
      trace MemoryStore.access other (accesses.filter fun access => access.key = key) := by
  induction accesses generalizing m other with
  | nil => rfl
  | cons access rest ih =>
    have after := latest?_access key access m
    rw [trace, List.filter_cons, List.filter_cons]
    by_cases under : access.key = key
    · have answered : (MemoryStore.access access m).1 = (MemoryStore.access access other).1 := by
        rw [access_answers, access_answers, under, same]
      rw [same, ← latest?_access] at after
      rw [if_pos (decide_eq_true under), if_pos (decide_eq_true under), trace, answered, ih after]
    · rw [Access.latest_of_ne under, same] at after
      rw [if_neg (by simpa using under), if_neg (by simpa using under), ih after]

theorem trace_succeeds {accesses : List Access} {m : MemoryStore} :
    ∀ entry ∈ trace MemoryStore.access m accesses, ∀ error, entry.2 ≠ .failed error := by
  induction accesses generalizing m with
  | nil => exact List.forall_mem_nil _
  | cons access rest ih =>
    refine List.forall_mem_cons.mpr ⟨fun error => ?_, ih⟩
    rw [access_answers]
    exact access.answer_ne_failed _ error

end MemoryStore

/-- A store of files and one in memory answer alike exactly as long as no key is accessed after a
clashing one was written. No access fails then, and what is seen of a key depends on the accesses
under it alone. -/
theorem interchangeable_without_clash (s : FileStore) (t : FileTree) (opens : s.Opens t)
    (accesses : List Access) (fits : ∀ access ∈ accesses, access.Fits s) :
    (trace s.access t accesses = trace MemoryStore.access .empty accesses ↔
      accesses.Pairwise Access.Apart) ∧
    (accesses.Pairwise Access.Apart →
      (∀ entry ∈ trace s.access t accesses, ∀ error, entry.2 ≠ .failed error) ∧
      ∀ key, (trace s.access t accesses).filter (fun entry => entry.1.key = key) =
        trace s.access t (accesses.filter fun access => access.key = key)) := by
  refine ⟨FileStore.trace_eq_iff_of_opens opens fits, fun apart => ?_⟩
  have same := (FileStore.trace_eq_iff_of_opens opens fits).mpr apart
  rw [same]
  refine ⟨MemoryStore.trace_succeeds, fun key => ?_⟩
  have fewer : ∀ access ∈ accesses.filter (fun access => access.key = key), access.Fits s :=
    fun access member => fits access (List.mem_of_mem_filter member)
  rw [MemoryStore.trace_filter rfl,
    (FileStore.trace_eq_iff_of_opens opens fewer).mpr (apart.filter _)]

namespace Trial

def folder : FileStore := ⟨⟨"store"⟩⟩

/-- The directory of the store is there, and empty. -/
def disk : FileTree := (FileTree.emptyAt ["work"]).put ["work", "store"] .directory

def layer : Weights := [⟨[1], [.one]⟩]

def distinct : List Access :=
  [.write (.participant ⟨"3"⟩ 3) layer, .read (.global 3), .write (.global 3) [], .read (.global 3),
    .read (.participant ⟨"3"⟩ 3), .read (.participant ⟨"4.json"⟩ 3)]

/-- The id is the name of the file of the third round. -/
def clashing : List Access :=
  [.write (.participant ⟨"3.json"⟩ 0) layer, .write (.global 3) layer, .read (.global 3)]

theorem isName_store : Path.IsName "store" := ⟨by decide, by decide, by decide⟩

end Trial

theorem distinct_names_served :
    Trial.folder.Opens (.emptyAt ["work"]) ∧
      (∀ access ∈ Trial.distinct, access.Fits Trial.folder) ∧
      trace Trial.folder.access (.emptyAt ["work"]) Trial.distinct =
        trace MemoryStore.access .empty Trial.distinct := by
  have opens : Trial.folder.Opens (.emptyAt ["work"]) :=
    FileStore.opens_name Trial.isName_store (by decide) (by decide) _
  have fits : ∀ access ∈ Trial.distinct, access.Fits Trial.folder := by decide +kernel
  have apart : Trial.distinct.Pairwise Access.Apart := by decide +kernel
  exact ⟨opens, fits, (interchangeable_without_clash _ _ opens _ fits).1.mpr apart⟩

/-- A participant named like the file of a round takes its place, and the weights of the round are
lost. -/
theorem round_lost_to_id :
    Trial.folder.Opens Trial.disk ∧ (∀ access ∈ Trial.clashing, access.Fits Trial.folder) ∧
      trace Trial.folder.access Trial.disk Trial.clashing =
        Trial.clashing.zip [.written, .failed (.file .isDirectory), .failed (.file .isDirectory)] ∧
      trace MemoryStore.access .empty Trial.clashing =
        Trial.clashing.zip [.written, .written, .found Trial.layer] := by
  have holds : Trial.folder.Holds Trial.disk ["work", "store"] (Writes.contents []) :=
    FileStore.holds_name Trial.isName_store (by decide) (by decide) _
  exact ⟨holds.opens, by decide +kernel, by decide +kernel, by decide +kernel⟩

end FederatedRounds.Storage
