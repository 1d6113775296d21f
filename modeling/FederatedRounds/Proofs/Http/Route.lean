import FederatedRounds.Http.Route
import FederatedRounds.Proofs.Text.Pieces
import Mathlib.Data.List.TakeDrop
import Mathlib.Data.List.TakeWhile

/-! The targets that lead to a route. In such a target the segments of the route stand one behind the
other, each after a slash. A scheme and the name of a server may stand before them, a slash and then
a query or a fragment after them, and nothing else. -/
namespace FederatedRounds.Http

/-- What may stand before the path: nothing, or a scheme and the name of a server. -/
inductive Server : List Char → Prop where
  | none : Server []
  | named (scheme name : List Char) (schematic : ∀ c ∈ scheme, Route.isSchemeChar c = true)
      (short : '/' ∉ name) : Server (scheme ++ ':' :: '/' :: '/' :: name)

/-- The characters that end the path of a target. -/
def endsPath (c : Char) : Prop := c = '?' ∨ c = '#'

/-- The path of a target, spelled from its segments. -/
def spell (segments : List String) : List Char :=
  segments.flatMap fun segment => '/' :: segment.toList

/-- A target with the given segments, all of which are names. -/
inductive Spells (target : String) (segments : List String) : Prop where
  | parts (server slash rest : List Char)
      (whole : target.toList = server ++ spell segments ++ slash ++ rest)
      (before : Server server) (host : ∀ c ∈ server, ¬endsPath c)
      (plain : ∀ segment ∈ segments,
        segment ≠ "" ∧ '/' ∉ segment.toList ∧ ∀ c ∈ segment.toList, ¬endsPath c)
      (closing : slash = [] ∨ slash = ['/'])
      (after : ∀ mark, rest.head? = some mark → endsPath mark)

theorem Spells.names {target : String} {segments : List String} (spelled : Spells target segments) :
    ∀ segment ∈ segments, segment ≠ "" := by
  obtain ⟨_, _, _, _, _, _, plain, _, _⟩ := spelled
  exact fun segment member => (plain segment member).1

theorem spell_append (first second : List String) :
    spell (first ++ second) = spell first ++ spell second := List.flatMap_append

theorem not_endsPath_of_mem_spell {segments : List String} {c : Char}
    (plain : ∀ segment ∈ segments, ∀ c ∈ segment.toList, ¬endsPath c)
    (member : c ∈ spell segments) : ¬endsPath c := by
  obtain ⟨segment, among, inside⟩ := List.mem_flatMap.mp member
  rcases List.mem_cons.mp inside with rfl | inner
  · simp [endsPath]
  · exact plain segment among c inner

theorem exists_spell_eq_cons {segments : List String} (nonempty : segments ≠ []) :
    ∃ rest, spell segments = '/' :: rest := by
  obtain ⟨first, others, rfl⟩ := List.exists_cons_of_ne_nil nonempty
  exact ⟨_, rfl⟩

namespace Route

def segments : Route → List String
  | rendezvous => ["rendezvous"]
  | heartbeat id => ["heartbeat", id.text]
  | startTraining id => ["start_training_round", id.text]
  | endTraining id => ["end_training_round", id.text]

theorem segments_ne_nil (route : Route) : route.segments ≠ [] := by
  cases route <;> exact List.cons_ne_nil _ _

private abbrev inPath (c : Char) : Bool := c ≠ '?' ∧ c ≠ '#'

private theorem inPath_iff {c : Char} : inPath c = true ↔ ¬endsPath c := by
  simp [inPath, endsPath]

theorem takeWhile_eq_iff {text path : List Char} : text.takeWhile inPath = path ↔
    (∀ c ∈ path, ¬endsPath c) ∧
      ∃ rest, text = path ++ rest ∧ ∀ mark, rest.head? = some mark → endsPath mark := by
  constructor
  · rintro rfl
    refine ⟨fun c member => inPath_iff.mp (List.mem_takeWhile_imp member), _,
      List.takeWhile_append_dropWhile.symm, ?_⟩
    intro mark first
    have stops := List.head?_dropWhile_not inPath text
    rw [first] at stops
    simpa [inPath, endsPath, Decidable.or_iff_not_imp_left] using stops
  · rintro ⟨inside, rest, rfl, ends⟩
    rw [List.takeWhile_append_of_pos fun c member => inPath_iff.mpr (inside c member)]
    cases rest with
    | nil => simp
    | cons mark more =>
      have stops : ¬inPath mark = true := fun goes => inPath_iff.mp goes (ends mark rfl)
      rw [List.takeWhile_cons_of_neg stops, List.append_nil]

theorem pathOf_server {server rest : List Char} (before : Server server) :
    pathOf (server ++ '/' :: rest) = '/' :: rest := by
  cases before with
  | none => rfl
  | named scheme name schematic short =>
    have split : (scheme ++ ':' :: '/' :: '/' :: (name ++ '/' :: rest)).span isSchemeChar =
        (scheme, ':' :: '/' :: '/' :: (name ++ '/' :: rest)) := by
      rw [List.span_eq_takeWhile_dropWhile, List.takeWhile_append_of_pos schematic,
        List.dropWhile_append_of_pos schematic, List.takeWhile_cons_of_neg (by decide),
        List.dropWhile_cons_of_neg (by decide), List.append_nil]
    have others : ∀ c ∈ name, (decide (c ≠ '/')) = true := by
      intro c member
      exact decide_eq_true fun same => short (same ▸ member)
    rw [List.append_assoc, List.cons_append, List.cons_append, List.cons_append, pathOf, split]
    change (name ++ '/' :: rest).dropWhile (· ≠ '/') = _
    rw [List.dropWhile_append_of_pos others, List.dropWhile_cons_of_neg (by decide)]

theorem server_of_pathOf {text rest : List Char} (found : pathOf text = '/' :: rest) :
    ∃ server, Server server ∧ text = server ++ '/' :: rest := by
  unfold pathOf at found
  split at found
  · rename_i scheme behind split
    rw [List.span_eq_takeWhile_dropWhile] at split
    obtain ⟨front, back⟩ := Prod.mk.inj split
    refine ⟨text.takeWhile isSchemeChar ++ ':' :: '/' :: '/' :: behind.takeWhile (· ≠ '/'),
      .named _ _ (fun c => List.mem_takeWhile_imp) ?_, ?_⟩
    · intro member
      have differs := List.mem_takeWhile_imp member
      simp at differs
    · calc
        text = text.takeWhile isSchemeChar ++ text.dropWhile isSchemeChar :=
          List.takeWhile_append_dropWhile.symm
        _ = _ := by
          rw [back, ← found, List.append_assoc, List.cons_append, List.cons_append,
            List.cons_append, List.takeWhile_append_dropWhile]
  · exact ⟨[], .none, found⟩

theorem map_ofList_eq_iff {found : List (List Char)} {segments : List String} :
    found.map String.ofList = segments ↔ found = segments.map String.toList := by
  constructor
  · rintro rfl
    simp [Function.comp_def]
  · rintro rfl
    simp [Function.comp_def]

theorem pieces_eq_iff {rest : List Char} {segments : List String} :
    (Text.pieces '/' rest).map String.ofList = segments ↔ segments ≠ [] ∧
      (∀ segment ∈ segments, '/' ∉ segment.toList) ∧ '/' :: rest = spell segments := by
  rw [map_ofList_eq_iff, Text.pieces_eq_iff, spell, List.flatMap_map, List.forall_mem_map, Ne,
    List.map_eq_nil_iff]

theorem trimmed_eq_iff {found segments : List String} (nonempty : segments ≠ [])
    (names : ∀ segment ∈ segments, segment ≠ "") :
    (if found.getLast? = some "" then found.dropLast else found) = segments ↔
      found = segments ∨ found = segments ++ [""] := by
  have last : segments.getLast? ≠ some "" := fun ends =>
    names "" (List.mem_of_getLast? ends) rfl
  constructor
  · intro trimmed
    split at trimmed
    · rename_i ends
      rw [← trimmed]
      obtain ⟨front, rfl⟩ := List.getLast?_eq_some_iff.mp ends
      rw [List.dropLast_concat]
      exact Or.inr rfl
    · exact Or.inl trimmed
  · rintro (rfl | rfl)
    · exact if_neg last
    · simp

theorem segments?_of_path {target : String} {rest : List Char}
    (path : pathOf (target.toList.takeWhile inPath) = '/' :: rest) :
    segments? target =
      let found := (Text.pieces '/' rest).map String.ofList
      some (if found.getLast? = some "" then found.dropLast else found) := by
  have same : pathOf (target.toList.takeWhile fun c => c ≠ '?' ∧ c ≠ '#') = '/' :: rest := path
  unfold segments?
  rw [same]
  rfl

theorem spells_of_segments? {target : String} {segments : List String} (nonempty : segments ≠ [])
    (names : ∀ segment ∈ segments, segment ≠ "") (found : segments? target = some segments) :
    Spells target segments := by
  unfold segments? at found
  split at found
  · rename_i rest path
    obtain ⟨inside, tail, whole, ends⟩ := takeWhile_eq_iff.mp (rfl : target.toList.takeWhile
      inPath = _)
    obtain ⟨server, before, split⟩ := server_of_pathOf path
    obtain ⟨closing, closed, cut⟩ : ∃ closing, (closing = [] ∨ closing = [""]) ∧
        (Text.pieces '/' rest).map String.ofList = segments ++ closing := by
      rcases (trimmed_eq_iff nonempty names).mp (Option.some.inj found) with cut | cut
      · exact ⟨[], Or.inl rfl, by rw [cut, List.append_nil]⟩
      · exact ⟨[""], Or.inr rfl, cut⟩
    obtain ⟨_, plain, spelled⟩ := pieces_eq_iff.mp cut
    rw [spelled, spell_append, ← List.append_assoc] at split
    rw [split] at inside whole
    refine .parts server (spell closing) tail whole before ?_ ?_ ?_ ends
    · exact fun c member => inside c (by simp [member])
    · intro segment member
      refine ⟨names segment member, plain segment (List.mem_append_left _ member), ?_⟩
      intro c inner
      apply inside c
      have spelt : c ∈ spell segments := List.mem_flatMap.mpr
        ⟨segment, member, List.mem_cons_of_mem _ inner⟩
      simp [spelt]
    · rcases closed with rfl | rfl
      · exact Or.inl rfl
      · exact Or.inr rfl
  · cases found

theorem segments?_of_spells {target : String} {segments : List String} (nonempty : segments ≠ [])
    (spelled : Spells target segments) : segments? target = some segments := by
  have names := spelled.names
  obtain ⟨server, slash, tail, whole, before, host, plain, closing, after⟩ := spelled
  obtain ⟨closed, rfl, empty⟩ : ∃ closed, slash = spell closed ∧
      (closed = [] ∨ closed = [""]) := by
    rcases closing with rfl | rfl
    · exact ⟨[], rfl, Or.inl rfl⟩
    · exact ⟨[""], rfl, Or.inr rfl⟩
  have all : ∀ segment ∈ segments ++ closed,
      '/' ∉ segment.toList ∧ ∀ c ∈ segment.toList, ¬endsPath c := by
    intro segment member
    rcases List.mem_append.mp member with inner | last
    · exact (plain segment inner).2
    · have blank : segment = "" := by
        rcases empty with rfl | rfl
        · exact absurd last List.not_mem_nil
        · exact List.mem_singleton.mp last
      subst blank
      exact ⟨List.not_mem_nil, fun _ none => absurd none List.not_mem_nil⟩
  rw [List.append_assoc server, ← spell_append] at whole
  have path : target.toList.takeWhile inPath = server ++ spell (segments ++ closed) := by
    refine takeWhile_eq_iff.mpr ⟨?_, tail, whole, after⟩
    intro c member
    rcases List.mem_append.mp member with inHost | inPath
    · exact host c inHost
    · exact not_endsPath_of_mem_spell (fun segment member => (all segment member).2) inPath
  obtain ⟨rest, spelled⟩ := exists_spell_eq_cons (List.append_ne_nil_of_left_ne_nil nonempty closed)
  have cut := pieces_eq_iff.mpr ⟨List.append_ne_nil_of_left_ne_nil nonempty closed,
    fun segment member => (all segment member).1, spelled.symm⟩
  rw [spelled] at path
  rw [segments?_of_path (path ▸ pathOf_server before), cut]
  refine congrArg some ((trimmed_eq_iff nonempty names).mpr ?_)
  rcases empty with rfl | rfl
  · exact Or.inl (List.append_nil _)
  · exact Or.inr rfl

theorem ofTarget?_eq_some_iff {target : String} {route : Route} :
    ofTarget? target = some route ↔ Spells target route.segments := by
  constructor
  · intro found
    unfold ofTarget? at found
    split at found
    · rename_i split
      cases found
      exact spells_of_segments? (segments_ne_nil _) (by simp [segments]) split
    · rename_i action id split
      by_cases nameless : id = ""
      · rw [if_pos nameless] at found
        cases found
      rw [if_neg nameless] at found
      split at found
      · cases found
        exact spells_of_segments? (segments_ne_nil _) (by simp [segments, nameless]) split
      · cases found
        exact spells_of_segments? (segments_ne_nil _) (by simp [segments, nameless]) split
      · cases found
        exact spells_of_segments? (segments_ne_nil _) (by simp [segments, nameless]) split
      · cases found
    · cases found
  · intro spelled
    have split := segments?_of_spells route.segments_ne_nil spelled
    unfold ofTarget?
    rw [split]
    cases route with
    | rendezvous => rfl
    | _ id =>
      have named : id.text ≠ "" := spelled.names _ (by simp [segments])
      simp [segments, named]

example : ofTarget? "http://host:8081/heartbeat/a%20b/?x=/y" = some (.heartbeat ⟨"a%20b"⟩) := by
  decide +kernel

end Route
end FederatedRounds.Http
