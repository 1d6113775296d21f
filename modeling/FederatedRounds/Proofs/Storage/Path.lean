import FederatedRounds.Proofs.Text.Pieces
import FederatedRounds.Storage.FileTree
import Mathlib.Data.List.Flatten

/-! The names of a path. A name put below a path is the last of them, and without it they are those
of the parent. The text of the parent is part of the text of the path, so that it can be looked up
if the path can. -/
namespace FederatedRounds.Storage.Path

/-- A name that stands for something below a directory, or for the one above it. -/
structure IsName (name : String) : Prop where
  nonempty : name ≠ ""
  notDot : name ≠ "."
  plain : '/' ∉ name.toList

def namesOf (text : List Char) : List String :=
  ((Text.pieces '/' text).map String.ofList).filter fun name => name ≠ "" ∧ name ≠ "."

variable {directory p : Path} {name : String} {names : List String}

theorem names_eq (p : Path) : p.names = namesOf p.text.toList := rfl

theorem namesOf_append (first rest : List Char) :
    namesOf (first ++ '/' :: rest) = namesOf first ++ namesOf rest := by
  simp only [namesOf, Text.pieces_append, List.map_append, List.filter_append]

theorem namesOf_nil : namesOf [] = [] := by decide

theorem isName_of_mem_namesOf {text : List Char} (member : name ∈ namesOf text) : IsName name := by
  obtain ⟨among, kept⟩ := List.mem_filter.mp member
  obtain ⟨piece, found, rfl⟩ := List.mem_map.mp among
  have proper : String.ofList piece ≠ "" ∧ String.ofList piece ≠ "." := by simpa using kept
  refine ⟨proper.1, proper.2, ?_⟩
  rw [String.toList_ofList]
  exact Text.not_mem_of_mem_pieces found

theorem IsName.pieces (isName : IsName name) : Text.pieces '/' name.toList = [name.toList] :=
  Text.pieces_eq_iff.mpr ⟨List.cons_ne_nil _ _, by simpa using isName.plain, by simp⟩

theorem IsName.namesOf (isName : IsName name) : namesOf name.toList = [name] := by
  simp [Path.namesOf, isName.pieces, isName.nonempty, isName.notDot]

/-- A slash is put between a path and a name below it, unless there is one already. -/
theorem join_text (directory : Path) (name : String) :
    directory.text = "" ∧ (directory.join name).text = name ∨
      ∃ front, directory.text.toList ≠ [] ∧
        (directory.text.toList = front ∨ directory.text.toList = front ++ ['/']) ∧
        (directory.join name).text.toList = front ++ '/' :: name.toList := by
  unfold join
  dsimp only
  by_cases empty : directory.text = ""
  · left
    simp [empty]
  right
  have nonempty : directory.text.toList ≠ [] := by simpa using empty
  by_cases closed : directory.text.toList.getLast? = some '/'
  · obtain ⟨front, split⟩ := List.getLast?_eq_some_iff.mp closed
    exact ⟨front, nonempty, Or.inr split, by simp [split]⟩
  · exact ⟨directory.text.toList, nonempty, Or.inl rfl, by simp [empty, closed]⟩

theorem names_join (directory : Path) (isName : IsName name) :
    (directory.join name).names = directory.names ++ [name] := by
  rw [names_eq, names_eq]
  rcases join_text directory name with ⟨empty, text⟩ | ⟨front, _, unclosed | closed, text⟩
  · rw [text, empty, isName.namesOf]
    exact (List.nil_append _).symm
  · rw [text, unclosed, namesOf_append, isName.namesOf]
  · rw [text, closed, namesOf_append, namesOf_append, namesOf_nil, isName.namesOf, List.append_nil]

theorem isAbsolute_join (directory : Path) (isName : IsName name) :
    (directory.join name).isAbsolute = directory.isAbsolute := by
  have relative : name.toList.head? ≠ some '/' := fun first =>
    isName.plain (List.mem_of_mem_head? first)
  unfold isAbsolute
  rcases join_text directory name with ⟨empty, text⟩ | ⟨front, nonempty, unclosed | closed, text⟩
  · simp [text, empty, relative]
  · obtain ⟨c, rest, rfl⟩ := List.exists_cons_of_ne_nil (unclosed ▸ nonempty)
    simp [text, unclosed]
  · cases front <;> simp [text, closed]

theorem endsInSlash_join (directory : Path) (isName : IsName name) :
    (directory.join name).endsInSlash = false := by
  have last : (Text.pieces '/' (directory.join name).text.toList).getLast? = some name.toList := by
    rcases join_text directory name with ⟨_, text⟩ | ⟨front, _, _, text⟩
    · rw [text, isName.pieces]
      rfl
    · rw [text, Text.pieces_append, isName.pieces]
      simp
  have nonempty : name.toList ≠ [] := by simpa using isName.nonempty
  have notDot : name.toList ≠ ['.'] := fun dot =>
    isName.notDot (String.toList_inj.mp dot)
  unfold endsInSlash
  rw [last]
  simp [nonempty, notDot]

theorem join_text_ne_empty (directory : Path) (isName : IsName name) :
    (directory.join name).text ≠ "" := by
  intro empty
  rcases join_text directory name with ⟨_, text⟩ | ⟨front, _, _, text⟩
  · exact isName.nonempty (text.symm.trans empty)
  · rw [empty] at text
    simp at text

theorem namesOf_intercalate (each : ∀ name ∈ names, IsName name) :
    namesOf (['/'].intercalate (names.map String.toList)) = names := by
  induction names with
  | nil => exact namesOf_nil
  | cons name rest ih =>
    obtain ⟨first, others⟩ := List.forall_mem_cons.mp each
    cases rest with
    | nil => simpa using first.namesOf
    | cons next rest =>
      have later := ih others
      rw [List.map_cons] at later
      rw [List.map_cons, List.map_cons, List.intercalate_cons_cons, List.append_assoc,
        List.singleton_append, namesOf_append, first.namesOf, later]
      rfl

theorem names_ofNames (absolute : Bool) (each : ∀ name ∈ names, IsName name) :
    (ofNames absolute names).names = names := by
  rw [names_eq, ofNames]
  cases absolute with
  | false => simp [namesOf_intercalate each]
  | true =>
    have root := namesOf_append [] (['/'].intercalate (names.map String.toList))
    rw [namesOf_nil, namesOf_intercalate each] at root
    simpa using root

theorem isAbsolute_ofNames (absolute : Bool) (each : ∀ name ∈ names, IsName name) :
    (ofNames absolute names).isAbsolute = absolute := by
  unfold isAbsolute ofNames
  cases absolute with
  | true => simp
  | false =>
    cases names with
    | nil => rfl
    | cons name rest =>
      have first := (List.forall_mem_cons.mp each).1
      obtain ⟨c, more, spelled⟩ := List.exists_cons_of_ne_nil
        (show name.toList ≠ [] by simpa using first.nonempty)
      have other : c ≠ '/' := by
        rintro rfl
        exact first.plain (spelled ▸ List.mem_cons_self)
      cases rest <;> simp [spelled, other]

/-- Names of a text, each behind a slash, are part of the text behind a slash. -/
theorem spelled_sublist {text : List Char} (part : names.Sublist (namesOf text)) :
    ((names.map String.toList).flatMap ('/' :: ·)).Sublist ('/' :: text) := by
  obtain ⟨_, _, whole⟩ := Text.pieces_eq_iff.mp (rfl : Text.pieces '/' text = _)
  rw [whole]
  have kept := (part.trans List.filter_sublist).map String.toList
  refine List.Sublist.flatMap ?_ _
  simpa [Function.comp_def] using kept

/-- Names of a path, put together again, are part of its text. -/
theorem ofNames_sublist (part : names.Sublist p.names) :
    (ofNames p.isAbsolute names).text.toList.Sublist p.text.toList := by
  rw [names_eq] at part
  cases absolute : p.isAbsolute with
  | false =>
    by_cases none : names = []
    · simp [none, ofNames]
    have spelled := spelled_sublist part
    rw [← Text.intercalate_eq_flatMap (by simpa using none)] at spelled
    simpa [ofNames] using List.cons_sublist_cons.mp spelled
  | true =>
    obtain ⟨rest, text⟩ : ∃ rest, p.text.toList = '/' :: rest :=
      List.head?_eq_some_iff.mp (of_decide_eq_true absolute)
    have root := namesOf_append [] rest
    rw [List.nil_append, namesOf_nil, List.nil_append] at root
    rw [text, root] at part
    rw [text]
    by_cases none : names = []
    · simp [none, ofNames]
    have spelled := spelled_sublist part
    rw [← Text.intercalate_eq_flatMap (by simpa using none)] at spelled
    simpa [ofNames] using spelled

theorem names_parent (p : Path) : p.parent.names = p.names.dropLast :=
  names_ofNames _ fun _ member => isName_of_mem_namesOf (List.dropLast_subset _ member)

theorem isAbsolute_parent (p : Path) : p.parent.isAbsolute = p.isAbsolute :=
  isAbsolute_ofNames _ fun _ member => isName_of_mem_namesOf (List.dropLast_subset _ member)

theorem parent_sublist (p : Path) : p.parent.text.toList.Sublist p.text.toList :=
  ofNames_sublist (List.dropLast_sublist _)

theorem size_le_of_sublist {part whole : List Char} (sublist : part.Sublist whole) :
    (String.ofList part).utf8ByteSize ≤ (String.ofList whole).utf8ByteSize := by
  induction sublist with
  | slnil => exact Nat.le_refl _
  | cons c _ ih =>
    rw [String.ofList_cons, String.utf8ByteSize_append]
    exact Nat.le_trans ih (Nat.le_add_left _ _)
  | cons_cons c _ ih =>
    rw [String.ofList_cons, String.ofList_cons, String.utf8ByteSize_append,
      String.utf8ByteSize_append]
    exact Nat.add_le_add_left ih _

/-- The parent of a path that can be looked up can be looked up. -/
theorem malformed?_parent (fine : FileTree.malformed? p = none) :
    FileTree.malformed? p.parent = none := by
  have part := parent_sublist p
  have shorter := size_le_of_sublist part
  rw [String.ofList_toList, String.ofList_toList] at shorter
  unfold FileTree.malformed? at fine ⊢
  split at fine
  · cases fine
  rename_i clean
  split at fine
  · cases fine
  rename_i short
  have kept : ¬p.parent.text.toList.contains '\x00' = true := by
    rw [List.contains_iff_mem] at clean ⊢
    exact fun member => clean (part.subset member)
  rw [if_neg kept, if_neg (Nat.not_lt.mpr (Nat.le_trans shorter (Nat.not_lt.mp short)))]

end FederatedRounds.Storage.Path
