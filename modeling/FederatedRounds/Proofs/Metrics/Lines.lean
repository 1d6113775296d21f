import FederatedRounds.Metrics.LineProtocol
import FederatedRounds.Proofs.Number.Digits
import FederatedRounds.Proofs.Text.Pieces
import Mathlib.Algebra.Ring.Nat

/-! The lines of data points. There is one for each point as long as no name of a metric, and no id
of a participant, has a line break. Nothing else in a point has one, and none is escaped: each one
in an id makes one line more, and each one in the name of a metric two, since the name stands in the
measurement and in the field. -/
namespace FederatedRounds

namespace Text
variable {separator : Char}

/-- The lines of a text. A break at its end ends a line and starts none. -/
def lines (text : List Char) : List (List Char) :=
  let found := pieces '\n' text
  if found.getLast? = some [] then found.dropLast else found

theorem length_pieces (separator : Char) (text : List Char) :
    (pieces separator text).length = text.count separator + 1 := by
  induction text with
  | nil => rfl
  | cons c rest ih =>
    rw [pieces]
    by_cases same : c = separator
    · rw [if_pos same, List.length_cons, ih, same, List.count_cons_self]
    · obtain ⟨piece, others, cut⟩ := List.exists_cons_of_ne_nil (pieces_ne_nil separator rest)
      rw [cut] at ih
      rw [if_neg same, cut, List.count_cons_of_ne same, ← ih]
      rfl

theorem pieces_intercalate {texts : List (List Char)} (nonempty : texts ≠ []) :
    pieces separator ([separator].intercalate texts) = texts.flatMap (pieces separator) := by
  induction texts with
  | nil => exact absurd rfl nonempty
  | cons text rest ih =>
    cases rest with
    | nil => simp
    | cons next rest =>
      rw [List.intercalate_cons_cons, List.append_assoc, List.singleton_append, pieces_append,
        ih (List.cons_ne_nil _ _)]
      rfl

/-- The last piece is empty only where there is no character behind the last separator. -/
theorem getLast?_pieces_ne_nil {text : List Char} {c : Char} (ends : text.getLast? = some c)
    (other : c ≠ separator) : (pieces separator text).getLast? ≠ some [] := by
  intro empty
  obtain ⟨front, cut⟩ := List.getLast?_eq_some_iff.mp empty
  obtain ⟨_, _, spelled⟩ := pieces_eq_iff.mp cut
  have last := congrArg List.getLast? spelled
  rw [List.getLast?_cons, ends, List.flatMap_append, List.flatMap_singleton,
    List.getLast?_concat] at last
  exact other (Option.some.inj last)

end Text

/-- How many line breaks a text has. -/
def breaks (text : String) : Nat := text.toList.count '\n'

theorem breaks_append (a b : String) : breaks (a ++ b) = breaks a + breaks b := by
  rw [breaks, String.toList_append, List.count_append]
  rfl

theorem breaks_eq_zero_iff {text : String} : breaks text = 0 ↔ '\n' ∉ text.toList :=
  List.count_eq_zero

theorem Digit.break_not_mem_text (digits : List Digit) : '\n' ∉ Digit.text digits := by
  have each : ∀ d : Digit, d.char ≠ '\n' := by decide
  intro member
  obtain ⟨d, _, char⟩ := List.mem_map.mp member
  exact each d char

theorem breaks_natText (n : Nat) : breaks (natText n) = 0 := by
  rw [breaks_eq_zero_iff, natText, String.toList_ofList]
  exact Digit.break_not_mem_text _

theorem Decimal.breaks_positional (d : Decimal) : breaks d.positional = 0 := by
  rw [breaks_eq_zero_iff, positional, String.toList_ofList]
  have digits := Digit.break_not_mem_text
  split <;> split <;> simp [digits]

theorem Ieee.breaks_textWith {f : Format} {finiteText : Bool → Fin f.top → String}
    (each : ∀ negative code, breaks (finiteText negative code) = 0) (x : Ieee f) :
    breaks (x.textWith finiteText) = 0 := by
  cases x with
  | nan =>
    change breaks "NaN" = 0
    decide
  | infinite negative =>
    change breaks (if negative then "-inf" else "inf") = 0
    revert negative
    decide
  | finite negative code => exact each negative code

namespace Point

/-- What is put before the special characters is no line break. -/
theorem breaks_escape (special : List Char) (kept : '\n' ∉ special) (text : String) :
    breaks (escape special text) = breaks text := by
  rw [breaks, escape, String.toList_ofList, breaks]
  induction text.toList with
  | nil => rfl
  | cons c rest ih =>
    rw [List.flatMap_cons, List.count_append, ih, List.count_cons, Nat.add_comm]
    congr 1
    by_cases escaped : c ∈ special
    · have other : c ≠ '\n' := fun same => kept (same ▸ escaped)
      simp [escaped, other]
    · simp [escaped, List.count_singleton]

theorem breaks_text {f : Format} (x : Ieee f) : breaks x.text = 0 :=
  Ieee.breaks_textWith (fun _ _ => Decimal.breaks_positional _) x

theorem breaks_fixedText {f : Format} (places : Nat) (x : Ieee f) :
    breaks (x.fixedText places) = 0 :=
  Ieee.breaks_textWith (fun _ _ => Decimal.breaks_positional _) x

theorem breaks_intercalate {texts : List String} (each : ∀ text ∈ texts, breaks text = 0) :
    breaks (" ".intercalate texts) = 0 := by
  rw [breaks_eq_zero_iff, String.toList_intercalate]
  induction texts with
  | nil => exact List.not_mem_nil
  | cons text rest ih =>
    obtain ⟨first, others⟩ := List.forall_mem_cons.mp each
    rw [breaks_eq_zero_iff] at first
    cases rest with
    | nil => simpa using first
    | cons next rest =>
      have later := ih others
      simp only [List.map_cons, List.intercalate_cons_cons, List.mem_append, not_or] at later ⊢
      exact ⟨⟨first, by decide⟩, later⟩

/-- The values of a metric are on one line, whatever the tensor. -/
theorem breaks_fieldValue (t : Tensor Single) : breaks (FieldValue.line (fieldValue t)) = 0 := by
  unfold fieldValue
  split
  · exact breaks_text _
  · have elements : breaks (" ".intercalate (t.elements.map (Ieee.fixedText 8))) = 0 :=
      breaks_intercalate (List.forall_mem_map.mpr fun _ _ => breaks_fixedText _ _)
    have ends : breaks "\"" = 0 ∧ breaks "[" = 0 ∧ breaks "]" = 0 := by decide
    rw [FieldValue.line, breaks_append, breaks_append, breaks_escape _ (by decide), breaks_append,
      breaks_append, elements, ends.1, ends.2.1, ends.2.2]

/-- The line of a point has the line breaks of the id, and twice those of the name. -/
theorem breaks_line {p : Point} (plain : breaks (FieldValue.line p.value) = 0) :
    breaks p.line = breaks p.participant.text + 2 * breaks p.metric := by
  have fixed : breaks ",id=" = 0 ∧ breaks " " = 0 ∧ breaks "=" = 0 ∧
      breaks "participant.ai." = 0 := by
    decide
  obtain ⟨tag, blank, equals, area⟩ := fixed
  simp only [line, measurement, breaks_append, breaks_natText, plain, tag, blank, equals, area,
    breaks_escape [',', ' '] (by decide),
    breaks_escape ['\\', ',', ' ', '=', '"'] (by decide),
    breaks_escape [',', ' ', '='] (by decide)]
  omega

/-- The last character of a line is a digit of the instant. -/
theorem getLast?_line (p : Point) : ∃ d : Digit, p.line.toList.getLast? = some d.char := by
  have nonempty := Digit.spell_ne_nil p.time
  refine ⟨(Digit.spell p.time).getLast nonempty, ?_⟩
  rw [line, String.toList_append, natText, String.toList_ofList, List.getLast?_append, Digit.text,
    List.getLast?_map, List.getLast?_eq_some_getLast nonempty]
  rfl

theorem lines_eq_flatMap {points : List Point} (nonempty : points ≠ []) :
    Text.lines (lines points).toList = points.flatMap fun p => Text.pieces '\n' p.line.toList := by
  have cut : Text.pieces '\n' (lines points).toList =
      points.flatMap fun p => Text.pieces '\n' p.line.toList := by
    rw [lines, String.toList_intercalate, List.map_map]
    refine (Text.pieces_intercalate (by simpa using nonempty)).trans ?_
    rw [List.flatMap_map]
    rfl
  obtain ⟨front, p, rfl⟩ := List.eq_nil_or_concat' points |>.resolve_left nonempty
  obtain ⟨d, ends⟩ := p.getLast?_line
  have other : ∀ d : Digit, d.char ≠ '\n' := by decide
  have last := Text.getLast?_pieces_ne_nil ends (other d)
  have nonempty := Text.pieces_ne_nil '\n' p.line.toList
  rw [Text.lines, cut]
  refine if_neg ?_
  rw [List.flatMap_append, List.flatMap_singleton, List.getLast?_append,
    List.getLast?_eq_some_getLast nonempty, Option.some_or,
    ← List.getLast?_eq_some_getLast nonempty]
  exact last

theorem length_flatMap_pieces (points : List Point) :
    (points.flatMap fun p => Text.pieces '\n' p.line.toList).length =
      points.length + (points.map fun p => breaks p.line).sum := by
  induction points with
  | nil => rfl
  | cons p rest ih =>
    rw [List.flatMap_cons, List.length_append, ih, Text.length_pieces, List.length_cons,
      List.map_cons, List.sum_cons, breaks]
    omega

/-- There is a line for each point, and one more for each line break in one of theirs. -/
theorem length_lines (points : List Point) :
    (Text.lines (lines points).toList).length =
      points.length + (points.map fun p => breaks p.line).sum := by
  by_cases none : points = []
  · subst none
    rfl
  · rw [lines_eq_flatMap none, length_flatMap_pieces]

/-- The lines are those of the points when none of them has a line break. -/
theorem lines_eq_map {points : List Point} (unbroken : ∀ p ∈ points, breaks p.line = 0) :
    Text.lines (lines points).toList = points.map fun p => p.line.toList := by
  by_cases none : points = []
  · subst none
    rfl
  rw [lines_eq_flatMap none]
  clear none
  induction points with
  | nil => rfl
  | cons p rest ih =>
    obtain ⟨first, others⟩ := List.forall_mem_cons.mp unbroken
    have whole : Text.pieces '\n' p.line.toList = [p.line.toList] :=
      Text.pieces_eq_iff.mpr ⟨List.cons_ne_nil _ _,
        List.forall_mem_singleton.mpr (breaks_eq_zero_iff.mp first), by simp⟩
    rw [List.flatMap_cons, whole, ih others]
    rfl

variable {participant : ParticipantId} {start : Nat} {metrics : Metrics} {p : Point}

theorem length_ofEpochs (participant : ParticipantId) (start : Nat) (metric : String)
    (epochs : List (Tensor Single)) :
    (ofEpochs participant start metric epochs).length = epochs.length := by
  rw [ofEpochs, List.length_map, List.length_zipIdx]

theorem breaks_of_mem_ofEpochs {metric : String} {epochs : List (Tensor Single)}
    (member : p ∈ ofEpochs participant start metric epochs) :
    breaks p.line = breaks participant.text + 2 * breaks metric := by
  obtain ⟨⟨t, epoch⟩, _, rfl⟩ := List.mem_map.mp member
  exact breaks_line (breaks_fieldValue t)

/-- How many data points the metrics hold: one for each epoch of each metric. -/
def held (metrics : Metrics) : Nat := (metrics.map fun metric => metric.2.length).sum

/-- No metric that has points has a line break in its name, nor has the id then. -/
def Unbroken (participant : ParticipantId) (metrics : Metrics) : Prop :=
  ∀ metric ∈ metrics, metric.2 ≠ [] →
    '\n' ∉ metric.1.toList ∧ '\n' ∉ participant.text.toList

theorem length_ofMetrics (participant : ParticipantId) (start : Nat) (metrics : Metrics) :
    (ofMetrics participant start metrics).length = held metrics := by
  simp only [ofMetrics, List.length_flatMap, length_ofEpochs]
  rfl

theorem sum_breaks_ofEpochs (participant : ParticipantId) (start : Nat) (metric : String)
    (epochs : List (Tensor Single)) :
    ((ofEpochs participant start metric epochs).map fun p => breaks p.line).sum =
      epochs.length * (breaks participant.text + 2 * breaks metric) := by
  rw [List.map_congr_left fun p => breaks_of_mem_ofEpochs, List.map_const',
    List.sum_replicate_nat, length_ofEpochs]

theorem sum_breaks_ofMetrics (participant : ParticipantId) (start : Nat) (metrics : Metrics) :
    ((ofMetrics participant start metrics).map fun p => breaks p.line).sum =
      (metrics.map fun metric =>
        metric.2.length * (breaks participant.text + 2 * breaks metric.1)).sum := by
  induction metrics with
  | nil => rfl
  | cons metric rest ih =>
    rw [ofMetrics, List.flatMap_cons, List.map_append, List.sum_append, sum_breaks_ofEpochs,
      List.map_cons, List.sum_cons, ← ih]
    rfl

theorem sum_breaks_eq_zero_iff : (metrics.map fun metric =>
      metric.2.length * (breaks participant.text + 2 * breaks metric.1)).sum = 0 ↔
    Unbroken participant metrics := by
  rw [List.sum_eq_zero_iff_forall_eq_nat, List.forall_mem_map]
  refine forall₂_congr fun metric _ => ?_
  rw [Nat.mul_eq_zero, List.length_eq_zero_iff, or_iff_not_imp_left, Nat.add_eq_zero_iff,
    ← breaks_eq_zero_iff, ← breaks_eq_zero_iff]
  refine imp_congr_right fun _ => ?_
  omega

/-- Metrics make one point for each epoch of each of them. The text of their lines has a line for
each point, with one more for each line break in the id and two more for each in the name. So there
are as many lines as points, and they are those of the points, exactly when neither has one. -/
theorem lines_of_metrics (participant : ParticipantId) (start : Nat) (metrics : Metrics) :
    (ofMetrics participant start metrics).length = held metrics ∧
      (Text.lines (lines (ofMetrics participant start metrics)).toList).length = held metrics +
        (metrics.map fun metric =>
          metric.2.length * (breaks participant.text + 2 * breaks metric.1)).sum ∧
      ((Text.lines (lines (ofMetrics participant start metrics)).toList).length = held metrics ↔
        Unbroken participant metrics) ∧
      (Text.lines (lines (ofMetrics participant start metrics)).toList =
          (ofMetrics participant start metrics).map (fun p => p.line.toList) ↔
        Unbroken participant metrics) := by
  have length := length_lines (ofMetrics participant start metrics)
  rw [length_ofMetrics, sum_breaks_ofMetrics] at length
  have counted : (Text.lines (lines (ofMetrics participant start metrics)).toList).length =
      held metrics ↔ Unbroken participant metrics := by
    rw [length, Nat.add_eq_left, sum_breaks_eq_zero_iff]
  refine ⟨length_ofMetrics _ _ _, length, counted, fun same => ?_, fun unbroken => ?_⟩
  · rw [← counted, same, List.length_map, length_ofMetrics]
  · refine lines_eq_map ?_
    rw [← sum_breaks_eq_zero_iff, ← sum_breaks_ofMetrics participant start,
      List.sum_eq_zero_iff_forall_eq_nat, List.forall_mem_map] at unbroken
    exact unbroken

namespace Trial

def one : Tensor Single := ⟨[1], [.one]⟩

end Trial

/-- A line break in the name of a metric makes three lines of one point, and none of them is one. A
line break in an id makes a point of another measurement. -/
theorem line_break_splits_point :
    held [("a\nb", [Trial.one])] = 1 ∧
      Text.lines (lines (ofMetrics ⟨"p1"⟩ 5000 [("a\nb", [Trial.one])])).toList =
        ["participant.ai.a".toList, "b,id=p1 a".toList, "b=1 5000".toList] ∧
      Text.lines (lines (ofMetrics ⟨"p1\nother"⟩ 5000 [("loss", [Trial.one])])).toList =
        ["participant.ai.loss,id=p1".toList, "other loss=1 5000".toList] := by
  decide +kernel

end Point
end FederatedRounds
