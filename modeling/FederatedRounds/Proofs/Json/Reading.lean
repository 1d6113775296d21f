import FederatedRounds.Json.Printer
import FederatedRounds.Json.Reader
import Mathlib.Tactic.SplitIfs

/-! The reader accepts just the tokens of values. The tokens of a value, wherever they stand, are put
together to it; and what a reader holds, in its open frames too, says which tokens it has read. -/
namespace FederatedRounds.Json

namespace Reader

/-- The first item of an array is read like any other value. -/
theorem read_firstItem (item : Json) (stack : List Frame) :
    item.toTokens.foldlM step (.firstItem stack) =
      item.toTokens.foldlM step (.value (.array [] :: stack)) := by
  cases item <;> rfl

theorem read_append {first rest : List Token} {before between : Reader}
    (read : first.foldlM step before = some between) :
    (first ++ rest).foldlM step before = rest.foldlM step between := by
  rw [List.foldlM_append, read]
  rfl

mutual

/-- The tokens of a value are read as the value, and nothing else changes. -/
theorem read_toTokens (value : Json) (stack : List Frame) :
    value.toTokens.foldlM step (.value stack) = some (deliver value stack) := by
  cases value with
  | array items =>
    cases items with
    | nil => rfl
    | cons item others =>
      have first := (read_firstItem item stack).trans (read_toTokens item (.array [] :: stack))
      rw [toTokens, itemTokens, List.append_assoc, if_pos rfl, List.nil_append]
      exact (read_append first).trans (read_itemTokens others [item] stack)
  | object members =>
    cases members with
    | nil => rfl
    | cons member others =>
      obtain ⟨key, value⟩ := member
      have first := read_toTokens value (.object [] key :: stack)
      rw [toTokens, memberTokens, if_pos rfl, List.nil_append, List.cons_append, List.cons_append,
        List.cons_append, List.cons_append, List.append_assoc]
      exact (read_append first).trans (read_memberTokens others [(key, value)] stack)
  | _ => rfl

theorem read_itemTokens (items done : List Json) (stack : List Frame) :
    (itemTokens false items ++ [Token.closeArray]).foldlM step (.afterItem done stack) =
      some (deliver (.array (done.reverse ++ items)) stack) := by
  cases items with
  | nil =>
    rw [List.append_nil]
    rfl
  | cons item others =>
    have next := read_toTokens item (.array done :: stack)
    have rest := read_itemTokens others (item :: done) stack
    rw [List.reverse_cons, List.append_assoc] at rest
    rw [itemTokens, List.append_assoc, List.append_assoc]
    exact (read_append next).trans rest

theorem read_memberTokens (members done : List Member) (stack : List Frame) :
    (memberTokens false members ++ [Token.closeObject]).foldlM step (.afterMember done stack) =
      some (deliver (.object (done.reverse ++ members)) stack) := by
  cases members with
  | nil =>
    rw [List.append_nil]
    rfl
  | cons member others =>
    obtain ⟨key, value⟩ := member
    have next := read_toTokens value (.object done key :: stack)
    have rest := read_memberTokens others ((key, value) :: done) stack
    rw [List.reverse_cons, List.append_assoc] at rest
    rw [memberTokens, List.append_assoc, List.append_assoc]
    exact (read_append next).trans rest

end

/-! The tokens that were read to get to a state of the reader. -/

/-- The comma after what an open frame holds, if it holds something. -/
def separator {α : Type} (done : List α) : List Token := if done.isEmpty then [] else [.comma]

def openArray (done : List Json) : List Token := .openArray :: itemTokens true done.reverse

def openObject (done : List Member) : List Token := .openObject :: memberTokens true done.reverse

def stackTokens : List Frame → List Token
  | [] => []
  | .array done :: stack => stackTokens stack ++ openArray done ++ separator done
  | .object done key :: stack =>
    stackTokens stack ++ openObject done ++ separator done ++ [.string key, .colon]

def spent : Reader → List Token
  | value stack => stackTokens stack
  | firstItem stack => stackTokens stack ++ openArray []
  | firstKey stack => stackTokens stack ++ openObject []
  | nextKey done stack => stackTokens stack ++ openObject done ++ [.comma]
  | colon done key stack => stackTokens stack ++ openObject done ++ separator done ++ [.string key]
  | afterItem done stack => stackTokens stack ++ openArray done
  | afterMember done stack => stackTokens stack ++ openObject done
  | finished complete => complete.toTokens

/-- Nothing is expected behind a comma before the comma was read. -/
def Proper : Reader → Prop
  | nextKey done _ | afterMember done _ => done ≠ []
  | afterItem done _ => done ≠ []
  | _ => True

theorem itemTokens_concat (first : Bool) (items : List Json) (item : Json) :
    itemTokens first (items ++ [item]) = itemTokens first items ++
      (if first && items.isEmpty then [] else [.comma]) ++ item.toTokens := by
  induction items generalizing first with
  | nil => cases first <;> simp [itemTokens]
  | cons head rest ih =>
    simp [itemTokens, ih]

theorem memberTokens_concat (first : Bool) (members : List Member) (key : Text) (value : Json) :
    memberTokens first (members ++ [(key, value)]) = memberTokens first members ++
      (if first && members.isEmpty then [] else [.comma]) ++
        (.string key :: .colon :: value.toTokens) := by
  induction members generalizing first with
  | nil => cases first <;> simp [memberTokens]
  | cons head rest ih =>
    obtain ⟨name, other⟩ := head
    simp [memberTokens, ih]

theorem spent_deliver (value : Json) (stack : List Frame) :
    (deliver value stack).Proper ∧ (deliver value stack).spent = stackTokens stack ++ value.toTokens := by
  cases stack with
  | nil => exact ⟨trivial, rfl⟩
  | cons frame stack =>
    cases frame with
    | array done =>
      refine ⟨List.cons_ne_nil _ _, ?_⟩
      simp [deliver, spent, stackTokens, openArray, separator, itemTokens_concat]
    | object done key =>
      refine ⟨List.cons_ne_nil _ _, ?_⟩
      simp [deliver, spent, stackTokens, openObject, separator, memberTokens_concat]

theorem spent_startValue {stack : List Frame} {token : Token} {after : Reader}
    (read : startValue stack token = some after) :
    after.Proper ∧ after.spent = stackTokens stack ++ [token] := by
  cases token <;> cases read
  case openArray => exact ⟨trivial, rfl⟩
  case openObject => exact ⟨trivial, rfl⟩
  all_goals exact spent_deliver _ stack

theorem spent_step {before after : Reader} {token : Token} (proper : before.Proper)
    (read : before.step token = some after) :
    after.Proper ∧ after.spent = before.spent ++ [token] := by
  unfold step at read
  split at read
  case h_1 stack => exact spent_startValue read
  case h_2 stack =>
    cases read
    simpa [toTokens, itemTokens, spent, openArray] using spent_deliver (.array []) stack
  case h_3 stack _ => simpa [stackTokens, spent, separator] using spent_startValue read
  case h_4 stack =>
    cases read
    simpa [toTokens, memberTokens, spent, openObject] using spent_deliver (.object []) stack
  case h_5 stack key =>
    cases read
    exact ⟨trivial, by simp [spent, separator]⟩
  case h_6 done stack key =>
    cases read
    have filled : done ≠ [] := proper
    exact ⟨trivial, by simp [spent, separator, filled]⟩
  case h_7 done key stack =>
    cases read
    exact ⟨trivial, by simp [spent, stackTokens]⟩
  case h_8 done stack =>
    cases read
    have filled : done ≠ [] := proper
    exact ⟨trivial, by simp [spent, stackTokens, separator, filled]⟩
  case h_9 done stack =>
    cases read
    simpa [toTokens, spent, openArray] using spent_deliver (.array done.reverse) stack
  case h_10 done stack =>
    cases read
    exact ⟨proper, rfl⟩
  case h_11 done stack =>
    cases read
    simpa [toTokens, spent, openObject] using spent_deliver (.object done.reverse) stack
  case h_12 => cases read

theorem spent_run {tokens : List Token} {before after : Reader} (proper : before.Proper)
    (read : tokens.foldlM step before = some after) :
    after.Proper ∧ after.spent = before.spent ++ tokens := by
  induction tokens generalizing before with
  | nil =>
    cases read
    exact ⟨proper, (List.append_nil _).symm⟩
  | cons token rest ih =>
    rw [List.foldlM_cons, Option.bind_eq_bind, Option.bind_eq_some_iff] at read
    obtain ⟨between, first, others⟩ := read
    obtain ⟨proper, spent⟩ := spent_step proper first
    obtain ⟨proper, all⟩ := ih proper others
    refine ⟨proper, ?_⟩
    rw [all, spent, List.append_assoc, List.singleton_append]

end Reader

theorem ofTokens?_eq_some_iff {tokens : List Token} {value : Json} :
    ofTokens? tokens = some value ↔ tokens = value.toTokens := by
  constructor
  · intro read
    obtain ⟨reader, run, result⟩ := Option.bind_eq_some_iff.mp read
    have start : (Reader.value []).Proper := trivial
    obtain ⟨_, spent⟩ := Reader.spent_run start run
    cases reader with
    | finished complete =>
      cases result
      exact spent.symm
    | _ => cases result
  · rintro rfl
    rw [ofTokens?, Reader.read_toTokens]
    rfl

end FederatedRounds.Json
