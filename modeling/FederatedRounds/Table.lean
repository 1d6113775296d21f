/-! Keys with a value each, in the order in which the keys were first set. -/
namespace FederatedRounds

abbrev Table (α β : Type) := List (α × β)

namespace Table
variable {α β : Type} [DecidableEq α]

def get? (key : α) : Table α β → Option β
  | [] => none
  | (other, value) :: rest => if other = key then some value else get? key rest

/-- Sets the value of a key; a value it had is replaced where it stands. -/
def set (key : α) (value : β) : Table α β → Table α β
  | [] => [(key, value)]
  | (other, old) :: rest =>
    if other = key then (key, value) :: rest else (other, old) :: set key value rest

theorem get?_set (key other : α) (value : β) (t : Table α β) :
    get? other (set key value t) = if key = other then some value else get? other t := by
  induction t with
  | nil => rfl
  | cons entry rest ih =>
    obtain ⟨first, old⟩ := entry
    by_cases found : first = key
    · subst found
      simp only [set, get?, if_true]
      split <;> rfl
    · simp only [set, found, if_false, get?, ih]
      grind

/-- A table of which each entry replaces those before it under the same key. -/
def ofEntries (entries : List (α × β)) : Table α β :=
  entries.foldl (fun t (key, value) => set key value t) []

end Table
end FederatedRounds
