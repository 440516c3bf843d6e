namespace Cadence

abbrev Keyed (α : Type) := List (String × α)

namespace Keyed

variable {α : Type}

def get? (key : String) (entries : Keyed α) : Option α := entries.lookup key

def insert (key : String) (value : α) : Keyed α → Keyed α
  | [] => [(key, value)]
  | (k, v) :: rest =>
    if key < k then (key, value) :: (k, v) :: rest
    else if key = k then (key, value) :: rest
    else (k, v) :: insert key value rest

theorem get?_cons (name key : String) (value : α) (rest : Keyed α) :
    get? name ((key, value) :: rest) = if name = key then some value else get? name rest := by
  by_cases same : name = key
  · simp [get?, same]
  · simp [get?, List.lookup_cons, beq_false_of_ne same, same]

theorem get?_insert (name key : String) (value : α) (entries : Keyed α) :
    get? name (insert key value entries) = if name = key then some value else get? name entries := by
  induction entries with
  | nil => exact get?_cons name key value []
  | cons entry rest later =>
    obtain ⟨k, v⟩ := entry
    rw [insert]
    split
    · exact get?_cons name key value _
    · split
      · rename_i _ same
        rw [get?_cons, get?_cons, same]
        split <;> rfl
      · rename_i _ other
        rw [get?_cons, get?_cons, later]
        by_cases here : name = k
        · have elsewhere : name ≠ key := fun same => other (same.symm.trans here)
          simp only [if_pos here, if_neg elsewhere]
        · simp only [if_neg here]

def erase (key : String) (entries : Keyed α) : Keyed α := entries.filter (·.1 != key)

def ofList (entries : List (String × α)) : Keyed α :=
  entries.foldl (fun sorted (k, v) => insert k v sorted) []

end Keyed

end Cadence
