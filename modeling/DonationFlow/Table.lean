/-!
# Finite tables

A table answers each key with the value last put there.  Main statement:
`get?_put`.
-/

namespace DonationFlow

/-- Entries with distinct keys, the one put last in front. -/
structure Table (α β : Type) where
  entries : List (α × β) := []
  deriving DecidableEq

namespace Table

variable {α β : Type} [DecidableEq α]

def empty : Table α β := {}

def get? (table : Table α β) (key : α) : Option β :=
  (table.entries.find? (·.1 = key)).map (·.2)

def put (table : Table α β) (key : α) (value : β) : Table α β :=
  ⟨(key, value) :: table.entries.filter (·.1 ≠ key)⟩

def erase (table : Table α β) (key : α) : Table α β := ⟨table.entries.filter (·.1 ≠ key)⟩

def contains (table : Table α β) (key : α) : Bool := (table.get? key).isSome

/-- The entries put one after the other into an empty table. -/
def ofList (entries : List (α × β)) : Table α β :=
  entries.foldl (fun table (key, value) => table.put key value) empty

def isEmpty (table : Table α β) : Bool := table.entries.isEmpty

@[simp] theorem get?_put_self (table : Table α β) (key : α) (value : β) :
    (table.put key value).get? key = some value := by
  simp [put, get?]

theorem get?_erase_of_ne (table : Table α β) {key other : α} (h : other ≠ key) :
    (table.erase key).get? other = table.get? other := by
  obtain ⟨entries⟩ := table
  simp only [erase, get?]
  congr 1
  induction entries with
  | nil => rfl
  | cons entry entries ih =>
    by_cases hkey : entry.1 = key
    · have hother : ¬entry.1 = other := fun heq => h (heq.symm.trans hkey)
      simp_all
    · by_cases hother : entry.1 = other <;> simp_all

theorem get?_put_of_ne (table : Table α β) {key other : α} (value : β) (h : other ≠ key) :
    (table.put key value).get? other = table.get? other := by
  have : decide (key = other) = false := decide_eq_false fun heq => h heq.symm
  simp only [put, get?, List.find?_cons, this]
  exact get?_erase_of_ne table h

theorem get?_put (table : Table α β) (key other : α) (value : β) :
    (table.put key value).get? other = if other = key then some value else table.get? other := by
  by_cases h : other = key
  · subst h; simp
  · simp [h, get?_put_of_ne table value h]

end Table

end DonationFlow
