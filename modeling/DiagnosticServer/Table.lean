/-!
# Finite tables

A table holds at most one value for each key. It is a list of pairs with distinct keys, so that its
size is the number of its keys; what it means is `get?`, and each operation is described by what
`get?` finds afterwards.
-/

namespace DiagnosticServer

/-- A finite map from keys to values. -/
structure Table (κ : Type) (ν : Type) where
  /-- The keys with their values, in no particular order. -/
  pairs : List (κ × ν)
  /-- No key stands twice. -/
  distinct : (pairs.map Prod.fst).Nodup

namespace Table

variable {κ ν : Type}

/-- The table without keys. -/
def empty : Table κ ν := ⟨[], List.nodup_nil⟩

/-- The number of keys. -/
def size (table : Table κ ν) : Nat := table.pairs.length

/-- The keys. -/
def keys (table : Table κ ν) : List κ := table.pairs.map Prod.fst

/-- The table with only the keys that pass a test. -/
def restrict (table : Table κ ν) (keep : κ → Bool) : Table κ ν where
  pairs := table.pairs.filter fun pair => keep pair.1
  distinct := table.distinct.sublist (List.filter_sublist.map Prod.fst)

variable [DecidableEq κ]

/-- The value that a list of pairs gives a key. -/
def find (key : κ) : List (κ × ν) → Option ν
  | [] => none
  | (other, value) :: rest => if key = other then some value else find key rest

/-- The value of a key. -/
def get? (table : Table κ ν) (key : κ) : Option ν := find key table.pairs

/-- Whether a key has a value. -/
def contains (table : Table κ ν) (key : κ) : Bool := (table.get? key).isSome

/-- The table without a key. -/
def erase (table : Table κ ν) (key : κ) : Table κ ν where
  pairs := table.pairs.filter fun pair => pair.1 ≠ key
  distinct := table.distinct.sublist (List.filter_sublist.map Prod.fst)

/-- The table with a new value for a key. -/
def insert (table : Table κ ν) (key : κ) (value : ν) : Table κ ν where
  pairs := (key, value) :: (table.erase key).pairs
  distinct := by
    rw [List.map_cons, List.nodup_cons]
    refine ⟨?_, (table.erase key).distinct⟩
    simp [erase]

@[simp]
theorem get?_empty (key : κ) : (empty : Table κ ν).get? key = none := rfl

/-- What a filter by key leaves to be found. -/
theorem find_filter_ne (pairs : List (κ × ν)) (key other : κ) :
    find other (pairs.filter fun pair => pair.1 ≠ key) =
      if other = key then none else find other pairs := by
  induction pairs with
  | nil => simp [find]
  | cons pair rest ih =>
    obtain ⟨k, v⟩ := pair
    by_cases hk : k = key <;> by_cases ho : other = k <;> by_cases h : other = key <;>
      simp_all [find]

/-- Erasing a key removes it and nothing else. -/
@[simp]
theorem get?_erase (table : Table κ ν) (key other : κ) :
    (table.erase key).get? other = if other = key then none else table.get? other :=
  find_filter_ne table.pairs key other

/-- Inserting a value changes the value of its key and no other. -/
@[simp]
theorem get?_insert (table : Table κ ν) (key other : κ) (value : ν) :
    (table.insert key value).get? other = if other = key then some value else table.get? other := by
  by_cases h : other = key
  · simp [get?, insert, find, h]
  · have erased := get?_erase table key other
    simp only [if_neg h] at erased ⊢
    rw [← erased]
    simp [get?, insert, find, h]

/-- A key that has a value is among the keys. -/
theorem mem_keys_of_get? {table : Table κ ν} {key : κ} {value : ν}
    (found : table.get? key = some value) : key ∈ table.keys := by
  unfold get? at found
  unfold keys
  generalize table.pairs = pairs at found
  induction pairs with
  | nil => cases found
  | cons pair rest ih =>
    obtain ⟨other, held⟩ := pair
    rw [find] at found
    split at found
    · rename_i same
      rw [same]
      exact List.mem_cons_self
    · exact List.mem_cons_of_mem _ (ih found)

/-- Inserting a value forgets what was there, so it may as well have been erased. -/
theorem insert_erase (table : Table κ ν) (key : κ) (value : ν) :
    (table.erase key).insert key value = table.insert key value := by
  simp [insert, erase, List.filter_filter]

end Table

end DiagnosticServer
