/-!
# Tables

A table maps names to values and keeps the order in which the names were first entered.  Entering a
name again replaces its value and leaves its place, so no name is entered twice; a table carries
that with it.
-/

namespace StyleObjects

/-- Values by name, in the order in which the names were first entered. -/
@[ext]
structure Table (α : Type) where
  entries : List (String × α)
  distinct : (entries.map Prod.fst).Nodup
  deriving DecidableEq, Repr

namespace Table

variable {α : Type}

/-- The table without entries. -/
def empty : Table α := ⟨[], List.nodup_nil⟩

instance : EmptyCollection (Table α) := ⟨empty⟩

instance : Inhabited (Table α) := ⟨empty⟩

/-- The names, in order. -/
def keys (table : Table α) : List String :=
  table.entries.map Prod.fst

theorem nodup_keys (table : Table α) : table.keys.Nodup := table.distinct

/-- The values, in the order of their names. -/
def values (table : Table α) : List α :=
  table.entries.map Prod.snd

/-- The number of names. -/
def size (table : Table α) : Nat :=
  table.entries.length

/-- There are no entries. -/
def isEmpty (table : Table α) : Bool :=
  table.entries.isEmpty

/-- The value of a name. -/
def get? (table : Table α) (name : String) : Option α :=
  table.entries.lookup name

@[simp] theorem get?_empty (name : String) : (empty : Table α).get? name = none := rfl

/-- The name has a value. -/
def contains (table : Table α) (name : String) : Bool :=
  (table.get? name).isSome

/-- Enter a value in a list of entries. -/
def insertEntry (name : String) (value : α) : List (String × α) → List (String × α)
  | [] => [(name, value)]
  | entry :: entries =>
    if entry.1 = name then (name, value) :: entries else entry :: insertEntry name value entries

theorem lookup_insertEntry (name other : String) (value : α) (entries : List (String × α)) :
    (insertEntry name value entries).lookup other =
      if other = name then some value else entries.lookup other := by
  induction entries with
  | nil => grind [insertEntry]
  | cons entry entries ih =>
    obtain ⟨first, held⟩ := entry
    grind [insertEntry]

theorem map_fst_insertEntry (name : String) (value : α) (entries : List (String × α)) :
    (insertEntry name value entries).map Prod.fst =
      if name ∈ entries.map Prod.fst then entries.map Prod.fst
      else entries.map Prod.fst ++ [name] := by
  induction entries with
  | nil => simp [insertEntry]
  | cons entry entries ih =>
    by_cases here : entry.1 = name
    · simp [insertEntry, here]
    · have apart : ¬name = entry.1 := fun same => here same.symm
      by_cases member : name ∈ entries.map Prod.fst <;> simp_all [insertEntry]

theorem distinct_insertEntry {entries : List (String × α)}
    (distinct : (entries.map Prod.fst).Nodup) (name : String) (value : α) :
    ((insertEntry name value entries).map Prod.fst).Nodup := by
  rw [map_fst_insertEntry]
  split
  · exact distinct
  · next absent => grind [List.nodup_append]

/-- Enter a value under a name. -/
def insert (table : Table α) (name : String) (value : α) : Table α :=
  ⟨insertEntry name value table.entries, distinct_insertEntry table.distinct name value⟩

theorem get?_insert (table : Table α) (name other : String) (value : α) :
    (table.insert name value).get? other = if other = name then some value else table.get? other :=
  lookup_insertEntry name other value table.entries

theorem keys_insert (table : Table α) (name : String) (value : α) :
    (table.insert name value).keys =
      if name ∈ table.keys then table.keys else table.keys ++ [name] :=
  map_fst_insertEntry name value table.entries

/-- Enter the pairs of a list one after the other. -/
def insertAll (table : Table α) (pairs : List (String × α)) : Table α :=
  pairs.foldl (fun table pair => table.insert pair.1 pair.2) table

/-- The table of a list of pairs, of which the last with a name gives its value. -/
def ofList (pairs : List (String × α)) : Table α :=
  empty.insertAll pairs

/-- Enter all values of a second table. -/
def merge (table other : Table α) : Table α :=
  table.insertAll other.entries

/-- Change the value of a name, or enter the change of `initial` if it has none. -/
def alter (table : Table α) (name : String) (initial : α) (change : α → α) : Table α :=
  table.insert name (change ((table.get? name).getD initial))

theorem get?_alter (table : Table α) (name other : String) (initial : α) (change : α → α) :
    (table.alter name initial change).get? other =
      if other = name then some (change ((table.get? name).getD initial)) else table.get? other :=
  get?_insert table name other _

theorem map_fst_map {β : Type} (f : α → β) (entries : List (String × α)) :
    (entries.map fun entry => (entry.1, f entry.2)).map Prod.fst = entries.map Prod.fst := by
  simp [Function.comp_def]

/-- Apply a function to every value. -/
def map {β : Type} (f : α → β) (table : Table α) : Table β :=
  ⟨table.entries.map fun entry => (entry.1, f entry.2), by
    rw [map_fst_map]
    exact table.distinct⟩

end Table

end StyleObjects
