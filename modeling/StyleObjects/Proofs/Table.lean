import Mathlib.Data.List.Basic
import StyleObjects.Table

/-!
# Laws of tables

A name is a key of a table if and only if it has a value.  Entering names keeps the keys apart, and
new keys come last, in the order in which they are first entered.  Merging is associative: a table
that has been extended can be merged as a whole or piece by piece, with the same order of keys.
-/

namespace StyleObjects.Table

variable {α : Type}

/-! ## Keys -/

theorem lookup_isSome_iff (name : String) (entries : List (String × α)) :
    (entries.lookup name).isSome = true ↔ name ∈ entries.map Prod.fst := by
  induction entries with
  | nil => simp
  | cons entry entries ih =>
      rcases entry with ⟨first, value⟩
      rw [List.map_cons, List.mem_cons, List.lookup_cons, ← ih]
      by_cases same : name = first
      · simp [same]
      · simp [same, beq_false_of_ne same]

theorem contains_iff (table : Table α) (name : String) :
    table.contains name = true ↔ name ∈ table.keys :=
  lookup_isSome_iff name table.entries

theorem get?_eq_none_iff {table : Table α} {name : String} :
    table.get? name = none ↔ name ∉ table.keys := by
  rw [← contains_iff, contains, Option.not_isSome_iff_eq_none]

theorem eq_empty_iff {table : Table α} : table = empty ↔ table.keys = [] := by
  rw [Table.ext_iff, empty, keys, List.map_eq_nil_iff]

theorem contains_insert (table : Table α) (name other : String) (value : α) :
    (table.insert name value).contains other = (decide (other = name) || table.contains other) := by
  by_cases same : other = name <;> simp [contains, get?_insert, same]

/-- The keys of a list after those of another; keys that are there already stay where they are. -/
def appendKeys (keys names : List String) : List String :=
  names.foldl (fun keys name => if name ∈ keys then keys else keys ++ [name]) keys

theorem appendKeys_append (keys names others : List String) :
    appendKeys keys (names ++ others) = appendKeys (appendKeys keys names) others :=
  List.foldl_append

theorem appendKeys_cons (keys : List String) (name : String) (names : List String) :
    appendKeys keys (name :: names) = appendKeys (appendKeys keys [name]) names := rfl

theorem appendKeys_of_mem {keys : List String} {name : String} (member : name ∈ keys) :
    appendKeys keys [name] = keys := by
  simp [appendKeys, member]

theorem mem_appendKeys {keys names : List String} {name : String} :
    name ∈ appendKeys keys names ↔ name ∈ keys ∨ name ∈ names := by
  induction names generalizing keys with
  | nil => simp [appendKeys]
  | cons first names ih =>
      rw [appendKeys_cons, ih]
      by_cases member : first ∈ keys
      · rw [appendKeys_of_mem member, List.mem_cons]
        constructor
        · intro found
          rcases found with inside | inside
          · exact .inl inside
          · exact .inr (.inr inside)
        · intro found
          rcases found with inside | rfl | inside
          · exact .inl inside
          · exact .inl member
          · exact .inr inside
      · simp [appendKeys, member, or_assoc]

/-- A name that is entered any number of times is entered once. -/
theorem appendKeys_of_forall_eq {names : List String} {name : String}
    (same : ∀ other ∈ names, other = name) (entered : names ≠ []) (keys : List String) :
    appendKeys keys names = appendKeys keys [name] := by
  induction names generalizing keys with
  | nil => exact absurd rfl entered
  | cons first names ih =>
      rw [List.forall_mem_cons] at same
      rcases same with ⟨rfl, others⟩
      rw [appendKeys_cons]
      cases names with
      | nil => rfl
      | cons second names =>
          rw [ih others (List.cons_ne_nil second names)]
          exact appendKeys_of_mem (mem_appendKeys.mpr (.inr (List.mem_singleton_self first)))

theorem map_appendKeys {image : String → String}
    (injective : ∀ left right, image left = image right → left = right)
    (keys names : List String) :
    (appendKeys keys names).map image = appendKeys (keys.map image) (names.map image) := by
  induction names generalizing keys with
  | nil => rfl
  | cons name names ih =>
      have here : image name ∈ keys.map image ↔ name ∈ keys := by
        constructor
        · intro member
          rcases List.mem_map.mp member with ⟨other, inside, same⟩
          exact injective other name same ▸ inside
        · exact List.mem_map_of_mem
      simp only [appendKeys, List.foldl_cons, List.map_cons] at ih ⊢
      rw [ih]
      by_cases member : name ∈ keys <;> simp [member, here]

theorem keys_insert_eq (table : Table α) (name : String) (value : α) :
    (table.insert name value).keys = appendKeys table.keys [name] :=
  keys_insert table name value

theorem keys_alter (table : Table α) (name : String) (initial : α) (change : α → α) :
    (table.alter name initial change).keys = appendKeys table.keys [name] :=
  keys_insert_eq table name _

/-- Keys that are all apart are entered as they are. -/
theorem appendKeys_of_nodup {keys names : List String} (apart : (keys ++ names).Nodup) :
    appendKeys keys names = keys ++ names := by
  induction names generalizing keys with
  | nil => simp [appendKeys]
  | cons name names ih =>
      have absent : name ∉ keys := by
        intro member
        exact (List.nodup_append.mp apart).2.2 name member name List.mem_cons_self rfl
      have entered : appendKeys keys [name] = keys ++ [name] := by simp [appendKeys, absent]
      rw [appendKeys_cons, entered, ih (by simpa using apart), List.append_assoc,
        List.singleton_append]

theorem keys_insertAll (table : Table α) (pairs : List (String × α)) :
    (table.insertAll pairs).keys = appendKeys table.keys (pairs.map Prod.fst) := by
  induction pairs generalizing table with
  | nil => rfl
  | cons pair pairs ih =>
      rw [List.map_cons, appendKeys_cons, ← keys_insert_eq table pair.1 pair.2]
      exact ih (table.insert pair.1 pair.2)

/-! ## First occurrences -/

/-- Keys after those of another list are those that are not there yet, where they first stand. -/
theorem appendKeys_eq_append (keys names : List String) :
    appendKeys keys names = keys ++ (names.filter (· ∉ keys)).eraseDups := by
  induction names generalizing keys with
  | nil => simp [appendKeys]
  | cons name names ih =>
      rw [appendKeys_cons, ih]
      by_cases member : name ∈ keys
      · simp [appendKeys_of_mem member, member]
      · have others : names.filter (· ∉ keys ++ [name]) =
            (names.filter (· ∉ keys)).filter fun other => !other == name := by
          rw [List.filter_filter]
          apply List.filter_congr
          intro other _
          by_cases same : other = name <;> simp [same]
        have entered : appendKeys keys [name] = keys ++ [name] := by simp [appendKeys, member]
        rw [entered, List.filter_cons_of_pos (by simpa using member), List.eraseDups_cons, others,
          List.append_assoc, List.singleton_append]

theorem appendKeys_nil (names : List String) : appendKeys [] names = names.eraseDups := by
  rw [appendKeys_eq_append, List.nil_append, List.filter_eq_self.mpr (by simp)]

/-- Lists that enter the same keys one by one enter the same keys. -/
theorem appendKeys_flatMap {items : List α} {image other : α → List String}
    (same : ∀ item ∈ items, ∀ keys, appendKeys keys (image item) = appendKeys keys (other item))
    (keys : List String) :
    appendKeys keys (items.flatMap image) = appendKeys keys (items.flatMap other) := by
  induction items generalizing keys with
  | nil => rfl
  | cons item items ih =>
      rw [List.forall_mem_cons] at same
      rw [List.flatMap_cons, List.flatMap_cons, appendKeys_append, appendKeys_append, same.1,
        ih same.2]

/-! ## Entering a name twice -/

@[simp] theorem insertEntry_insertEntry_self (name : String) (old new : α)
    (entries : List (String × α)) :
    insertEntry name new (insertEntry name old entries) = insertEntry name new entries := by
  induction entries with
  | nil => simp [insertEntry]
  | cons entry entries ih => by_cases same : entry.1 = name <;> simp [insertEntry, same, ih]

@[simp] theorem insert_insert_self (table : Table α) (name : String) (old new : α) :
    (table.insert name old).insert name new = table.insert name new :=
  Table.ext (insertEntry_insertEntry_self name old new table.entries)

theorem alter_alter (table : Table α) (name : String) (initial : α) (first second : α → α) :
    (table.alter name initial first).alter name initial second =
      table.alter name initial (second ∘ first) := by
  simp only [alter, get?_insert, ↓reduceIte, Option.getD_some, insert_insert_self,
    Function.comp_apply]

theorem insertEntry_comm {entries : List (String × α)} {name other : String}
    (member : name ∈ entries.map Prod.fst) (apart : other ≠ name) (value added : α) :
    insertEntry name value (insertEntry other added entries) =
      insertEntry other added (insertEntry name value entries) := by
  induction entries with
  | nil => simp at member
  | cons entry entries ih =>
      by_cases here : entry.1 = name
      · simp [insertEntry, here, Ne.symm apart]
      · have within : name ∈ entries.map Prod.fst := by
          rw [List.map_cons, List.mem_cons] at member
          exact member.resolve_left (Ne.symm here)
        by_cases there : entry.1 = other
        · simp [insertEntry, there, apart]
        · simp [insertEntry, here, there, ih within]

/-- Names can be entered in either order if one of them is there already. -/
theorem insert_comm {table : Table α} {name other : String} (member : name ∈ table.keys)
    (apart : other ≠ name) (value added : α) :
    (table.insert other added).insert name value =
      (table.insert name value).insert other added :=
  Table.ext (insertEntry_comm member apart value added)

/-- A new name is entered last. -/
theorem insertEntry_of_notMem {entries : List (String × α)} {name : String}
    (absent : name ∉ entries.map Prod.fst) (value : α) :
    insertEntry name value entries = entries ++ [(name, value)] := by
  induction entries with
  | nil => rfl
  | cons entry entries ih =>
      rw [List.map_cons, List.mem_cons, not_or] at absent
      rw [insertEntry, if_neg (Ne.symm absent.1), ih absent.2, List.cons_append]

theorem entries_insert_of_notMem {table : Table α} {name : String} (absent : name ∉ table.keys)
    (value : α) : (table.insert name value).entries = table.entries ++ [(name, value)] :=
  insertEntry_of_notMem absent value

/-! ## Merging -/

theorem insertAll_append (table : Table α) (pairs others : List (String × α)) :
    table.insertAll (pairs ++ others) = (table.insertAll pairs).insertAll others :=
  List.foldl_append

/-- A name that is there already can be entered before pairs with other names or after them. -/
theorem insertAll_insert {table : Table α} {name : String} (member : name ∈ table.keys) (value : α)
    {pairs : List (String × α)} (apart : name ∉ pairs.map Prod.fst) :
    (table.insertAll pairs).insert name value = (table.insert name value).insertAll pairs := by
  induction pairs generalizing table with
  | nil => rfl
  | cons pair pairs ih =>
      simp only [List.map_cons, List.mem_cons, not_or] at apart
      have kept : name ∈ (table.insert pair.1 pair.2).keys := by
        rw [keys_insert_eq, mem_appendKeys]
        exact .inl member
      have swapped := insert_comm member (Ne.symm apart.1) value pair.2
      calc ((table.insert pair.1 pair.2).insertAll pairs).insert name value
          = ((table.insert pair.1 pair.2).insert name value).insertAll pairs := ih kept apart.2
        _ = ((table.insert name value).insert pair.1 pair.2).insertAll pairs := by rw [swapped]

/-- Entering pairs, among which a name is entered, or entering the pairs and then the name. -/
theorem insertAll_insertEntry (table : Table α) {pairs : List (String × α)}
    (distinct : (pairs.map Prod.fst).Nodup) (name : String) (value : α) :
    table.insertAll (insertEntry name value pairs) =
      (table.insertAll pairs).insert name value := by
  induction pairs generalizing table with
  | nil => rfl
  | cons pair pairs ih =>
      rw [List.map_cons, List.nodup_cons] at distinct
      by_cases here : pair.1 = name
      · have absent : name ∉ pairs.map Prod.fst := here ▸ distinct.1
        have entered : name ∈ (table.insert name pair.2).keys := by
          rw [keys_insert_eq, mem_appendKeys]
          exact .inr (List.mem_singleton_self name)
        have moved := insertAll_insert entered value absent
        rw [insert_insert_self] at moved
        rw [insertEntry, if_pos here, ← here] at *
        exact moved.symm
      · rw [insertEntry, if_neg here]
        exact ih (table.insert pair.1 pair.2) distinct.2

/-- Entering a name in a table and merging it, or merging the table and entering the name. -/
theorem merge_insert (table other : Table α) (name : String) (value : α) :
    table.merge (other.insert name value) = (table.merge other).insert name value :=
  insertAll_insertEntry table other.distinct name value

theorem merge_insertAll (table other : Table α) (pairs : List (String × α)) :
    table.merge (other.insertAll pairs) = (table.merge other).insertAll pairs := by
  induction pairs generalizing other with
  | nil => rfl
  | cons pair pairs ih =>
      have first := merge_insert table other pair.1 pair.2
      have others := ih (other.insert pair.1 pair.2)
      rw [first] at others
      exact others

/-- Merging is associative. -/
theorem merge_merge (table other last : Table α) :
    table.merge (other.merge last) = (table.merge other).merge last :=
  merge_insertAll table other last.entries

/-! ## Values after merging -/

theorem get?_insertAll_congr {table other : Table α} {name : String}
    (same : table.get? name = other.get? name) (pairs : List (String × α)) :
    (table.insertAll pairs).get? name = (other.insertAll pairs).get? name := by
  induction pairs generalizing table other with
  | nil => exact same
  | cons pair pairs ih =>
      apply ih
      rw [get?_insert, get?_insert, same]

/-- Of the values that are entered under a name, the last one stays. -/
theorem get?_insertAll_reverse (table : Table α) (pairs : List (String × α)) (name : String) :
    (table.insertAll pairs).get? name = (pairs.reverse.lookup name).or (table.get? name) := by
  induction pairs generalizing table with
  | nil => rfl
  | cons pair pairs ih =>
      rcases pair with ⟨first, value⟩
      have others : (table.insertAll ((first, value) :: pairs)).get? name =
          (pairs.reverse.lookup name).or ((table.insert first value).get? name) := ih _
      rw [others, get?_insert, List.reverse_cons, List.lookup_append, List.lookup_cons]
      by_cases same : name = first
      · cases pairs.reverse.lookup name <;> simp [same]
      · simp [same, beq_false_of_ne same]

theorem keys_ofList (pairs : List (String × α)) :
    (ofList pairs).keys = (pairs.map Prod.fst).eraseDups := by
  rw [ofList, keys_insertAll, ← appendKeys_nil]
  rfl

theorem get?_ofList (pairs : List (String × α)) (name : String) :
    (ofList pairs).get? name = pairs.reverse.lookup name := by
  rw [ofList, get?_insertAll_reverse, get?_empty, Option.or_none]

theorem mem_of_get?_ofList {pairs : List (String × α)} {name : String} {value : α}
    (held : (ofList pairs).get? name = some value) : (name, value) ∈ pairs := by
  rw [get?_ofList] at held
  obtain ⟨others, rest, split, -⟩ := List.lookup_eq_some_iff.mp held
  rw [← List.mem_reverse, split]
  exact List.mem_append_right others List.mem_cons_self

/-- Where every value is changed in one way, so is the value of a name. -/
theorem get?_ofList_map {β : Type} (change : α → β) (pairs : List (String × α)) (name : String) :
    (ofList (pairs.map fun (called, value) => (called, change value))).get? name =
      ((ofList pairs).get? name).map change := by
  rw [get?_ofList, get?_ofList, ← List.map_reverse]
  induction pairs.reverse with
  | nil => rfl
  | cons pair others ih =>
      rw [List.map_cons, List.lookup_cons, List.lookup_cons, ih]
      by_cases same : name = pair.1
      · simp [same]
      · simp [beq_false_of_ne same]

theorem get?_insertAll (table : Table α) {pairs : List (String × α)}
    (distinct : (pairs.map Prod.fst).Nodup) (name : String) :
    (table.insertAll pairs).get? name = (pairs.lookup name).or (table.get? name) := by
  induction pairs generalizing table with
  | nil => rfl
  | cons pair pairs ih =>
      rcases pair with ⟨first, value⟩
      rw [List.map_cons, List.nodup_cons] at distinct
      have others : (table.insertAll ((first, value) :: pairs)).get? name =
          (pairs.lookup name).or ((table.insert first value).get? name) := ih _ distinct.2
      rw [others, get?_insert, List.lookup_cons]
      by_cases same : name = first
      · subst same
        have absent : pairs.lookup name = none := by
          rw [← Option.not_isSome_iff_eq_none, lookup_isSome_iff]
          exact distinct.1
        simp [absent]
      · simp [same, beq_false_of_ne same]

/-- A name that is entered with one value only has that value. -/
theorem get?_insertAll_of_agree {table : Table α} {pairs : List (String × α)} {name : String}
    {value : α} (agree : ∀ other, (name, other) ∈ pairs → other = value)
    (entered : table.get? name = some value ∨ (name, value) ∈ pairs) :
    (table.insertAll pairs).get? name = some value := by
  induction pairs generalizing table with
  | nil => exact entered.resolve_right List.not_mem_nil
  | cons pair pairs ih =>
      apply ih fun other member => agree other (List.mem_cons_of_mem pair member)
      rw [get?_insert]
      by_cases same : name = pair.1
      · rw [if_pos same, agree pair.2 (by simp [same])]
        exact .inl rfl
      · rw [if_neg same]
        rcases entered with held | member
        · exact .inl held
        · rcases List.mem_cons.mp member with rfl | member
          · exact absurd rfl same
          · exact .inr member

theorem lookup_of_mem {entries : List (String × α)} (distinct : (entries.map Prod.fst).Nodup)
    {entry : String × α} (member : entry ∈ entries) : entries.lookup entry.1 = some entry.2 := by
  induction entries with
  | nil => simp at member
  | cons first entries ih =>
      rw [List.map_cons, List.nodup_cons] at distinct
      rcases List.mem_cons.mp member with rfl | member
      · rw [List.lookup_cons_self]
      · have different : entry.1 ≠ first.1 := by
          intro same
          exact distinct.1 (same ▸ List.mem_map_of_mem member)
        rw [List.lookup_cons, beq_false_of_ne different]
        exact ih distinct.2 member

/-- An entry of a table is what its name has. -/
theorem get?_of_mem {table : Table α} {entry : String × α} (member : entry ∈ table.entries) :
    table.get? entry.1 = some entry.2 :=
  lookup_of_mem table.distinct member

/-! ## Values of changed entries -/

theorem lookup_reverse {pairs : List (String × α)}
    (distinct : (pairs.map Prod.fst).Nodup) (name : String) :
    pairs.reverse.lookup name = pairs.lookup name := by
  have entered := get?_insertAll empty distinct name
  rw [get?_insertAll_reverse, get?_empty, Option.or_none, Option.or_none] at entered
  exact entered

theorem lookup_map {β : Type} (image : α → β) (entries : List (String × α)) (name : String) :
    (entries.map fun entry => (entry.1, image entry.2)).lookup name =
      (entries.lookup name).map image := by
  induction entries with
  | nil => rfl
  | cons entry entries ih =>
      rw [List.map_cons, List.lookup_cons, List.lookup_cons, ih]
      by_cases same : name = entry.1
      · simp [same]
      · simp [beq_false_of_ne same]

theorem get?_map {β : Type} (image : α → β) (table : Table α) (name : String) :
    (table.map image).get? name = (table.get? name).map image :=
  lookup_map image table.entries name

theorem lookup_singleton (key name : String) (value : α) :
    [(key, value)].lookup name = if name = key then some value else none := by
  by_cases same : name = key
  · simp [same]
  · simp [List.lookup_cons, beq_false_of_ne same, same]

/-- The last of the entries with a name is the only one. -/
theorem lookup_reverse_entries (table : Table α) (name : String) :
    table.entries.reverse.lookup name = table.get? name :=
  lookup_reverse table.distinct name

/-! ## Tables with the same keys -/

/-- The entries whose keys are chosen. -/
def filter (keep : String → Bool) (table : Table α) : Table α :=
  ⟨table.entries.filter (keep ·.1), table.distinct.sublist (List.filter_sublist.map Prod.fst)⟩

theorem filter_appendKeys (keep : String → Bool) (keys names : List String) :
    (appendKeys keys names).filter keep =
      appendKeys (keys.filter keep) (names.filter keep) := by
  induction names generalizing keys with
  | nil => rfl
  | cons name names ih =>
      rw [appendKeys_cons, ih]
      cases kept : keep name with
      | true =>
          rw [List.filter_cons_of_pos kept, appendKeys_cons]
          by_cases member : name ∈ keys <;> simp [appendKeys, member, kept]
      | false =>
          rw [List.filter_cons_of_neg (by simp [kept])]
          by_cases member : name ∈ keys <;> simp [appendKeys, member, kept]

/-- The entries of a table are its keys with what they have. -/
theorem entries_eq_filterMap (table : Table α) :
    table.entries = table.keys.filterMap fun name => (table.get? name).map (name, ·) := by
  have held : ∀ entry ∈ table.entries,
      (table.get? entry.1).map (entry.1, ·) = some entry := by
    intro entry member
    rw [get?_of_mem member]
    rfl
  rw [keys, List.filterMap_map]
  symm
  exact (List.filterMap_congr held).trans List.filterMap_some

/-- Tables with the same keys, in the same order, and with the same values are the same. -/
theorem ext_get? {table other : Table α} (keys : table.keys = other.keys)
    (values : ∀ name, table.get? name = other.get? name) : table = other := by
  apply Table.ext
  rw [entries_eq_filterMap table, entries_eq_filterMap other, keys, funext values]

/-- Nothing changes where a name is given the value that it has. -/
theorem insert_self {table : Table α} {name : String} {value : α}
    (held : table.get? name = some value) : table.insert name value = table := by
  have member : name ∈ table.keys := by
    rw [← contains_iff, contains, held]
    rfl
  apply ext_get?
  · rw [keys_insert, if_pos member]
  · intro other
    rw [get?_insert]
    split
    · next same => rw [same, held]
    · rfl

theorem alter_id {table : Table α} {name : String} {value : α}
    (held : table.get? name = some value) (initial : α) : table.alter name initial id = table := by
  rw [alter, held]
  exact insert_self held

/-- A table whose keys are those of another that are chosen, with the same values, is a part of
that table. -/
theorem eq_filter {table part : Table α} {keep : String → Bool}
    (keys : part.keys = table.keys.filter keep)
    (values : ∀ name, keep name = true → part.get? name = table.get? name) :
    part = table.filter keep := by
  apply Table.ext
  change part.entries = table.entries.filter (keep ·.1)
  rw [entries_eq_filterMap part, keys, entries_eq_filterMap table, List.filterMap_filter,
    List.filter_filterMap]
  apply List.filterMap_congr
  intro name _
  cases kept : keep name with
  | true =>
      rw [if_pos rfl, values name kept]
      cases table.get? name <;> simp [Option.filter, kept]
  | false => cases table.get? name <;> simp [Option.filter, kept]

theorem filter_true (table : Table α) : table.filter (fun _ => true) = table := by
  cases table
  simp [filter]

/-- Whether an empty table is dropped before keys are chosen does not matter if what is left empty is
dropped after that. -/
theorem filter_map_filter (keep : String → Bool) (table : Table α) :
    (((some table).filter (!·.isEmpty)).map (·.filter keep)).filter (!·.isEmpty) =
      (some (table.filter keep)).filter (!·.isEmpty) := by
  rcases table with ⟨entries, distinct⟩
  cases entries <;> rfl

/-- After merging, the values of the merged table come first. -/
theorem get?_merge (table other : Table α) (name : String) :
    (table.merge other).get? name = (other.get? name).or (table.get? name) :=
  get?_insertAll table other.distinct name

/-- Merging leaves the values of a second table if and only if it has all keys of the first. -/
theorem get?_merge_eq_iff {table other : Table α} :
    (∀ key, (table.merge other).get? key = other.get? key) ↔
      ∀ key ∈ table.keys, key ∈ other.keys := by
  refine forall_congr' fun key => ?_
  rw [get?_merge]
  by_cases member : key ∈ other.keys
  · cases held : other.get? key with
    | none => exact absurd member (get?_eq_none_iff.mp held)
    | some value => simp [member]
  · rw [get?_eq_none_iff.mpr member, Option.none_or, get?_eq_none_iff]
    exact ⟨fun absent entered => absurd entered absent, fun entered own => member (entered own)⟩

theorem empty_merge (other : Table α) : empty.merge other = other := by
  apply ext_get?
  · rw [merge, keys_insertAll]
    exact appendKeys_of_nodup other.distinct
  · intro name
    rw [get?_merge, get?_empty, Option.or_none]

/-- Pairs whose names are apart are the entries of their table. -/
theorem ofList_eq {pairs : List (String × α)} (distinct : (pairs.map Prod.fst).Nodup) :
    ofList pairs = ⟨pairs, distinct⟩ :=
  empty_merge ⟨pairs, distinct⟩

theorem ofList_entries (table : Table α) : ofList table.entries = table :=
  empty_merge table

/-! ## What holds of all values -/

section Every

variable {holds : α → Prop}

/-- Something holds of all values. -/
def Every (holds : α → Prop) (table : Table α) : Prop :=
  ∀ entry ∈ table.entries, holds entry.2

theorem every_empty : (empty : Table α).Every holds := by
  intro entry member
  cases member

theorem forall_mem_insertEntry {entries : List (String × α)}
    (every : ∀ entry ∈ entries, holds entry.2) (name : String) {value : α} (known : holds value) :
    ∀ entry ∈ insertEntry name value entries, holds entry.2 := by
  induction entries with
  | nil => simpa [insertEntry] using known
  | cons first entries ih =>
      rw [List.forall_mem_cons] at every
      rw [insertEntry]
      split
      · exact List.forall_mem_cons.mpr ⟨known, every.2⟩
      · exact List.forall_mem_cons.mpr ⟨every.1, ih every.2⟩

theorem Every.insert {table : Table α} (every : table.Every holds) (name : String) {value : α}
    (known : holds value) : (table.insert name value).Every holds :=
  forall_mem_insertEntry every name known

theorem Every.insertAll {table : Table α} (every : table.Every holds)
    {pairs : List (String × α)} (known : ∀ pair ∈ pairs, holds pair.2) :
    (table.insertAll pairs).Every holds := by
  induction pairs generalizing table with
  | nil => exact every
  | cons pair pairs ih =>
      rw [List.forall_mem_cons] at known
      exact ih (every.insert pair.1 known.1) known.2

theorem every_ofList {pairs : List (String × α)} (known : ∀ pair ∈ pairs, holds pair.2) :
    (ofList pairs).Every holds :=
  every_empty.insertAll known

theorem Every.merge {table other : Table α} (every : table.Every holds)
    (others : other.Every holds) : (table.merge other).Every holds :=
  every.insertAll others

theorem Every.get? {table : Table α} (every : table.Every holds) {name : String} {value : α}
    (held : table.get? name = some value) : holds value := by
  obtain ⟨others, rest, split, -⟩ := List.lookup_eq_some_iff.mp held
  exact every (name, value) (split ▸ List.mem_append_right others List.mem_cons_self)

theorem Every.alter {table : Table α} (every : table.Every holds) (name : String) {initial : α}
    (known : holds initial) {change : α → α} (kept : ∀ value, holds value → holds (change value)) :
    (table.alter name initial change).Every holds := by
  apply every.insert
  apply kept
  cases held : table.get? name with
  | none => exact known
  | some value => exact every.get? held

theorem every_map_iff {β : Type} {holds : β → Prop} {image : α → β} {table : Table α} :
    (table.map image).Every holds ↔ table.Every fun value => holds (image value) := by
  rw [Every, Table.map, List.forall_mem_map, Every]

end Every

end StyleObjects.Table
