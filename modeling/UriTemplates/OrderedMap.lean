/-!
# Ordered maps

Maps with distinct keys that remember in which order the keys first came: putting a value
under a key that is present keeps the key's place, putting it under a new key appends an
entry, and an erased key that comes back goes to the end. The entries are the view that
every operation is described by (`keys_insert`, `get?_insert`).
-/

namespace UriTemplates

/-- A map whose entries keep the order in which their keys first came. -/
structure OrderedMap (κ α : Type) where
  /-- The entries in order. -/
  entries : List (κ × α)
  /-- No key has two entries. -/
  distinct : (entries.map Prod.fst).Nodup
  deriving DecidableEq

namespace OrderedMap

variable {κ α β : Type}

/-- The map without entries. -/
def empty : OrderedMap κ α :=
  ⟨[], .nil⟩

instance : Inhabited (OrderedMap κ α) :=
  ⟨empty⟩

/-- The keys in order. -/
def keys (map : OrderedMap κ α) : List κ :=
  map.entries.map Prod.fst

/-- The number of entries. -/
def size (map : OrderedMap κ α) : Nat :=
  map.entries.length

/-- Whether the map has no entry. -/
def isEmpty (map : OrderedMap κ α) : Bool :=
  map.entries.isEmpty

variable [DecidableEq κ]

/-- The value under a key in a list of entries. -/
def lookup (key : κ) : List (κ × α) → Option α
  | [] => none
  | (other, value) :: rest => if other = key then some value else lookup key rest

/-- The value under a key. -/
def get? (map : OrderedMap κ α) (key : κ) : Option α :=
  lookup key map.entries

/-- Whether a key has an entry. -/
def contains (map : OrderedMap κ α) (key : κ) : Bool :=
  (map.get? key).isSome

/-- Replace the value under a key where the key stands, or append an entry. -/
def put (key : κ) (value : α) : List (κ × α) → List (κ × α)
  | [] => [(key, value)]
  | (other, old) :: rest =>
    if other = key then (other, value) :: rest else (other, old) :: put key value rest

/-- The keys after putting a value are those from before and the key that it is put under. -/
theorem mem_keys_put {key other : κ} {value : α} {entries : List (κ × α)} :
    other ∈ (put key value entries).map Prod.fst ↔
      other = key ∨ other ∈ entries.map Prod.fst := by
  induction entries with
  | nil => simp [put]
  | cons entry rest ih =>
    obtain ⟨first, old⟩ := entry
    simp only [put]
    split
    · rename_i same
      subst same
      simp
    · simp only [List.map_cons, List.mem_cons, ih]
      exact or_left_comm

/-- Putting a value keeps the keys distinct. -/
theorem nodup_put {key : κ} {value : α} {entries : List (κ × α)}
    (distinct : (entries.map Prod.fst).Nodup) :
    ((put key value entries).map Prod.fst).Nodup := by
  induction entries with
  | nil => simp [put]
  | cons entry rest ih =>
    obtain ⟨first, old⟩ := entry
    simp only [List.map_cons, List.nodup_cons] at distinct
    simp only [put]
    split
    · simpa using distinct
    · rename_i other
      simp only [List.map_cons, List.nodup_cons, mem_keys_put, not_or]
      exact ⟨⟨other, distinct.1⟩, ih distinct.2⟩

/-- Put a value under a key, in the place of the key if it is present and at the end if
it is not. -/
def insert (map : OrderedMap κ α) (key : κ) (value : α) : OrderedMap κ α :=
  ⟨put key value map.entries, nodup_put map.distinct⟩

/-- The map without the entry of a key. -/
def erase (map : OrderedMap κ α) (key : κ) : OrderedMap κ α :=
  ⟨map.entries.filter (·.1 ≠ key),
    (List.filter_sublist.map Prod.fst).nodup map.distinct⟩

/-- The map that results from putting the pairs of a list in order. -/
def ofList (pairs : List (κ × α)) : OrderedMap κ α :=
  pairs.foldl (fun map (key, value) => map.insert key value) empty

omit [DecidableEq κ] in
theorem keys_mapValues (f : α → β) (entries : List (κ × α)) :
    (entries.map fun (key, value) => (key, f value)).map Prod.fst = entries.map Prod.fst := by
  simp [Function.comp_def]

omit [DecidableEq κ] in
/-- The map with every value replaced by its image. -/
def mapValues (f : α → β) (map : OrderedMap κ α) : OrderedMap κ β :=
  ⟨map.entries.map fun (key, value) => (key, f value), by
    rw [keys_mapValues]; exact map.distinct⟩

/-- Whether two maps have the same values under the same keys, in whatever order. -/
def sameEntries [DecidableEq α] (first second : OrderedMap κ α) : Bool :=
  first.size == second.size &&
    first.entries.all fun (key, value) => second.get? key == some value

/-- A key that is present keeps its place among the keys, and a new one is appended. -/
theorem keys_put (key : κ) (value : α) (entries : List (κ × α)) :
    (put key value entries).map Prod.fst =
      if key ∈ entries.map Prod.fst then entries.map Prod.fst
      else entries.map Prod.fst ++ [key] := by
  induction entries with
  | nil => simp [put]
  | cons entry rest ih =>
    obtain ⟨first, old⟩ := entry
    simp only [put]
    split
    · rename_i same
      simp [same]
    · rename_i other
      simp only [List.map_cons, ih, List.mem_cons, Ne.symm other, false_or]
      split <;> rfl

/-- A new key comes last, and a present key keeps its place. -/
theorem keys_insert (map : OrderedMap κ α) (key : κ) (value : α) :
    (map.insert key value).keys = if key ∈ map.keys then map.keys else map.keys ++ [key] :=
  keys_put key value map.entries

/-- A look-up finds the value put last. -/
theorem get?_insert (map : OrderedMap κ α) (key : κ) (value : α) (asked : κ) :
    (map.insert key value).get? asked = if key = asked then some value else map.get? asked := by
  obtain ⟨entries, distinct⟩ := map
  simp only [get?, insert]
  clear distinct
  induction entries with
  | nil => simp [put, lookup]
  | cons entry rest ih =>
    obtain ⟨first, old⟩ := entry
    simp only [put]
    split
    · rename_i same
      subst same
      simp only [lookup]
      split <;> rfl
    · rename_i other
      simp only [lookup, ih]
      split
      · rename_i found
        subst found
        simp [Ne.symm other]
      · rfl

end OrderedMap

end UriTemplates
