/-!
# Maps in insertion order

A map that remembers the order in which its keys came (`OrderedMap`): a key
takes its place when it is first put and keeps it, whatever is put under it
later; a key that was erased and comes again goes to the end. Section tables,
documents and registries are such maps, as all of them are listed back to their
users in the order in which they were built.

The view of a map is `get?`, with `keys` for the order:

* `get?_insert_self`, `get?_insert_of_ne`: putting changes what is found under
  the key put and nothing else;
* `keys_insert`: a known key stays where it is, a new one goes to the end;
* `mem_keys_iff`: a key is listed exactly when something is found under it.
-/

namespace Stencil

/-- A finite map from `κ` to `ν`, with its keys in the order of their first
    insertion. -/
structure OrderedMap (κ ν : Type) where
  /-- The keys with their values, in order. -/
  entries : List (κ × ν)
  /-- No key is listed twice. -/
  nodup_keys : (entries.map Prod.fst).Nodup

namespace OrderedMap

variable {κ ν : Type}

/-- The map without entries. -/
def empty : OrderedMap κ ν := ⟨[], List.nodup_nil⟩

instance : EmptyCollection (OrderedMap κ ν) := ⟨empty⟩

instance : Inhabited (OrderedMap κ ν) := ⟨empty⟩

/-- The keys, in order. -/
def keys (m : OrderedMap κ ν) : List κ := m.entries.map Prod.fst

/-- The values, in the order of their keys. -/
def values (m : OrderedMap κ ν) : List ν := m.entries.map Prod.snd

/-- How many keys there are. -/
def size (m : OrderedMap κ ν) : Nat := m.entries.length

/-- Whether there is no key at all. -/
def isEmpty (m : OrderedMap κ ν) : Bool := m.entries.isEmpty

variable [DecidableEq κ]

/-- What stands under `k` in a list of entries. -/
def find (k : κ) : List (κ × ν) → Option ν
  | [] => none
  | (k', v) :: rest => if k' = k then some v else find k rest

/-- A list of entries with `v` under `k`: in the place of the entry of `k`, at
    the end when there is none. -/
def put (k : κ) (v : ν) : List (κ × ν) → List (κ × ν)
  | [] => [(k, v)]
  | (k', v') :: rest => if k' = k then (k, v) :: rest else (k', v') :: put k v rest

/-- The value under `k`, if any. -/
def get? (m : OrderedMap κ ν) (k : κ) : Option ν := find k m.entries

/-- Whether there is a value under `k`. -/
def contains (m : OrderedMap κ ν) (k : κ) : Bool := (m.get? k).isSome

/-! ### Keys of a list of entries -/

theorem map_fst_put (k : κ) (v : ν) (es : List (κ × ν)) :
    (put k v es).map Prod.fst =
      if k ∈ es.map Prod.fst then es.map Prod.fst else es.map Prod.fst ++ [k] := by
  induction es with
  | nil => simp [put]
  | cons e es ih =>
    obtain ⟨k', v'⟩ := e
    by_cases h : k' = k
    · simp [put, h]
    · rw [put, if_neg h, List.map_cons, ih]
      by_cases hk : k ∈ es.map Prod.fst
      · simp [hk]
      · simp [hk, Ne.symm h]

theorem nodup_map_fst_put {es : List (κ × ν)} (h : (es.map Prod.fst).Nodup) (k : κ) (v : ν) :
    ((put k v es).map Prod.fst).Nodup := by
  rw [map_fst_put]
  split
  · exact h
  · next hk =>
    rw [List.nodup_append]
    refine ⟨h, by simp, fun a ha b hb hab => hk ?_⟩
    rw [← List.mem_singleton.1 hb, ← hab]
    exact ha

/-- The map with `v` under `k`. -/
def insert (m : OrderedMap κ ν) (k : κ) (v : ν) : OrderedMap κ ν :=
  ⟨put k v m.entries, nodup_map_fst_put m.nodup_keys k v⟩

/-- The map without `k`; the other keys keep their order. -/
def erase (m : OrderedMap κ ν) (k : κ) : OrderedMap κ ν :=
  ⟨m.entries.filter (fun e => decide (e.1 ≠ k)),
    m.nodup_keys.sublist (List.filter_sublist.map Prod.fst)⟩

/-- The map with every entry of the list put into it, in turn. -/
def insertMany (m : OrderedMap κ ν) (es : List (κ × ν)) : OrderedMap κ ν :=
  es.foldl (fun m e => m.insert e.1 e.2) m

/-- The map of a list of entries, a later one winning over an earlier one. -/
def ofList (es : List (κ × ν)) : OrderedMap κ ν := empty.insertMany es

/-! ### What is found after an operation -/

theorem find_put_self (k : κ) (v : ν) (es : List (κ × ν)) : find k (put k v es) = some v := by
  induction es with
  | nil => simp [put, find]
  | cons e es ih =>
    by_cases h : e.1 = k
    · simp [put, find, h]
    · simp [put, find, h, ih]

theorem find_put_of_ne {k k' : κ} (h : k' ≠ k) (v : ν) (es : List (κ × ν)) :
    find k' (put k v es) = find k' es := by
  induction es with
  | nil => simp [put, find, Ne.symm h]
  | cons e es ih =>
    by_cases hk : e.1 = k
    · simp [put, find, hk, Ne.symm h]
    · simp [put, find, hk, ih]

@[simp] theorem get?_empty (k : κ) : (empty : OrderedMap κ ν).get? k = none := rfl

@[simp] theorem get?_insert_self (m : OrderedMap κ ν) (k : κ) (v : ν) :
    (m.insert k v).get? k = some v := find_put_self k v m.entries

theorem get?_insert_of_ne (m : OrderedMap κ ν) {k k' : κ} (h : k' ≠ k) (v : ν) :
    (m.insert k v).get? k' = m.get? k' := find_put_of_ne h v m.entries

/-- A known key stays where it is and a new one goes to the end. -/
theorem keys_insert (m : OrderedMap κ ν) (k : κ) (v : ν) :
    (m.insert k v).keys = if k ∈ m.keys then m.keys else m.keys ++ [k] :=
  map_fst_put k v m.entries

/-- A key is listed exactly when something is found under it. -/
theorem mem_keys_iff (m : OrderedMap κ ν) (k : κ) : k ∈ m.keys ↔ (m.get? k).isSome := by
  show k ∈ m.entries.map Prod.fst ↔ (find k m.entries).isSome
  induction m.entries with
  | nil => simp [find]
  | cons e es ih =>
    by_cases h : e.1 = k
    · simp [find, h]
    · simp only [List.map_cons, List.mem_cons, find, if_neg h, ih, Ne.symm h, false_or]

end OrderedMap

end Stencil
