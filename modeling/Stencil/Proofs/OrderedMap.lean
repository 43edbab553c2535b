import Mathlib.Data.List.Basic
import Mathlib.Data.List.Forall2
import Stencil.OrderedMap

/-!
# Looking up entries

What is found in a list of entries: the first entry of the key, so that entries
that come later hide nothing (`find_append`), and without keys that are listed
twice any entry of the key (`find_eq_some_iff`).

Putting in, in whatever order, what counts as missing already changes nothing
for those who take it in the place of a missing value (`getD_get?_insertMany`);
and new entries go to the end, in the order in which they are put in
(`entries_insertMany`). In general, of the entries that are put in, the keys go
where they first come, and the value is that of the last (`keys_insertMany`,
`get?_insertMany`); which tells the whole map (`ext_of_get?`).

Two lists of entries may have the same keys, with values that are somehow related
(`Related`); so have the maps into which they are put (`Related.insertMany`).
-/

namespace Stencil.OrderedMap

variable {κ ν : Type} [DecidableEq κ] {k : κ} {v : ν} {es : List (κ × ν)}

theorem find_append (k : κ) (es es' : List (κ × ν)) :
    find k (es ++ es') = (find k es).or (find k es') := by
  induction es with
  | nil => rfl
  | cons e es ih =>
    by_cases h : e.1 = k
    · simp [find, h]
    · simp [find, h, ih]

theorem isSome_find_iff : (find k es).isSome ↔ k ∈ es.map Prod.fst := by
  induction es with
  | nil => simp [find]
  | cons e es ih =>
    by_cases h : e.1 = k
    · simp [find, h]
    · simp only [find, if_neg h, ih, List.map_cons, List.mem_cons, Ne.symm h, false_or]

theorem mem_of_find (h : find k es = some v) : (k, v) ∈ es := by
  induction es with
  | nil => cases h
  | cons e es ih =>
    by_cases hk : e.1 = k
    · rw [find, if_pos hk, Option.some.injEq] at h
      rw [← hk, ← h]
      exact List.mem_cons_self
    · rw [find, if_neg hk] at h
      exact List.mem_cons_of_mem _ (ih h)

/-- Without keys that are listed twice, what is found is any entry of the key. -/
theorem find_eq_some_iff (hes : (es.map Prod.fst).Nodup) : find k es = some v ↔ (k, v) ∈ es := by
  refine ⟨mem_of_find, fun h => ?_⟩
  induction es with
  | nil => exact absurd h List.not_mem_nil
  | cons e es ih =>
    rw [List.map_cons, List.nodup_cons] at hes
    rcases List.mem_cons.1 h with rfl | h
    · exact if_pos rfl
    · have hk : e.1 ≠ k := fun hk => hes.1 (hk ▸ List.mem_map_of_mem h)
      rw [find, if_neg hk]
      exact ih hes.2 h

theorem getD_get?_insert_of_getD (m : OrderedMap κ ν) {k' : κ} (h : (m.get? k').getD v = v) :
    ((m.insert k' v).get? k).getD v = (m.get? k).getD v := by
  by_cases hk : k = k'
  · rw [hk, get?_insert_self, h]
    rfl
  · rw [get?_insert_of_ne m hk]

/-- Who takes `v` for a missing value does not see that it was put where it was
    taken anyway. -/
theorem getD_get?_insertMany (m : OrderedMap κ ν) {ks : List κ}
    (h : ∀ k ∈ ks, (m.get? k).getD v = v) :
    ((m.insertMany (ks.map fun k => (k, v))).get? k).getD v = (m.get? k).getD v := by
  induction ks generalizing m with
  | nil => rfl
  | cons k' ks ih =>
    have hk' := h k' List.mem_cons_self
    rw [List.map_cons, insertMany, List.foldl_cons, ← insertMany, ih,
      getD_get?_insert_of_getD m hk']
    intro k hk
    rw [getD_get?_insert_of_getD m hk', h k (List.mem_cons_of_mem _ hk)]

omit [DecidableEq κ] in
/-- A map is told by its entries. -/
theorem eq_of_entries_eq {m m' : OrderedMap κ ν} (h : m.entries = m'.entries) : m = m' := by
  cases m
  cases m'
  cases h
  rfl

/-- What is found under the keys of a list, one after the other, are its values. -/
theorem filterMap_find (hes : (es.map Prod.fst).Nodup) :
    ((es.map Prod.fst).filterMap fun k => find k es) = es.map Prod.snd := by
  rw [List.filterMap_map, ← List.filterMap_eq_map]
  exact List.filterMap_congr fun e he => (find_eq_some_iff hes).2 he

theorem put_of_not_mem (v : ν) (hk : k ∉ es.map Prod.fst) : put k v es = es ++ [(k, v)] := by
  induction es with
  | nil => rfl
  | cons e es ih =>
    rw [List.map_cons, List.mem_cons, not_or] at hk
    rw [put, if_neg (Ne.symm hk.1), ih hk.2, List.cons_append]

theorem get?_insert (m : OrderedMap κ ν) (k k' : κ) (v : ν) :
    (m.insert k v).get? k' = if k' = k then some v else m.get? k' := by
  by_cases hk : k' = k
  · rw [if_pos hk, hk, get?_insert_self]
  · rw [if_neg hk, get?_insert_of_ne m hk]

theorem contains_insert (m : OrderedMap κ ν) (k k' : κ) (v : ν) :
    (m.insert k v).contains k' = true ↔ k' = k ∨ m.contains k' = true := by
  rw [contains, get?_insert, contains]
  by_cases hk : k' = k
  · simp [hk]
  · simp [hk]

theorem put_put (k : κ) (v v' : ν) (es : List (κ × ν)) : put k v' (put k v es) = put k v' es := by
  induction es with
  | nil => simp [put]
  | cons e es ih =>
    by_cases hk : e.1 = k
    · simp [put, hk]
    · simp [put, hk, ih]

/-- Of two values put under one key, the second stays. -/
theorem insert_insert (m : OrderedMap κ ν) (k : κ) (v v' : ν) :
    (m.insert k v).insert k v' = m.insert k v' := eq_of_entries_eq (put_put k v v' m.entries)

theorem put_of_find (h : find k es = some v) : put k v es = es := by
  induction es with
  | nil => cases h
  | cons e es ih =>
    obtain ⟨k', v'⟩ := e
    by_cases hk : k' = k
    · rw [find, if_pos hk, Option.some.injEq] at h
      rw [put, if_pos hk, hk, h]
    · rw [find, if_neg hk] at h
      rw [put, if_neg hk, ih h]

/-- To put what is there already changes nothing. -/
theorem insert_of_get? {m : OrderedMap κ ν} (h : m.get? k = some v) : m.insert k v = m :=
  eq_of_entries_eq (put_of_find h)

theorem filter_put (k : κ) (v : ν) (es : List (κ × ν)) :
    (put k v es).filter (fun e => decide (e.1 ≠ k)) = es.filter fun e => decide (e.1 ≠ k) := by
  induction es with
  | nil => simp [put]
  | cons e es ih =>
    by_cases hk : e.1 = k
    · simp [put, hk]
    · rw [put, if_neg hk, List.filter_cons, List.filter_cons, ih]

theorem erase_insert (m : OrderedMap κ ν) (k : κ) (v : ν) : (m.insert k v).erase k = m.erase k :=
  eq_of_entries_eq (filter_put k v m.entries)

theorem find_filter (k k' : κ) (es : List (κ × ν)) :
    find k' (es.filter fun e => decide (e.1 ≠ k)) = if k' = k then none else find k' es := by
  induction es with
  | nil => simp [find]
  | cons e es ih =>
    obtain ⟨k₁, v⟩ := e
    by_cases hk : k₁ = k
    · rw [List.filter_cons_of_neg (by simpa using hk), ih, find, hk]
      by_cases hk' : k' = k
      · rw [if_pos hk', if_pos hk']
      · rw [if_neg hk', if_neg hk', if_neg (Ne.symm hk')]
    · rw [List.filter_cons_of_pos (by simpa using hk), find, ih, find]
      by_cases hk' : k₁ = k'
      · rw [if_pos hk', if_pos hk', if_neg fun h => hk (hk'.trans h)]
      · rw [if_neg hk', if_neg hk']

/-- A key that was erased is not found, and every other one is found as before. -/
theorem get?_erase (m : OrderedMap κ ν) (k k' : κ) :
    (m.erase k).get? k' = if k' = k then none else m.get? k' := find_filter k k' m.entries

/-- Distinct keys that are new go to the end, in order. -/
theorem entries_insertMany (m : OrderedMap κ ν) (hes : (es.map Prod.fst).Nodup)
    (hnew : ∀ k ∈ es.map Prod.fst, k ∉ m.keys) : (m.insertMany es).entries = m.entries ++ es := by
  induction es generalizing m with
  | nil => exact (List.append_nil _).symm
  | cons e es ih =>
    rw [List.map_cons, List.nodup_cons] at hes
    have he : (m.insert e.1 e.2).entries = m.entries ++ [e] :=
      put_of_not_mem e.2 (hnew e.1 List.mem_cons_self)
    rw [insertMany, List.foldl_cons, ← insertMany, ih _ hes.2, he, List.append_assoc,
      List.singleton_append]
    -- The keys after the first are new still, as they differ from it.
    intro k hk
    rw [keys, he, List.map_append, List.mem_append, not_or]
    refine ⟨hnew k (List.mem_cons_of_mem _ hk), fun hke => hes.1 ?_⟩
    exact List.mem_singleton.1 hke ▸ hk

/-- Distinct keys that are new go to the end, also if they are put in with one value. -/
theorem entries_insertMany_map (m : OrderedMap κ ν) {ks : List κ} (hks : ks.Nodup)
    (hnew : ∀ k ∈ ks, k ∉ m.keys) (v : ν) :
    (m.insertMany (ks.map fun k => (k, v))).entries = m.entries ++ ks.map fun k => (k, v) := by
  have hkeys : (ks.map fun k => (k, v)).map Prod.fst = ks := by
    rw [List.map_map]
    exact List.map_id _
  exact entries_insertMany m (hkeys.symm ▸ hks) (hkeys.symm ▸ hnew)

theorem entries_eq_filterMap (m : OrderedMap κ ν) :
    m.entries = m.keys.filterMap fun k => (m.get? k).map (Prod.mk k) := by
  rw [keys, List.filterMap_map]
  conv_lhs => rw [← List.map_id m.entries, ← List.filterMap_eq_map]
  refine List.filterMap_congr fun e he => ?_
  have hfind : m.get? e.1 = some e.2 := (find_eq_some_iff m.nodup_keys).2 he
  rw [Function.comp_apply, Function.comp_apply, hfind]
  rfl

/-- A map is told by its keys, in order, and by what is found under them. -/
theorem ext_of_get? {m m' : OrderedMap κ ν} (hkeys : m.keys = m'.keys)
    (h : ∀ k, m.get? k = m'.get? k) : m = m' := by
  apply eq_of_entries_eq
  rw [entries_eq_filterMap, entries_eq_filterMap, hkeys]
  exact List.filterMap_congr fun k _ => by rw [h]

/-- One more element at the end is listed if it is new. -/
theorem eraseDups_concat (ks : List κ) (k : κ) :
    (ks ++ [k]).eraseDups = if k ∈ ks then ks.eraseDups else ks.eraseDups ++ [k] := by
  rw [List.eraseDups_append]
  by_cases hk : k ∈ ks
  · simp [List.removeAll, hk]
  · simp [List.removeAll, hk, List.eraseDups_cons]

theorem eraseDups_of_nodup {ks : List κ} (h : ks.Nodup) : ks.eraseDups = ks := by
  induction ks with
  | nil => rfl
  | cons k ks ih =>
    rw [List.nodup_cons] at h
    have hfilter : ks.filter (fun k' => !k' == k) = ks := by
      refine List.filter_eq_self.2 fun k' hk' => ?_
      have hne : k' ≠ k := fun hk => h.1 (hk ▸ hk')
      simpa using hne
    rw [List.eraseDups_cons, hfilter, ih h.2]

/-- In one list after another, the new elements of the second one come after those of the
    first. -/
theorem eraseDups_append_eq (ks ks' : List κ) : (ks ++ ks').eraseDups =
    ks.eraseDups ++ (ks'.filter fun k => decide (k ∉ ks.eraseDups)).eraseDups := by
  rw [List.eraseDups_append]
  congr 2
  refine List.filter_congr fun k _ => ?_
  simp

theorem insertMany_cons (m : OrderedMap κ ν) (e : κ × ν) (es : List (κ × ν)) :
    m.insertMany (e :: es) = (m.insert e.1 e.2).insertMany es := rfl

theorem ofList_append (es es' : List (κ × ν)) :
    ofList (es ++ es') = (ofList es).insertMany es' := List.foldl_append

/-- Keys that are put in and are new come after those that are there, in the order in
    which they first come. -/
theorem keys_insertMany (m : OrderedMap κ ν) (es : List (κ × ν)) :
    (m.insertMany es).keys =
      m.keys ++ ((es.map Prod.fst).filter fun k => decide (k ∉ m.keys)).eraseDups := by
  induction es generalizing m with
  | nil => exact (List.append_nil _).symm
  | cons e es ih =>
    rw [insertMany_cons, ih, keys_insert, List.map_cons]
    by_cases h : e.1 ∈ m.keys
    · rw [if_pos h, List.filter_cons_of_neg (by simpa using h)]
    · rw [if_neg h, List.filter_cons_of_pos (by simpa using h), List.eraseDups_cons,
        List.filter_filter, List.append_assoc, List.singleton_append]
      congr 3
      refine List.filter_congr fun k _ => ?_
      by_cases hk : k = e.1
      · simp [hk]
      · simp [hk]

theorem keys_ofList (es : List (κ × ν)) : (ofList es).keys = (es.map Prod.fst).eraseDups := by
  have hnew : ∀ k ∈ es.map Prod.fst, decide (k ∉ (empty : OrderedMap κ ν).keys) = true :=
    fun _ _ => decide_eq_true List.not_mem_nil
  rw [ofList, keys_insertMany, List.filter_eq_self.2 hnew]
  rfl

/-- Of what is put in under one key, the last is found. -/
theorem get?_insertMany (m : OrderedMap κ ν) (es : List (κ × ν)) (k : κ) :
    (m.insertMany es).get? k =
      ((es.filter fun e => decide (e.1 = k)).getLast?.map Prod.snd).or (m.get? k) := by
  induction es generalizing m with
  | nil => rfl
  | cons e es ih =>
    rw [insertMany_cons, ih]
    by_cases h : e.1 = k
    · rw [List.filter_cons_of_pos (by simpa using h), List.getLast?_cons, ← h, get?_insert_self]
      cases (es.filter fun e' => decide (e'.1 = e.1)).getLast? <;> rfl
    · rw [List.filter_cons_of_neg (by simpa using h), get?_insert_of_ne m (Ne.symm h)]

theorem get?_ofList (es : List (κ × ν)) (k : κ) :
    (ofList es).get? k = (es.filter fun e => decide (e.1 = k)).getLast?.map Prod.snd := by
  rw [ofList, get?_insertMany]
  exact Option.or_none

/-! ### Related values -/

section

variable {ν' : Type} {R : ν → ν' → Prop} {es' : List (κ × ν')} {v' : ν'}

/-- Two lists have the same keys, in the same order, with values that are related. -/
def Related (R : ν → ν' → Prop) (es : List (κ × ν)) (es' : List (κ × ν')) : Prop :=
  List.Forall₂ (fun e e' => e.1 = e'.1 ∧ R e.2 e'.2) es es'

omit [DecidableEq κ] in
theorem Related.map_fst_eq (h : Related R es es') : es'.map Prod.fst = es.map Prod.fst := by
  induction h with
  | nil => rfl
  | cons he _ ih => exact congrArg₂ List.cons he.1.symm ih

theorem Related.find (h : Related R es es') (k : κ) :
    Option.Rel R (OrderedMap.find k es) (OrderedMap.find k es') := by
  induction h with
  | nil => exact .none
  | @cons e e' _ _ he _ ih =>
    obtain ⟨k₁, v⟩ := e
    obtain ⟨k₂, v'⟩ := e'
    obtain ⟨rfl, hv⟩ : k₁ = k₂ ∧ R v v' := he
    by_cases hk : k₁ = k
    · rw [OrderedMap.find, OrderedMap.find, if_pos hk, if_pos hk]
      exact .some hv
    · rwa [OrderedMap.find, OrderedMap.find, if_neg hk, if_neg hk]

theorem Related.put (h : Related R es es') (k : κ) (hv : R v v') :
    Related R (OrderedMap.put k v es) (OrderedMap.put k v' es') := by
  induction h with
  | nil => exact .cons ⟨rfl, hv⟩ .nil
  | @cons e e' _ _ he hes ih =>
    obtain ⟨k₁, _⟩ := e
    obtain ⟨k₂, _⟩ := e'
    obtain rfl : k₁ = k₂ := he.1
    by_cases hk : k₁ = k
    · rw [OrderedMap.put, OrderedMap.put, if_pos hk, if_pos hk]
      exact .cons ⟨rfl, hv⟩ hes
    · rw [OrderedMap.put, OrderedMap.put, if_neg hk, if_neg hk]
      exact .cons he ih

/-- Putting in related values keeps maps related. -/
theorem Related.insertMany {m : OrderedMap κ ν} {m' : OrderedMap κ ν'}
    (hes : Related R es es') (h : Related R m.entries m'.entries) :
    Related R (m.insertMany es).entries (m'.insertMany es').entries := by
  induction hes generalizing m m' with
  | nil => exact h
  | @cons e e' _ _ he _ ih =>
    obtain ⟨k, v⟩ := e
    obtain ⟨k', v'⟩ := e'
    obtain ⟨rfl, hv⟩ : k = k' ∧ R v v' := he
    exact ih (h.put k hv)

end

end Stencil.OrderedMap
