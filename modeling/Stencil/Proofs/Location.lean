import Mathlib.Data.List.Forall2
import Stencil.Proofs.Filling

/-!
# Locations and paths

A location in some data is a name and the steps that lead on from what is named: to a field of
an object, or to an item of an array (`Location`). What is there is told by the data alone
(`Context.Holds`). A path is a text, and what it means is told in two parts: it is cut into
segments at every point (`pathSegments_eq_iff`), and the segments spell the steps of a location
(`Location.SpelledBy`). A field is spelled by its name; an item is spelled by its index in
decimal digits, perhaps with zeros in front of them or a plus sign.

Looking up a path gives what is at the location that it spells, and nothing where it spells none
(`Context.getPath?_eq_some_iff`). Names may look like indices: whether a segment is one or the
other depends on the value reached so far. So a path spells several locations, but at most one
of them is there (`Json.Reaches.eq_of_spelled`).

* `Context.getPath?_locates`: paths lead to the locations in a context, and to nothing else.
-/

namespace Stencil

/-! ### Segments -/

/-- A text is split at separators as a list is. -/
theorem segments_eq_splitOn (sep : Char) (cs : List Char) : segments sep cs = cs.splitOn sep := by
  induction cs with
  | nil => rfl
  | cons c cs ih =>
    rw [segments, List.splitOn_cons_eq_if_modifyHead, ih]
    simp only [beq_iff_eq]
    refine if_congr Iff.rfl rfl ?_
    cases h : cs.splitOn sep with
    | nil => exact absurd h (List.splitOn_ne_nil sep cs)
    | cons s rest => rfl

theorem not_mem_of_mem_segments {sep : Char} {cs s : List Char} (h : s ∈ segments sep cs) :
    sep ∉ s := by
  induction cs generalizing s with
  | nil => simp [List.mem_singleton.1 h]
  | cons c cs ih =>
    rw [segments] at h
    split at h
    · rcases List.mem_cons.1 h with rfl | h
      · exact List.not_mem_nil
      · exact ih h
    · next hc =>
      split at h
      · simp [List.mem_singleton.1 h, Ne.symm hc]
      · next s' rest heq =>
        rw [heq] at ih
        rcases List.mem_cons.1 h with rfl | h
        · simp [Ne.symm hc, ih List.mem_cons_self]
        · exact ih (List.mem_cons_of_mem _ h)

/-- The segments of a path are texts without points, and make up the path with points between
    them. -/
theorem pathSegments_eq_iff {path : String} {ss : List String} :
    pathSegments path = ss ↔
      ss ≠ [] ∧ (∀ s ∈ ss, '.' ∉ s.toList) ∧ path = ".".intercalate ss := by
  have hjoin : (".".intercalate ss).toList = ['.'].intercalate (ss.map String.toList) :=
    String.toList_intercalate
  constructor
  · rintro rfl
    refine ⟨?_, fun s hs => ?_, String.toList_injective ?_⟩
    · rw [pathSegments, Ne, List.map_eq_nil_iff]
      exact segments_ne_nil _ _
    · obtain ⟨cs, hcs, rfl⟩ := List.mem_map.1 hs
      rw [String.toList_ofList]
      exact not_mem_of_mem_segments hcs
    · rw [hjoin, pathSegments, segments_eq_splitOn, List.map_map]
      simp [Function.comp_def, List.intercalate_splitOn]
  · rintro ⟨hne, hplain, rfl⟩
    rw [pathSegments, segments_eq_splitOn, hjoin,
      List.splitOn_intercalate _ (by simpa using hplain) (by simpa using hne), List.map_map]
    simp [Function.comp_def]

theorem pathSegments_append (path below : String) :
    pathSegments (path ++ "." ++ below) = pathSegments path ++ pathSegments below := by
  obtain ⟨hne, hplain, hpath⟩ := pathSegments_eq_iff.1 (rfl : pathSegments path = _)
  obtain ⟨hne', hplain', hbelow⟩ := pathSegments_eq_iff.1 (rfl : pathSegments below = _)
  refine pathSegments_eq_iff.2 ⟨by simp [hne], List.forall_mem_append.2 ⟨hplain, hplain'⟩, ?_⟩
  rw [String.intercalate_append_of_ne_nil hne hne', ← hpath, ← hbelow]

/-! ### Indices -/

/-- A segment denotes an index: it consists of decimal digits, perhaps behind a plus sign, and
    their value fits a machine word. -/
def Denotes (segment : String) (i : UInt64) : Prop :=
  ∃ digits, (segment.toList = digits ∨ segment.toList = '+' :: digits) ∧ digits ≠ [] ∧
    (∀ c ∈ digits, c.isDigit = true) ∧ Nat.ofDigitChars 10 digits 0 = i.toNat

theorem decimalValue_eq_some_iff {acc n : Nat} {cs : List Char} :
    decimalValue acc cs = some n ↔
      (∀ c ∈ cs, c.isDigit = true) ∧ Nat.ofDigitChars 10 cs acc = n := by
  induction cs generalizing acc with
  | nil => simp [decimalValue]
  | cons c cs ih =>
    rw [decimalValue, Nat.ofDigitChars_cons, List.forall_mem_cons]
    by_cases hc : c.isDigit = true
    · simp only [hc, if_true, true_and]
      exact ih
    · simp [hc]

/-- The digits of a segment are what stands behind a plus sign, or all of it. -/
theorem exists_index?_eq (segment : String) :
    ∃ digits, (segment.toList = '+' :: digits ∨
        segment.toList = digits ∧ ∀ cs, segment.toList ≠ '+' :: cs) ∧
      index? segment =
        if digits = [] then none else (decimalValue 0 digits).filter (· < UInt64.size) := by
  unfold index?
  cases h : segment.toList with
  | nil => exact ⟨[], .inr ⟨rfl, nofun⟩, rfl⟩
  | cons c cs =>
    by_cases hc : c = '+'
    · subst hc
      exact ⟨cs, .inl rfl, rfl⟩
    · refine ⟨c :: cs, .inr ⟨rfl, fun ds hds => hc (List.cons.inj hds).1⟩, ?_⟩
      dsimp only
      split
      · next ds hds => exact absurd (List.cons.inj hds).1 hc
      · rfl

theorem index?_eq_some_iff {segment : String} {n : Nat} :
    index? segment = some n ↔ ∃ i : UInt64, i.toNat = n ∧ Denotes segment i := by
  obtain ⟨digits, hdigits, hindex⟩ := exists_index?_eq segment
  rw [hindex]
  constructor
  · intro h
    split at h
    · cases h
    · next hne =>
      obtain ⟨hvalue, hlt⟩ := Option.filter_eq_some_iff.1 h
      obtain ⟨hall, hvalue⟩ := decimalValue_eq_some_iff.1 hvalue
      have hlt : n < UInt64.size := of_decide_eq_true hlt
      refine ⟨UInt64.ofNatLT n hlt, UInt64.toNat_ofNatLT, digits, ?_, hne, hall, ?_⟩
      · exact hdigits.symm.imp_left And.left
      · rw [hvalue, UInt64.toNat_ofNatLT]
  · rintro ⟨i, rfl, digits', hdigits', hne, hall, hvalue⟩
    -- A plus sign is no digit, so there is one way only to take the segment apart.
    have hsign : '+' ∉ digits' := fun hmem => absurd (hall _ hmem) (by decide)
    have hsame : digits' = digits := by
      rcases hdigits with h | ⟨h, hnone⟩ <;> rcases hdigits' with h' | h'
      · exact absurd (h'.symm.trans h ▸ List.mem_cons_self) hsign
      · exact (List.cons.inj (h'.symm.trans h)).2
      · exact h'.symm.trans h
      · exact absurd h' (hnone _)
    subst hsame
    rw [if_neg hne, Option.filter_eq_some_iff]
    exact ⟨decimalValue_eq_some_iff.2 ⟨hall, hvalue⟩, decide_eq_true i.toNat_lt_size⟩

/-- An index is written in decimal digits, without a sign. -/
theorem denotes_repr (i : UInt64) : Denotes i.toNat.repr i := by
  refine ⟨_, .inl rfl, ?_, fun c hc => ?_, ?_⟩
  · rw [Nat.toList_repr]
    exact Nat.toDigits_ne_nil
  · rw [Nat.toList_repr] at hc
    exact Nat.isDigit_of_mem_toDigits (by decide) (by decide) hc
  · rw [Nat.toList_repr, Nat.ofDigitChars_ten_toDigits]

theorem Denotes.unique {segment : String} {i j : UInt64} (hi : Denotes segment i)
    (hj : Denotes segment j) : i = j := by
  have hi := index?_eq_some_iff.2 ⟨i, rfl, hi⟩
  have hj := index?_eq_some_iff.2 ⟨j, rfl, hj⟩
  rw [hi, Option.some.injEq] at hj
  exact UInt64.toNat_inj.1 hj

/-! ### Steps -/

namespace Json

/-- A step from a value to one right below it. -/
inductive Step
  /-- To the field of a name. -/
  | key (name : String)
  /-- To the item at an index. -/
  | index (i : UInt64)

/-- How a step is written: a field by its name, an item by its index in decimal digits. -/
def Step.text : Step → String
  | key name => name
  | index i => i.toNat.repr

/-- The segments that spell a step. -/
inductive Step.SpelledBy : Step → String → Prop
  | key (name : String) : SpelledBy (.key name) name
  | index {i : UInt64} {segment : String} : Denotes segment i → SpelledBy (.index i) segment

theorem Step.spelledBy_text (s : Step) : s.SpelledBy s.text := by
  cases s with
  | key name => exact .key name
  | index i => exact .index (denotes_repr i)

/-- Some steps lead from a value to one below it: step by step from objects to their fields, and
    from arrays to their items. Nothing lies below other values. -/
inductive Reaches : Json → List Step → Json → Prop
  | here (v : Json) : Reaches v [] v
  | field {fields : Fields} {name : String} {v w : Json} {steps : List Step} :
      Fields.get? name fields = some v → Reaches v steps w →
        Reaches (.object fields) (.key name :: steps) w
  | item {items : List Json} {i : UInt64} {v w : Json} {steps : List Step} :
      items[i.toNat]? = some v → Reaches v steps w →
        Reaches (.array items) (.index i :: steps) w

/-- A value that is no object and no array. -/
def IsScalar : Json → Prop
  | object _ | array _ => False
  | _ => True

variable {v w w' : Json} {steps steps' : List Step} {segments : List String}

/-- Following segments leads where the steps lead that they spell. -/
theorem follow_eq_some_iff :
    v.follow segments = some w ↔
      ∃ steps, List.Forall₂ Step.SpelledBy steps segments ∧ v.Reaches steps w := by
  induction segments generalizing v with
  | nil =>
    constructor
    · intro h
      rw [follow_nil, Option.some.injEq] at h
      exact ⟨[], .nil, h ▸ .here v⟩
    · rintro ⟨steps, hspelled, hreaches⟩
      cases hspelled
      cases hreaches
      rfl
  | cons s segments ih =>
    rw [follow, Option.bind_eq_some_iff]
    constructor
    · rintro ⟨u, hu, hfollow⟩
      obtain ⟨steps, hspelled, hreaches⟩ := ih.1 hfollow
      cases v with
      | object fields => exact ⟨.key s :: steps, .cons (.key s) hspelled, .field hu hreaches⟩
      | array items =>
        obtain ⟨n, hn, hitem⟩ := Option.bind_eq_some_iff.1 hu
        obtain ⟨i, rfl, hi⟩ := index?_eq_some_iff.1 hn
        exact ⟨.index i :: steps, .cons (.index hi) hspelled, .item hitem hreaches⟩
      | _ => cases hu
    · rintro ⟨steps, hspelled, hreaches⟩
      cases hspelled with
      | cons hs hspelled =>
        cases hreaches with
        | field hget hreaches =>
          cases hs
          exact ⟨_, hget, ih.2 ⟨_, hspelled, hreaches⟩⟩
        | item hitem hreaches =>
          cases hs with
          | index hi =>
            refine ⟨_, Option.bind_eq_some_iff.2 ⟨_, ?_, hitem⟩, ih.2 ⟨_, hspelled, hreaches⟩⟩
            exact index?_eq_some_iff.2 ⟨_, rfl, hi⟩

/-- Of the steps that some segments spell, at most one lead somewhere: the values on the way tell
    names from indices. -/
theorem Reaches.eq_of_spelled (h : v.Reaches steps w) (h' : v.Reaches steps' w')
    (hs : List.Forall₂ Step.SpelledBy steps segments)
    (hs' : List.Forall₂ Step.SpelledBy steps' segments) : steps = steps' := by
  induction h generalizing steps' segments with
  | here v =>
    cases hs
    cases hs'
    rfl
  | field hget _ ih =>
    cases hs with
    | cons hs hss =>
      cases hs' with
      | cons hs' hss' =>
        cases h' with
        | field hget' h' =>
          cases hs
          cases hs'
          obtain rfl := Option.some.inj (hget.symm.trans hget')
          rw [ih h' hss hss']
  | item hitem _ ih =>
    cases hs with
    | cons hs hss =>
      cases hs' with
      | cons hs' hss' =>
        cases h' with
        | item hitem' h' =>
          cases hs with
          | index hi =>
            cases hs' with
            | index hi' =>
              obtain rfl := hi.unique hi'
              obtain rfl := Option.some.inj (hitem.symm.trans hitem')
              rw [ih h' hss hss']

end Json

/-! ### Locations -/

/-- A location in some named data. -/
structure Location where
  /-- The name from which it goes on. -/
  root : String
  /-- The steps that lead on from there. -/
  steps : List Json.Step

namespace Location

/-- The names on the way to a location. -/
def names (l : Location) : List String :=
  l.root :: l.steps.filterMap fun
    | .key name => some name
    | .index _ => none

/-- The names and the indices on the way to a location, as they are written. -/
def texts (l : Location) : List String := l.root :: l.steps.map Json.Step.text

/-- The path to a location: its names and its indices with points between them. -/
def path (l : Location) : String := ".".intercalate l.texts

/-- The segments that spell a location: its name, and then its steps. -/
inductive SpelledBy : Location → List String → Prop
  | mk {root : String} {steps : List Json.Step} {segments : List String} :
      List.Forall₂ Json.Step.SpelledBy steps segments → SpelledBy ⟨root, steps⟩ (root :: segments)

theorem spelledBy_texts (l : Location) : l.SpelledBy l.texts := by
  refine .mk ?_
  rw [List.forall₂_map_right_iff, List.forall₂_same]
  exact fun s _ => s.spelledBy_text

/-- Where no name has a point, the path to a location is cut into the location again. -/
theorem pathSegments_path {l : Location} (h : ∀ name ∈ l.names, '.' ∉ name.toList) :
    pathSegments l.path = l.texts := by
  rw [names, List.forall_mem_cons] at h
  refine pathSegments_eq_iff.2 ⟨List.cons_ne_nil _ _, ?_, rfl⟩
  rw [texts, List.forall_mem_cons]
  refine ⟨h.1, fun s hs => ?_⟩
  obtain ⟨step, hstep, rfl⟩ := List.mem_map.1 hs
  cases step with
  | key name => exact h.2 name (List.mem_filterMap.2 ⟨_, hstep, rfl⟩)
  | index i =>
    intro hpoint
    rw [Json.Step.text, Nat.toList_repr] at hpoint
    exact absurd (Nat.isDigit_of_mem_toDigits (by decide) (by decide) hpoint) (by decide)

end Location

namespace Context

variable {c : Context} {l : Location} {path : String} {v : Json}

/-- A context has a value at a location. -/
def Holds (c : Context) (l : Location) (v : Json) : Prop :=
  ∃ u, c.get? l.root = some u ∧ u.Reaches l.steps v

/-- A path leads to what is at the location that its segments spell. -/
theorem getPath?_eq_some_iff :
    c.getPath? path = some v ↔ ∃ l : Location, l.SpelledBy (pathSegments path) ∧ c.Holds l v := by
  rw [getPath?_eq, Option.bind_eq_some_iff, pathSegments_eq_cons]
  constructor
  · rintro ⟨u, hu, hfollow⟩
    obtain ⟨steps, hspelled, hreaches⟩ := Json.follow_eq_some_iff.1 hfollow
    exact ⟨⟨pathRoot path, steps⟩, .mk hspelled, u, hu, hreaches⟩
  · rintro ⟨l, hspelled, u, hu, hreaches⟩
    cases hspelled with
    | mk hspelled => exact ⟨u, hu, Json.follow_eq_some_iff.2 ⟨_, hspelled, hreaches⟩⟩

/-- A path goes on from where its beginning leads. -/
theorem getPath?_append (c : Context) (path below : String) :
    c.getPath? (path ++ "." ++ below) =
      (c.getPath? path).bind (·.follow (pathSegments below)) := by
  rw [getPath?, getPath?, pathSegments_append]
  rw [pathSegments_eq_cons path]
  simp only [List.cons_append, Json.follow_append, Option.bind_assoc]

/-- The path to a location in a context leads to what is there, if no name on the way has a
    point. A path leads somewhere exactly if its segments, cut at every point, spell a location in
    the context, and then it leads to what is there; there is no other location that they spell.
    Nothing is found below a value that is no object and no array. -/
theorem getPath?_locates (c : Context) :
    (∀ l v, (∀ name ∈ l.names, '.' ∉ name.toList) → c.Holds l v → c.getPath? l.path = some v) ∧
    (∀ path v, c.getPath? path = some v ↔ ∃ segments l,
      path = ".".intercalate segments ∧ (∀ s ∈ segments, '.' ∉ s.toList) ∧
        l.SpelledBy segments ∧ c.Holds l v) ∧
    (∀ segments l l' v v', l.SpelledBy segments → l'.SpelledBy segments →
      c.Holds l v → c.Holds l' v' → l = l') ∧
    ∀ path v below, c.getPath? path = some v → v.IsScalar →
      c.getPath? (path ++ "." ++ below) = none := by
  refine ⟨fun l v hplain hholds => ?_, fun path v => ?_, fun segments l l' v v' hl hl' hv hv' => ?_,
    fun path v below hv hscalar => ?_⟩
  · exact getPath?_eq_some_iff.2 ⟨l, l.pathSegments_path hplain ▸ l.spelledBy_texts, hholds⟩
  · rw [getPath?_eq_some_iff]
    constructor
    · rintro ⟨l, hspelled, hholds⟩
      obtain ⟨-, hplain, hpath⟩ := pathSegments_eq_iff.1 (rfl : pathSegments path = _)
      exact ⟨_, l, hpath, hplain, hspelled, hholds⟩
    · rintro ⟨segments, l, hpath, hplain, hspelled, hholds⟩
      have hne : segments ≠ [] := by
        cases hspelled
        exact List.cons_ne_nil _ _
      exact ⟨l, pathSegments_eq_iff.2 ⟨hne, hplain, hpath⟩ ▸ hspelled, hholds⟩
  · obtain ⟨u, hu, hreaches⟩ := hv
    obtain ⟨u', hu', hreaches'⟩ := hv'
    cases hl with
    | mk hl =>
      cases hl' with
      | mk hl' =>
        obtain rfl := Option.some.inj (hu.symm.trans hu')
        exact congrArg _ (hreaches.eq_of_spelled hreaches' hl hl')
  · rw [getPath?_append, hv, Option.bind_some]
    rw [pathSegments_eq_cons]
    cases v with
    | object _ | array _ => exact hscalar.elim
    | _ => rfl

/-- A name that looks like an index, above a list. -/
def numbered : Context := ⟨[("a", .object [("0", .array [.null, .bool true])])]⟩

theorem getPath?_locates_numbered :
    numbered.getPath? "a.0.1" = some (.bool true) ∧
      numbered.getPath? "a.0.+01" = some (.bool true) ∧
      numbered.getPath? "a.0.1.0" = none := by
  let l : Location := ⟨"a", [.key "0", .index 1]⟩
  have hholds : numbered.Holds l (.bool true) := ⟨_, rfl, .field rfl (.item rfl (.here _))⟩
  obtain ⟨hplain, hspelled, -, hscalar⟩ := getPath?_locates numbered
  have hpath : numbered.getPath? "a.0.1" = some (.bool true) :=
    hplain l (.bool true) (by decide) hholds
  refine ⟨hpath, (hspelled _ _).2 ⟨["a", "0", "+01"], l, rfl, by decide, ?_, hholds⟩,
    hscalar "a.0.1" (.bool true) "0" hpath trivial⟩
  have hdenotes : Denotes "+01" 1 := ⟨['0', '1'], .inr rfl, by simp, by simp, rfl⟩
  exact .mk (.cons (.key "0") (.cons (.index hdenotes) .nil))

end Context

end Stencil
