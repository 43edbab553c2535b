import Mathlib.Data.List.Basic
import Stencil.Proofs.Operation

/-!
# Ids of templates

A template is given an id when it is made: the stem of its draft, an underscore, and the number
of the template among all that were made. A stem is any text, and may end like such an id
itself. Still the id tells what both of its parts were, as there is no underscore in a number
(`Draft.id_eq_id_iff`).

In the course of a process (`Stage.Deed`, `Stage.enactAll`) templates are made directly, by
constructors, by registries and from the entries of catalogs. Between these, all that can be done
with a stage is done, and templates are changed and are given other ids. Numbers are used once,
whoever makes a template, so the ids that are generated are numbered one after the other
(`Consecutive`).

* `Stage.generated_ids_nodup`: no id is generated twice.
-/

namespace Stencil

variable {σ : Type}

/-! ### Stems and numbers -/

/-- A list is cut in one way only at the last place where an element stands. -/
theorem append_cons_inj_of_not_mem {α : Type} {a : α} {as bs cs ds : List α} (hc : a ∉ cs)
    (hd : a ∉ ds) (h : as ++ a :: cs = bs ++ a :: ds) : as = bs ∧ cs = ds := by
  rcases List.append_eq_append_iff.1 h with ⟨es, rfl, hes⟩ | ⟨es, rfl, hes⟩
  · cases es with
    | nil => exact ⟨(List.append_nil _).symm, (List.cons.inj hes).2⟩
    | cons e es => exact absurd ((List.cons.inj hes).2 ▸ by simp) hc
  · cases es with
    | nil => exact ⟨List.append_nil _, (List.cons.inj hes).2.symm⟩
    | cons e es => exact absurd ((List.cons.inj hes).2 ▸ by simp) hd

/-- A text with an underscore and a number behind it tells both of them. -/
theorem numbered_inj {stem stem' : String} {n n' : Nat} :
    stem ++ "_" ++ n.repr = stem' ++ "_" ++ n'.repr ↔ stem = stem' ∧ n = n' := by
  refine ⟨fun h => ?_, fun ⟨hstem, hn⟩ => hstem ▸ hn ▸ rfl⟩
  have hchars : stem.toList ++ '_' :: n.repr.toList = stem'.toList ++ '_' :: n'.repr.toList := by
    simpa using congrArg String.toList h
  have hdigits (m : Nat) : '_' ∉ m.repr.toList := Nat.toList_repr ▸ Nat.underscore_not_in_toDigits
  obtain ⟨hstem, hnumber⟩ := append_cons_inj_of_not_mem (hdigits n) (hdigits n') hchars
  refine ⟨String.toList_injective hstem, ?_⟩
  simpa [Nat.toList_repr] using congrArg (Nat.ofDigitChars 10 · 0) hnumber

/-- Some ids with the numbers from `n` on, one after the other, whatever their stems are. -/
inductive Consecutive : Nat → List String → Prop
  | nil (n : Nat) : Consecutive n []
  | cons (stem : String) {n : Nat} {ids : List String} :
      Consecutive (n + 1) ids → Consecutive n ((stem ++ "_" ++ n.repr) :: ids)

namespace Consecutive

variable {n : Nat} {ids : List String} {id : String}

theorem exists_stem_of_mem (h : Consecutive n ids) (hid : id ∈ ids) :
    ∃ stem k, n ≤ k ∧ id = stem ++ "_" ++ k.repr := by
  induction h with
  | nil n => exact absurd hid List.not_mem_nil
  | @cons stem n ids _ ih =>
    rcases List.mem_cons.1 hid with rfl | hid
    · exact ⟨stem, n, Nat.le_refl n, rfl⟩
    · obtain ⟨stem', k, hk, heq⟩ := ih hid
      exact ⟨stem', k, Nat.le_of_succ_le hk, heq⟩

theorem nodup (h : Consecutive n ids) : ids.Nodup := by
  induction h with
  | nil n => exact List.nodup_nil
  | @cons stem n ids hids ih =>
    refine List.nodup_cons.2 ⟨fun hmem => ?_, ih⟩
    -- Whatever comes later has a higher number.
    obtain ⟨stem', k, hk, heq⟩ := hids.exists_stem_of_mem hmem
    obtain ⟨-, rfl⟩ := numbered_inj.1 heq
    exact Nat.not_succ_le_self n hk

theorem exists_stem_of_getElem? (h : Consecutive n ids) {i : Nat} (hi : ids[i]? = some id) :
    ∃ stem, id = stem ++ "_" ++ (n + i).repr := by
  induction h generalizing i with
  | nil n => cases hi
  | @cons stem n ids _ ih =>
    cases i with
    | zero => exact ⟨stem, (Option.some.inj hi).symm⟩
    | succ i =>
      obtain ⟨stem', heq⟩ := ih hi
      exact ⟨stem', by rw [heq, Nat.add_right_comm]; rfl⟩

end Consecutive

/-- The numbers that a counter of 64 bits gives out, beginning with one. -/
def counted : Nat → UInt64
  | 0 => 1
  | i + 1 => counted i + 1

/-- Such a counter does not come around before it gave out all numbers of 64 bits but zero. -/
theorem toNat_counted {i : Nat} (h : i + 1 < UInt64.size) : (counted i).toNat = 1 + i := by
  induction i with
  | zero => rfl
  | succ i ih =>
    rw [counted, UInt64.toNat_add, ih (Nat.lt_of_succ_lt h)]
    show (1 + i + 1) % UInt64.size = 1 + i + 1
    exact Nat.mod_eq_of_lt (by omega)

/-! ### The course of a process -/

namespace Stage

/-- What is done in the course of a process, as far as stages are concerned. -/
inductive Deed (σ : Type)
  /-- An operation of the stage; one of them makes a template from a draft. -/
  | operate (op : Operation σ)
  /-- A constructor makes a template. -/
  | construct (make : Maker σ)
  /-- A registry makes a template, of a type and with a name, or the default of the type. -/
  | select (r : Registry (Maker σ)) (type : String) (name : Option String)
  /-- An entry of a catalog makes a template. -/
  | declare (e : Catalog.Entry)
  /-- Something is done to a template, such as giving it another id or rendering it. -/
  | alter (t : TemplateId) (f : Template σ → Template σ)
  /-- Something is done to the hub and the state of the client. -/
  | disturb (f : Hub σ → Hub σ)

/-- The stage after a deed. A registry that refuses to make a template makes none. -/
def enact (depth : Nat) (s : Stage σ) : Deed σ → Option (Stage σ)
  | .operate op => s.operate depth op
  | .construct make => some (s.createBy make)
  | .select r type name =>
    match (r.select type name).1 with
    | .ok make => some (s.createBy make)
    | .error _ => some s
  | .declare e => some (s.createBy e.maker)
  | .alter t f => some (s.modify t f)
  | .disturb f => some (s.withHub (f s.hub))

/-- The id of the template that was made between two moments, if one was. -/
def generated? (s s' : Stage σ) : Option String :=
  if s'.made = s.made then none else (s'.template? s.next).map (·.id)

/-- Does some deeds one after the other: the ids that are generated, and the stage afterwards. -/
def enactAll (depth : Nat) : List (Deed σ) → Stage σ → Option (List String × Stage σ)
  | [], s => some ([], s)
  | d :: ds, s => do
    let s₁ ← s.enact depth d
    let (ids, s') ← enactAll depth ds s₁
    return ((s.generated? s₁).toList ++ ids, s')

variable {s s₁ s' : Stage σ} {depth : Nat} {ids : List String}

/-- What one deed does to the numbers of templates: none is used, or the next one, by a template
    that is given its id with it. -/
inductive Numbers (s s' : Stage σ) : Prop
  | quiet : s'.made = s.made → Numbers s s'
  | making (stem : String) : s'.made = s.made + 1 →
      s.generated? s' = some (stem ++ "_" ++ (s.made + 1).repr) → Numbers s s'

theorem numbers_createBy (s : Stage σ) (make : Maker σ) : s.Numbers (s.createBy make) := by
  refine .making (make s.hub.client).1.stem rfl ?_
  have hnext : (s.createBy make).template? s.next =
      some ((make s.hub.client).1.build (s.made + 1) s.hub.next) :=
    OrderedMap.get?_insert_self _ _ _
  rw [generated?, if_neg (show ¬(s.createBy make).made = s.made from Nat.succ_ne_self _), hnext]
  rfl

theorem numbers_operate {op : Operation σ} (h : s.operate depth op = some s') : s.Numbers s' := by
  cases op with
  | create d =>
    cases h
    exact numbers_createBy s fun client => (d, client)
  | openStore fields =>
    cases h
    exact .quiet rfl
  | connect t source =>
    rw [operate] at h
    split at h
    · obtain ⟨r, hr, rfl⟩ := Option.map_eq_some_iff.1 h
      rw [connect] at hr
      split at hr
      · cases hr
        exact .quiet rfl
      · obtain ⟨_, -, heq⟩ := Option.bind_eq_some_iff.1 hr
        cases heq
        exact .quiet rfl
    · cases h
      exact .quiet rfl
  | disconnect t =>
    obtain ⟨r, hr, rfl⟩ := Option.map_eq_some_iff.1 h
    rw [disconnect] at hr
    split at hr
    · cases hr
      exact .quiet rfl
    · obtain ⟨_, -, heq⟩ := Option.bind_eq_some_iff.1 hr
      cases heq
      exact .quiet rfl
  | drop t =>
    cases h
    rw [drop]
    split <;> exact .quiet rfl
  | act r =>
    obtain ⟨_, -, rfl⟩ := Option.map_eq_some_iff.1 h
    exact .quiet rfl

theorem numbers_enact {d : Deed σ} (h : s.enact depth d = some s') : s.Numbers s' := by
  cases d with
  | operate op => exact numbers_operate h
  | construct make =>
    cases h
    exact numbers_createBy s make
  | select r type name =>
    rw [enact] at h
    split at h
    · cases h
      exact numbers_createBy s _
    · cases h
      exact .quiet rfl
  | declare e =>
    cases h
    exact numbers_createBy s _
  | alter t f =>
    cases h
    rw [modify]
    split <;> exact .quiet rfl
  | disturb f =>
    cases h
    exact .quiet rfl

theorem consecutive_of_enactAll {ds : List (Deed σ)} (h : enactAll depth ds s = some (ids, s')) :
    Consecutive (s.made + 1) ids := by
  induction ds generalizing s ids with
  | nil =>
    cases h
    exact .nil _
  | cons d ds ih =>
    obtain ⟨s₁, hs₁, h⟩ := Option.bind_eq_some_iff.1 h
    obtain ⟨⟨ids, s'⟩, hrest, heq⟩ := Option.bind_eq_some_iff.1 h
    cases heq
    have hids := ih hrest
    cases numbers_enact hs₁ with
    | quiet hmade =>
      rw [generated?, if_pos hmade]
      exact hmade ▸ hids
    | making stem hmade hid =>
      rw [hid]
      exact .cons stem (hmade ▸ hids)

/-- In the course of a process that makes templates, in whatever way and with whatever stems, no
    id is generated twice. The `i`-th one, from zero on, ends in an underscore and the number
    `i + 1`; and as long as there are fewer than `2^64` of them, this is the number that a counter
    of 64 bits gives out. -/
theorem generated_ids_nodup {client : σ} {depth : Nat} {ds : List (Deed σ)} {ids : List String}
    {s' : Stage σ} (hrun : enactAll depth ds (start client) = some (ids, s')) :
    ids.Nodup ∧
    (∀ i id, ids[i]? = some id → ∃ stem, id = stem ++ "_" ++ (i + 1).repr) ∧
    (ids.length < UInt64.size → ∀ i id, ids[i]? = some id →
      ∃ stem, id = stem ++ "_" ++ (counted i).toNat.repr) := by
  have hids : Consecutive 1 ids := consecutive_of_enactAll hrun
  refine ⟨hids.nodup, fun i id hi => ?_, fun hlength i id hi => ?_⟩
  · rw [Nat.add_comm]
    exact hids.exists_stem_of_getElem? hi
  · have hlt : i < ids.length := (List.getElem?_eq_some_iff.1 hi).1
    rw [toNat_counted (by omega)]
    exact hids.exists_stem_of_getElem? hi

/-- A template is made directly and goes away; an entry of a catalog makes one whose stem is the
    id that the first one was given; a registry refuses to make one; and two are made whose stems
    are empty and end like an id. -/
def colliding : List (Deed Unit) :=
  [.operate (.create (.blank Unit)), .alter ⟨1⟩ fun t => { t with id := "template_1_2" },
    .operate (.drop ⟨1⟩), .declare ⟨"page", "a", false, some "template_1", "", [], []⟩,
    .select .empty "page" none,
    .construct fun client => ({ Draft.blank Unit with stem := "" }, client),
    .operate (.create { Draft.blank Unit with stem := "template_1_2_3" })]

theorem generated_ids_nodup_colliding : ∃ ids s', enactAll 1 colliding (start ()) = some (ids, s') ∧
    ids = ["template_1", "template_1_2", "_3", "template_1_2_3_4"] ∧ ids.Nodup := by
  have hrun : enactAll 1 colliding (start ()) =
    some (["template_1", "template_1_2", "_3", "template_1_2_3_4"], _) := rfl
  exact ⟨_, _, hrun, rfl, (generated_ids_nodup hrun).1⟩

end Stage

end Stencil
