import Mathlib.Data.List.Nodup
import Stencil.Proofs.Standing

/-!
# Handles of listeners

An emitter gives its listeners handles, and a listener is removed by its handle. What happened
until now tells which listeners are there (`Ledger`): those that were registered and not removed
since, in the order in which they were registered. Handles are the numbers from zero on, so none
is given twice, and a handle whose listener was removed never removes another one.

Registering and removing keep this up (`Ledger.edit`), and nothing else changes the listeners of
an emitter. So all emitters of a stage have their ledgers (`Books`), whatever handlers do and
however deeply announcements nest.

* `Path.ledger`, `Path.removal`: what a chronicle tells about handles, at every moment of it.
* `Stage.handles_sound`: the same for all that happens in a history.
-/

namespace Stencil

variable {σ : Type} {s s' : Stage σ} {m m' : Moment σ} {o : Occurrence σ}
  {log log' : List (Occurrence σ)} {e : EmitterId} {em : Emitter σ} {id : ListenerId}
  {l : Listener σ} {found : Bool}

/-! ### One emitter -/

namespace Emitter

theorem knows_iff : em.knows id = true ↔ ∃ l ∈ em.listeners, l.id = id := by
  simp [knows]

theorem cancel_of_not_knows (h : em.knows id = false) : em.cancel id = em := by
  have hall : ∀ l ∈ em.listeners, decide (l.id ≠ id) = true := fun l hl =>
    decide_eq_true fun hid => by simp [knows_iff.2 ⟨l, hl, hid⟩] at h
  rw [cancel, List.filter_eq_self.2 hall]

theorem Ordered.eq_of_id (h : em.Ordered) {l l' : Listener σ} (hl : l ∈ em.listeners)
    (hl' : l' ∈ em.listeners) (hid : l.id = l'.id) : l = l' := by
  have hnodup : (em.listeners.map (·.id.index)).Nodup :=
    List.pairwise_map.2 (h.increasing.imp Nat.ne_of_lt)
  exact List.inj_on_of_nodup_map hnodup hl hl' (congrArg _ hid)

/-- A listener that is there is removed, and no other, and the rest keep their order. -/
theorem Ordered.cancel_of_knows (h : em.Ordered) (hid : em.knows id = true) :
    ∃ l₁ l l₂, em.listeners = l₁ ++ l :: l₂ ∧ l.id = id ∧
      (em.cancel id).listeners = l₁ ++ l₂ := by
  obtain ⟨l, hl, rfl⟩ := knows_iff.1 hid
  obtain ⟨l₁, l₂, heq⟩ := List.append_of_mem hl
  have hincreasing := h.increasing
  rw [heq, List.pairwise_append, List.pairwise_cons] at hincreasing
  have hbefore : ∀ l' ∈ l₁, decide (l'.id ≠ l.id) = true := fun l' hl' =>
    decide_eq_true fun hid =>
      Nat.ne_of_lt (hincreasing.2.2 l' hl' l List.mem_cons_self) (congrArg _ hid)
  have hafter : ∀ l' ∈ l₂, decide (l'.id ≠ l.id) = true := fun l' hl' =>
    decide_eq_true fun hid => Nat.ne_of_gt (hincreasing.2.1.1 l' hl') (congrArg _ hid)
  refine ⟨l₁, l, l₂, heq, rfl, ?_⟩
  show em.listeners.filter _ = _
  rw [heq, List.filter_append, List.filter_cons_of_neg (by simp), List.filter_eq_self.2 hbefore,
    List.filter_eq_self.2 hafter]

end Emitter

/-- An emitter that is not there knows nobody. -/
theorem Hub.contains_of_knows {h : Hub σ} (hid : (h.emitter e).knows id = true) :
    h.emitters.contains e = true := by
  rw [emitter] at hid
  rw [OrderedMap.contains]
  cases hget : h.emitters.get? e with
  | none =>
    rw [hget] at hid
    cases hid
  | some em => rfl

/-! ### Registrations and removals at an emitter -/

/-- The listener that is registered at an emitter. -/
def Occurrence.registeredAt? (o : Occurrence σ) (e : EmitterId) : Option (Listener σ) :=
  o.registration?.bind fun r => if r.1 = e then some r.2 else none

/-- The handle of the listener that is removed from an emitter. -/
def Occurrence.removedAt? (o : Occurrence σ) (e : EmitterId) : Option ListenerId :=
  o.removal?.bind fun r => if r.1 = e ∧ r.2.2 = true then some r.2.1 else none

/-- The listeners that were registered at an emitter, in order. -/
def EmitterId.registered (e : EmitterId) (log : List (Occurrence σ)) : List (Listener σ) :=
  log.filterMap (·.registeredAt? e)

/-- The handles of the listeners that were removed from an emitter, in order. -/
def EmitterId.removed (e : EmitterId) (log : List (Occurrence σ)) : List ListenerId :=
  log.filterMap (·.removedAt? e)

theorem Occurrence.registeredAt?_eq_some_iff :
    o.registeredAt? e = some l ↔ o.registration? = some (e, l) := by
  simp [registeredAt?, Option.bind_eq_some_iff]

theorem Occurrence.removedAt?_eq_some_iff :
    o.removedAt? e = some id ↔ o.removal? = some (e, id, true) := by
  simp [removedAt?, Option.bind_eq_some_iff]

theorem Occurrence.registeredAt?_eq_none_iff :
    o.registeredAt? e = none ↔ ∀ l, o.registration? ≠ some (e, l) := by
  simp only [Option.eq_none_iff_forall_ne_some, ne_eq, registeredAt?_eq_some_iff]

theorem Occurrence.removedAt?_eq_none_iff :
    o.removedAt? e = none ↔ ∀ id, o.removal? ≠ some (e, id, true) := by
  simp only [Option.eq_none_iff_forall_ne_some, ne_eq, removedAt?_eq_some_iff]

theorem mem_registered_iff : l ∈ e.registered log ↔ ∃ o ∈ log, o.registration? = some (e, l) := by
  simp only [EmitterId.registered, List.mem_filterMap, Occurrence.registeredAt?_eq_some_iff]

theorem mem_removed_iff : id ∈ e.removed log ↔ ∃ o ∈ log, o.removal? = some (e, id, true) := by
  simp only [EmitterId.removed, List.mem_filterMap, Occurrence.removedAt?_eq_some_iff]

theorem registered_concat (e : EmitterId) (log : List (Occurrence σ)) (o : Occurrence σ) :
    e.registered (log ++ [o]) = e.registered log ++ (o.registeredAt? e).toList := by
  rw [EmitterId.registered, List.filterMap_append, List.filterMap_cons]
  cases o.registeredAt? e <;> rfl

theorem removed_concat (e : EmitterId) (log : List (Occurrence σ)) (o : Occurrence σ) :
    e.removed (log ++ [o]) = e.removed log ++ (o.removedAt? e).toList := by
  rw [EmitterId.removed, List.filterMap_append, List.filterMap_cons]
  cases o.removedAt? e <;> rfl

theorem registered_concat_of_none (h : o.registeredAt? e = none) :
    e.registered (log ++ [o]) = e.registered log := by
  rw [registered_concat, h, Option.toList_none, List.append_nil]

theorem removed_concat_of_none (h : o.removedAt? e = none) :
    e.removed (log ++ [o]) = e.removed log := by
  rw [removed_concat, h, Option.toList_none, List.append_nil]

/-! ### Ledgers -/

/-- What a chronicle tells about the listeners of an emitter. -/
structure Ledger (e : EmitterId) (log : List (Occurrence σ)) (em : Emitter σ) : Prop where
  /-- Handles increase along the listeners, and are below the next one. -/
  ordered : em.Ordered
  /-- The handles given are the numbers from zero on, in this order. -/
  issued : (e.registered log).map (·.id.index) = List.range em.nextId
  /-- The listeners are those registered that were not removed. -/
  listeners : em.listeners = (e.registered log).filter fun l => decide (l.id ∉ e.removed log)
  /-- What was removed was registered before. -/
  removed_mem : ∀ id ∈ e.removed log, id ∈ (e.registered log).map (·.id)
  /-- There are as many listeners as were registered, less those removed. -/
  count : em.listeners.length + (e.removed log).length = (e.registered log).length

namespace Ledger

theorem fresh (hreg : e.registered log = []) (hrem : e.removed log = []) :
    Ledger e log (Emitter.fresh : Emitter σ) where
  ordered := Emitter.ordered_fresh
  issued := by rw [hreg]; rfl
  listeners := by rw [hreg]; rfl
  removed_mem id hid := by rw [hrem] at hid; cases hid
  count := by rw [hreg, hrem]; rfl

theorem index_lt (h : Ledger e log em) (hl : l ∈ e.registered log) : l.id.index < em.nextId := by
  have hmem : l.id.index ∈ (e.registered log).map (·.id.index) := List.mem_map_of_mem hl
  rwa [h.issued, List.mem_range] at hmem

/-- No handle is given twice. -/
theorem eq_of_id (h : Ledger e log em) {l l' : Listener σ} (hl : l ∈ e.registered log)
    (hl' : l' ∈ e.registered log) (hid : l.id = l'.id) : l = l' := by
  have hnodup : ((e.registered log).map (·.id.index)).Nodup := h.issued ▸ List.nodup_range
  exact List.inj_on_of_nodup_map hnodup hl hl' (congrArg _ hid)

theorem mem_registered (h : Ledger e log em) (hl : l ∈ em.listeners) : l ∈ e.registered log := by
  rw [h.listeners] at hl
  exact (List.mem_filter.1 hl).1

/-- What was removed had been registered, and so has a handle below the next one. -/
theorem next_not_mem_removed (h : Ledger e log em) : em.next ∉ e.removed log := by
  intro hmem
  obtain ⟨l, hl, hid⟩ := List.mem_map.1 (h.removed_mem _ hmem)
  exact Nat.ne_of_lt (h.index_lt hl) (congrArg ListenerId.index hid)

/-- A handle is known while its listener is registered and not removed. -/
theorem knows_iff (h : Ledger e log em) :
    em.knows id = true ↔ id ∈ (e.registered log).map (·.id) ∧ id ∉ e.removed log := by
  rw [Emitter.knows_iff, h.listeners]
  constructor
  · rintro ⟨l, hl, rfl⟩
    obtain ⟨hreg, hrem⟩ := List.mem_filter.1 hl
    exact ⟨List.mem_map_of_mem hreg, of_decide_eq_true hrem⟩
  · rintro ⟨hreg, hrem⟩
    obtain ⟨l, hl, rfl⟩ := List.mem_map.1 hreg
    exact ⟨l, List.mem_filter.2 ⟨hl, decide_eq_true hrem⟩, rfl⟩

theorem listen (h : Ledger e log em) (hreg : o.registeredAt? e = some l)
    (hrem : o.removedAt? e = none) (hid : l.id = em.next) :
    Ledger e (log ++ [o]) (em.listen l.filter l.handler) := by
  obtain ⟨_, filter, handler⟩ := l
  subst hid
  have hregistered :
      e.registered (log ++ [o]) = e.registered log ++ [⟨em.next, filter, handler⟩] := by
    rw [registered_concat, hreg, Option.toList_some]
  have hremoved : e.removed (log ++ [o]) = e.removed log := removed_concat_of_none hrem
  refine ⟨h.ordered.listen _ _, ?_, ?_, fun id hmem => ?_, ?_⟩
  · rw [hregistered, List.map_append, h.issued, Emitter.listen, List.range_succ]
    rfl
  · rw [hregistered, hremoved, List.filter_append, ← h.listeners]
    refine congrArg (em.listeners ++ ·) (List.filter_eq_self.2 fun l hl => ?_).symm
    rw [List.mem_singleton.1 hl]
    exact decide_eq_true h.next_not_mem_removed
  · rw [hremoved] at hmem
    rw [hregistered, List.map_append]
    exact List.mem_append_left _ (h.removed_mem id hmem)
  · rw [hregistered, hremoved, Emitter.listen, List.length_append, List.length_append, ← h.count]
    simp only [List.length_singleton]
    omega

theorem cancel (h : Ledger e log em) (hreg : o.registeredAt? e = none)
    (hrem : o.removedAt? e = some id) (hid : em.knows id = true) :
    Ledger e (log ++ [o]) (em.cancel id) := by
  have hregistered : e.registered (log ++ [o]) = e.registered log :=
    registered_concat_of_none hreg
  have hremoved : e.removed (log ++ [o]) = e.removed log ++ [id] := by
    rw [removed_concat, hrem, Option.toList_some]
  refine ⟨h.ordered.cancel id, ?_, ?_, fun id' hmem => ?_, ?_⟩
  · rw [hregistered]
    exact h.issued
  · rw [hregistered, hremoved, Emitter.cancel, h.listeners, List.filter_filter]
    refine List.filter_congr fun l _ => ?_
    simp only [List.mem_append, List.mem_singleton, not_or]
    rw [Bool.decide_and, Bool.and_comm]
  · rw [hregistered]
    rcases List.mem_append.1 (hremoved ▸ hmem) with hmem | hmem
    · exact h.removed_mem id' hmem
    · rw [List.mem_singleton.1 hmem]
      exact (h.knows_iff.1 hid).1
  · obtain ⟨l₁, l, l₂, heq, -, hcancel⟩ := h.ordered.cancel_of_knows hid
    have hcount := h.count
    rw [hregistered, hremoved, hcancel, ← hcount, heq]
    simp only [List.length_append, List.length_cons, List.length_nil]
    omega

/-- What is not about an emitter does not touch its ledger. -/
theorem quiet (h : Ledger e log em) (hreg : o.registeredAt? e = none)
    (hrem : o.removedAt? e = none) : Ledger e (log ++ [o]) em := by
  constructor
  · exact h.ordered
  · rw [registered_concat_of_none hreg]
    exact h.issued
  · rw [registered_concat_of_none hreg, removed_concat_of_none hrem]
    exact h.listeners
  · rw [registered_concat_of_none hreg, removed_concat_of_none hrem]
    exact h.removed_mem
  · rw [registered_concat_of_none hreg, removed_concat_of_none hrem]
    exact h.count

/-- An occurrence that tells the truth about an emitter keeps its ledger. -/
theorem edit (h : Ledger e log em) (hone : o.registration? = none ∨ o.removal? = none)
    (hreg : ∀ l, o.registration? = some (e, l) → l.id = em.next)
    (hrem : ∀ id found, o.removal? = some (e, id, found) → found = em.knows id) :
    Ledger e (log ++ [o]) (o.edit e em) := by
  unfold Occurrence.edit
  split
  · next target l heq =>
    have hremoved : o.removedAt? e = none := by
      rw [Occurrence.removedAt?, hone.resolve_left (by simp [heq])]
      rfl
    by_cases ht : e = target
    · subst ht
      rw [if_pos rfl]
      exact h.listen (Occurrence.registeredAt?_eq_some_iff.2 heq) hremoved (hreg l heq)
    · rw [if_neg ht]
      refine h.quiet (Occurrence.registeredAt?_eq_none_iff.2 fun l' heq' => ?_) hremoved
      rw [heq] at heq'
      cases heq'
      exact ht rfl
  · next target id found hnone heq =>
    have hregistered : o.registeredAt? e = none := by
      rw [Occurrence.registeredAt?, hnone]
      rfl
    by_cases ht : e = target
    · subst ht
      rw [if_pos rfl]
      have hfound := hrem id found heq
      cases hknows : em.knows id with
      | true =>
        refine h.cancel hregistered (Occurrence.removedAt?_eq_some_iff.2 ?_) hknows
        rw [heq, hfound, hknows]
      | false =>
        rw [Emitter.cancel_of_not_knows hknows]
        refine h.quiet hregistered (Occurrence.removedAt?_eq_none_iff.2 fun id' heq' => ?_)
        rw [heq, hfound, hknows] at heq'
        cases heq'
    · rw [if_neg ht]
      refine h.quiet hregistered (Occurrence.removedAt?_eq_none_iff.2 fun id' heq' => ?_)
      rw [heq] at heq'
      cases heq'
      exact ht rfl
  · next hnone hnone' =>
    refine h.quiet ?_ ?_
    · rw [Occurrence.registeredAt?, hnone]
      rfl
    · rw [Occurrence.removedAt?, hnone']
      rfl

end Ledger

/-! ### All emitters of a stage -/

namespace Occurrence

/-- What is registered is given the next handle, at an emitter that is there. -/
theorem Possible.registration (ho : o.Possible s) (hs : s.WellFormed)
    (h : o.registration? = some (e, l)) :
    s.hub.emitters.contains e = true ∧ l.id = (s.hub.emitter e).next ∧ o.removal? = none := by
  cases o with
  | listened target l' =>
    cases h
    exact ⟨ho.1, ho.2.1, rfl⟩
  | bound t source registration =>
    obtain ⟨u, hu, -, hstore, rfl⟩ := ho
    obtain ⟨store, hsource, heq⟩ := Option.map_eq_some_iff.1 h
    cases heq
    cases source with
    | value v => cases hsource
    | store store' =>
      cases hsource
      exact ⟨hs.stores _ (hstore _ rfl), rfl, rfl⟩
  | _ => cases h

/-- Whoever has a listener removed is told whether it was there. -/
theorem Possible.removal (ho : o.Possible s) (h : o.removal? = some (e, id, found)) :
    found = (s.hub.emitter e).knows id ∧ o.registration? = none := by
  cases o with
  | cancelled target id' found' =>
    cases h
    exact ⟨ho.2, rfl⟩
  | released t removal =>
    obtain ⟨u, hu, -, rfl⟩ := ho
    obtain ⟨r, -, heq⟩ := Option.map_eq_some_iff.1 h
    cases heq
    exact ⟨rfl, rfl⟩
  | _ => cases h

end Occurrence

/-- The ledgers of all emitters of a stage. What is not there yet was not used. -/
structure Books (log : List (Occurrence σ)) (s : Stage σ) : Prop where
  ledger : ∀ e em, s.hub.emitters.get? e = some em → Ledger e log em
  unused : ∀ e : EmitterId, s.hub.nextEmitter ≤ e.index →
    e.registered log = [] ∧ e.removed log = []

namespace Books

theorem start (client : σ) : Books [] (Stage.start client) where
  ledger _ _ h := nomatch h
  unused _ _ := ⟨rfl, rfl⟩

/-- A listener that was removed is not there any more. -/
theorem knows_of_removed (hb : Books log s) (hid : id ∈ e.removed log) :
    (s.hub.emitter e).knows id = false := by
  refine Bool.eq_false_iff.2 fun hknows => ?_
  obtain ⟨em, hem⟩ := Option.isSome_iff_exists.1 (Hub.contains_of_knows hknows)
  rw [Hub.emitter, hem, Option.getD_some, (hb.ledger e em hem).knows_iff] at hknows
  exact hknows.2 hid

theorem quiet (hb : Books log s) (hreg : o.registration? = none) (hrem : o.removal? = none) :
    Books (log ++ [o]) s := by
  have hregistered : ∀ e, o.registeredAt? e = none := fun e =>
    Occurrence.registeredAt?_eq_none_iff.2 fun l => by simp [hreg]
  have hremoved : ∀ e, o.removedAt? e = none := fun e =>
    Occurrence.removedAt?_eq_none_iff.2 fun id => by simp [hrem]
  refine ⟨fun e em he => (hb.ledger e em he).quiet (hregistered e) (hremoved e), fun e he => ?_⟩
  rw [registered_concat_of_none (hregistered e), removed_concat_of_none (hremoved e)]
  exact hb.unused e he

theorem effect (hb : Books log s) (hs : s.WellFormed) (ho : o.Possible s) :
    Books (log ++ [o]) (o.effect s) := by
  have hone : o.registration? = none ∨ o.removal? = none := by
    cases hr : o.registration? with
    | none => exact .inl rfl
    | some r => exact .inr (ho.registration hs hr).2.2
  -- What is not there is neither registered at nor removed from.
  have hunused : ∀ e : EmitterId, s.hub.nextEmitter ≤ e.index →
      e.registered (log ++ [o]) = [] ∧ e.removed (log ++ [o]) = [] := by
    intro e he
    have hnot : ¬ s.hub.emitters.contains e = true := fun h => Nat.not_lt.2 he (hs.below e h)
    have hreg : o.registeredAt? e = none := Occurrence.registeredAt?_eq_none_iff.2 fun l hreg =>
      hnot (ho.registration hs hreg).1
    have hrem : o.removedAt? e = none := Occurrence.removedAt?_eq_none_iff.2 fun id hrem =>
      hnot (Hub.contains_of_knows (ho.removal hrem).1.symm)
    rw [registered_concat_of_none hreg, removed_concat_of_none hrem]
    exact hb.unused e he
  refine ⟨fun e em he => ?_, fun e he => hunused e (Nat.le_trans (o.nextEmitter_le s) he)⟩
  rcases ho.get?_emitters e with ⟨rfl, hfresh, -⟩ | ⟨t, u, -, -, -, hnone⟩ | hstays
  · rw [hfresh, Option.some.injEq] at he
    subst he
    obtain ⟨hregistered, hremoved⟩ := hunused s.hub.next (Nat.le_refl _)
    exact .fresh hregistered hremoved
  · rw [hnone] at he
    cases he
  · rw [hstays, Option.map_eq_some_iff] at he
    obtain ⟨em, he, rfl⟩ := he
    have hem : s.hub.emitter e = em := by rw [Hub.emitter, he]; rfl
    exact (hb.ledger e em he).edit hone (fun l hreg => hem ▸ (ho.registration hs hreg).2.1)
      fun id found hrem => hem ▸ (ho.removal hrem).1

end Books

theorem Step.books (h : Step m o m') (hb : Books log m.stage) (hm : m.stage.WellFormed) :
    Books (log ++ [o]) m'.stage := by
  cases h with
  | acted ho => exact hb.effect hm ho
  | _ => exact hb.quiet rfl rfl

theorem Path.books {client : σ} {n : Nat} (h : Path ⟨.start client, n, none, []⟩ log m) :
    Books log m.stage :=
  h.concat_induction (motive := fun log m => Books log m.stage) (.start client)
    fun hpath hstep hb => hstep.books hb (hpath.wellFormed (Stage.wellFormed_start client))

/-! ### Handles in a chronicle -/

/-- A removal takes away the listener that was given the handle, if it is still there, and
    nothing else. -/
theorem Occurrence.Possible.emitter_of_removal (ho : o.Possible s)
    (hem : s.hub.emitters.get? e = some em) (hr : o.removal? = some (e, id, found)) :
    (o.effect s).hub.emitter e = em.cancel id := by
  rw [Hub.emitter]
  rcases ho.get?_emitters e with ⟨-, -, hnone⟩ | ⟨t, u, rfl, -⟩ | hstays
  · rw [hnone] at hr
    cases hr
  · cases hr
  · rw [hstays, hem, Option.map_some, Option.getD_some, edit, (ho.removal hr).2, hr]
    exact if_pos rfl

section

variable {client : σ} {n : Nat} {before rest : List (Occurrence σ)}

theorem Path.ledger (h : Path ⟨.start client, n, none, []⟩ log m)
    (hem : (replay (.start client) log).hub.emitters.get? e = some em) : Ledger e log em := by
  rw [← show m.stage = replay (.start client) log from h.stage_eq] at hem
  exact h.books.ledger e em hem

theorem Step.possible_of_removal {r : EmitterId × ListenerId × Bool} (h : Step m o m')
    (hr : o.removal? = some r) : o.Possible m.stage := by
  cases h with
  | acted ho => exact ho
  | _ => cases hr

/-- Of a removal it is told whether its listener was there, and it took away that one and no
    other. Whoever wants it removed again later is told that it is not there. -/
theorem Path.removal (h : Path ⟨.start client, n, none, []⟩ (before ++ o :: rest) m)
    (hem : (replay (.start client) before).hub.emitters.get? e = some em)
    (hr : o.removal? = some (e, id, found)) :
    (found = true ↔ id ∈ (e.registered before).map (·.id) ∧ id ∉ e.removed before) ∧
    (found = false → (replay (.start client) (before ++ [o])).hub.emitter e = em) ∧
    (found = true →
      (∃ l₁ l l₂, em.listeners = l₁ ++ l :: l₂ ∧ l.id = id ∧
        ((replay (.start client) (before ++ [o])).hub.emitter e).listeners = l₁ ++ l₂) ∧
      ∀ o' ∈ rest, ∀ found', o'.removal? = some (e, id, found') → found' = false) := by
  obtain ⟨m₁, hbefore, h⟩ := h.exists_of_append
  have hledger := hbefore.ledger hem
  have hstage : m₁.stage = replay (.start client) before := hbefore.stage_eq
  cases h with
  | @cons _ m₂ _ _ _ hstep hrest =>
    have ho : o.Possible m₁.stage := hstep.possible_of_removal hr
    rw [← hstage] at hem
    have hem' : m₁.stage.hub.emitter e = em := by rw [Hub.emitter, hem]; rfl
    have hfound : found = em.knows id := hem' ▸ (ho.removal hr).1
    have hcancel : (replay (.start client) (before ++ [o])).hub.emitter e = em.cancel id := by
      rw [replay_append, ← hstage]
      exact ho.emitter_of_removal hem hr
    rw [hcancel]
    subst hfound
    refine ⟨hledger.knows_iff, Emitter.cancel_of_not_knows, fun hknows =>
      ⟨hledger.ordered.cancel_of_knows hknows, fun o' ho' found' hr' => ?_⟩⟩
    -- The books tell at the time of the second removal that the handle was removed before.
    obtain ⟨rest₁, rest₂, rfl⟩ := List.append_of_mem ho'
    obtain ⟨m₃, hrest₁, h₃⟩ := hrest.exists_of_append
    have hpath₃ := (hbefore.append (.of_step hstep)).append hrest₁
    cases h₃ with
    | cons hstep₃ _ =>
      have hmem : id ∈ e.removed (before ++ [o] ++ rest₁) := by
        refine mem_removed_iff.2 ⟨o, ?_, hr.trans (by rw [hknows])⟩
        simp
      rw [((hstep₃.possible_of_removal hr').removal hr').1]
      exact hpath₃.books.knows_of_removed hmem

end

namespace Stage

/-- At every moment of a history, each emitter has its ledger: its listeners are those that were
    registered and not removed since, in the order of their handles, which are the numbers from
    zero on, so none is given twice. Whoever has a listener removed is told whether the listener
    that was given the handle was still there; it is taken away and no other, the rest keep their
    order, and whoever wants it removed again is told that it is not there. -/
theorem handles_sound {client : σ} {depth : Nat} {ops : List (Operation σ)}
    (hrun : run depth ops (start client) = some s') :
    ∃ log, recordRun depth 0 ops (start client) = some (log, s') ∧
      replay (start client) log = s' ∧
      ∀ before after, log = before ++ after → ∀ e em,
        (replay (start client) before).hub.emitters.get? e = some em →
        Ledger e before em ∧
        ∀ o rest id found, after = o :: rest → o.removal? = some (e, id, found) →
          (found = true ↔ id ∈ (e.registered before).map (·.id) ∧ id ∉ e.removed before) ∧
          (found = false → (replay (start client) (before ++ [o])).hub.emitter e = em) ∧
          (found = true →
            (∃ l₁ l l₂, em.listeners = l₁ ++ l :: l₂ ∧ l.id = id ∧
              ((replay (start client) (before ++ [o])).hub.emitter e).listeners = l₁ ++ l₂) ∧
            ∀ o' ∈ rest, ∀ found', o'.removal? = some (e, id, found') → found' = false) := by
  obtain ⟨log, hlog⟩ := exists_recordRun (n := 0) hrun
  have hpath := path_of_recordRun hlog
  refine ⟨log, hlog, hpath.stage_eq.symm, fun before after heq e em hem => ?_⟩
  subst heq
  obtain ⟨m, hbefore, -⟩ := hpath.exists_of_append
  refine ⟨hbefore.ledger hem, fun o rest id found heq hr => ?_⟩
  subst heq
  exact hpath.removal hem hr

/-- A listener is registered, removed twice, and another one registered, which is not given the
    handle of the first. -/
def returning : List (Operation Unit) :=
  [.create (.blank Unit), .act (.listen ⟨0⟩ none (fun _ => .done) fun id => .cancel ⟨0⟩ id fun _ =>
    .cancel ⟨0⟩ id fun _ => .listen ⟨0⟩ none (fun _ => .done) fun _ => .done)]

theorem handles_sound_returning : ∃ s' em log, run 1 returning (start ()) = some s' ∧
    s'.hub.emitters.get? ⟨0⟩ = some em ∧ em.listeners.map (·.id) = [⟨1⟩] ∧ Ledger ⟨0⟩ log em := by
  obtain ⟨log, -, hreplay, h⟩ := handles_sound (rfl : run 1 returning (start ()) = some _)
  have hledger := (h log [] (List.append_nil log).symm ⟨0⟩ _ (by rw [hreplay]; rfl)).1
  exact ⟨_, _, log, rfl, rfl, rfl, hledger⟩

end Stage

end Stencil
