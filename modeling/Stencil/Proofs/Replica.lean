import Stencil.Proofs.Assignment
import Stencil.Proofs.Handle

/-!
# Replicas of stores

A listener that was registered at a store, and hears of its changes, can keep a replica of it
(`Replicates`, `replica`): it starts from the fields that the store has at this moment, and puts on
top of them what it is told of every change. It need not have what the store has in the end, even
when all announcements are over (`Stage.replica_differs`). For every field it has the value that was
set last in time, whereas the store has the one that was set last.

All that it receives comes from announcements that began after it was registered
(`Path.received_eq`). Where the listener is the first one of the store, it is told of a change
before anything else can happen, so all that is set is set in time (`AtOnce`).

* `Stage.replica_eq_iff`: what a listener holds, what the store has, and when this is the same.
-/

namespace Stencil

variable {σ : Type} {s : Stage σ} {m m' : Moment σ} {o : Occurrence σ}
  {log before during : List (Occurrence σ)} {n : Nat} {store : EmitterId} {id : ListenerId}
  {l : Listener σ} {key : String} {fs : Json.Fields} {event : Event}

/-! ### Listeners that stay -/

theorem Path.ledger_of_store {client : σ} (h : Path ⟨.start client, n, none, []⟩ log m)
    (hstore : m.stage.hub.stores.contains store = true) :
    Ledger store log (m.stage.hub.emitter store) := by
  have hs := h.wellFormed (Stage.wellFormed_start client)
  obtain ⟨em, hem⟩ := Option.isSome_iff_exists.1 (hs.stores store hstore)
  have hledger := h.books.ledger store em hem
  rwa [Hub.emitter, hem]

/-- Whoever is registered at an emitter was given a handle in the chronicle. -/
theorem Path.mem_registered {client : σ} (h : Path ⟨.start client, n, none, []⟩ log m)
    (hl : l ∈ (m.stage.hub.emitter store).listeners) : l ∈ store.registered log := by
  rw [Hub.emitter] at hl
  cases hem : m.stage.hub.emitters.get? store with
  | none =>
    rw [hem] at hl
    exact absurd hl List.not_mem_nil
  | some em =>
    rw [hem] at hl
    exact (h.books.ledger store em hem).mem_registered hl

theorem Step.possible_of_registration {r : EmitterId × Listener σ} (h : Step m o m')
    (hr : o.registration? = some r) : o.Possible m.stage := by
  cases h with
  | acted ho => exact ho
  | _ => cases hr

section

variable {client : σ}

/-- A listener that is registered is given a handle that was not in use before. -/
theorem Path.id_of_registration
    (h : Path ⟨.start client, n, none, []⟩ (before ++ o :: during) m)
    (hstore : (replay (.start client) before).hub.stores.contains store = true)
    (hreg : o.registration? = some (store, l)) :
    o.removal? = none ∧ l.id ∉ store.removed before ∧
      ∀ l' ∈ store.registered before, l'.id ≠ l.id := by
  obtain ⟨m₁, hbefore, hrest⟩ := h.exists_of_append
  rw [← show m₁.stage = replay (.start client) before from hbefore.stage_eq] at hstore
  have hledger := hbefore.ledger_of_store hstore
  cases hrest with
  | cons hstep =>
    obtain ⟨-, hid, hremoval⟩ := (hstep.possible_of_registration hreg).registration
      (hbefore.wellFormed (Stage.wellFormed_start client)) hreg
    refine ⟨hremoval, hid ▸ hledger.next_not_mem_removed, fun l' hl' heq => ?_⟩
    exact Nat.ne_of_lt (hledger.index_lt hl') (congrArg ListenerId.index (heq.trans hid))

/-- The ledger of a store at which a listener was registered that was not removed since. -/
theorem Path.ledger_of_registered
    (h : Path ⟨.start client, n, none, []⟩ (before ++ o :: during) m)
    (hstore : (replay (.start client) before).hub.stores.contains store = true)
    (hreg : o.registration? = some (store, l)) (hstays : l.id ∉ store.removed during) :
    Ledger store (before ++ o :: during) (m.stage.hub.emitter store) ∧
      l.id ∉ store.removed (before ++ o :: during) := by
  have hstore' : m.stage.hub.stores.contains store = true := by
    rw [show m.stage = replay (.start client) (before ++ o :: during) from h.stage_eq,
      replay_append]
    exact contains_stores_replay hstore
  obtain ⟨hremoval, hnew, -⟩ := h.id_of_registration hstore hreg
  have hremoved : o.removedAt? store = none := by
    rw [Occurrence.removedAt?, hremoval]
    rfl
  refine ⟨h.ledger_of_store hstore', ?_⟩
  rw [EmitterId.removed, List.filterMap_append, List.filterMap_cons, hremoved, List.mem_append]
  exact not_or.2 ⟨hnew, hstays⟩

/-- Such a listener is there to hear of changes. -/
theorem Path.tells (h : Path ⟨.start client, n, none, []⟩ (before ++ o :: during) m)
    (hstore : (replay (.start client) before).hub.stores.contains store = true)
    (hreg : o.registration? = some (store, l)) (hhears : l.hears "change" = true)
    (hstays : l.id ∉ store.removed during) : m.stage.Tells store l.id := by
  obtain ⟨hledger, hnot⟩ := h.ledger_of_registered hstore hreg hstays
  have hregistered : l ∈ store.registered (before ++ o :: during) :=
    mem_registered_iff.2 ⟨o, List.mem_append_right _ List.mem_cons_self, hreg⟩
  have hmem : l ∈ (m.stage.hub.emitter store).listeners := by
    rw [hledger.listeners]
    exact List.mem_filter.2 ⟨hregistered, decide_eq_true hnot⟩
  refine ⟨List.pairwise_map.2 ?_, l, hmem, rfl, hhears⟩
  exact hledger.ordered.increasing.imp fun hlt heq => Nat.ne_of_lt hlt (congrArg _ heq)

/-- If there was no listener before it, such a listener is the first one of the store. -/
theorem Path.listeners_eq_cons
    (h : Path ⟨.start client, n, none, []⟩ (before ++ o :: during) m)
    (hstore : (replay (.start client) before).hub.stores.contains store = true)
    (hreg : o.registration? = some (store, l)) (hstays : l.id ∉ store.removed during)
    (hfirst : ((replay (.start client) before).hub.emitter store).listeners = []) :
    ∃ ls, (m.stage.hub.emitter store).listeners = l :: ls := by
  obtain ⟨hledger, hnot⟩ := h.ledger_of_registered hstore hreg hstays
  obtain ⟨m₁, hbefore, -⟩ := h.exists_of_append
  rw [← show m₁.stage = replay (.start client) before from hbefore.stage_eq] at hstore hfirst
  -- All that were registered before had been removed.
  have hgone := (hbefore.ledger_of_store hstore).listeners
  rw [hfirst, eq_comm, List.filter_eq_nil_iff] at hgone
  have hregistered : store.registered (before ++ o :: during) =
      store.registered before ++ l :: store.registered during := by
    rw [EmitterId.registered, List.filterMap_append, List.filterMap_cons,
      Occurrence.registeredAt?_eq_some_iff.2 hreg]
    rfl
  have hremoved : ∀ id ∈ store.removed before, id ∈ store.removed (before ++ o :: during) := by
    intro id hid
    rw [EmitterId.removed, List.filterMap_append]
    exact List.mem_append_left _ hid
  rw [hledger.listeners, hregistered, List.filter_append, List.filter_eq_nil_iff.2 fun l' hl' => ?_,
    List.nil_append]
  · exact ⟨_, List.filter_cons_of_pos (decide_eq_true hnot)⟩
  · have hmem : l'.id ∈ store.removed before := by simpa using hgone l' hl'
    simpa using hremoved _ hmem

end

/-! ### Who is called -/

/-- Whom an announcement calls was there when it began. -/
theorem Path.mem_listeners_of_called {cause : Option Nat} {event' : Event} (hm : m.Numbered)
    (h : Path m (before ++ .announced n cause store event :: during) m')
    (hcall : .called n l event' ∈ before ++ .announced n cause store event :: during) :
    l ∈ ((replay m.stage before).hub.emitter store).listeners := by
  have hmem {log : List (Occurrence σ)} (hcall : .called n l event' ∈ log) :
      (l, event') ∈ callsBy n log :=
    List.mem_filterMap.2 ⟨_, hcall, by rw [Occurrence.callBy?, if_pos rfl]⟩
  obtain ⟨m₁, hbefore, h⟩ := h.exists_of_append
  cases h with
  | @cons _ m₂ _ _ _ hstep hduring =>
    have hm₁ := hbefore.numbered hm
    obtain ⟨rfl, -, hfind⟩ := hstep.of_announced
    have hnext := hstep.next_lt_of_announced
    rcases List.mem_append.1 hcall with hcall | hcall
    · -- It does not call anybody before it begins.
      have hcalls := hmem hcall
      rw [hbefore.callsBy_eq_nil hm (Nat.le_refl _)] at hcalls
      cases hcalls
    · have hcalls := hmem (List.mem_of_ne_of_mem (by simp) hcall)
      have hpending : (l, event') ∈ m₂.pendingCalls m₁.next := by
        rw [hduring.pendingCalls_eq (hstep.numbered hm₁) hnext]
        exact List.mem_append_left _ hcalls
      rw [Moment.pendingCalls, hfind] at hpending
      obtain ⟨l', hl', heq⟩ := List.mem_map.1 hpending
      cases heq
      rw [← hbefore.stage_eq]
      exact (List.mem_filter.1 hl').1

/-- The registration of a listener is no set, and no part of an announcement. -/
theorem Occurrence.of_registration (hreg : o.registration? = some (store, l)) :
    o.IsQuiet ∧ o.set? store = none ∧ ¬o.Claims store := by
  cases o with
  | listened | bound => exact ⟨⟨rfl, fun _ => rfl⟩, rfl, fun h => h⟩
  | _ => cases hreg

section

variable {client : σ}

/-- What had begun before a listener was registered does not call it. -/
theorem Path.id_ne_of_called {l' : Listener σ}
    (h : Path ⟨.start client, 0, none, []⟩ (before ++ o :: during) m)
    (hstore : (replay (.start client) before).hub.stores.contains store = true)
    (hreg : o.registration? = some (store, l)) (hn : n ∈ store.begun before)
    (hcall : .called n l' event ∈ before ++ o :: during) : l'.id ≠ l.id := by
  obtain ⟨-, -, hnew⟩ := h.id_of_registration hstore hreg
  refine hnew l' ?_
  obtain ⟨x, hx, hbegins⟩ := List.mem_filterMap.1 hn
  obtain ⟨before₁, before₂, rfl⟩ := List.append_of_mem hx
  cases x with
  | announced n' cause source event' =>
    rw [Occurrence.begins?] at hbegins
    split at hbegins
    · next hsource =>
      cases hbegins
      subst hsource
      rw [List.append_assoc, List.cons_append] at h hcall
      have hl' := h.mem_listeners_of_called (Moment.numbered_of_idle _ 0) hcall
      obtain ⟨m₁, hbefore₁, -⟩ := h.exists_of_append
      rw [← show m₁.stage = replay (.start client) before₁ from hbefore₁.stage_eq] at hl'
      rw [EmitterId.registered, List.filterMap_append]
      exact List.mem_append_left _ (hbefore₁.mem_registered hl')
    · cases hbegins
  | _ => cases hbegins

/-- All that a listener receives comes from what begins after it was registered. -/
theorem Path.received_eq (h : Path ⟨.start client, 0, none, []⟩ (before ++ o :: during) m)
    (hstore : (replay (.start client) before).hub.stores.contains store = true)
    (hreg : o.registration? = some (store, l)) :
    received store l.id (before ++ o :: during) = received store l.id during := by
  have hbegun : store.begun (before ++ [o]) = store.begun before := by
    rw [EmitterId.begun, List.filterMap_append, List.filterMap_cons_none, List.filterMap_nil,
      List.append_nil, EmitterId.begun]
    exact (Occurrence.of_registration hreg).1.begins?_eq_none store
  have hne {n : Nat} {l' : Listener σ} {event : Event}
      (hcall : .called n l' event ∈ before ++ [o] ++ during)
      (hn : n ∈ store.begun (before ++ [o])) : l'.id ≠ l.id :=
    h.id_ne_of_called hstore hreg (hbegun ▸ hn) (by rwa [List.append_cons])
  rw [List.append_cons, received_append fun n l' event hcall =>
      hne (List.mem_append_right _ hcall),
    received_eq_nil fun n l' event hcall => hne (List.mem_append_left _ hcall), List.nil_append]

end

/-! ### The first listener -/

/-- What there is to say about a field as long as the listener is the first one of the store:
    nothing is waiting, except for an announcement that has just begun and is about to call it. -/
structure AtOnce (id : ListenerId) (news : News) (log : List (Occurrence σ)) (m : Moment σ) :
    Prop where
  inTime_eq : news.inTime = news.last
  waiting : news.waiting = [] ∨ ∃ n cause source event l ls, news.waiting = [n] ∧
    log.getLast? = some (.announced n cause source event) ∧ l.id = id ∧
    (m.find? n).map (·.left) = some (l :: ls)

theorem Stage.left_begin_eq_cons {ls : List (Listener σ)} (hhears : l.hears event.name = true)
    (hfirst : (s.hub.emitter store).listeners = l :: ls) (n : Nat) :
    ∃ ls', (s.begin n store event).left = l :: ls' := by
  refine ⟨ls.filter (·.hears event.name), ?_⟩
  rw [begin, Emitter.hearing, hfirst, List.filter_cons, if_pos hhears]

namespace AtOnce

variable {news : News}

theorem start (id : ListenerId) (m : Moment σ) : AtOnce id ⟨[], none, none⟩ [] m :=
  ⟨rfl, .inl rfl⟩

/-- An announcement that has just begun calls the listener, as this is the first one. -/
theorem step_waiting (h : AtOnce id news log m) (hm : m.Numbered) (hstep : Step m o m')
    (hleads : ∀ o' ∈ log.getLast?, o'.Leads o) (hwaiting : news.waiting ≠ []) :
    ∃ n l event, o = .called n l event ∧ l.id = id ∧ news.waiting = [n] := by
  obtain ⟨n, cause, source, event, l, ls, hn, hlast, hl, hfind⟩ := h.waiting.resolve_left hwaiting
  obtain ⟨a, ha, hleft⟩ := Option.map_eq_some_iff.1 hfind
  rcases hleads _ hlast with ⟨l', rfl⟩ | ⟨count, rfl⟩
  · obtain ⟨b, ls', hb, -, hleft', -⟩ := hstep.of_called hm
    obtain rfl := Option.some.inj (ha.symm.trans hb)
    rw [hleft, List.cons.injEq] at hleft'
    exact ⟨n, l', event, rfl, hleft'.1 ▸ hl, hn⟩
  · -- It is not over, as it has to call the listener.
    obtain ⟨-, -, hpending⟩ := hstep.of_answered
    rw [Moment.pendingCalls, ha] at hpending
    change a.left.map _ = [] at hpending
    rw [hleft] at hpending
    cases hpending

theorem step (h : AtOnce id news log m) (hm : m.Numbered) (hstep : Step m o m')
    (hleads : ∀ o' ∈ log.getLast?, o'.Leads o) {ls : List (Listener σ)} (hl : l.id = id)
    (hhears : l.hears "change" = true) (hfirst : (m.stage.hub.emitter store).listeners = l :: ls) :
    AtOnce id (news.next store id key o) (log ++ [o]) m' := by
  by_cases hwaiting : news.waiting = []
  · cases o with
    | announced n cause source event =>
      rw [News.next]
      split
      · next hsource =>
        subst hsource
        split
        · next v htold =>
          obtain ⟨-, -, hfind⟩ := hstep.of_announced
          have hsome : (event.told? key).isSome = true := by rw [htold]; rfl
          rw [← Event.name_of_told? hsome] at hhears
          obtain ⟨ls', hleft⟩ := Stage.left_begin_eq_cons hhears hfirst n
          rw [hwaiting]
          refine ⟨rfl, .inr ⟨n, cause, source, event, l, ls', rfl, by simp, hl, ?_⟩⟩
          rw [hfind, Option.map_some, hleft]
        · exact ⟨h.inTime_eq, .inl hwaiting⟩
      · exact ⟨h.inTime_eq, .inl hwaiting⟩
    | called n l event =>
      rw [News.next]
      split
      · exact ⟨h.inTime_eq, .inl (by rw [hwaiting]; rfl)⟩
      · exact ⟨h.inTime_eq, .inl hwaiting⟩
    | _ => exact ⟨h.inTime_eq, .inl hwaiting⟩
  · obtain ⟨n, l, event, rfl, hl, hn⟩ := h.step_waiting hm hstep hleads hwaiting
    rw [News.next, if_pos hl, hn, List.erase_cons_head]
    exact ⟨h.inTime_eq, .inl rfl⟩

end AtOnce

/-- As long as a listener is the first one of a store, all that the store announces is announced in
    time. -/
theorem Path.atOnce (h : Path m log m') (hm : m.Numbered) (hhears : l.hears "change" = true)
    (key : String) :
    log.IsChain Occurrence.Leads →
    (∀ before, before <+: log →
      ∃ ls, ((replay m.stage before).hub.emitter store).listeners = l :: ls) →
    AtOnce l.id (News.of store l.id key log) log m' :=
  h.concat_induction (motive := fun log m' => log.IsChain Occurrence.Leads →
      (∀ before, before <+: log →
        ∃ ls, ((replay m.stage before).hub.emitter store).listeners = l :: ls) →
      AtOnce l.id (News.of store l.id key log) log m')
    (fun _ _ => .start ..)
    fun {log o m₁ m₂} hpath hstep ih hchain hfirst => by
      obtain ⟨hlog, -, hleads⟩ := List.isChain_append.1 hchain
      obtain ⟨ls, hls⟩ := hfirst log (List.prefix_append ..)
      rw [← hpath.stage_eq] at hls
      rw [News.of_concat]
      have hbefore := ih hlog fun before hbefore =>
        hfirst before (hbefore.trans (List.prefix_append ..))
      exact hbefore.step (hpath.numbered hm) hstep (fun o' ho' => hleads o' ho' o (by simp)) rfl
        hhears hls

/-! ### Replicas in a history -/

/-- No change of a store is under way: what was set last has been announced, and all announcements
    of changes are over. -/
structure Settled (store : EmitterId) (log : List (Occurrence σ)) : Prop where
  told : ∀ o ∈ log.getLast?, o.set? store = none
  ended : ∀ n cause event, .announced n cause store event ∈ log → event.name = "change" →
    ∃ count, .answered n count ∈ log

/-- So it is when nothing at all is under way that the store announces. -/
theorem Settled.of_begun (htold : ∀ o ∈ log.getLast?, o.set? store = none)
    (hended : ∀ n ∈ store.begun log, ∃ count, .answered n count ∈ log) : Settled store log where
  told := htold
  ended n cause event hmem _ :=
    hended n (List.mem_filterMap.2 ⟨_, hmem, by rw [Occurrence.begins?, if_pos rfl]⟩)

/-- A listener keeps a replica of a store: it was registered at a store to hear of its changes, and
    was not removed since; and no change of the store is under way. -/
structure Replicates (s₀ : Stage σ) (before : List (Occurrence σ)) (o : Occurrence σ)
    (during : List (Occurrence σ)) (store : EmitterId) (l : Listener σ) : Prop where
  isStore : (replay s₀ before).hub.stores.contains store = true
  registered : o.registration? = some (store, l)
  hears : l.hears "change" = true
  stays : l.id ∉ store.removed during
  settled : Settled store during

/-- What a listener holds that starts from the fields of a store at its registration, and puts on
    top of them what it is told of every change, in the order in which it is called. -/
def replica (s₀ : Stage σ) (before : List (Occurrence σ)) (o : Occurrence σ)
    (during : List (Occurrence σ)) (store : EmitterId) (l : Listener σ) : Json.Fields :=
  ((replay s₀ (before ++ [o])).hub.fields store).applied
    (received store l.id (before ++ o :: during))

theorem Replicates.stays_of_prefix {s₀ : Stage σ}
    (hr : Replicates s₀ before o during store l) {log : List (Occurrence σ)}
    (hlog : log <+: during) : l.id ∉ store.removed log := by
  obtain ⟨rest, rfl⟩ := hlog
  intro hmem
  refine hr.stays ?_
  rw [EmitterId.removed, List.filterMap_append]
  exact List.mem_append_left _ hmem

/-- A path that goes on for a while leads to a moment on it. -/
theorem Path.exists_of_prefix {m₁ : Moment σ} (h : Path m (before ++ [o]) m₁)
    (hduring : Path m₁ during m') (hlog : log <+: during) :
    ∃ m₂, Path m (before ++ o :: log) m₂ ∧ m₂.stage = replay m₁.stage log := by
  obtain ⟨rest, rfl⟩ := hlog
  obtain ⟨m₂, hlog, -⟩ := hduring.exists_of_append
  rw [List.append_cons]
  exact ⟨m₂, h.append hlog, hlog.stage_eq⟩

section

variable {client : σ}

/-- What a listener holds is what was announced last in time. -/
theorem Path.get?_replica (h : Path ⟨.start client, 0, none, []⟩ (before ++ o :: during) m)
    (hr : Replicates (.start client) before o during store l) (key : String) :
    Json.Fields.get? key (replica (.start client) before o during store l) =
      (News.of store l.id key during).inTime.or (Json.Fields.get? key
        ((replay (.start client) (before ++ [o])).hub.fields store)) := by
  rw [replica, h.received_eq hr.isStore hr.registered]
  rw [List.append_cons] at h
  obtain ⟨m₁, hbefore, hduring⟩ := h.exists_of_append
  have hm₁ := hbefore.numbered (Moment.numbered_of_idle _ 0)
  have htells : ∀ log, log <+: during → (replay m₁.stage log).Tells store l.id := by
    intro log hlog
    obtain ⟨m₂, hpath, hstage⟩ := hbefore.exists_of_prefix hduring hlog
    rw [← hstage]
    exact hpath.tells hr.isStore hr.registered hr.hears (hr.stays_of_prefix hlog)
  have hkept := hduring.kept hm₁ key
    ((replay (.start client) (before ++ [o])).hub.fields store) htells
  exact hkept.holds (hduring.waiting_eq_nil hm₁ hkept hr.settled.ended)

/-- What a store has is what it had when a listener was registered, with all that was set since on
    top of it. -/
theorem Path.fields_since (h : Path ⟨.start client, 0, none, []⟩ (before ++ o :: during) m)
    (hstore : (replay (.start client) before).hub.stores.contains store = true) :
    m.stage.hub.fields store =
      Json.Fields.merge ((replay (.start client) (before ++ [o])).hub.fields store)
        (sets store during) := by
  rw [List.append_cons] at h
  obtain ⟨m₁, hbefore, hduring⟩ := h.exists_of_append
  have hstage : m₁.stage = replay (.start client) (before ++ [o]) := hbefore.stage_eq
  have hstore₁ : m₁.stage.hub.stores.contains store = true := by
    rw [hstage, replay_append]
    exact contains_stores_replay hstore
  rw [hduring.fields_eq (hbefore.wellFormed (Stage.wellFormed_start client)) hstore₁, hstage]

/-- What a store has is what was announced last. -/
theorem Path.get?_fields (h : Path ⟨.start client, 0, none, []⟩ (before ++ o :: during) m)
    (hprompt : (o :: during).IsChain Occurrence.Leads)
    (hr : Replicates (.start client) before o during store l)
    (htruthful : Truthful store (o :: during)) (key : String) :
    Json.Fields.get? key (m.stage.hub.fields store) =
      (News.of store l.id key during).last.or (Json.Fields.get? key
        ((replay (.start client) (before ++ [o])).hub.fields store)) := by
  obtain ⟨hquiet, hset, hclaims⟩ := Occurrence.of_registration hr.registered
  have hlast : ∀ x ∈ (o :: during).getLast?, x.set? store = none := by
    intro x hx
    rw [List.getLast?_cons, Option.mem_some_iff] at hx
    cases hend : during.getLast? with
    | none => rwa [← hx, hend]
    | some y =>
      rw [← hx, hend]
      exact hr.settled.told y hend
  -- The registration has no part in what was set and announced.
  have hsets : sets store (o :: during) = sets store during := List.filterMap_cons_none hset
  have hnews : News.of store l.id key (o :: during) = News.of store l.id key during := by
    rw [News.of, List.foldl_cons, hquiet.news_next]
    rfl
  have hmerge := (get?_merge_sets hprompt htruthful (by simpa using hclaims) l.id key
    ((replay (.start client) (before ++ [o])).hub.fields store)).1 hlast
  rw [h.fields_since hr.isStore, ← hsets, hmerge, hnews]

/-- A listener that was registered before all others is told in time. -/
theorem Path.inTime_of_first (h : Path ⟨.start client, 0, none, []⟩ (before ++ o :: during) m)
    (hprompt : (o :: during).IsChain Occurrence.Leads)
    (hr : Replicates (.start client) before o during store l)
    (hfirst : ((replay (.start client) before).hub.emitter store).listeners = []) (key : String) :
    (News.of store l.id key during).inTime = (News.of store l.id key during).last := by
  rw [List.append_cons] at h
  obtain ⟨m₁, hbefore, hduring⟩ := h.exists_of_append
  have hm₁ := hbefore.numbered (Moment.numbered_of_idle _ 0)
  have hcons : ∀ log, log <+: during →
      ∃ ls, ((replay m₁.stage log).hub.emitter store).listeners = l :: ls := by
    intro log hlog
    obtain ⟨m₂, hpath, hstage⟩ := hbefore.exists_of_prefix hduring hlog
    rw [← hstage]
    exact hpath.listeners_eq_cons hr.isStore hr.registered (hr.stays_of_prefix hlog) hfirst
  exact (hduring.atOnce hm₁ hr.hears key hprompt.tail hcons).inTime_eq

end

theorem Json.Fields.Ordered.applied (h : fs.Ordered) (events : List Event) :
    (fs.applied events).Ordered := by
  induction events generalizing fs with
  | nil => exact h
  | cons event events ih => exact ih (h.merge event.told)

namespace Stage

/-- A listener may be registered at a store at any time, also while the store announces something,
    and listeners may set fields of the store again while it announces a change. Let this listener
    keep a replica, and let the store tell of changes only where fields are set. Then at any moment
    of a history at which no change of the store is under way, and so whenever a set that was not
    made in the course of another one is over, the listener holds of every field the value that was
    set last *in time*, and the store has the value that was set last. A field is set in time if no
    announcement of another change of it has still to call the listener.

    So the listener holds just what the store has if and only if of every field the value that was
    set last in time is the one that was set last. In particular it does if there was no listener
    at the store when it was registered. -/
theorem replica_eq_iff {client : σ} {depth : Nat} {ops : List (Operation σ)} {s' : Stage σ}
    (hrun : run depth ops (start client) = some s') :
    ∃ log, recordRun depth 0 ops (start client) = some (log, s') ∧
      replay (start client) log = s' ∧
      ∀ before o during rest store l, log = before ++ o :: during ++ rest →
        Replicates (start client) before o during store l → Truthful store (o :: during) →
        let snapshot := (replay (start client) (before ++ [o])).hub.fields store
        let fields := (replay (start client) (before ++ o :: during)).hub.fields store
        let held := replica (start client) before o during store l
        let news := fun key => News.of store l.id key during
        (∀ key, Json.Fields.get? key held = (news key).inTime.or (Json.Fields.get? key snapshot)) ∧
        (∀ key, Json.Fields.get? key fields = (news key).last.or (Json.Fields.get? key snapshot)) ∧
        (snapshot.Ordered → (held = fields ↔ ∀ key, (news key).inTime = (news key).last)) ∧
        (((replay (start client) before).hub.emitter store).listeners = [] →
          ∀ key, (news key).inTime = (news key).last) := by
  obtain ⟨log, hlog⟩ := exists_recordRun (n := 0) hrun
  have hpath := path_of_recordRun hlog
  refine ⟨log, hlog, hpath.stage_eq.symm, ?_⟩
  intro before o during rest store l heq hr htruthful
  have hprompt := (prompt_of_recordRun hlog).chain
  rw [heq] at hpath hprompt
  obtain ⟨m, hduring, -⟩ := hpath.exists_of_append
  have hprompt : (o :: during).IsChain Occurrence.Leads :=
    (List.isChain_append.1 (List.isChain_append.1 hprompt).1).2.1
  intro snapshot fields held news
  have hstage : m.stage = replay (start client) (before ++ o :: during) := hduring.stage_eq
  have hheld (key : String) :
      Json.Fields.get? key held = (news key).inTime.or (Json.Fields.get? key snapshot) :=
    hduring.get?_replica hr key
  have hfields (key : String) :
      Json.Fields.get? key fields = (news key).last.or (Json.Fields.get? key snapshot) := by
    rw [← hduring.get?_fields hprompt hr htruthful key, hstage]
  refine ⟨hheld, hfields, fun hordered => ⟨fun heq key => ?_, fun hnews => ?_⟩,
    hduring.inTime_of_first hprompt hr⟩
  · refine (News.inTime_or_eq_iff store l.id key during (Json.Fields.get? key snapshot)).1 ?_
    exact (hheld key).symm.trans ((congrArg (Json.Fields.get? key) heq).trans (hfields key))
  · have hfields_ordered : fields.Ordered := by
      rw [show fields = m.stage.hub.fields store by rw [hstage], hduring.fields_since hr.isStore]
      exact hordered.merge _
    refine (hordered.applied _).ext hfields_ordered fun key => ?_
    exact (hheld key).trans (hnews key ▸ (hfields key).symm)

/-- Sets a copy of a field when this changes. -/
def copyOriginal (event : Event) : Reaction Unit :=
  if (event.told? "original").isSome then .set ⟨0⟩ "copy" (.ofNat 1) .done else .done

/-- A store, a listener that copies one of its fields, and one behind it that keeps a replica. -/
def copying : List (Operation Unit) :=
  [.openStore [], .act (.listen ⟨0⟩ (some "change") copyOriginal fun _ => .done),
    .act (.listen ⟨0⟩ (some "change") (fun _ => .done) fun _ => .done),
    .act (.set ⟨0⟩ "original" (.ofNat 1) .done)]

theorem replica_eq_iff_copying : ∃ s' before o during l,
    run 3 copying (start ()) = some s' ∧
    recordRun 3 0 copying (start ()) = some (before ++ o :: during ++ [], s') ∧
    Replicates (start ()) before o during ⟨0⟩ l ∧ Truthful ⟨0⟩ (o :: during) ∧
    replica (start ()) before o during ⟨0⟩ l = s'.hub.fields ⟨0⟩ := by
  let copier : Listener Unit := ⟨⟨0⟩, some "change", .react copyOriginal⟩
  let l : Listener Unit := ⟨⟨1⟩, some "change", .react fun _ => .done⟩
  let original := Hub.changeEvent "original" (.ofNat 1)
  let copied := Hub.changeEvent "copy" (.ofNat 1)
  let before : List (Occurrence Unit) := [.opened [], .listened ⟨0⟩ copier]
  let during : List (Occurrence Unit) := [.stored ⟨0⟩ "original" (.ofNat 1),
    .announced 0 none ⟨0⟩ original, .called 0 copier original, .stored ⟨0⟩ "copy" (.ofNat 1),
    .announced 1 none ⟨0⟩ copied, .called 1 copier copied, .called 1 l copied, .answered 1 2,
    .called 0 l original, .answered 0 2]
  have hrecord : recordRun 3 0 copying (start ()) =
      some (before ++ .listened ⟨0⟩ l :: during ++ [], _) := rfl
  have hsettled : Settled ⟨0⟩ during :=
    .of_begun (by simp [during, Occurrence.set?])
      (by simp [during, EmitterId.begun, Occurrence.begins?])
  have htruthful : Truthful ⟨0⟩ (.listened ⟨0⟩ l :: during) := by
    simp [Truthful, during, Occurrence.Claims, Occurrence.set?]
  have hr : Replicates (start ()) before (.listened ⟨0⟩ l) during ⟨0⟩ l :=
    ⟨rfl, rfl, rfl, List.not_mem_nil, hsettled⟩
  obtain ⟨log, hlog, -, h⟩ := replica_eq_iff (rfl : run 3 copying (start ()) = some _)
  have heq := (Prod.mk.inj (Option.some.inj (hlog.symm.trans hrecord))).1
  obtain ⟨-, -, hiff, -⟩ := h _ _ _ _ _ _ heq hr htruthful
  refine ⟨_, _, _, during, l, rfl, hrecord, hr, htruthful, (hiff List.Pairwise.nil).2 fun key => ?_⟩
  by_cases ho : "original" = key
  · subst ho
    rfl
  · by_cases hc : "copy" = key
    · subst hc
      rfl
    · simp [News.of, during, News.next, original, copied, Event.told?_changeEvent, ho, hc]

/-- Corrects a field when it changes for the first time. -/
def correctOnce (_ : Event) : Reaction Bool :=
  .consult fun corrected =>
    if corrected then .done else .change (fun _ => true) (.set ⟨0⟩ "field" (.ofNat 2) .done)

/-- A store, a listener that corrects a field, and one behind it that keeps a replica. -/
def correcting : List (Operation Bool) :=
  [.openStore [], .act (.listen ⟨0⟩ (some "change") correctOnce fun _ => .done),
    .act (.listen ⟨0⟩ (some "change") (fun _ => .done) fun _ => .done),
    .act (.set ⟨0⟩ "field" (.ofNat 1) .done)]

/-- A store, a listener that keeps a replica, and somebody who tells of a change that is none. -/
def pretending : List (Operation Unit) :=
  [.openStore [], .act (.listen ⟨0⟩ (some "change") (fun _ => .done) fun _ => .done),
    .act (.emit ⟨0⟩ (Hub.changeEvent "field" (.ofNat 1)) fun _ =>
      .set ⟨0⟩ "other" (.ofNat 1) .done)]

/-- A listener need not hold in the end what the store has: of two changes of a field, it is told
    of the second one first if that is made by a listener before it; and it is told of changes that
    are none. -/
theorem replica_differs :
    (∃ s' before o during l,
      run 3 correcting (start false) = some s' ∧
      recordRun 3 0 correcting (start false) = some (before ++ o :: during, s') ∧
      Replicates (start false) before o during ⟨0⟩ l ∧ Truthful ⟨0⟩ (o :: during) ∧
      replica (start false) before o during ⟨0⟩ l = [("field", .ofNat 1)] ∧
      s'.hub.fields ⟨0⟩ = [("field", .ofNat 2)]) ∧
    ∃ s' before o during l,
      run 2 pretending (start ()) = some s' ∧
      recordRun 2 0 pretending (start ()) = some (before ++ o :: during, s') ∧
      Replicates (start ()) before o during ⟨0⟩ l ∧
      replica (start ()) before o during ⟨0⟩ l = [("field", .ofNat 1), ("other", .ofNat 1)] ∧
      s'.hub.fields ⟨0⟩ = [("other", .ofNat 1)] := by
  constructor
  · let corrector : Listener Bool := ⟨⟨0⟩, some "change", .react correctOnce⟩
    let l : Listener Bool := ⟨⟨1⟩, some "change", .react fun _ => .done⟩
    let one := Hub.changeEvent "field" (.ofNat 1)
    let two := Hub.changeEvent "field" (.ofNat 2)
    let during : List (Occurrence Bool) := [.stored ⟨0⟩ "field" (.ofNat 1),
      .announced 0 none ⟨0⟩ one, .called 0 corrector one, .changed true,
      .stored ⟨0⟩ "field" (.ofNat 2), .announced 1 none ⟨0⟩ two, .called 1 corrector two,
      .called 1 l two, .answered 1 2, .called 0 l one, .answered 0 2]
    have hrecord : recordRun 3 0 correcting (start false) =
        some ([.opened [], .listened ⟨0⟩ corrector] ++ .listened ⟨0⟩ l :: during, _) := rfl
    have hsettled : Settled ⟨0⟩ during :=
      .of_begun (by simp [during, Occurrence.set?])
        (by simp [during, EmitterId.begun, Occurrence.begins?])
    have htruthful : Truthful ⟨0⟩ (.listened ⟨0⟩ l :: during) := by
      simp [Truthful, during, Occurrence.Claims, Occurrence.set?]
    exact ⟨_, _, _, during, l, rfl, hrecord, ⟨rfl, rfl, rfl, List.not_mem_nil, hsettled⟩,
      htruthful, rfl, rfl⟩
  · let l : Listener Unit := ⟨⟨0⟩, some "change", .react fun _ => .done⟩
    let field := Hub.changeEvent "field" (.ofNat 1)
    let other := Hub.changeEvent "other" (.ofNat 1)
    let during : List (Occurrence Unit) := [.announced 0 none ⟨0⟩ field, .called 0 l field,
      .answered 0 1, .stored ⟨0⟩ "other" (.ofNat 1), .announced 1 none ⟨0⟩ other,
      .called 1 l other, .answered 1 1]
    have hrecord : recordRun 2 0 pretending (start ()) =
        some ([.opened []] ++ .listened ⟨0⟩ l :: during, _) := rfl
    have hsettled : Settled ⟨0⟩ during :=
      .of_begun (by simp [during, Occurrence.set?])
        (by simp [during, EmitterId.begun, Occurrence.begins?])
    exact ⟨_, _, _, during, l, rfl, hrecord, ⟨rfl, rfl, rfl, List.not_mem_nil, hsettled⟩, rfl, rfl⟩

end Stage

end Stencil
