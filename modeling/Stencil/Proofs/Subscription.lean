import Stencil.Proofs.Audience

/-!
# Subscriptions of templates

As long as programs remove only listeners that they registered (`Honest`), the forwarding
listeners of a store are those of its audience, one for each and in the same order (`Served`).
And whatever programs do, a listener goes away only by a removal that a program asks for, or
because the template whose listener it is gives up its source, or with the emitter of a template
(`Occurrence.Possible.listener_stays`).

* `Subscriptions`: what there is to say about the templates that are connected to stores.
* `Stage.subscriptions_sound`: so it is at every moment of a history.
-/

namespace Stencil

variable {σ : Type} {s s₀ : Stage σ} {m : Moment σ} {o : Occurrence σ}
  {log log' : List (Occurrence σ)} {e store : EmitterId} {em : Emitter σ} {t t' : TemplateId}
  {u : Template σ} {l : Listener σ}

/-! ### Forwarding listeners -/

/-- Programs have only those listeners removed that they registered at the same emitter. -/
def Honest (log : List (Occurrence σ)) : Prop :=
  ∀ before e id found after, log = before ++ .cancelled e id found :: after →
    ∃ l, .listened e l ∈ before ∧ l.id = id

theorem Honest.of_append (h : Honest (log ++ log')) : Honest log :=
  fun before e id found after heq =>
    h before e id found (after ++ log') (by rw [heq, List.append_assoc]; rfl)

/-- The listeners that forward events. -/
def Emitter.forwarding (em : Emitter σ) : List (Listener σ) :=
  em.listeners.filter (·.forwardsTo?.isSome)

theorem Emitter.forwarding_listen (em : Emitter σ) (filter : Option String) (handler : Handler σ) :
    (em.listen filter handler).forwarding =
      em.forwarding ++ [⟨em.next, filter, handler⟩].filter (·.forwardsTo?.isSome) :=
  List.filter_append ..

theorem Emitter.forwarding_cancel (em : Emitter σ) (id : ListenerId) :
    (em.cancel id).forwarding = em.forwarding.filter fun l => decide (l.id ≠ id) := by
  simp only [forwarding, cancel, List.filter_filter, Bool.and_comm]

/-- The listeners of some templates at the stores they watch. -/
def Stage.forwarders (s : Stage σ) (ts : List TemplateId) : List (Listener σ) :=
  ts.filterMap fun t => (s.watch? t).map Prod.snd

theorem Stage.forwarders_congr {s s' : Stage σ} {ts : List TemplateId}
    (h : ∀ t ∈ ts, s'.watch? t = s.watch? t) : s'.forwarders ts = s.forwarders ts :=
  List.filterMap_congr fun t ht => by rw [h t ht]

theorem Stage.forall₂_forwarders {ts : List TemplateId}
    (h : ∀ t ∈ ts, ∃ l, s.watch? t = some (store, l)) :
    List.Forall₂ (fun t l => s.watch? t = some (store, l)) ts (s.forwarders ts) := by
  induction ts with
  | nil => exact .nil
  | cons t ts ih =>
    obtain ⟨l, hl⟩ := h t List.mem_cons_self
    have hcons : s.forwarders (t :: ts) = l :: s.forwarders ts := by
      rw [forwarders, List.filterMap_cons, hl]
      rfl
    rw [hcons]
    exact .cons hl (ih fun t' ht' => h t' (List.mem_cons_of_mem _ ht'))

/-- An emitter that is not there stays without listeners. -/
theorem Occurrence.Possible.edit_fresh (ho : o.Possible s) (hs : s.WellFormed)
    (he : s.hub.emitters.contains e = false) : o.edit e .fresh = .fresh := by
  unfold Occurrence.edit
  split
  · next target l heq =>
    refine if_neg ?_
    rintro rfl
    rw [(ho.registration hs heq).1] at he
    cases he
  · split <;> rfl
  · rfl

theorem Stage.forwarders_append (s : Stage σ) (ts ts' : List TemplateId) :
    s.forwarders (ts ++ ts') = s.forwarders ts ++ s.forwarders ts' := List.filterMap_append

theorem Stage.forwarders_singleton (s : Stage σ) (t : TemplateId) :
    s.forwarders [t] = ((s.watch? t).map Prod.snd).toList := by
  rw [forwarders, List.filterMap_cons]
  cases (s.watch? t).map Prod.snd <;> rfl

/-- What becomes of the emitter of a handle, unless its template goes away. -/
theorem Occurrence.Possible.emitter_effect (ho : o.Possible s) (hs : s.WellFormed)
    (e : EmitterId) :
    (o.effect s).hub.emitter e = o.edit e (s.hub.emitter e) ∨
    ∃ t u, o = .dropped t ∧ s.template? t = some u ∧ e = u.emitter ∧
      (o.effect s).hub.emitter e = .fresh := by
  have hmissing : s.hub.emitters.get? e = none →
      s.hub.emitter e = .fresh ∧ o.edit e .fresh = .fresh := by
    intro hnone
    refine ⟨by rw [Hub.emitter, hnone]; rfl, ho.edit_fresh hs ?_⟩
    rw [OrderedMap.contains, hnone]
    rfl
  rcases ho.get?_emitters e with ⟨rfl, hfresh, -⟩ | ⟨t, u, rfl, hu, rfl, hnone⟩ | hstays
  · have hnone : s.hub.emitters.get? s.hub.next = none := by
      simpa [OrderedMap.contains] using hs.not_contains_next.1
    rw [(hmissing hnone).1, (hmissing hnone).2, Hub.emitter, hfresh]
    exact .inl rfl
  · exact .inr ⟨t, u, rfl, hu, rfl, by rw [Hub.emitter, hnone]; rfl⟩
  · refine .inl ?_
    cases hem : s.hub.emitters.get? e with
    | none =>
      rw [(hmissing hem).1, (hmissing hem).2, Hub.emitter, hstays, hem]
      rfl
    | some em =>
      rw [Hub.emitter, Hub.emitter, hstays, hem]
      rfl

/-- As long as programs are honest, the forwarding listeners of an emitter are those of its
    audience. -/
def Served (s₀ : Stage σ) (log : List (Occurrence σ)) : Prop :=
  ∀ e, ((replay s₀ log).hub.emitter e).forwarding = (replay s₀ log).forwarders (audience e log)

namespace Attended

theorem mem_registered (ha : Attended s₀ log)
    (hw : (replay s₀ log).watch? t = some (store, l)) : l ∈ store.registered log := by
  obtain ⟨before, after, heq, -⟩ := ha.issued t store l hw
  exact mem_registered_iff.2 ⟨_, heq ▸ List.mem_append_right _ List.mem_cons_self, rfl⟩

theorem contains_of_mem (ha : Attended s₀ log) (hs : (replay s₀ log).WellFormed)
    (ht : t ∈ audience e log) : (replay s₀ log).hub.stores.contains e = true := by
  obtain ⟨l, hl⟩ := (ha.mem_iff e t).1 ht
  exact hs.contains_of_watch? hl

/-- Of two templates that watch a store, each has a handle of its own. -/
theorem eq_of_id (ha : Attended s₀ log) (hb : Books log (replay s₀ log))
    (hs : (replay s₀ log).WellFormed) {l' : Listener σ}
    (hw : (replay s₀ log).watch? t = some (store, l))
    (hw' : (replay s₀ log).watch? t' = some (store, l')) (hid : l.id = l'.id) : t = t' := by
  obtain ⟨em, hem⟩ :=
    Option.isSome_iff_exists.1 (hs.stores store (hs.contains_of_watch? hw))
  have heq := (hb.ledger store em hem).eq_of_id (ha.mem_registered hw) (ha.mem_registered hw') hid
  subst heq
  exact hs.eq_of_watch? hw hw'

/-- What a program removes is no forwarding listener. -/
theorem forwarding_cancel (ha : Attended s₀ log) (hb : Books log (replay s₀ log))
    (hl : .listened e l ∈ log) :
    (((replay s₀ log).hub.emitter e).cancel l.id).forwarding =
      ((replay s₀ log).hub.emitter e).forwarding := by
  rw [Emitter.forwarding_cancel]
  refine List.filter_eq_self.2 fun l' hl' => decide_eq_true fun hid => ?_
  obtain ⟨hmem, hforwards⟩ := List.mem_filter.1 hl'
  cases hem : (replay s₀ log).hub.emitters.get? e with
  | none =>
    rw [Hub.emitter, hem] at hmem
    cases hmem
  | some em =>
    rw [Hub.emitter, hem] at hmem
    have hledger := hb.ledger e em hem
    -- Of its handle there is only the listener that the program registered.
    have hregistered : l ∈ e.registered log := mem_registered_iff.2 ⟨_, hl, rfl⟩
    rw [hledger.eq_of_id (hledger.mem_registered hmem) hregistered hid,
      ha.reacts e l hl] at hforwards
    cases hforwards

/-- When a template gives up a store, its listener goes, and no other one. -/
theorem forwarders_filter (ha : Attended s₀ log) (hb : Books log (replay s₀ log))
    (hs : (replay s₀ log).WellFormed) (hw : (replay s₀ log).watch? t = some (store, l)) :
    ((replay s₀ log).forwarders (audience store log)).filter (fun l' => decide (l'.id ≠ l.id)) =
      (replay s₀ log).forwarders ((audience store log).filter fun t' => decide (t' ≠ t)) := by
  rw [Stage.forwarders, List.filter_filterMap, Stage.forwarders, List.filterMap_filter]
  refine List.filterMap_congr fun t' ht' => ?_
  obtain ⟨l', hw'⟩ := (ha.mem_iff store t').1 ht'
  rw [hw']
  by_cases ht : t' = t
  · subst ht
    rw [hw] at hw'
    cases hw'
    simp
  · have hid : l'.id ≠ l.id := fun hid => ht (ha.eq_of_id hb hs hw' hw hid)
    simp [ht, hid]

theorem served_bound (ha : Attended s₀ log) (hs : (replay s₀ log).WellFormed)
    (hserved : Served s₀ log) {source : Source} {registration : Option (EmitterId × Listener σ)}
    (heq : o = .bound t source registration) (ho : o.Possible (replay s₀ log)) (e : EmitterId) :
    (o.edit e ((replay s₀ log).hub.emitter e)).forwarding =
      (o.effect (replay s₀ log)).forwarders (o.attend e (audience e log)) := by
  have hwatch := ho.watch?_effect hs
  subst heq
  obtain ⟨u, hu, hnone, -, rfl⟩ := ho
  have hnot : t ∉ audience e log := ha.not_mem (Stage.watch?_of_source hu hnone) e
  have hold := Stage.forwarders_congr fun t' ht' =>
    (hwatch t').trans (if_neg fun ht : t' = t => hnot (ht ▸ ht'))
  cases source with
  | value v => exact (hserved e).trans hold.symm
  | store store =>
    by_cases he : e = store
    · subst he
      -- The template comes last in the audience, and its listener last at the store.
      refine (congrArg Emitter.forwarding (if_pos rfl)).trans ?_
      refine ((Emitter.forwarding_listen ..).trans ?_).trans
        (congrArg (Stage.forwarders _) (if_pos rfl)).symm
      rw [Stage.forwarders_append, hold, ← hserved e, Stage.forwarders_singleton,
        (hwatch t).trans (if_pos rfl)]
      rfl
    · refine (congrArg Emitter.forwarding (if_neg he)).trans ?_
      refine ((hserved e).trans hold.symm).trans (congrArg (Stage.forwarders _) ?_)
      exact (if_neg fun h => he (Option.some.inj h).symm).symm

theorem served_released (ha : Attended s₀ log) (hb : Books log (replay s₀ log))
    (hs : (replay s₀ log).WellFormed) (hserved : Served s₀ log)
    {removal : Option (EmitterId × ListenerId × Bool)} (heq : o = .released t removal)
    (ho : o.Possible (replay s₀ log)) (e : EmitterId) :
    (o.edit e ((replay s₀ log).hub.emitter e)).forwarding =
      (o.effect (replay s₀ log)).forwarders (o.attend e (audience e log)) := by
  have hwatch := ho.watch?_effect hs
  subst heq
  obtain ⟨u, hu, -, rfl⟩ := ho
  -- Those who stay in the audience watch what they watched before.
  refine Eq.trans ?_ (Stage.forwarders_congr fun t' ht' =>
    (hwatch t').trans (if_neg (of_decide_eq_true (List.mem_filter.1 ht').2))).symm
  show _ = (replay s₀ log).forwarders ((audience e log).filter fun t' => decide (t' ≠ t))
  have hother : t ∉ audience e log →
      (audience e log).filter (fun t' => decide (t' ≠ t)) = audience e log := fun hnot =>
    List.filter_eq_self.2 fun t' ht' => decide_eq_true fun ht => hnot (ht ▸ ht')
  have hw : (replay s₀ log).watch? t =
      u.subscribed?.map fun r => (r.1, ⟨r.2, none, .forward u.emitter⟩) := by
    rw [Stage.watch?, hu, Option.bind_some]
  cases hsub : u.subscribed? with
  | none =>
    rw [hsub] at hw
    rw [hother (ha.not_mem hw e)]
    exact hserved e
  | some r =>
    rw [hsub] at hw
    by_cases he : e = r.1
    · subst he
      rw [← ha.forwarders_filter hb hs hw, ← hserved r.1]
      exact (congrArg Emitter.forwarding (if_pos rfl)).trans (Emitter.forwarding_cancel ..)
    · rw [hother fun hmem => ?_]
      · exact (congrArg Emitter.forwarding (if_neg he)).trans (hserved e)
      · obtain ⟨l, hl⟩ := (ha.mem_iff e t).1 hmem
        rw [hw] at hl
        cases hl
        exact he rfl

theorem served_effect (ha : Attended s₀ log) (hb : Books log (replay s₀ log))
    (hs : (replay s₀ log).WellFormed) (hserved : Served s₀ log)
    (ho : o.Possible (replay s₀ log)) (hhonest : Honest (log ++ [o])) :
    Served s₀ (log ++ [o]) := by
  intro e
  have hwatch := ho.watch?_effect hs
  rw [replay_concat, audience_concat]
  rcases ho.emitter_effect hs e with hem | ⟨t, u, rfl, hu, rfl, hem⟩
  · rw [hem]
    cases o with
    | announced | called | answered => exact ho.elim
    | listened target l =>
      refine Eq.trans ?_ ((hserved e).trans (Stage.forwarders_congr fun t _ => hwatch t).symm)
      by_cases he : e = target
      · obtain ⟨-, -, reaction, hreact⟩ := ho
        refine (congrArg Emitter.forwarding (if_pos he)).trans ?_
        rw [Emitter.forwarding_listen, hreact]
        exact List.append_nil _
      · exact congrArg Emitter.forwarding (if_neg he)
    | cancelled target id found =>
      refine Eq.trans ?_ ((hserved e).trans (Stage.forwarders_congr fun t _ => hwatch t).symm)
      by_cases he : e = target
      · subst he
        obtain ⟨l, hl, rfl⟩ := hhonest log e id found [] rfl
        exact (congrArg Emitter.forwarding (if_pos rfl)).trans (ha.forwarding_cancel hb hl)
      · exact congrArg Emitter.forwarding (if_neg he)
    | bound t source registration => exact ha.served_bound hs hserved rfl ho e
    | released t removal => exact ha.served_released hb hs hserved rfl ho e
    | _ => exact (hserved e).trans (Stage.forwarders_congr fun t _ => hwatch t).symm
  · -- The emitter of the template that goes away is no store, so it has no audience.
    have hnone : audience u.emitter log = [] := List.eq_nil_iff_forall_not_mem.2 fun t' ht' => by
      have hstore := ha.contains_of_mem hs ht'
      rw [(hs.placed t u hu).apart] at hstore
      cases hstore
    rw [hem, hnone]
    rfl

end Attended

theorem Path.served {client : σ} {n : Nat} (h : Path ⟨.start client, n, none, []⟩ log m) :
    Honest log → Served (.start client) log :=
  h.concat_induction (motive := fun log _ => Honest log → Served (.start client) log)
    (fun _ _ => rfl)
    fun {log o m₁ m₂} hpath hstep hserved hhonest => by
      have hserved := hserved hhonest.of_append
      have hs := hpath.wellFormed (Stage.wellFormed_start client)
      have hb := hpath.books
      rw [hpath.stage_eq] at hs hb
      cases hstep with
      | acted ho => exact hpath.attended.served_effect hb hs hserved (hpath.stage_eq ▸ ho) hhonest
      | _ =>
        intro e
        rw [replay_concat, audience_concat]
        exact hserved e

/-! ### Listeners stay -/

theorem Occurrence.removal_of_edit (hl : l ∈ em.listeners) (hnot : l ∉ (o.edit e em).listeners) :
    ∃ found, o.removal? = some (e, l.id, found) := by
  unfold edit at hnot
  split at hnot
  · split at hnot
    · exact absurd (List.mem_append_left _ hl) hnot
    · exact absurd hl hnot
  · next target id found _ hr =>
    split at hnot
    · next he =>
      have hid : l.id = id := by
        by_contra hid
        exact hnot (List.mem_filter.2 ⟨hl, decide_eq_true hid⟩)
      exact ⟨found, by rw [hr, he, hid]⟩
    · exact absurd hl hnot
  · exact absurd hl hnot

/-- A listener stays where it is, unless a program has it removed, or the template whose listener
    it is gives up its source, or it waits for the events of a template that goes away. -/
theorem Occurrence.Possible.listener_stays (ho : o.Possible (replay s₀ log))
    (hs : (replay s₀ log).WellFormed) (hb : Books log (replay s₀ log)) (ha : Attended s₀ log)
    (hem : (replay s₀ log).hub.emitters.get? e = some em) (hl : l ∈ em.listeners) :
    (∃ em', (o.effect (replay s₀ log)).hub.emitters.get? e = some em' ∧ l ∈ em'.listeners) ∨
    (∃ found, o = .cancelled e l.id found) ∨
    (∃ t removal, o = .released t removal ∧ (replay s₀ log).watch? t = some (e, l)) ∨
    ∃ t u, o = .dropped t ∧ (replay s₀ log).template? t = some u ∧ e = u.emitter := by
  rcases ho.get?_emitters e with ⟨rfl, -⟩ | ⟨t, u, rfl, hu, rfl, -⟩ | hstays
  · have hnot := hs.not_contains_next.1
    rw [OrderedMap.contains, hem] at hnot
    cases hnot
  · exact .inr (.inr (.inr ⟨t, u, rfl, hu, rfl⟩))
  · rw [hem, Option.map_some] at hstays
    by_cases hmem : l ∈ (o.edit e em).listeners
    · exact .inl ⟨_, hstays, hmem⟩
    -- The listener is not there any more, so it is the one that was removed.
    obtain ⟨found, hr⟩ := removal_of_edit hl hmem
    refine .inr ?_
    cases o with
    | cancelled e' id found' =>
      cases hr
      exact .inl ⟨_, rfl⟩
    | released t removal =>
      refine .inr (.inl ⟨t, removal, rfl, ?_⟩)
      obtain ⟨u, hu, -, rfl⟩ := ho
      obtain ⟨r, hsub, heq⟩ := Option.map_eq_some_iff.1 hr
      obtain ⟨rfl, hid, -⟩ := Prod.mk.inj heq |>.imp_right Prod.mk.inj
      have hw : (replay s₀ log).watch? t = some (r.1, ⟨l.id, none, .forward u.emitter⟩) := by
        rw [Stage.watch?, hu, Option.bind_some, hsub, ← hid]
        rfl
      have hledger := hb.ledger r.1 em hem
      rwa [hledger.eq_of_id (ha.mem_registered hw) (hledger.mem_registered hl) rfl] at hw
    | _ => cases hr

/-! ### Subscriptions in a history -/

/-- What there is to say about the templates that are connected to stores at the end of a
    chronicle. -/
structure Subscriptions (s₀ : Stage σ) (log : List (Occurrence σ)) : Prop where
  /-- A template has a subscription exactly while it is connected to a store. -/
  isSome_iff : ∀ t u, (replay s₀ log).template? t = some u →
    (u.subscription.isSome = true ↔ ∃ store, u.source = some (.store store))
  /-- It is the handle that the emitter of this store gave it when it was connected, and the
      template was neither released nor bound again since. -/
  issued : ∀ t u store id, (replay s₀ log).template? t = some u →
    u.source = some (.store store) → u.subscription = some id → ∃ before after,
      log = before ++
        .bound t (.store store) (some (store, ⟨id, none, .forward u.emitter⟩)) :: after ∧
      id = ((replay s₀ before).hub.emitter store).next ∧ ∀ o ∈ after, o.subject? ≠ some t
  /-- A template has an emitter of its own, which is no store. -/
  own : ∀ t u, (replay s₀ log).template? t = some u →
    (replay s₀ log).hub.stores.contains u.emitter = false ∧
      ∀ t' u', (replay s₀ log).template? t' = some u' → u'.emitter = u.emitter → t' = t
  /-- The audience of a store are the templates that are connected to it, each once. -/
  mem_audience : ∀ store t, t ∈ audience store log ↔
    ∃ u, (replay s₀ log).template? t = some u ∧ u.source = some (.store store)
  nodup_audience : ∀ store, (audience store log).Nodup
  /-- If programs are honest, the forwarding listeners of a store are those of its audience, one
      for each and in the same order. -/
  forwarding : Honest log → ∀ store, List.Forall₂ (fun t l => ∃ u id,
    (replay s₀ log).template? t = some u ∧ u.source = some (.store store) ∧
      u.subscription = some id ∧ l = ⟨id, none, .forward u.emitter⟩)
    (audience store log) ((replay s₀ log).hub.emitter store).forwarding

theorem Path.subscriptions {client : σ} {n : Nat} (h : Path ⟨.start client, n, none, []⟩ log m) :
    Subscriptions (.start client) log := by
  have hs := h.wellFormed (Stage.wellFormed_start client)
  rw [h.stage_eq] at hs
  have ha := h.attended
  refine ⟨fun t u hu => hs.isSome_subscription_iff hu, fun t u store id hu hsource hid => ?_,
    fun t u hu => ⟨(hs.placed t u hu).apart, fun t' u' hu' => hs.distinct t' t u' u hu' hu⟩,
    fun store t => (ha.mem_iff store t).trans hs.exists_watch?_iff, ha.nodup,
    fun hhonest store => ?_⟩
  · exact ha.issued t store _ (Stage.watch?_eq_some_iff.2 ⟨u, id, hu, hsource, hid, rfl⟩)
  · rw [h.served hhonest store]
    exact (Stage.forall₂_forwarders fun t ht => (ha.mem_iff store t).1 ht).imp
      fun _ _ => Stage.watch?_eq_some_iff.1

/-- At every moment of a history, templates have subscriptions exactly while they are connected
    to stores, and got them from these stores; and the forwarding listeners of a store are those
    of the templates that are connected to it, one for each and no other, as long as programs
    remove only listeners that they registered.

    Whatever happens next, a listener stays where it is, unless a program has it removed, or the
    template whose own listener it is gives up its source, or it waits for the events of a
    template that goes away. And in an operation, this happens to no template but the one that
    the operation is about. -/
theorem Stage.subscriptions_sound {client : σ} {depth : Nat} {ops : List (Operation σ)}
    {s' : Stage σ} (hrun : run depth ops (start client) = some s') :
    ∃ log, recordRun depth 0 ops (start client) = some (log, s') ∧
      replay (start client) log = s' ∧
      (∀ before after, log = before ++ after →
        Subscriptions (start client) before ∧
        ∀ o rest, after = o :: rest → ∀ e em l,
          (replay (start client) before).hub.emitters.get? e = some em → l ∈ em.listeners →
          (∃ em', (replay (start client) (before ++ [o])).hub.emitters.get? e = some em' ∧
            l ∈ em'.listeners) ∨
          (∃ found, o = .cancelled e l.id found) ∨
          (∃ t removal u, o = .released t removal ∧
            (replay (start client) before).template? t = some u ∧
            u.source = some (.store e) ∧ l = ⟨l.id, none, .forward u.emitter⟩) ∨
          ∃ t u, o = .dropped t ∧ (replay (start client) before).template? t = some u ∧
            e = u.emitter) ∧
      ∀ ops₁ op ops₂, ops = ops₁ ++ op :: ops₂ → ∃ log₁ s₁ log₂ s₂ log₃,
        log = log₁ ++ log₂ ++ log₃ ∧ recordRun depth 0 ops₁ (start client) = some (log₁, s₁) ∧
        s₁.record depth (announcements log₁) op = some (log₂, s₂) ∧ Minds op.subject? log₂ := by
  obtain ⟨log, hlog⟩ := exists_recordRun (n := 0) hrun
  have hpath := path_of_recordRun hlog
  refine ⟨log, hlog, hpath.stage_eq.symm, fun before after heq => ?_, fun ops₁ op ops₂ heq => ?_⟩
  · subst heq
    obtain ⟨m, hbefore, hafter⟩ := hpath.exists_of_append
    refine ⟨hbefore.subscriptions, fun o rest heq e em l hem hl => ?_⟩
    subst heq
    rw [replay_concat]
    have hs := hbefore.wellFormed (wellFormed_start client)
    have hb := hbefore.books
    rw [hbefore.stage_eq] at hs hb
    cases hafter with
    | cons hstep _ =>
      cases hstep with
      | acted ho =>
        have ho : o.Possible (replay (start client) before) := hbefore.stage_eq ▸ ho
        rcases ho.listener_stays hs hb hbefore.attended hem hl with
          h | h | ⟨t, removal, rfl, hw⟩ | h
        · exact .inl h
        · exact .inr (.inl h)
        · obtain ⟨u, id, hu, hsource, -, rfl⟩ := watch?_eq_some_iff.1 hw
          exact .inr (.inr (.inl ⟨t, removal, u, rfl, hu, hsource, rfl⟩))
        · exact .inr (.inr (.inr h))
      | _ => exact .inl ⟨em, hem, hl⟩
  · subst heq
    obtain ⟨log₁, s₁, log₂, s₂, log₃, hsplit, hlog₁, hlog₂⟩ := exists_record_of_recordRun hlog
    rw [Nat.zero_add] at hlog₂
    exact ⟨log₁, s₁, log₂, s₂, log₃, hsplit, hlog₁, hlog₂, minds_of_record hlog₂⟩

/-- Two templates are connected to a store, where a program listens as well. The first is then
    connected to a value and the second to the store again; the program goes away. -/
def Stage.moving : List (Operation Unit) :=
  [.create (.blank Unit), .create (.blank Unit), .openStore [],
    .connect ⟨1⟩ (.store ⟨2⟩), .connect ⟨2⟩ (.store ⟨2⟩),
    .act (.listen ⟨2⟩ none (fun _ => .done) fun id => .cancel ⟨2⟩ id fun _ => .done),
    .connect ⟨1⟩ (.value .null), .connect ⟨2⟩ (.store ⟨2⟩)]

theorem Stage.subscriptions_sound_moving : ∃ s' log, run 2 moving (start ()) = some s' ∧
    replay (start ()) log = s' ∧ Subscriptions (start ()) log ∧
    (s'.hub.emitter ⟨2⟩).forwarding.map (·.id) = [⟨3⟩] := by
  obtain ⟨log, -, hreplay, h, -⟩ := subscriptions_sound (rfl : run 2 moving (start ()) = some _)
  exact ⟨_, log, rfl, hreplay, (h log [] (List.append_nil log).symm).1, rfl⟩

end Stencil
