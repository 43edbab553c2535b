import Stencil.Proofs.Operation

/-!
# What stands on a stage

Every stage that a history leads to is well-formed (`Stage.WellFormed`): its emitters and
templates have numbers below the next ones, its stores are emitters, and its templates have
emitters of their own, watch stores that are there, and have a subscription exactly while they
watch one. It is enough to see this for each occurrence that changes a stage
(`Occurrence.Possible.wellFormed`), and then it is so all along a path (`Path.wellFormed`).

An occurrence makes an emitter, takes one away, or changes the listeners of those that are there
by a registration or a removal (`Occurrence.Possible.get?_emitters`).
-/

namespace Stencil

variable {σ : Type} {s : Stage σ} {t t' : TemplateId} {u u' : Template σ} {h h' : Hub σ}
  {m m' : Moment σ} {o : Occurrence σ} {log : List (Occurrence σ)} {e : EmitterId}

/-! ### Emitters -/

namespace Occurrence

/-- What an occurrence does to an emitter that stays: it may register a listener there, or
    remove one. -/
def edit (o : Occurrence σ) (e : EmitterId) (em : Emitter σ) : Emitter σ :=
  match o.registration?, o.removal? with
  | some (target, l), _ => if e = target then em.listen l.filter l.handler else em
  | none, some (target, id, _) => if e = target then em.cancel id else em
  | none, none => em

/-- What becomes of an emitter: it is made, it goes away with its template, or it stays and is
    changed, if it is there. -/
theorem Possible.get?_emitters (ho : o.Possible s) (e : EmitterId) :
    (e = s.hub.next ∧ (o.effect s).hub.emitters.get? e = some .fresh ∧ o.removal? = none) ∨
    (∃ t u, o = .dropped t ∧ s.template? t = some u ∧ e = u.emitter ∧
      (o.effect s).hub.emitters.get? e = none) ∨
    (o.effect s).hub.emitters.get? e = (s.hub.emitters.get? e).map (o.edit e) := by
  cases o with
  | announced | called | answered => exact ho.elim
  | listened target l => exact .inr (.inr (Hub.get?_updateEmitter ..))
  | cancelled target id found => exact .inr (.inr (Hub.get?_updateEmitter ..))
  | stored store key value =>
    refine .inr (.inr ?_)
    show (s.hub.putField store key value).emitters.get? e = _
    rw [Hub.emitters_putField]
    exact Option.map_id'.symm
  | changed client => exact .inr (.inr Option.map_id'.symm)
  | created draft =>
    by_cases he : e = s.hub.next
    · exact .inl ⟨he, he ▸ OrderedMap.get?_insert_self _ _ _, rfl⟩
    · exact .inr (.inr ((OrderedMap.get?_insert_of_ne _ he _).trans Option.map_id'.symm))
  | opened fields =>
    by_cases he : e = s.hub.next
    · exact .inl ⟨he, he ▸ OrderedMap.get?_insert_self _ _ _, rfl⟩
    · exact .inr (.inr ((OrderedMap.get?_insert_of_ne _ he _).trans Option.map_id'.symm))
  | bound t source registration =>
    obtain ⟨u, hu, -, -, rfl⟩ := ho
    refine .inr (.inr ?_)
    rw [effect, Stage.bind_eq hu]
    cases source with
    | value v => exact Option.map_id'.symm
    | store store => exact Hub.get?_updateEmitter ..
  | released t removal =>
    obtain ⟨u, hu, -, rfl⟩ := ho
    refine .inr (.inr ?_)
    rw [effect, Stage.release_eq hu]
    show (u.unsubscribe s.hub).emitters.get? e = _
    rw [Template.unsubscribe_eq]
    cases u.subscribed? with
    | none => exact Option.map_id'.symm
    | some r => exact Hub.get?_updateEmitter ..
  | dropped t =>
    obtain ⟨u, hu, -⟩ := ho
    rw [effect, Stage.remove_eq hu]
    show _ ∨ _ ∨ (s.hub.emitters.erase u.emitter).get? e = _
    by_cases he : e = u.emitter
    · refine .inr (.inl ⟨t, u, rfl, hu, he, ?_⟩)
      exact (OrderedMap.get?_erase ..).trans (if_pos he)
    · refine .inr (.inr ?_)
      rw [OrderedMap.get?_erase, if_neg he]
      exact Option.map_id'.symm

end Occurrence

/-! ### Hubs with the same emitters and stores -/

namespace Hub

/-- Two hubs with the same emitters and stores, whatever listeners and fields these have. -/
structure SamePlaces (h h' : Hub σ) : Prop where
  emitters : ∀ e, h'.emitters.contains e = h.emitters.contains e
  stores : ∀ e, h'.stores.contains e = h.stores.contains e
  next : h'.nextEmitter = h.nextEmitter

theorem samePlaces_updateEmitter (h : Hub σ) (e : EmitterId) (f : Emitter σ → Emitter σ) :
    h.SamePlaces (h.updateEmitter e f) where
  emitters e' := by
    rw [OrderedMap.contains, get?_updateEmitter, Option.isSome_map, OrderedMap.contains]
  stores e' := by rw [stores_updateEmitter]
  next := nextEmitter_updateEmitter ..

theorem samePlaces_putField (h : Hub σ) (store : EmitterId) (key : String) (value : Json) :
    h.SamePlaces (h.putField store key value) where
  emitters e' := by rw [emitters_putField]
  stores e' := contains_stores_putField ..
  next := nextEmitter_putField ..

theorem samePlaces_bind (u : Template σ) (source : Source) (h : Hub σ) :
    h.SamePlaces (u.bind source h).2 := by
  cases source with
  | value v => exact ⟨fun _ => rfl, fun _ => rfl, rfl⟩
  | store store => exact samePlaces_updateEmitter ..

theorem samePlaces_unsubscribe (u : Template σ) (h : Hub σ) :
    h.SamePlaces (u.unsubscribe h) := by
  rw [Template.unsubscribe_eq]
  cases u.subscribed? with
  | none => exact ⟨fun _ => rfl, fun _ => rfl, rfl⟩
  | some r => exact samePlaces_updateEmitter ..

end Hub

/-- Emitters are made, and their numbers are not used again. -/
theorem Occurrence.nextEmitter_le (o : Occurrence σ) (s : Stage σ) :
    s.hub.nextEmitter ≤ (o.effect s).hub.nextEmitter := by
  cases o with
  | listened target l => exact Nat.le_of_eq (Hub.samePlaces_updateEmitter ..).next.symm
  | cancelled target id found => exact Nat.le_of_eq (Hub.samePlaces_updateEmitter ..).next.symm
  | stored store key value => exact Nat.le_of_eq (Hub.samePlaces_putField ..).next.symm
  | created draft => exact Nat.le_succ _
  | opened fields => exact Nat.le_succ _
  | bound t source registration =>
    rw [effect, Stage.bind]
    split
    · exact Nat.le_of_eq (Hub.samePlaces_bind ..).next.symm
    · exact Nat.le_refl _
  | released t removal =>
    rw [effect, Stage.release]
    split
    · exact Nat.le_of_eq (Hub.samePlaces_unsubscribe ..).next.symm
    · exact Nat.le_refl _
  | dropped t =>
    rw [effect, Stage.remove]
    split <;> exact Nat.le_refl _
  | _ => exact Nat.le_refl _

/-! ### Well-formed stages -/

/-- A template has an emitter that is there and is no store, watches a store that is there if it
    watches one, and has a subscription exactly while it watches one. -/
structure Template.Placed (u : Template σ) (h : Hub σ) : Prop where
  emitter : h.emitters.contains u.emitter = true
  apart : h.stores.contains u.emitter = false
  watched : ∀ store, u.source = some (.store store) → h.stores.contains store = true
  subscription : u.subscription.isSome = (u.source.bind Source.watched?).isSome

/-- Numbers are below the next ones, stores are emitters, and templates have their places, each
    with an emitter of its own. -/
structure Stage.WellFormed (s : Stage σ) : Prop where
  below : ∀ e, s.hub.emitters.contains e = true → e.index < s.hub.nextEmitter
  stores : ∀ e, s.hub.stores.contains e = true → s.hub.emitters.contains e = true
  made : ∀ t u, s.template? t = some u → t.index ≤ s.made
  placed : ∀ t u, s.template? t = some u → u.Placed s.hub
  distinct : ∀ t t' u u', s.template? t = some u → s.template? t' = some u' →
    u.emitter = u'.emitter → t = t'

namespace Stage

theorem wellFormed_start (client : σ) : (start client).WellFormed where
  below _ h := nomatch h
  stores _ h := nomatch h
  made _ _ h := nomatch h
  placed _ _ h := nomatch h
  distinct _ _ _ _ h := nomatch h

/-- Listeners and fields do not matter. -/
theorem WellFormed.withHub (hs : s.WellFormed) (hh : s.hub.SamePlaces h) :
    (s.withHub h).WellFormed where
  below e he := by
    show e.index < h.nextEmitter
    rw [hh.next]
    exact hs.below e (by rwa [← hh.emitters])
  stores e he := by
    show h.emitters.contains e = true
    rw [hh.emitters]
    exact hs.stores e (by rwa [← hh.stores])
  made := hs.made
  placed t u hu := by
    obtain ⟨hemitter, hapart, hwatched, hsub⟩ := hs.placed t u hu
    refine ⟨?_, ?_, fun store hsource => ?_, hsub⟩
    · exact (hh.emitters _).trans hemitter
    · exact (hh.stores _).trans hapart
    · exact (hh.stores _).trans (hwatched store hsource)
  distinct := hs.distinct

theorem template?_put_of_ne (s : Stage σ) (ht : t' ≠ t) (u : Template σ) :
    (s.put t u).template? t' = s.template? t' := OrderedMap.get?_insert_of_ne _ ht _

theorem template?_create (s : Stage σ) (draft : Draft σ) (t : TemplateId) :
    (s.create draft).template? t =
      if t = s.next then some (draft.build (s.made + 1) s.hub.next) else s.template? t :=
  OrderedMap.get?_insert ..

theorem template?_remove (hu : s.template? t = some u) (t' : TemplateId) :
    (s.remove t).template? t' = if t' = t then none else s.template? t' := by
  rw [remove_eq hu]
  exact OrderedMap.get?_erase ..

/-- What becomes of a template as long as it keeps its emitter. -/
theorem WellFormed.put (hs : s.WellFormed) (hu : s.template? t = some u)
    (hemitter : u'.emitter = u.emitter)
    (hwatched : ∀ store, u'.source = some (.store store) → s.hub.stores.contains store = true)
    (hsub : u'.subscription.isSome = (u'.source.bind Source.watched?).isSome) :
    (s.put t u').WellFormed := by
  -- Whatever template stands somewhere now, one with its emitter stood there before.
  have hbefore : ∀ t₁ u₁, (s.put t u').template? t₁ = some u₁ →
      ∃ u₀, s.template? t₁ = some u₀ ∧ u₁.emitter = u₀.emitter := by
    intro t₁ u₁ h₁
    by_cases ht : t₁ = t
    · subst ht
      rw [template?_put, Option.some.injEq] at h₁
      exact ⟨u, hu, h₁ ▸ hemitter⟩
    · rw [template?_put_of_ne s ht] at h₁
      exact ⟨u₁, h₁, rfl⟩
  refine ⟨hs.below, hs.stores, fun t₁ u₁ h₁ => ?_, fun t₁ u₁ h₁ => ?_,
    fun t₁ t₂ u₁ u₂ h₁ h₂ heq => ?_⟩
  · obtain ⟨u₀, h₀, -⟩ := hbefore t₁ u₁ h₁
    exact hs.made t₁ u₀ h₀
  · by_cases ht : t₁ = t
    · subst ht
      rw [template?_put, Option.some.injEq] at h₁
      subst h₁
      have hplaced := hs.placed t₁ u hu
      exact ⟨hemitter ▸ hplaced.emitter, hemitter ▸ hplaced.apart, hwatched, hsub⟩
    · rw [template?_put_of_ne s ht] at h₁
      exact hs.placed t₁ u₁ h₁
  · obtain ⟨v₁, hv₁, he₁⟩ := hbefore t₁ u₁ h₁
    obtain ⟨v₂, hv₂, he₂⟩ := hbefore t₂ u₂ h₂
    exact hs.distinct t₁ t₂ v₁ v₂ hv₁ hv₂ (he₁ ▸ he₂ ▸ heq)

/-- The next emitter is not there yet, so it is neither a store nor that of a template. -/
theorem WellFormed.not_contains_next (hs : s.WellFormed) :
    s.hub.emitters.contains s.hub.next = false ∧ s.hub.stores.contains s.hub.next = false := by
  have hnot : ¬ s.hub.emitters.contains s.hub.next = true := fun h =>
    Nat.lt_irrefl _ (hs.below _ h)
  exact ⟨Bool.eq_false_iff.2 hnot, Bool.eq_false_iff.2 fun h => hnot (hs.stores _ h)⟩

theorem WellFormed.template?_next (hs : s.WellFormed) : s.template? s.next = none := by
  cases hu : s.template? s.next with
  | none => rfl
  | some u => exact absurd (hs.made _ u hu) (Nat.not_succ_le_self _)

theorem WellFormed.emitter_ne_next (hs : s.WellFormed) (hu : s.template? t = some u) :
    u.emitter ≠ s.hub.next := by
  intro he
  have hcontains := (hs.placed t u hu).emitter
  rw [he, hs.not_contains_next.1] at hcontains
  cases hcontains

/-- One more emitter, which may be a store. -/
theorem WellFormed.addEmitter (hs : s.WellFormed) {stores : OrderedMap EmitterId Json.Fields}
    (hstores : ∀ e, stores.contains e = true ↔
      (e = s.hub.next ∧ stores.contains e = true) ∨ s.hub.stores.contains e = true) :
    (s.withHub { s.hub.addEmitter with stores := stores }).WellFormed where
  below e he := by
    rcases (OrderedMap.contains_insert ..).1 he with rfl | he
    · exact Nat.lt_succ_self _
    · exact Nat.lt_succ_of_lt (hs.below e he)
  stores e he := by
    refine (OrderedMap.contains_insert ..).2 ?_
    exact ((hstores e).1 he).imp And.left (hs.stores e)
  made := hs.made
  placed t u hu := by
    obtain ⟨hemitter, hapart, hwatched, hsub⟩ := hs.placed t u hu
    refine ⟨(OrderedMap.contains_insert ..).2 (.inr hemitter), ?_, fun store hsource => ?_, hsub⟩
    · refine Bool.eq_false_iff.2 fun he => ?_
      rcases (hstores _).1 he with ⟨he, -⟩ | he
      · exact hs.emitter_ne_next hu he
      · rw [hapart] at he
        cases he
    · exact (hstores store).2 (.inr (hwatched store hsource))
  distinct := hs.distinct

theorem WellFormed.create (hs : s.WellFormed) (draft : Draft σ) : (s.create draft).WellFormed := by
  have hemitters : (s.withHub s.hub.addEmitter).WellFormed :=
    hs.addEmitter fun e => ⟨.inr, fun h => h.elim And.right id⟩
  have hcases : ∀ t u, (s.create draft).template? t = some u →
      (t = s.next ∧ u = draft.build (s.made + 1) s.hub.next) ∨ s.template? t = some u := by
    intro t u hu
    rw [template?_create] at hu
    split at hu
    · next ht => exact .inl ⟨ht, (Option.some.inj hu).symm⟩
    · exact .inr hu
  refine ⟨hemitters.below, hemitters.stores, fun t u hu => ?_, fun t u hu => ?_,
    fun t₁ t₂ u₁ u₂ h₁ h₂ heq => ?_⟩
  · rcases hcases t u hu with ⟨rfl, -⟩ | hu
    · exact Nat.le_refl _
    · exact Nat.le_succ_of_le (hs.made t u hu)
  · rcases hcases t u hu with ⟨-, rfl⟩ | hu
    · refine ⟨(OrderedMap.contains_insert ..).2 (.inl rfl), hs.not_contains_next.2,
        fun store hsource => ?_, rfl⟩
      cases hsource
    · exact hemitters.placed t u hu
  · rcases hcases t₁ u₁ h₁ with ⟨rfl, rfl⟩ | h₁ <;> rcases hcases t₂ u₂ h₂ with ⟨rfl, rfl⟩ | h₂
    · rfl
    · exact absurd heq.symm (hs.emitter_ne_next h₂)
    · exact absurd heq (hs.emitter_ne_next h₁)
    · exact hs.distinct t₁ t₂ u₁ u₂ h₁ h₂ heq

theorem WellFormed.remove (hs : s.WellFormed) (hu : s.template? t = some u) :
    (s.remove t).WellFormed := by
  have hemitters : ∀ e, (s.remove t).hub.emitters.contains e = true ↔
      e ≠ u.emitter ∧ s.hub.emitters.contains e = true := by
    intro e
    rw [remove_eq hu]
    show (s.hub.emitters.erase u.emitter).contains e = true ↔ _
    rw [OrderedMap.contains, OrderedMap.get?_erase]
    by_cases he : e = u.emitter
    · simp [he]
    · simp [he, OrderedMap.contains]
  have htemplates : ∀ t₁ u₁, (s.remove t).template? t₁ = some u₁ →
      t₁ ≠ t ∧ s.template? t₁ = some u₁ := by
    intro t₁ u₁ h₁
    rw [template?_remove hu] at h₁
    split at h₁
    · cases h₁
    · next ht => exact ⟨ht, h₁⟩
  have hstores : (s.remove t).hub.stores = s.hub.stores := by rw [remove_eq hu]; rfl
  have hnext : (s.remove t).hub.nextEmitter = s.hub.nextEmitter := by rw [remove_eq hu]; rfl
  have hmade : (s.remove t).made = s.made := by rw [remove_eq hu]
  refine ⟨fun e he => ?_, fun e he => ?_, fun t₁ u₁ h₁ => ?_, fun t₁ u₁ h₁ => ?_,
    fun t₁ t₂ u₁ u₂ h₁ h₂ => ?_⟩
  · rw [hnext]
    exact hs.below e ((hemitters e).1 he).2
  · rw [hstores] at he
    refine (hemitters e).2 ⟨?_, hs.stores e he⟩
    rintro rfl
    rw [(hs.placed t u hu).apart] at he
    cases he
  · rw [hmade]
    exact hs.made t₁ u₁ (htemplates t₁ u₁ h₁).2
  · obtain ⟨ht, h₁⟩ := htemplates t₁ u₁ h₁
    obtain ⟨hemitter, hapart, hwatched, hsub⟩ := hs.placed t₁ u₁ h₁
    refine ⟨(hemitters _).2 ⟨fun he => ht (hs.distinct t₁ t u₁ u h₁ hu he), hemitter⟩, ?_, ?_, hsub⟩
    · rwa [hstores]
    · rwa [hstores]
  · exact hs.distinct t₁ t₂ u₁ u₂ (htemplates t₁ u₁ h₁).2 (htemplates t₂ u₂ h₂).2

end Stage

/-- What changes a stage keeps it well-formed. -/
theorem Occurrence.Possible.wellFormed (ho : o.Possible s) (hs : s.WellFormed) :
    (o.effect s).WellFormed := by
  cases o with
  | announced | called | answered => exact ho.elim
  | listened target l => exact hs.withHub (Hub.samePlaces_updateEmitter ..)
  | cancelled target id found => exact hs.withHub (Hub.samePlaces_updateEmitter ..)
  | stored store key value => exact hs.withHub (Hub.samePlaces_putField ..)
  | changed client => exact hs.withHub ⟨fun _ => rfl, fun _ => rfl, rfl⟩
  | created draft => exact hs.create draft
  | opened fields =>
    refine hs.addEmitter fun e => ?_
    rw [OrderedMap.contains_insert]
    exact ⟨fun h => h.imp_left fun he => ⟨he, .inl he⟩, fun h => h.imp_left And.left⟩
  | bound t source registration =>
    obtain ⟨u, hu, hnone, hstore, -⟩ := ho
    rw [effect, Stage.bind_eq hu]
    refine (hs.put hu ?_ ?_ ?_).withHub (Hub.samePlaces_bind u source s.hub)
    · cases source <;> rfl
    · rintro store hsource
      refine hstore store (Option.some.inj (Eq.trans ?_ hsource))
      cases source <;> rfl
    · cases source with
      | value v =>
        -- Nothing is put into the subscription, which was given up with the source before.
        exact (hs.placed t u hu).subscription.trans (by rw [hnone]; rfl)
      | store store => rfl
  | released t removal =>
    obtain ⟨u, hu, -, -⟩ := ho
    rw [effect, Stage.release_eq hu]
    have hput : (s.put t u.withoutSource).WellFormed := by
      refine hs.put hu rfl (fun store hsource => ?_) rfl
      cases hsource
    exact hput.withHub (Hub.samePlaces_unsubscribe u s.hub)
  | dropped t =>
    obtain ⟨u, hu, -⟩ := ho
    exact hs.remove hu

theorem Step.wellFormed (h : Step m o m') (hm : m.stage.WellFormed) : m'.stage.WellFormed := by
  cases h with
  | acted ho => exact ho.wellFormed hm
  | _ => exact hm

theorem Path.wellFormed (h : Path m log m') (hm : m.stage.WellFormed) : m'.stage.WellFormed := by
  induction h with
  | nil => exact hm
  | cons hstep _ ih => exact ih (hstep.wellFormed hm)

end Stencil
