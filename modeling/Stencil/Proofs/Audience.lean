import Stencil.Proofs.Handle

/-!
# Audiences of stores

A template that is connected to a store watches it: it has a listener there, which announces the
events of the store again on the emitter of the template (`Stage.watch?`). The templates that
were bound to a store and have not given it up since are its audience (`audience`), in the order
in which they were bound; it is told by the chronicle alone.

All along a path, the audience of a store are the templates that watch it, and the listener of
each was registered when it was bound, under the next handle of the store (`Attended`). Binding
and releasing keep this up, and nothing else changes what a template watches
(`Occurrence.Possible.watch?_effect`).
-/

namespace Stencil

variable {σ : Type} {s s₀ : Stage σ} {m : Moment σ} {o : Occurrence σ}
  {log : List (Occurrence σ)} {e store : EmitterId} {t t' : TemplateId} {u : Template σ}
  {l : Listener σ} {id : ListenerId}

/-! ### What templates watch -/

/-- The store that a template watches, with its listener there. -/
def Stage.watch? (s : Stage σ) (t : TemplateId) : Option (EmitterId × Listener σ) :=
  (s.template? t).bind fun u => u.subscribed?.map fun r => (r.1, ⟨r.2, none, .forward u.emitter⟩)

theorem Template.subscribed?_eq_some_iff :
    u.subscribed? = some (store, id) ↔
      u.source = some (.store store) ∧ u.subscription = some id := by
  rw [subscribed?]
  constructor
  · intro h
    split at h
    · next store' id' hsource hsub =>
      cases h
      obtain ⟨source, hsource, hwatched⟩ := Option.bind_eq_some_iff.1 hsource
      cases source with
      | value v => cases hwatched
      | store _ =>
        cases hwatched
        exact ⟨hsource, hsub⟩
    · cases h
  · rintro ⟨hsource, hsub⟩
    rw [hsource, hsub]
    rfl

theorem Stage.watch?_eq_some_iff :
    s.watch? t = some (store, l) ↔ ∃ u id, s.template? t = some u ∧
      u.source = some (.store store) ∧ u.subscription = some id ∧
      l = ⟨id, none, .forward u.emitter⟩ := by
  rw [watch?, Option.bind_eq_some_iff]
  constructor
  · rintro ⟨u, hu, hw⟩
    obtain ⟨⟨store', id⟩, hsub, heq⟩ := Option.map_eq_some_iff.1 hw
    cases heq
    obtain ⟨hsource, hsub⟩ := Template.subscribed?_eq_some_iff.1 hsub
    exact ⟨u, id, hu, hsource, hsub, rfl⟩
  · rintro ⟨u, id, hu, hsource, hsub, rfl⟩
    refine ⟨u, hu, ?_⟩
    rw [Template.subscribed?_eq_some_iff.2 ⟨hsource, hsub⟩]
    rfl

theorem Stage.watch?_of_source (hu : s.template? t = some u) (hnone : u.source = none) :
    s.watch? t = none := by
  rw [watch?, hu, Option.bind_some, Template.subscribed?, hnone]
  rfl

namespace Stage.WellFormed

theorem isSome_subscription_iff (hs : s.WellFormed) (hu : s.template? t = some u) :
    u.subscription.isSome = true ↔ ∃ store, u.source = some (.store store) := by
  rw [(hs.placed t u hu).subscription]
  cases u.source with
  | none => simp
  | some source => cases source <;> simp [Source.watched?]

/-- A template watches a store exactly while it is connected to it. -/
theorem exists_watch?_iff (hs : s.WellFormed) :
    (∃ l, s.watch? t = some (store, l)) ↔
      ∃ u, s.template? t = some u ∧ u.source = some (.store store) := by
  constructor
  · rintro ⟨l, hw⟩
    obtain ⟨u, id, hu, hsource, -⟩ := watch?_eq_some_iff.1 hw
    exact ⟨u, hu, hsource⟩
  · rintro ⟨u, hu, hsource⟩
    obtain ⟨id, hid⟩ :=
      Option.isSome_iff_exists.1 ((hs.isSome_subscription_iff hu).2 ⟨store, hsource⟩)
    exact ⟨_, watch?_eq_some_iff.2 ⟨u, id, hu, hsource, hid, rfl⟩⟩

theorem contains_of_watch? (hs : s.WellFormed) (hw : s.watch? t = some (store, l)) :
    s.hub.stores.contains store = true := by
  obtain ⟨u, id, hu, hsource, -⟩ := watch?_eq_some_iff.1 hw
  exact (hs.placed t u hu).watched store hsource

/-- Listeners of different templates announce on different emitters. -/
theorem eq_of_watch? (hs : s.WellFormed) (hw : s.watch? t = some (store, l))
    (hw' : s.watch? t' = some (e, l)) : t = t' := by
  obtain ⟨u, id, hu, -, -, rfl⟩ := watch?_eq_some_iff.1 hw
  obtain ⟨u', id', hu', -, -, heq⟩ := watch?_eq_some_iff.1 hw'
  exact hs.distinct t t' u u' hu hu' (Handler.forward.inj (Listener.mk.inj heq).2.2)

end Stage.WellFormed

namespace Occurrence

/-- What a template watches after an occurrence, if it watched `w` before it. -/
def rewatch (o : Occurrence σ) (t : TemplateId) (w : Option (EmitterId × Listener σ)) :
    Option (EmitterId × Listener σ) :=
  match o with
  | bound t' _ registration => if t = t' then registration else w
  | released t' _ => if t = t' then none else w
  | _ => w

theorem Possible.watch?_effect (ho : o.Possible s) (hs : s.WellFormed) (t : TemplateId) :
    (o.effect s).watch? t = o.rewatch t (s.watch? t) := by
  cases o with
  | created draft =>
    show ((s.create draft).template? t).bind _ = s.watch? t
    rw [Stage.template?_create]
    split
    · -- No template had the new handle before, and the new template has no source yet.
      next ht =>
      rw [Stage.watch?, ht, hs.template?_next]
      rfl
    · rfl
  | bound t' source registration =>
    obtain ⟨u, hu, hnone, -, rfl⟩ := ho
    rw [effect, Stage.bind_eq hu]
    show ((s.put t' (u.bind source s.hub).1).template? t).bind _ = _
    by_cases ht : t = t'
    · subst ht
      rw [Stage.template?_put, rewatch, if_pos rfl]
      cases source <;> rfl
    · rw [Stage.template?_put_of_ne s ht, rewatch, if_neg ht]
      rfl
  | released t' removal =>
    obtain ⟨u, hu, -, -⟩ := ho
    rw [effect, Stage.release_eq hu]
    show ((s.put t' u.withoutSource).template? t).bind _ = _
    by_cases ht : t = t'
    · subst ht
      rw [Stage.template?_put, rewatch, if_pos rfl]
      rfl
    · rw [Stage.template?_put_of_ne s ht, rewatch, if_neg ht]
      rfl
  | dropped t' =>
    obtain ⟨u, hu, hnone⟩ := ho
    show ((s.remove t').template? t).bind _ = s.watch? t
    rw [Stage.template?_remove hu]
    split
    · next ht => exact (ht ▸ Stage.watch?_of_source hu hnone).symm
    · rfl
  | _ => rfl

end Occurrence

/-! ### Audiences -/

/-- What an occurrence does to the audience of a store. -/
def Occurrence.attend (o : Occurrence σ) (store : EmitterId) (ts : List TemplateId) :
    List TemplateId :=
  match o with
  | bound t source _ => if source.watched? = some store then ts ++ [t] else ts
  | released t _ => ts.filter fun t' => decide (t' ≠ t)
  | _ => ts

/-- The templates that were bound to a store and have not given it up since, in the order in
    which they were bound. -/
def audience (store : EmitterId) (log : List (Occurrence σ)) : List TemplateId :=
  log.foldl (fun ts o => o.attend store ts) []

theorem audience_concat (store : EmitterId) (log : List (Occurrence σ)) (o : Occurrence σ) :
    audience store (log ++ [o]) = o.attend store (audience store log) := List.foldl_concat ..

/-- What a chronicle that begins on a stage tells about the templates there are at its end. -/
structure Attended (s₀ : Stage σ) (log : List (Occurrence σ)) : Prop where
  /-- The audience of a store are the templates that watch it. -/
  mem_iff : ∀ store t, t ∈ audience store log ↔ ∃ l, (replay s₀ log).watch? t = some (store, l)
  /-- No template is twice in an audience. -/
  nodup : ∀ store, (audience store log).Nodup
  /-- The listener of a template was registered when the template was bound to the store, under
      the next handle of the store, and nothing happened to the template since. -/
  issued : ∀ t store l, (replay s₀ log).watch? t = some (store, l) → ∃ before after,
    log = before ++ .bound t (.store store) (some (store, l)) :: after ∧
      l.id = ((replay s₀ before).hub.emitter store).next ∧ ∀ o ∈ after, o.subject? ≠ some t
  /-- Programs do not register forwarding listeners. -/
  reacts : ∀ e l, .listened e l ∈ log → l.forwardsTo? = none

namespace Attended

theorem start (client : σ) : Attended (.start client) [] where
  mem_iff _ _ := ⟨fun h => absurd h List.not_mem_nil, fun ⟨_, h⟩ => nomatch h⟩
  nodup _ := List.nodup_nil
  issued _ _ _ h := nomatch h
  reacts _ _ h := absurd h List.not_mem_nil

theorem issued_concat (ha : Attended s₀ log) (hw : (replay s₀ log).watch? t = some (store, l))
    (ho : o.subject? ≠ some t) : ∃ before after,
      log ++ [o] = before ++ .bound t (.store store) (some (store, l)) :: after ∧
        l.id = ((replay s₀ before).hub.emitter store).next ∧ ∀ o ∈ after, o.subject? ≠ some t := by
  obtain ⟨before, after, rfl, hid, hafter⟩ := ha.issued t store l hw
  refine ⟨before, after ++ [o], by simp, hid, fun o' ho' => ?_⟩
  rcases List.mem_append.1 ho' with ho' | ho'
  · exact hafter o' ho'
  · rwa [List.mem_singleton.1 ho']

theorem reacts_concat (ha : Attended s₀ log)
    (ho : ∀ e l, o = .listened e l → l.forwardsTo? = none) :
    ∀ e l, .listened e l ∈ log ++ [o] → l.forwardsTo? = none := by
  intro e l hl
  rcases List.mem_append.1 hl with hl | hl
  · exact ha.reacts e l hl
  · exact ho e l (List.mem_singleton.1 hl).symm

/-- What does not concern a template that watches a store. -/
theorem quiet (ha : Attended s₀ log)
    (hwatch : ∀ t, (o.effect (replay s₀ log)).watch? t = (replay s₀ log).watch? t)
    (hattend : ∀ store ts, o.attend store ts = ts)
    (hsubject : ∀ t r, (replay s₀ log).watch? t = some r → o.subject? ≠ some t)
    (hreacts : ∀ e l, o = .listened e l → l.forwardsTo? = none) : Attended s₀ (log ++ [o]) := by
  refine ⟨fun store t => ?_, fun store => ?_, fun t store l hw => ?_, ha.reacts_concat hreacts⟩
  · rw [audience_concat, hattend, replay_concat, hwatch]
    exact ha.mem_iff store t
  · rw [audience_concat, hattend]
    exact ha.nodup store
  · rw [replay_concat, hwatch] at hw
    exact ha.issued_concat hw (hsubject t _ hw)

/-- A template that has no source is in no audience. -/
theorem not_mem (ha : Attended s₀ log) (hw : (replay s₀ log).watch? t = none) (store : EmitterId) :
    t ∉ audience store log := by
  intro hmem
  obtain ⟨l, hl⟩ := (ha.mem_iff store t).1 hmem
  rw [hw] at hl
  cases hl

theorem bound (ha : Attended s₀ log) (hs : (replay s₀ log).WellFormed) {source : Source}
    {registration : Option (EmitterId × Listener σ)}
    (ho : (Occurrence.bound t source registration).Possible (replay s₀ log)) :
    Attended s₀ (log ++ [.bound t source registration]) := by
  have hwatch := ho.watch?_effect hs
  obtain ⟨u, hu, hnone, -, rfl⟩ := ho
  -- The template had no source, so it does not come into an audience twice.
  have hnot : ∀ store, t ∉ audience store log := ha.not_mem (Stage.watch?_of_source hu hnone)
  refine ⟨fun store t' => ?_, fun store => ?_, fun t' store l hw => ?_,
    ha.reacts_concat fun _ _ h => nomatch h⟩
  · rw [audience_concat, replay_concat, hwatch, Occurrence.rewatch, Occurrence.attend]
    by_cases ht : t' = t
    · subst ht
      rw [if_pos rfl]
      split
      · next hsource => simp [hsource]
      · next hsource => simp [hnot, hsource]
    · rw [if_neg ht, ← ha.mem_iff]
      split
      · simp [ht]
      · rfl
  · rw [audience_concat, Occurrence.attend]
    split
    · exact List.nodup_append.2 ⟨ha.nodup store, List.nodup_singleton t, fun a hmem b hb => by
        rw [List.mem_singleton.1 hb]
        rintro rfl
        exact hnot store hmem⟩
    · exact ha.nodup store
  · rw [replay_concat, hwatch, Occurrence.rewatch] at hw
    by_cases ht : t' = t
    · subst ht
      rw [if_pos rfl] at hw
      obtain ⟨store', hsource, heq⟩ := Option.map_eq_some_iff.1 hw
      cases heq
      cases source with
      | value v => cases hsource
      | store _ =>
        cases hsource
        exact ⟨log, [], rfl, rfl, fun _ h => absurd h List.not_mem_nil⟩
    · rw [if_neg ht] at hw
      exact ha.issued_concat hw fun h => ht (Option.some.inj h).symm

theorem released (ha : Attended s₀ log) (hs : (replay s₀ log).WellFormed)
    {removal : Option (EmitterId × ListenerId × Bool)}
    (ho : (Occurrence.released t removal).Possible (replay s₀ log)) :
    Attended s₀ (log ++ [.released t removal]) := by
  have hwatch := ho.watch?_effect hs
  refine ⟨fun store t' => ?_, fun store => ?_, fun t' store l hw => ?_,
    ha.reacts_concat fun _ _ h => nomatch h⟩
  · rw [audience_concat, replay_concat, hwatch, Occurrence.rewatch, Occurrence.attend,
      List.mem_filter, decide_eq_true_iff, ha.mem_iff]
    by_cases ht : t' = t
    · simp [ht]
    · simp [ht]
  · rw [audience_concat]
    exact (ha.nodup store).filter _
  · rw [replay_concat, hwatch, Occurrence.rewatch] at hw
    split at hw
    · cases hw
    · next ht => exact ha.issued_concat hw fun h => ht (Option.some.inj h).symm

theorem effect (ha : Attended s₀ log) (hs : (replay s₀ log).WellFormed)
    (ho : o.Possible (replay s₀ log)) : Attended s₀ (log ++ [o]) := by
  have hwatch := ho.watch?_effect hs
  cases o with
  | bound t source registration => exact ha.bound hs ho
  | released t removal => exact ha.released hs ho
  | dropped t =>
    refine ha.quiet hwatch (fun _ _ => rfl) (fun t' r hw heq => ?_) fun _ _ h => nomatch h
    obtain ⟨u, hu, hnone⟩ := ho
    cases heq
    rw [Stage.watch?_of_source hu hnone] at hw
    cases hw
  | listened e l =>
    obtain ⟨-, -, reaction, hreact⟩ := ho
    refine ha.quiet hwatch (fun _ _ => rfl) (fun _ _ _ h => nomatch h) fun e' l' heq => ?_
    cases heq
    rw [Listener.forwardsTo?, hreact]
  | _ => exact ha.quiet hwatch (fun _ _ => rfl) (fun _ _ _ h => nomatch h) fun _ _ h => nomatch h

end Attended

theorem Path.attended {client : σ} {n : Nat} (h : Path ⟨.start client, n, none, []⟩ log m) :
    Attended (.start client) log :=
  h.concat_induction (motive := fun log _ => Attended (.start client) log) (.start client)
    fun hpath hstep ha => by
      have hstage := hpath.stage_eq
      have hs := hpath.wellFormed (Stage.wellFormed_start client)
      rw [hstage] at hs
      cases hstep with
      | acted ho => exact ha.effect hs (hstage ▸ ho)
      | _ =>
        exact ha.quiet (fun _ => rfl) (fun _ _ => rfl) (fun _ _ _ h => nomatch h)
          fun _ _ h => nomatch h

end Stencil
