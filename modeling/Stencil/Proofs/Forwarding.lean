import Stencil.Proofs.Snapshot
import Stencil.Proofs.Subscription

/-!
# Events of stores at templates

A template announces again what the store it is connected to announces. The listeners that a
store calls for an event are those that hear it when the announcement begins, and the forwarding
ones among them are those of the audience of the store, which hear every event. So the event is
announced again once for each template of the audience, in the order in which the templates were
connected, and for no other one, before the announcement is over.

* `Path.relays_of_announced`: so it is for every announcement of a chronicle.
* `Stage.source_events_forwarded`: so it is in every history, whatever handlers do.
-/

namespace Stencil

variable {σ : Type} {s s₀ : Stage σ} {m : Moment σ} {log : List (Occurrence σ)}
  {e store : EmitterId} {em : Emitter σ} {event : Event}

/-- What the listeners that hear an event announce again is what all forwarding listeners do, if
    these hear every event. -/
theorem Emitter.filterMap_hearing (hall : ∀ l ∈ em.forwarding, l.filter = none) (event : Event) :
    ((em.hearing event.name).map (·, event)).filterMap forwarded =
      em.forwarding.filterMap fun l => l.forwardsTo?.map (·, event) := by
  rw [List.filterMap_map, hearing, forwarding, List.filterMap_filter, List.filterMap_filter]
  refine List.filterMap_congr fun l hl => ?_
  show (if l.hears event.name then l.forwardsTo?.map (·, event) else none) = _
  cases hforwards : l.forwardsTo? with
  | none => simp
  | some target =>
    have hmem : l ∈ em.forwarding := List.mem_filter.2 ⟨hl, by rw [hforwards]; rfl⟩
    have hhears : l.hears event.name = true := by rw [Listener.hears, hall l hmem]
    rw [if_pos hhears]
    rfl

/-- The listeners of templates hear every event, and announce it again where the templates
    announce theirs. -/
theorem forall₂_forwarded {ts : List TemplateId} {ls : List (Listener σ)} (event : Event)
    (h : List.Forall₂ (fun t l => ∃ u id, s.template? t = some u ∧
      u.source = some (.store store) ∧ u.subscription = some id ∧
        l = ⟨id, none, .forward u.emitter⟩) ts ls) :
    (∀ l ∈ ls, l.filter = none) ∧
      List.Forall₂ (fun t r => ∃ u, s.template? t = some u ∧ u.source = some (.store store) ∧
        r = (u.emitter, event)) ts (ls.filterMap fun l => l.forwardsTo?.map (·, event)) := by
  induction h with
  | nil => exact ⟨fun _ hl => absurd hl List.not_mem_nil, .nil⟩
  | cons hl _ ih =>
    obtain ⟨u, id, hu, hsource, -, rfl⟩ := hl
    exact ⟨List.forall_mem_cons.2 ⟨rfl, ih.1⟩, .cons ⟨u, hu, hsource, rfl⟩ ih.2⟩

section

variable {client : σ} {n : Nat} {before after : List (Occurrence σ)} {cause : Option Nat}

/-- The event of a store is announced again on the emitter of each template of its audience, once
    and in order, by an announcement that is over before that of the store is. -/
theorem Path.relays_of_announced
    (h : Path ⟨.start client, 0, none, []⟩ (before ++ .announced n cause store event :: after) m)
    (hend : m.underway = []) (hhonest : Honest before) :
    ∃ during count rest, after = during ++ .answered n count :: rest ∧
      List.Forall₂ (fun t r => ∃ u, (replay (.start client) before).template? t = some u ∧
          u.source = some (.store store) ∧ r = (u.emitter, event))
        (audience store before) (relaysBy n during) ∧
      relaysBy n before = [] ∧ relaysBy n rest = [] ∧
      ∀ during₁ k cause' source' event' during₂,
        during = during₁ ++ .announced k cause' source' event' :: during₂ →
          ∃ c during₃ during₄, during₂ = during₃ ++ .answered k c :: during₄ := by
  obtain ⟨during, rest, hafter, -, ⟨hrelays_before, hrelays, hrelays_rest⟩, hnested⟩ :=
    h.calls_of_announced (Moment.numbered_of_idle _ 0) rfl hend rfl
  refine ⟨during, _, rest, hafter, ?_, hrelays_before, hrelays_rest, hnested⟩
  obtain ⟨_, hbefore, -⟩ := h.exists_of_append
  have hsubscriptions := hbefore.subscriptions
  obtain ⟨hall, hforwarded⟩ :=
    forall₂_forwarded event (hsubscriptions.forwarding hhonest store)
  -- What is announced again depends on the forwarding listeners only, and these are known.
  rw [hrelays, Emitter.filterMap_hearing hall]
  exact hforwarded

end

namespace Stage

/-- In a history, whatever handlers do, every event that a store announces is announced again,
    before the announcement of the store is over, exactly once on the emitter of each template
    that was connected to the store when it began, in the order in which they were connected, and
    for no other template; so it is as long as programs remove only listeners that they
    registered. (An emitter that is no store has no audience, and nothing is announced again.) -/
theorem source_events_forwarded {client : σ} {depth : Nat} {ops : List (Operation σ)}
    {s' : Stage σ} (hrun : run depth ops (start client) = some s') :
    ∃ log, recordRun depth 0 ops (start client) = some (log, s') ∧
      replay (start client) log = s' ∧
      ∀ before n cause store event after,
        log = before ++ .announced n cause store event :: after → Honest before →
        ((∀ t, t ∈ audience store before ↔
            ∃ u, (replay (start client) before).template? t = some u ∧
              u.source = some (.store store)) ∧
          (audience store before).Nodup) ∧
        ∃ during count rest, after = during ++ .answered n count :: rest ∧
          List.Forall₂ (fun t r => ∃ u, (replay (start client) before).template? t = some u ∧
              u.source = some (.store store) ∧ r = (u.emitter, event))
            (audience store before) (relaysBy n during) ∧
          relaysBy n before = [] ∧ relaysBy n rest = [] ∧
          ∀ during₁ k cause' source' event' during₂,
            during = during₁ ++ .announced k cause' source' event' :: during₂ →
              ∃ c during₃ during₄, during₂ = during₃ ++ .answered k c :: during₄ := by
  obtain ⟨log, hlog⟩ := exists_recordRun (n := 0) hrun
  have hpath := path_of_recordRun hlog
  refine ⟨log, hlog, hpath.stage_eq.symm, fun before n cause store event after heq hhonest => ?_⟩
  subst heq
  obtain ⟨_, hbefore, -⟩ := hpath.exists_of_append
  exact ⟨⟨hbefore.subscriptions.mem_audience store, hbefore.subscriptions.nodup_audience store⟩,
    hpath.relays_of_announced rfl hhonest⟩

/-- Two templates are connected to a store, in which a field is set. -/
def watching : List (Operation Unit) :=
  [.create (.blank Unit), .create (.blank Unit), .openStore [], .connect ⟨1⟩ (.store ⟨2⟩),
    .connect ⟨2⟩ (.store ⟨2⟩), .act (.set ⟨2⟩ "field" .null .done)]

theorem source_events_forwarded_watching :
    ∃ s' before after during rest count, run 2 watching (start ()) = some s' ∧
      recordRun 2 0 watching (start ()) = some
        (before ++ .announced 2 none ⟨2⟩ (Hub.changeEvent "field" .null) :: after, s') ∧
      Honest before ∧ after = during ++ .answered 2 count :: rest ∧
      (relaysBy 2 during).length = 2 := by
  obtain ⟨log, hlog, -, h⟩ := source_events_forwarded (rfl : run 2 watching (start ()) = some _)
  let before : List (Occurrence Unit) := [.created (.blank Unit), .created (.blank Unit),
    .opened [], .bound ⟨1⟩ (.store ⟨2⟩) (some (⟨2⟩, ⟨⟨0⟩, none, .forward ⟨0⟩⟩)),
    .announced 0 none ⟨0⟩ Template.connectedEvent, .answered 0 0,
    .bound ⟨2⟩ (.store ⟨2⟩) (some (⟨2⟩, ⟨⟨1⟩, none, .forward ⟨1⟩⟩)),
    .announced 1 none ⟨1⟩ Template.connectedEvent, .answered 1 0, .stored ⟨2⟩ "field" .null]
  have hrecord : recordRun 2 0 watching (start ()) = some
      (before ++ .announced 2 none ⟨2⟩ (Hub.changeEvent "field" .null) :: _, _) := rfl
  have hhonest : Honest before := fun b e id found a heq => by
    have hmem : Occurrence.cancelled e id found ∈ before :=
      heq ▸ List.mem_append_right _ List.mem_cons_self
    simp [before] at hmem
  have heq := (Prod.mk.inj (Option.some.inj (hlog.symm.trans hrecord))).1
  obtain ⟨-, during, count, rest, hafter, hforwarded, -⟩ := h _ _ _ _ _ _ heq hhonest
  exact ⟨_, before, _, during, rest, count, rfl, hrecord, hhonest, hafter,
    hforwarded.length_eq.symm⟩

end Stage

end Stencil
