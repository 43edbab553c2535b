import Stencil.Proofs.Account

/-!
# Operations on stages

What can be done with a stage is one of its operations (`Operation`, `operate`): templates are
made, connected, disconnected and let go, stores are made, and programs run, which announce
events, set fields of stores, and register and remove listeners. A history is a list of
operations (`run`). As deliveries are, operations and histories are done once more with an
account (`record`, `recordRun`); their chronicles tell when a template is bound to a source and
when it gives it up, and which listeners it registers and removes thereby.

* `map_snd_recordRun`: an account changes nothing. Every history has one (`exists_recordRun`),
  and without the chronicle it is the history itself.
* `path_of_recordRun`: the chronicle of a history is a path from its beginning to its end, and
  no announcement is under way in either place.
-/

namespace Stencil

variable {σ α : Type}

namespace Stage

/-! ### Operations and histories -/

/-- Whether a source can be connected to: a store has to be there. -/
def offers (s : Stage σ) (source : Source) : Bool :=
  match source.watched? with
  | none => true
  | some store => s.hub.stores.contains store

/-- What can be done with a stage. Programs do the rest: they announce events, set fields of
    stores, and register and remove listeners. -/
inductive Operation (σ : Type)
  /-- Make a template. -/
  | create (draft : Draft σ)
  /-- Make a store. -/
  | openStore (fields : Json.Fields)
  /-- Connect a template to a source. -/
  | connect (t : TemplateId) (source : Source)
  /-- Release the source of a template. -/
  | disconnect (t : TemplateId)
  /-- Let a template go. -/
  | drop (t : TemplateId)
  /-- Run a program. -/
  | act (r : Reaction σ)

/-- The template that an operation is about. -/
def Operation.subject? : Operation σ → Option TemplateId
  | connect t _ | disconnect t | drop t => some t
  | _ => none

/-- The stage after an operation. To connect to a store that is not there does nothing. -/
def operate (depth : Nat) (s : Stage σ) : Operation σ → Option (Stage σ)
  | .create draft => some (s.create draft)
  | .openStore fields => some (s.withHub (s.hub.addStore fields))
  | .connect t source =>
    if s.offers source then (s.connect depth t source).map Prod.snd else some s
  | .disconnect t => (s.disconnect depth t).map fun r => r.2.2
  | .drop t => some (s.drop t)
  | .act r => (s.hub.react depth r).map fun r => s.withHub r.2

/-- The stage after a history. -/
def run (depth : Nat) : List (Operation σ) → Stage σ → Option (Stage σ)
  | [], s => some s
  | op :: ops, s => (s.operate depth op).bind (run depth ops)

/-- Announces an event, with an account. -/
def recordEmit (depth n : Nat) (source : EmitterId) (event : Event) (s : Stage σ) :
    Option (List (Occurrence σ) × Stage σ) :=
  (s.hub.recordEmit depth none n source event).map fun (log, _, h) => (log, s.withHub h)

/-- What happens when a template gives up its source: it tells which listener is removed. -/
def releasing (s : Stage σ) (t : TemplateId) (u : Template σ) : Occurrence σ :=
  .released t (u.subscribed?.map fun r => (r.1, r.2, (s.hub.emitter r.1).knows r.2))

/-- What happens when a template is bound to a source: it tells which listener is registered. -/
def binding (s : Stage σ) (t : TemplateId) (u : Template σ) (source : Source) : Occurrence σ :=
  .bound t source (source.watched?.map fun store => (store, u.listenerAt s.hub store))

/-- Releases the source of a template, with an account. -/
def recordDisconnect (depth n : Nat) (t : TemplateId) (s : Stage σ) :
    Option (List (Occurrence σ) × Stage σ) :=
  match s.template? t with
  | none => some ([], s)
  | some u =>
    match u.source with
    | none => some ([], s)
    | some _ => do
      let (log, s) ← s.recordEmit depth n u.emitter Template.beforeDisconnectEvent
      let (log', s') ← (s.release t).recordEmit depth (n + announcements log) u.emitter
        Template.disconnectedEvent
      return (log ++ s.releasing t u :: log', s')

/-- Connects a template to a source, with an account. -/
def recordConnect (depth n : Nat) (t : TemplateId) (source : Source) (s : Stage σ) :
    Option (List (Occurrence σ) × Stage σ) :=
  match s.template? t with
  | none => some ([], s)
  | some u => do
    let (log, s) ← s.recordDisconnect depth n t
    let (log', s') ← (s.bind t source).recordEmit depth (n + announcements log) u.emitter
      Template.connectedEvent
    return (log ++ s.binding t u source :: log', s')

/-- What happens when a template is let go: it gives up its source, without a word, and goes
    away. -/
def dropping (s : Stage σ) (t : TemplateId) : List (Occurrence σ) :=
  match s.template? t with
  | none => []
  | some u => if u.isConnected then [s.releasing t u, .dropped t] else [.dropped t]

/-- Does an operation, with an account. -/
def record (depth n : Nat) (s : Stage σ) :
    Operation σ → Option (List (Occurrence σ) × Stage σ)
  | .create draft => some ([.created draft], s.create draft)
  | .openStore fields => some ([.opened fields], s.withHub (s.hub.addStore fields))
  | .connect t source =>
    if s.offers source then s.recordConnect depth n t source else some ([], s)
  | .disconnect t => s.recordDisconnect depth n t
  | .drop t => some (s.dropping t, s.drop t)
  | .act r =>
    (Hub.recordPerform (Hub.recordEmit depth) r n s.hub).map fun (log, _, h) => (log, s.withHub h)

/-- Goes through a history, with an account. -/
def recordRun (depth : Nat) : (n : Nat) → List (Operation σ) → Stage σ →
    Option (List (Occurrence σ) × Stage σ)
  | _, [], s => some ([], s)
  | n, op :: ops, s => do
    let (log, s) ← s.record depth n op
    (recordRun depth (n + announcements log) ops s).map fun (log', s) => (log ++ log', s)

/-! ### An account of a history changes nothing -/

section

variable {s : Stage σ} {t : TemplateId} {u u' : Template σ} {h : Hub σ}

theorem put_put (s : Stage σ) (t : TemplateId) (u u' : Template σ) :
    (s.put t u).put t u' = s.put t u' := by
  rw [put, put, put, OrderedMap.insert_insert]

theorem put_template (hu : s.template? t = some u) : s.put t u = s := by
  rw [put, OrderedMap.insert_of_get? hu]

theorem map_snd_recordEmit (depth n : Nat) (source : EmitterId) (event : Event) (s : Stage σ) :
    (s.recordEmit depth n source event).map Prod.snd =
      (s.hub.emit depth source event).map fun r => s.withHub r.2 := by
  rw [recordEmit, ← Hub.map_snd_recordEmit depth none n, Option.map_map, Option.map_map]
  rfl

theorem map_snd_recordEmit_bind {depth n : Nat} {source : EmitterId} {event : Event}
    {f : List (Occurrence σ) × Stage σ → Option (List (Occurrence σ) × α)}
    {g : Delivery × Hub σ → Option α}
    (hf : ∀ log d h, (f (log, s.withHub h)).map Prod.snd = g (d, h)) :
    ((s.recordEmit depth n source event).bind f).map Prod.snd =
      (s.hub.emit depth source event).bind g := by
  rw [← Hub.map_snd_recordEmit depth none n, recordEmit]
  cases s.hub.recordEmit depth none n source event with
  | none => rfl
  | some r => exact hf r.1 r.2.1 r.2.2

/-- What becomes of a template that is disconnected, told with an account. -/
theorem map_snd_recordDisconnect (hu : s.template? t = some u) (depth n : Nat) :
    (s.recordDisconnect depth n t).map Prod.snd =
      (u.disconnect depth s.hub).map fun r => (s.put t r.2.2.1).withHub r.2.2.2 := by
  simp only [recordDisconnect, hu, Template.disconnect]
  cases u.source with
  | none => exact congrArg some (put_template hu).symm
  | some source =>
    refine (map_snd_recordEmit_bind fun log d h => ?_).trans (Option.map_bind ..).symm
    rw [release_eq (s := s.withHub h) hu]
    refine (map_snd_recordEmit_bind fun _ _ _ => ?_).trans (Option.map_bind ..).symm
    rfl

theorem emitter_disconnect {depth : Nat} {r : Bool × List Delivery × Template σ × Hub σ}
    (hr : u.disconnect depth h = some r) :
    r.2.2.1.emitter = u.emitter ∧ r.2.2.1.source = none := by
  rw [Template.disconnect] at hr
  cases hsource : u.source with
  | none =>
    rw [hsource] at hr
    cases hr
    exact ⟨rfl, hsource⟩
  | some source =>
    rw [hsource] at hr
    obtain ⟨_, -, hr⟩ := Option.bind_eq_some_iff.1 hr
    obtain ⟨_, -, hr⟩ := Option.bind_eq_some_iff.1 hr
    cases hr
    exact ⟨rfl, rfl⟩

/-- What comes out of an account of releasing a source, where there is such an account. -/
theorem recordDisconnect_eq {depth n : Nat} {log : List (Occurrence σ)} {s' : Stage σ}
    (hu : s.template? t = some u) (hrun : s.recordDisconnect depth n t = some (log, s')) :
    ∃ u' h', s' = (s.put t u').withHub h' ∧ u'.emitter = u.emitter ∧ u'.source = none ∧
      ∃ found ds, u.disconnect depth s.hub = some (found, ds, u', h') := by
  have hmap := map_snd_recordDisconnect hu depth n
  rw [hrun, Option.map_some, eq_comm, Option.map_eq_some_iff] at hmap
  obtain ⟨⟨found, ds, u', h'⟩, hr, hs'⟩ := hmap
  obtain ⟨hemitter, hsource⟩ := emitter_disconnect hr
  exact ⟨u', h', hs'.symm, hemitter, hsource, found, ds, hr⟩

theorem map_snd_recordConnect (hu : s.template? t = some u) (depth n : Nat) (source : Source) :
    (s.recordConnect depth n t source).map Prod.snd =
      (s.connect depth t source).map Prod.snd := by
  simp only [recordConnect, connect, hu, Template.connect]
  cases hrun : s.recordDisconnect depth n t with
  | none =>
    have hmap := map_snd_recordDisconnect hu depth n
    rw [hrun, Option.map_none, eq_comm, Option.map_eq_none_iff] at hmap
    rw [hmap]
    rfl
  | some r =>
    obtain ⟨log, s'⟩ := r
    obtain ⟨u', h', rfl, hemitter, -, found, ds, hr⟩ := recordDisconnect_eq hu hrun
    -- The account puts the released template back before it is bound; otherwise this is done
    -- once, when the template is bound already.
    have hput : ((s.put t u').withHub h').bind t source =
        (s.put t (u'.bind source h').1).withHub (u'.bind source h').2 := by
      rw [bind_eq (s := (s.put t u').withHub h') (template?_put s t u')]
      show (((s.withHub h').put t u').put t _).withHub (u'.bind source h').2 =
        ((s.withHub h').put t (u'.bind source h').1).withHub (u'.bind source h').2
      rw [put_put]
      rfl
    have hbind : (u'.bind source h').1.emitter = u.emitter := by
      rw [← hemitter]
      cases source <;> rfl
    simp only [hr, hput, hbind, Option.bind_eq_bind, Option.bind_some, Option.bind_assoc]
    refine (map_snd_recordEmit_bind fun _ _ _ => ?_).trans (Option.map_bind ..).symm
    rfl

theorem map_snd_record (depth n : Nat) (s : Stage σ) (op : Operation σ) :
    (s.record depth n op).map Prod.snd = s.operate depth op := by
  cases op with
  | create | openStore | drop => rfl
  | connect t source =>
    rw [record, operate]
    split
    · cases hu : s.template? t with
      | none => simp only [recordConnect, connect, hu, Option.map_some]
      | some u => exact map_snd_recordConnect hu depth n source
    · rfl
  | disconnect t =>
    rw [record, operate]
    cases hu : s.template? t with
    | none => simp only [recordDisconnect, disconnect, hu, Option.map_some]
    | some u =>
      rw [map_snd_recordDisconnect hu]
      simp only [disconnect, hu]
      cases u.disconnect depth s.hub <;> rfl
  | act r =>
    rw [record, operate, Hub.react, ← Hub.map_snd_recordPerform (Hub.map_snd_recordEmit depth) r n,
      Option.map_map, Option.map_map]
    rfl

/-- Without the chronicle, a history with an account is the history itself. -/
theorem map_snd_recordRun (depth n : Nat) (ops : List (Operation σ)) (s : Stage σ) :
    (recordRun depth n ops s).map Prod.snd = run depth ops s := by
  induction ops generalizing n s with
  | nil => rfl
  | cons op ops ih =>
    refine map_snd_bind (map_snd_record depth n s op) fun r => ?_
    rw [Option.map_map]
    exact ih _ r.2

/-- Every run has an account. -/
theorem exists_recordRun {depth n : Nat} {ops : List (Operation σ)} {s s' : Stage σ}
    (hrun : run depth ops s = some s') : ∃ log, recordRun depth n ops s = some (log, s') := by
  rw [← map_snd_recordRun depth n, Option.map_eq_some_iff] at hrun
  obtain ⟨⟨log, s''⟩, hlog, rfl⟩ := hrun
  exact ⟨log, hlog⟩

end

/-! ### An account of a history is a path -/

section

variable {s s' : Stage σ} {t : TemplateId} {u : Template σ} {depth n : ℕ}
  {log log' : List (Occurrence σ)} {source : Source}

theorem path_of_recordEmit {target : EmitterId} {event : Event}
    (hrun : s.recordEmit depth n target event = some (log, s')) :
    Path ⟨s, n, none, []⟩ log ⟨s', n + announcements log, none, []⟩ ∧
      s'.templates = s.templates := by
  obtain ⟨⟨log, d, h⟩, hlog, heq⟩ := Option.map_eq_some_iff.1 hrun
  cases heq
  exact ⟨Hub.path_of_recordEmit depth none n target event s [] _ _ _ hlog, rfl⟩

theorem possible_releasing (hu : s.template? t = some u) (hsource : u.source.isSome = true) :
    (s.releasing t u).Possible s := ⟨u, hu, hsource, rfl⟩

theorem path_of_recordDisconnect (hrun : s.recordDisconnect depth n t = some (log, s')) :
    Path ⟨s, n, none, []⟩ log ⟨s', n + announcements log, none, []⟩ := by
  rw [recordDisconnect] at hrun
  split at hrun
  · cases hrun
    exact .nil
  · next u hu =>
    split at hrun
    · cases hrun
      exact .nil
    · next source hsource =>
      obtain ⟨⟨log, s₁⟩, hlog, hrun⟩ := Option.bind_eq_some_iff.1 hrun
      obtain ⟨⟨log', s₂⟩, hlog', heq⟩ := Option.bind_eq_some_iff.1 hrun
      cases heq
      obtain ⟨hpath, htemplates⟩ := path_of_recordEmit hlog
      -- Handlers cannot touch templates, so the source is released from what it was before.
      have hu₁ : s₁.template? t = some u := by rw [template?, htemplates]; exact hu
      have hreleasing := possible_releasing hu₁ (by rw [hsource]; rfl)
      exact .append_counted hpath (.cons_acted hreleasing (path_of_recordEmit hlog').1)

theorem path_of_recordConnect (hoffers : s.offers source = true)
    (hrun : s.recordConnect depth n t source = some (log, s')) :
    Path ⟨s, n, none, []⟩ log ⟨s', n + announcements log, none, []⟩ := by
  rw [recordConnect] at hrun
  split at hrun
  · cases hrun
    exact .nil
  · next u hu =>
    obtain ⟨⟨log, s₁⟩, hlog, hrun⟩ := Option.bind_eq_some_iff.1 hrun
    obtain ⟨⟨log', s₂⟩, hlog', heq⟩ := Option.bind_eq_some_iff.1 hrun
    cases heq
    have hpath := path_of_recordDisconnect hlog
    obtain ⟨u', h', rfl, hemitter, hsource, -⟩ := recordDisconnect_eq hu hlog
    refine Path.append_counted hpath (Path.cons_acted ?_ (path_of_recordEmit hlog').1)
    refine ⟨u', template?_put s t u', hsource, ?_, ?_⟩
    · -- The store was there before the source was released, and so it still is.
      rintro store rfl
      have hstage : (s.put t u').withHub h' = replay s log := hpath.stage_eq
      rw [hstage]
      exact contains_stores_replay hoffers
    · simp only [Template.listenerAt, hemitter]

theorem release_remove (hu : s.template? t = some u) : (s.release t).remove t = s.drop t := by
  have hreleased : (s.release t).template? t = some u.withoutSource := by
    rw [release_eq hu]
    exact template?_put s t _
  rw [remove_eq hreleased, release_eq hu, drop, hu]
  show Stage.mk _ ((s.templates.insert t _).erase t) _ = _
  rw [OrderedMap.erase_insert]
  rfl

theorem remove_of_source_eq_none (hu : s.template? t = some u) (hsource : u.source = none) :
    s.remove t = s.drop t := by
  rw [remove_eq hu, drop, hu]
  show _ = Stage.mk ((u.unsubscribe s.hub).removeEmitter _) _ _
  rw [Template.unsubscribe, hsource]
  rfl

theorem path_of_dropping (s : Stage σ) (t : TemplateId) :
    Path ⟨s, n, none, []⟩ (s.dropping t)
      ⟨s.drop t, n + announcements (s.dropping t), none, []⟩ := by
  rw [dropping]
  cases hu : s.template? t with
  | none =>
    rw [drop, hu]
    exact .nil
  | some u =>
    cases hsource : u.source with
    | none =>
      simp only [Template.isConnected, hsource, Option.isSome_none, Bool.false_eq_true, if_false]
      rw [← remove_of_source_eq_none hu hsource]
      exact Path.cons_acted ⟨u, hu, hsource⟩ .nil
    | some source =>
      simp only [Template.isConnected, hsource, Option.isSome_some, if_true]
      rw [← release_remove hu]
      have hreleasing := possible_releasing hu (by rw [hsource]; rfl)
      refine .cons_acted hreleasing (.cons_acted ?_ .nil)
      refine ⟨u.withoutSource, ?_, rfl⟩
      show (s.release t).template? t = _
      rw [release_eq hu]
      exact template?_put s t _

theorem path_of_record {op : Operation σ} (hrun : s.record depth n op = some (log, s')) :
    Path ⟨s, n, none, []⟩ log ⟨s', n + announcements log, none, []⟩ := by
  cases op with
  | create draft =>
    cases hrun
    exact Path.cons_acted (o := .created draft) trivial .nil
  | openStore fields =>
    cases hrun
    exact Path.cons_acted (o := .opened fields) trivial .nil
  | connect t source =>
    rw [record] at hrun
    split at hrun
    · next hoffers => exact path_of_recordConnect hoffers hrun
    · cases hrun
      exact .nil
  | disconnect t => exact path_of_recordDisconnect hrun
  | drop t =>
    cases hrun
    exact path_of_dropping s t
  | act r =>
    obtain ⟨⟨log, ds, h⟩, hlog, heq⟩ := Option.map_eq_some_iff.1 hrun
    cases heq
    exact Hub.path_of_recordPerform (Hub.path_of_recordEmit depth) hlog

/-- The chronicle of a history is a path from its beginning to its end. -/
theorem path_of_recordRun {ops : List (Operation σ)}
    (hrun : recordRun depth n ops s = some (log, s')) :
    Path ⟨s, n, none, []⟩ log ⟨s', n + announcements log, none, []⟩ := by
  induction ops generalizing n s log with
  | nil =>
    cases hrun
    exact .nil
  | cons op ops ih =>
    obtain ⟨⟨log, s₁⟩, hlog, hrun⟩ := Option.bind_eq_some_iff.1 hrun
    obtain ⟨⟨log', s₂⟩, hlog', heq⟩ := Option.map_eq_some_iff.1 hrun
    cases heq
    exact Path.append_counted (path_of_record hlog) (ih hlog')

/-- What happens in an operation after others, and what happened before it. -/
theorem exists_record_of_recordRun {ops₁ ops₂ : List (Operation σ)} {op : Operation σ}
    (hrun : recordRun depth n (ops₁ ++ op :: ops₂) s = some (log, s')) :
    ∃ log₁ s₁ log₂ s₂ log₃, log = log₁ ++ log₂ ++ log₃ ∧
      recordRun depth n ops₁ s = some (log₁, s₁) ∧
      s₁.record depth (n + announcements log₁) op = some (log₂, s₂) := by
  induction ops₁ generalizing n s log with
  | nil =>
    obtain ⟨⟨log₂, s₂⟩, hlog₂, hrun⟩ := Option.bind_eq_some_iff.1 hrun
    obtain ⟨⟨log₃, s₃⟩, -, heq⟩ := Option.map_eq_some_iff.1 hrun
    cases heq
    exact ⟨[], s, log₂, s₂, log₃, rfl, rfl, hlog₂⟩
  | cons op₁ ops₁ ih =>
    obtain ⟨⟨log₀, s₀⟩, hlog₀, hrun⟩ := Option.bind_eq_some_iff.1 hrun
    obtain ⟨⟨log', s₃⟩, hlog', heq⟩ := Option.map_eq_some_iff.1 hrun
    cases heq
    obtain ⟨log₁, s₁, log₂, s₂, log₃, rfl, hlog₁, hlog₂⟩ := ih hlog'
    refine ⟨log₀ ++ log₁, s₁, log₂, s₂, log₃, by simp, ?_, ?_⟩
    · simp only [recordRun, hlog₀, hlog₁, Option.bind_eq_bind, Option.bind_some, Option.map_some]
    · rwa [announcements_append, ← Nat.add_assoc]

end

/-! ### Operations leave other templates alone -/

section

variable {s s' : Stage σ} {t : TemplateId} {depth n : ℕ} {log : List (Occurrence σ)}
  {source : Source}

theorem minds_of_recordEmit {target : EmitterId} {event : Event}
    (hrun : s.recordEmit depth n target event = some (log, s')) : Minds none log := by
  obtain ⟨⟨log, d, h⟩, hlog, heq⟩ := Option.map_eq_some_iff.1 hrun
  cases heq
  exact Hub.minds_of_recordEmit depth none n target event s.hub _ _ _ hlog

theorem minds_of_recordDisconnect (hrun : s.recordDisconnect depth n t = some (log, s')) :
    Minds (some t) log := by
  rw [recordDisconnect] at hrun
  split at hrun
  · cases hrun
    exact .nil
  · split at hrun
    · cases hrun
      exact .nil
    · obtain ⟨⟨log, s₁⟩, hlog, hrun⟩ := Option.bind_eq_some_iff.1 hrun
      obtain ⟨⟨log', s₂⟩, hlog', heq⟩ := Option.bind_eq_some_iff.1 hrun
      cases heq
      exact (minds_of_recordEmit hlog).of_none.append
        (.cons (.inr rfl) (minds_of_recordEmit hlog').of_none)

theorem minds_of_recordConnect (hrun : s.recordConnect depth n t source = some (log, s')) :
    Minds (some t) log := by
  rw [recordConnect] at hrun
  split at hrun
  · cases hrun
    exact .nil
  · obtain ⟨⟨log, s₁⟩, hlog, hrun⟩ := Option.bind_eq_some_iff.1 hrun
    obtain ⟨⟨log', s₂⟩, hlog', heq⟩ := Option.bind_eq_some_iff.1 hrun
    cases heq
    exact (minds_of_recordDisconnect hlog).append
      (.cons (.inr rfl) (minds_of_recordEmit hlog').of_none)

theorem minds_dropping (s : Stage σ) (t : TemplateId) : Minds (some t) (s.dropping t) := by
  rw [dropping]
  split
  · exact .nil
  · split
    · exact .cons (.inr rfl) (.cons (.inr rfl) .nil)
    · exact .cons (.inr rfl) .nil

/-- Whatever happens in an operation, only the template that it is about is bound, released or
    dropped. -/
theorem minds_of_record {op : Operation σ} (hrun : s.record depth n op = some (log, s')) :
    Minds op.subject? log := by
  cases op with
  | create draft =>
    cases hrun
    exact .cons (.inl rfl) .nil
  | openStore fields =>
    cases hrun
    exact .cons (.inl rfl) .nil
  | connect t source =>
    rw [record] at hrun
    split at hrun
    · exact minds_of_recordConnect hrun
    · cases hrun
      exact .nil
  | disconnect t => exact minds_of_recordDisconnect hrun
  | drop t =>
    cases hrun
    exact minds_dropping s t
  | act r =>
    obtain ⟨⟨log, ds, h⟩, hlog, heq⟩ := Option.map_eq_some_iff.1 hrun
    cases heq
    exact Hub.minds_of_recordPerform (Hub.minds_of_recordEmit depth) hlog

end

end Stage

end Stencil
