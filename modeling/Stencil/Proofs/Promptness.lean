import Mathlib.Data.List.Chain
import Stencil.Proofs.Operation

/-!
# What follows at once

Programs decide most of what happens on a stage, but not all of it. When a field of a store was
set, the store announces this before anything else happens; and an announcement that has begun
calls its first listener, or is over if nobody hears it. So the occurrences of a chronicle follow
each other (`Occurrence.Leads`), and it does not end where something has still to follow.

* `Stage.prompt_of_recordRun`: so it is with the chronicle of every history.
-/

namespace Stencil

variable {σ : Type} {o o' : Occurrence σ} {log log' : List (Occurrence σ)}

namespace Occurrence

/-- What can follow an occurrence. -/
def Leads : Occurrence σ → Occurrence σ → Prop
  | stored store key value, o => ∃ n, o = announced n none store (Hub.changeEvent key value)
  | announced n _ _ event, o => (∃ l, o = called n l event) ∨ ∃ count, o = answered n count
  | _, _ => True

/-- Anything can follow an occurrence. -/
def IsClosed (o : Occurrence σ) : Prop := ∀ o', o.Leads o'

end Occurrence

/-- Each occurrence is one that can follow the one before, and nothing has to follow the last. -/
structure Prompt (log : List (Occurrence σ)) : Prop where
  chain : log.IsChain Occurrence.Leads
  closed : ∀ o ∈ log.getLast?, o.IsClosed

namespace Prompt

theorem nil : Prompt ([] : List (Occurrence σ)) := ⟨.nil, nofun⟩

theorem append (h : Prompt log) (h' : Prompt log') : Prompt (log ++ log') where
  chain := List.isChain_append.2 ⟨h.chain, h'.chain, fun o ho o' _ => h.closed o ho o'⟩
  closed o ho := by
    rw [List.getLast?_append] at ho
    rcases Option.or_eq_some_iff.1 ho with ho | ⟨-, ho⟩
    · exact h'.closed o ho
    · exact h.closed o ho

theorem singleton (ho : o.IsClosed) : Prompt [o] :=
  ⟨.singleton o, fun o' ho' => by
    rw [List.getLast?_singleton, Option.mem_some_iff] at ho'
    exact ho' ▸ ho⟩

theorem cons (ho : o.IsClosed) (h : Prompt log) : Prompt (o :: log) := (singleton ho).append h

/-- An occurrence that is followed by what it leads to. -/
theorem cons_cons (ho : o.Leads o') (h : Prompt (o' :: log)) : Prompt (o :: o' :: log) where
  chain := List.isChain_cons_cons.2 ⟨ho, h.chain⟩
  closed := by
    rw [List.getLast?_cons_cons]
    exact h.closed

end Prompt

namespace Hub

/-- A way to deliver events whose chronicles are prompt, and begin with the beginning of the
    announcement. -/
def Hastens (deliver : RecordingDeliver σ) : Prop :=
  ∀ cause n source event h log d h', deliver cause n source event h = some (log, d, h') →
    Prompt log ∧ ∃ rest, log = .announced n cause source event :: rest

theorem prompt_occurring (ho : o.IsClosed) (hlog : Prompt log) (h : Hub σ) (target : EmitterId) :
    Prompt (h.occurring target o ++ log) := by
  rw [occurring]
  split
  · exact .cons ho hlog
  · exact hlog

section

variable {deliver : RecordingDeliver σ} {h h' : Hub σ} {n : Nat}

theorem prompt_of_recordSet (hd : Hastens deliver) {store : EmitterId} {key : String}
    {value : Json} {ds : List Delivery}
    (hrun : recordSet deliver store key value n h = some (log, ds, h')) : Prompt log := by
  rw [recordSet] at hrun
  split at hrun
  · obtain ⟨⟨log, d, h⟩, hlog, heq⟩ := Option.map_eq_some_iff.1 hrun
    cases heq
    obtain ⟨hlog, rest, rfl⟩ := hd _ _ _ _ _ _ _ _ hlog
    exact hlog.cons_cons ⟨n, rfl⟩
  · cases hrun
    exact .nil

theorem prompt_of_recordPerform (hd : Hastens deliver) {r : Reaction σ} {ds : List Delivery}
    (hrun : recordPerform deliver r n h = some (log, ds, h')) : Prompt log := by
  induction r generalizing h n log ds with
  | done =>
    cases hrun
    exact .nil
  | change f next ih =>
    obtain ⟨⟨log, ds, h⟩, hlog, heq⟩ := Option.map_eq_some_iff.1 hrun
    cases heq
    exact .cons (fun _ => trivial) (ih hlog)
  | consult next ih => exact ih h.client hrun
  | inspect store next ih => exact ih (h.fields store) hrun
  | emit target event next ih =>
    obtain ⟨⟨log, d, h⟩, hlog, hrun⟩ := Option.bind_eq_some_iff.1 hrun
    obtain ⟨⟨log', ds, h'⟩, hlog', heq⟩ := Option.bind_eq_some_iff.1 hrun
    cases heq
    exact (hd _ _ _ _ _ _ _ _ hlog).1.append (ih d.count hlog')
  | listen target filter handler next _ ih =>
    obtain ⟨⟨log, ds, h⟩, hlog, heq⟩ := Option.map_eq_some_iff.1 hrun
    cases heq
    refine prompt_occurring ?_ (ih _ hlog) _ _
    exact fun _ => trivial
  | cancel target id next ih =>
    obtain ⟨⟨log, ds, h⟩, hlog, heq⟩ := Option.map_eq_some_iff.1 hrun
    cases heq
    refine prompt_occurring ?_ (ih _ hlog) _ _
    exact fun _ => trivial
  | set store key value next ih =>
    obtain ⟨⟨log, ds, h₁⟩, hlog, hrun⟩ := Option.bind_eq_some_iff.1 hrun
    obtain ⟨⟨log', ds', h'⟩, hlog', heq⟩ := Option.bind_eq_some_iff.1 hrun
    cases heq
    exact (prompt_of_recordSet hd hlog).append (ih hlog')

theorem prompt_of_recordInvoke (hd : Hastens deliver) {m : Nat} {event : Event}
    {handler : Handler σ} {ds : List Delivery}
    (hrun : recordInvoke deliver m event handler n h = some (log, ds, h')) : Prompt log := by
  cases handler with
  | react reaction => exact prompt_of_recordPerform hd hrun
  | forward target =>
    obtain ⟨⟨log, d, h⟩, hlog, heq⟩ := Option.map_eq_some_iff.1 hrun
    cases heq
    exact (hd _ _ _ _ _ _ _ _ hlog).1

/-- What an announcement does after its beginning starts with its first call, if there is one. -/
theorem prompt_of_recordInvokeAll (hd : Hastens deliver) {m : Nat} {event : Event}
    {ls : List (Listener σ)} {calls : List (ListenerId × List Delivery)}
    (hrun : recordInvokeAll deliver m event ls n h = some (log, calls, h')) :
    Prompt log ∧ (log = [] ∨ ∃ l rest, log = .called m l event :: rest) := by
  induction ls generalizing h n log calls with
  | nil =>
    cases hrun
    exact ⟨.nil, .inl rfl⟩
  | cons l ls ih =>
    obtain ⟨⟨log, ds, h⟩, hlog, hrun⟩ := Option.bind_eq_some_iff.1 hrun
    obtain ⟨⟨log', calls', h'⟩, hlog', heq⟩ := Option.bind_eq_some_iff.1 hrun
    cases heq
    refine ⟨?_, .inr ⟨l, log ++ log', rfl⟩⟩
    exact .cons (fun _ => trivial) ((prompt_of_recordInvoke hd hlog).append (ih hlog').1)

end

theorem hastens_recordEmit (depth : Nat) : Hastens (recordEmit depth : RecordingDeliver σ) := by
  induction depth with
  | zero => exact fun _ _ _ _ _ _ _ _ hrun => nomatch hrun
  | succ depth ih =>
    intro cause n source event h log d h' hrun
    obtain ⟨⟨log, calls, h⟩, hlog, heq⟩ := Option.bind_eq_some_iff.1 hrun
    cases heq
    obtain ⟨hlog, hfirst⟩ := prompt_of_recordInvokeAll ih hlog
    have hend := hlog.append (.singleton (o := .answered n calls.length) fun _ => trivial)
    refine ⟨?_, _, rfl⟩
    rcases hfirst with rfl | ⟨l, rest, rfl⟩
    · exact hend.cons_cons (.inr ⟨_, rfl⟩)
    · exact hend.cons_cons (.inl ⟨l, rfl⟩)

end Hub

namespace Stage

variable {s s' : Stage σ} {t : TemplateId} {depth n : ℕ} {source : Source}

theorem prompt_of_recordEmit {target : EmitterId} {event : Event}
    (hrun : s.recordEmit depth n target event = some (log, s')) : Prompt log := by
  obtain ⟨⟨log, d, h⟩, hlog, heq⟩ := Option.map_eq_some_iff.1 hrun
  cases heq
  exact (Hub.hastens_recordEmit depth _ _ _ _ _ _ _ _ hlog).1

theorem prompt_of_recordDisconnect (hrun : s.recordDisconnect depth n t = some (log, s')) :
    Prompt log := by
  rw [recordDisconnect] at hrun
  split at hrun
  · cases hrun
    exact .nil
  · split at hrun
    · cases hrun
      exact .nil
    · obtain ⟨⟨log, s₁⟩, hlog, hrun⟩ := Option.bind_eq_some_iff.1 hrun
      obtain ⟨⟨log', s₂⟩, hlog', heq⟩ := Option.bind_eq_some_iff.1 hrun
      cases heq
      exact (prompt_of_recordEmit hlog).append
        (.cons (fun _ => trivial) (prompt_of_recordEmit hlog'))

theorem prompt_of_recordConnect (hrun : s.recordConnect depth n t source = some (log, s')) :
    Prompt log := by
  rw [recordConnect] at hrun
  split at hrun
  · cases hrun
    exact .nil
  · obtain ⟨⟨log, s₁⟩, hlog, hrun⟩ := Option.bind_eq_some_iff.1 hrun
    obtain ⟨⟨log', s₂⟩, hlog', heq⟩ := Option.bind_eq_some_iff.1 hrun
    cases heq
    exact (prompt_of_recordDisconnect hlog).append
      (.cons (fun _ => trivial) (prompt_of_recordEmit hlog'))

theorem prompt_dropping (s : Stage σ) (t : TemplateId) : Prompt (s.dropping t) := by
  rw [dropping]
  split
  · exact .nil
  · split
    · exact .cons (fun _ => trivial) (.singleton fun _ => trivial)
    · exact .singleton fun _ => trivial

theorem prompt_of_record {op : Operation σ} (hrun : s.record depth n op = some (log, s')) :
    Prompt log := by
  cases op with
  | create draft =>
    cases hrun
    exact .singleton fun _ => trivial
  | openStore fields =>
    cases hrun
    exact .singleton fun _ => trivial
  | connect t source =>
    rw [record] at hrun
    split at hrun
    · exact prompt_of_recordConnect hrun
    · cases hrun
      exact .nil
  | disconnect t => exact prompt_of_recordDisconnect hrun
  | drop t =>
    cases hrun
    exact prompt_dropping s t
  | act r =>
    obtain ⟨⟨log, ds, h⟩, hlog, heq⟩ := Option.map_eq_some_iff.1 hrun
    cases heq
    exact Hub.prompt_of_recordPerform (Hub.hastens_recordEmit depth) hlog

/-- Whatever happens in a history, sets are announced at once, and announcements that have begun
    call their first listener at once or are over. -/
theorem prompt_of_recordRun {ops : List (Operation σ)}
    (hrun : recordRun depth n ops s = some (log, s')) : Prompt log := by
  induction ops generalizing n s log with
  | nil =>
    cases hrun
    exact .nil
  | cons op ops ih =>
    obtain ⟨⟨log, s₁⟩, hlog, hrun⟩ := Option.bind_eq_some_iff.1 hrun
    obtain ⟨⟨log', s₂⟩, hlog', heq⟩ := Option.map_eq_some_iff.1 hrun
    cases heq
    exact (prompt_of_record hlog).append (ih hlog')

end Stage

end Stencil
