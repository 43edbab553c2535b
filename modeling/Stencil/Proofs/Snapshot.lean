import Stencil.Proofs.Account

/-!
# Announcements call those who hear them

While an announcement is under way, handlers may register and remove listeners and make further
announcements, on the same emitter too. None of this matters to the announcement: it calls the
listeners that heard it when it began, and when these are called it is over.

What an announcement has still to do is pending (`Moment.pendingCalls`), and along a path what
is pending is done, in order and nothing else (`Path.pendingCalls_eq`). For that, announcements
have to be told from each other: those under way have numbers that increase towards the
innermost, below the number of the next one (`Moment.Numbered`). Forwarding listeners announce
the event again, once for each call and in the same order (`Path.relays_eq`).

* `Path.calls_of_announced`: on a path that ends with nothing under way, an announcement is
  over at some time, and until then, and only until then, it calls exactly the listeners that
  heard it at its beginning.
* `emit_calls_hearing`: so it is with an announcement, and with all those that are made while
  it is under way.
-/

namespace Stencil

variable {σ : Type} {m m' : Moment σ} {o : Occurrence σ} {log : List (Occurrence σ)} {n j : Nat}

/-! ### Numbers of announcements -/

namespace Moment

/-- Announcements under way have numbers that increase towards the innermost one, and are below
    the number of the next one. So has the announcement for which something is due. -/
structure Numbered (m : Moment σ) : Prop where
  decreasing : m.underway.Pairwise fun a b => b.number < a.number
  below : ∀ a ∈ m.underway, a.number < m.next
  due : ∀ d, m.due = some d → d.1 < m.next

/-- The announcement of a number, if it is under way. -/
def find? (m : Moment σ) (j : Nat) : Option (Announcement σ) :=
  m.underway.find? fun a => decide (a.number = j)

/-- The calls that an announcement has still to make, if it is under way. -/
def pendingCalls (m : Moment σ) (j : Nat) : List (Listener σ × Event) :=
  match m.find? j with
  | some a => a.left.map fun l => (l, a.event)
  | none => []

/-- What a forwarding listener that was called by an announcement has still to announce. -/
def dueBy (m : Moment σ) (j : Nat) : List (EmitterId × Event) :=
  match m.due with
  | some d => if d.1 = j then [d.2] else []
  | none => []

theorem numbered_of_idle (s : Stage σ) (n : Nat) : Numbered ⟨s, n, none, []⟩ where
  decreasing := .nil
  below _ h := absurd h List.not_mem_nil
  due _ h := nomatch h

end Moment

theorem Step.numbered (h : Step m o m') (hm : m.Numbered) : m'.Numbered := by
  obtain ⟨hdec, hbelow, hdue⟩ := hm
  -- An announcement that begins is given the next number, which is above all others.
  have hbegin : ∀ {s : Stage σ} {n : Nat} {as : List (Announcement σ)} (a : Announcement σ),
      a.number = n → as.Pairwise (fun a b => b.number < a.number) → (∀ a ∈ as, a.number < n) →
      Moment.Numbered ⟨s, n + 1, none, a :: as⟩ := by
    rintro s _ as a rfl hdec hbelow
    refine ⟨List.pairwise_cons.2 ⟨hbelow, hdec⟩, fun b hb => ?_, fun _ h => nomatch h⟩
    rcases List.mem_cons.1 hb with rfl | hb
    · exact Nat.lt_succ_self _
    · exact Nat.lt_succ_of_lt (hbelow b hb)
  cases h with
  | announced source event => exact hbegin _ rfl hdec hbelow
  | relayed => exact hbegin _ rfl hdec hbelow
  | @called s n m c event l ls as =>
    have hm : m < n := hbelow _ List.mem_cons_self
    refine ⟨?_, fun b hb => ?_, fun d hd => ?_⟩
    · exact List.pairwise_cons.2 (List.pairwise_cons.1 hdec)
    · rcases List.mem_cons.1 hb with rfl | hb
      · exact hm
      · exact hbelow b (List.mem_cons_of_mem _ hb)
    · obtain ⟨target, -, rfl⟩ := Option.map_eq_some_iff.1 hd
      exact hm
  | answered =>
    exact ⟨(List.pairwise_cons.1 hdec).2, fun b hb => hbelow b (List.mem_cons_of_mem _ hb), hdue⟩
  | acted => exact ⟨hdec, hbelow, hdue⟩

theorem Path.numbered (h : Path m log m') (hm : m.Numbered) : m'.Numbered := by
  induction h with
  | nil => exact hm
  | cons hstep _ ih => exact ih (hstep.numbered hm)

/-! ### What is pending is done -/

theorem Moment.find?_cons (s : Stage σ) (n : Nat) (due : Option (Nat × EmitterId × Event))
    (a : Announcement σ) (as : List (Announcement σ)) :
    Moment.find? ⟨s, n, due, a :: as⟩ j =
      if a.number = j then some a else Moment.find? ⟨s, n, due, as⟩ j := by
  rw [find?, List.find?_cons]
  by_cases ha : a.number = j
  · simp [ha]
  · simp [ha, find?]

theorem Moment.find?_begin {s : Stage σ} {due : Option (Nat × EmitterId × Event)}
    {as : List (Announcement σ)} (hj : j < n) (source : EmitterId) (event : Event) :
    Moment.find? ⟨s, n + 1, none, s.begin n source event :: as⟩ j =
      Moment.find? ⟨s, n, due, as⟩ j :=
  (find?_cons ..).trans (if_neg (Nat.ne_of_gt hj))

/-- When the innermost announcement is over, there is none of its number any more: those that
    are left began before it. -/
theorem Moment.Numbered.find?_tail {s : Stage σ} {due due' : Option (Nat × EmitterId × Event)}
    {a : Announcement σ} {as : List (Announcement σ)} (hm : Numbered ⟨s, n, due, a :: as⟩) :
    Moment.find? ⟨s, n, due', as⟩ a.number = none :=
  List.find?_eq_none.2 fun b hb => by
    simpa using Nat.ne_of_lt ((List.pairwise_cons.1 hm.decreasing).1 b hb)

/-- An announcement that is under way is over, having made all its calls, or goes on, with as many
    calls in all. -/
theorem Step.find?_of_some (h : Step m o m') (hm : m.Numbered) {a : Announcement σ}
    (ha : m.find? j = some a) :
    o = .answered j (a.called + a.left.length) ∨
      ∃ a', m'.find? j = some a' ∧ a'.called + a'.left.length = a.called + a.left.length := by
  have hj : a.number = j := by simpa using List.find?_some ha
  have hlt : j < m.next := hj ▸ hm.below a (List.mem_of_find?_eq_some ha)
  cases h with
  | announced source event => exact .inr ⟨a, (Moment.find?_begin hlt _ _).trans ha, rfl⟩
  | relayed => exact .inr ⟨a, (Moment.find?_begin hlt _ _).trans ha, rfl⟩
  | called =>
    rw [Moment.find?_cons] at ha
    rw [Moment.find?_cons]
    split at ha
    · next hnumber =>
      cases ha
      exact .inr ⟨_, if_pos hnumber, by simp only [List.length_cons]; omega⟩
    · next hnumber => exact .inr ⟨a, (if_neg hnumber).trans ha, rfl⟩
  | answered =>
    rw [Moment.find?_cons] at ha
    split at ha
    · next hnumber =>
      cases ha
      exact .inl (hnumber ▸ rfl)
    · exact .inr ⟨a, ha, rfl⟩
  | acted => exact .inr ⟨a, ha, rfl⟩

theorem Step.pendingCalls_eq (h : Step m o m') (hm : m.Numbered) (hj : j < m.next) :
    m.pendingCalls j = (o.callBy? j).toList ++ m'.pendingCalls j := by
  cases h with
  | announced source event =>
    rw [Moment.pendingCalls, Moment.pendingCalls, Moment.find?_begin hj]
    rfl
  | relayed =>
    rw [Moment.pendingCalls, Moment.pendingCalls, Moment.find?_begin hj]
    rfl
  | @called s n k c event l ls as =>
    simp only [Moment.pendingCalls, Moment.find?_cons, Occurrence.callBy?]
    by_cases hk : k = j
    · simp [hk]
    · simp only [if_neg hk]
      rfl
  | @answered s n k c event as =>
    simp only [Moment.pendingCalls, Moment.find?_cons, Occurrence.callBy?]
    by_cases hk : k = j
    · subst hk
      have hnone : Moment.find? ⟨s, n, none, as⟩ k = none := hm.find?_tail
      simp [hnone]
    · simp only [if_neg hk]
      rfl
  | acted ho =>
    rw [(ho.eq_none j).2.1]
    rfl

/-- The calls that an announcement has still to make are those that it makes, and those that it
    has still to make afterwards. -/
theorem Path.pendingCalls_eq (h : Path m log m') (hm : m.Numbered) (hj : j < m.next) :
    m.pendingCalls j = callsBy j log ++ m'.pendingCalls j := by
  induction h with
  | nil => rfl
  | @cons m m₁ m' o log hstep _ ih =>
    have hj₁ : j < m₁.next := by rw [hstep.next_eq]; omega
    rw [hstep.pendingCalls_eq hm hj, ih (hstep.numbered hm) hj₁, ← List.append_assoc]
    congr 1
    rw [callsBy, callsBy, List.filterMap_cons]
    cases o.callBy? j <;> rfl

/-- Announcements that have not begun call nobody. -/
theorem Path.callsBy_eq_nil (h : Path m log m') (hm : m.Numbered) (hj : m'.next ≤ j) :
    callsBy j log = [] := by
  induction h with
  | nil => rfl
  | @cons m m₁ m' o log hstep hpath ih =>
    rw [callsBy, List.filterMap_cons]
    have hnone : o.callBy? j = none := by
      cases hstep with
      | @called s n k c event l ls as =>
        -- Who calls is under way, and so has a number below all those of later ones.
        have hk : k < n := hm.below _ List.mem_cons_self
        have hn := hpath.next_eq
        simp only at hn
        exact if_neg (by omega)
      | acted ho => exact (ho.eq_none j).2.1
      | _ => rfl
    rw [hnone]
    exact ih (hstep.numbered hm) hj

/-- An announcement that is under way and is not any more was over at some time, having called
    all its listeners. -/
theorem Path.exists_answered (h : Path m log m') (hm : m.Numbered) {a : Announcement σ}
    (ha : m.find? j = some a) (hend : m'.find? j = none) :
    ∃ during rest m₁ m₂, log = during ++ .answered j (a.called + a.left.length) :: rest ∧
      Path m during m₁ ∧ Step m₁ (.answered j (a.called + a.left.length)) m₂ ∧
      Path m₂ rest m' := by
  induction h generalizing a with
  | nil =>
    rw [ha] at hend
    cases hend
  | @cons m m₁ m' o log hstep hpath ih =>
    rcases hstep.find?_of_some hm ha with rfl | ⟨a', ha', hcount⟩
    · exact ⟨[], log, m, m₁, rfl, .nil, hstep, hpath⟩
    · obtain ⟨during, rest, m₂, m₃, rfl, hduring, hanswered, hrest⟩ :=
        ih (hstep.numbered hm) ha' hend
      rw [hcount] at hanswered ⊢
      exact ⟨o :: during, rest, m₂, m₃, rfl, .cons hstep hduring, hanswered, hrest⟩

/-! ### Forwarding -/

/-- What a call of a forwarding listener announces again, and where. -/
def forwarded (c : Listener σ × Event) : Option (EmitterId × Event) :=
  c.1.forwardsTo?.map (·, c.2)

theorem Step.relays_eq (h : Step m o m') (j : Nat) :
    m.dueBy j ++ (o.callBy? j).toList.filterMap forwarded =
      (o.relayBy? j).toList ++ m'.dueBy j := by
  cases h with
  | announced => rfl
  | @relayed s n k =>
    simp only [Moment.dueBy, Occurrence.relayBy?]
    split <;> rfl
  | @called s n k c event l ls as =>
    simp only [Moment.dueBy, Occurrence.callBy?, Listener.due?]
    by_cases hk : k = j
    · rw [if_pos hk, Option.toList_some, List.filterMap_cons, forwarded]
      cases l.forwardsTo? with
      | none => rfl
      | some target => simp [hk]; rfl
    · rw [if_neg hk]
      cases l.forwardsTo? with
      | none => rfl
      | some target => simp [hk]; rfl
  | answered => rfl
  | acted ho =>
    rw [(ho.eq_none j).2.1, (ho.eq_none j).2.2]
    rfl

/-- What is announced again on behalf of an announcement is what its calls of forwarding
    listeners have to announce, in their order. -/
theorem Path.relays_eq (h : Path m log m') (j : Nat) :
    m.dueBy j ++ (callsBy j log).filterMap forwarded = relaysBy j log ++ m'.dueBy j := by
  induction h with
  | nil => exact List.append_nil _
  | @cons m m₁ m' o log hstep _ ih =>
    have hcalls : callsBy j (o :: log) = (o.callBy? j).toList ++ callsBy j log := by
      rw [callsBy, callsBy, List.filterMap_cons]
      cases o.callBy? j <;> rfl
    have hrelays : relaysBy j (o :: log) = (o.relayBy? j).toList ++ relaysBy j log := by
      rw [relaysBy, relaysBy, List.filterMap_cons]
      cases o.relayBy? j <;> rfl
    rw [hcalls, hrelays, List.filterMap_append, ← List.append_assoc, hstep.relays_eq,
      List.append_assoc, ih, List.append_assoc]

theorem Moment.dueBy_of_due (h : m.due = none) (j : Nat) : m.dueBy j = [] := by rw [dueBy, h]

/-! ### Announcements -/

theorem Step.of_announced {cause : Option Nat} {source : EmitterId} {event : Event}
    (h : Step m (.announced n cause source event) m') :
    m.next = n ∧ m'.due = none ∧ m'.find? n = some (m.stage.begin n source event) := by
  cases h with
  | announced | relayed => exact ⟨rfl, rfl, (Moment.find?_cons ..).trans (if_pos rfl)⟩
  | acted ho => exact ho.elim

theorem Step.of_answered {c : Nat} (h : Step m (.answered n c) m') :
    m.due = none ∧ m'.due = none ∧ m.pendingCalls n = [] := by
  cases h with
  | answered =>
    refine ⟨rfl, rfl, ?_⟩
    rw [Moment.pendingCalls, Moment.find?_cons, if_pos rfl]
    rfl
  | acted ho => exact ho.elim

/-- When an announcement is over, so are those that began after it. -/
theorem Step.find?_of_answered {c : Nat} (h : Step m (.answered n c) m') (hm : m.Numbered)
    (hj : n < j) : m.find? j = none := by
  cases h with
  | answered =>
    refine List.find?_eq_none.2 fun a ha => ?_
    rcases List.mem_cons.1 ha with rfl | ha
    · simpa using Nat.ne_of_lt hj
    · have hlt := (List.pairwise_cons.1 hm.decreasing).1 a ha
      simpa using Nat.ne_of_lt (Nat.lt_trans hlt hj)
  | acted ho => exact ho.elim

/-- On a path that ends with nothing under way, an announcement is over at some time, and answers
    how many listeners heard it at its beginning. -/
theorem Path.split_of_announced (hm : m.Numbered) (hend : m'.underway = [])
    {before after : List (Occurrence σ)} {cause : Option Nat} {source : EmitterId} {event : Event}
    (h : Path m (before ++ .announced n cause source event :: after) m') :
    ∃ during rest m₁ m₂ m₃ m₄,
      after = during ++ .answered n (m₁.stage.begin n source event).left.length :: rest ∧
      Path m before m₁ ∧ Step m₁ (.announced n cause source event) m₂ ∧ Path m₂ during m₃ ∧
      Step m₃ (.answered n (m₁.stage.begin n source event).left.length) m₄ ∧ Path m₄ rest m' := by
  obtain ⟨m₁, hbefore, h⟩ := h.exists_of_append
  cases h with
  | @cons _ m₂ _ _ _ hstep hafter =>
    obtain ⟨-, -, hfind⟩ := hstep.of_announced
    have hnone : m'.find? n = none := by
      rw [Moment.find?, hend]
      rfl
    obtain ⟨during, rest, m₃, m₄, rfl, hduring, hanswered, hrest⟩ :=
      hafter.exists_answered (hstep.numbered (hbefore.numbered hm)) hfind hnone
    have hcount : (m₁.stage.begin n source event).called +
        (m₁.stage.begin n source event).left.length =
        (m₁.stage.begin n source event).left.length := Nat.zero_add _
    rw [hcount] at hanswered ⊢
    exact ⟨during, rest, m₁, m₂, m₃, m₄, rfl, hbefore, hstep, hduring, hanswered, hrest⟩

/-- On a path that ends with nothing under way, an announcement is over at some time. Until
    then, and only then, it calls exactly the listeners that heard it at its beginning, in
    their order and with its event. What forwarding listeners announce again on its behalf, they
    announce in the same time, and what is announced meanwhile is over before it. -/
theorem Path.calls_of_announced (hm : m.Numbered) (hstart : m.due = none)
    (hend : m'.underway = []) {before after : List (Occurrence σ)}
    {cause : Option Nat} {source : EmitterId} {event : Event}
    (h : Path m (before ++ .announced n cause source event :: after) m')
    {heard : List (Listener σ)}
    (hheard : heard = ((replay m.stage before).hub.emitter source).hearing event.name) :
    ∃ during rest, after = during ++ .answered n heard.length :: rest ∧
      (callsBy n before = [] ∧ callsBy n during = heard.map (·, event) ∧ callsBy n rest = []) ∧
      (relaysBy n before = [] ∧
        relaysBy n during = (heard.map (·, event)).filterMap forwarded ∧
        relaysBy n rest = []) ∧
      ∀ during₁ k cause' source' event' during₂,
        during = during₁ ++ .announced k cause' source' event' :: during₂ →
          ∃ c during₃ during₄, during₂ = during₃ ++ .answered k c :: during₄ := by
  obtain ⟨during, rest, m₁, m₂, m₃, m₄, rfl, hbefore, hstep, hduring, hanswered, hrest⟩ :=
    h.split_of_announced hm hend
  have hm₂ := hstep.numbered (hbefore.numbered hm)
  have hm₃ := hduring.numbered hm₂
  obtain ⟨rfl, hdue₂, hfind⟩ := hstep.of_announced
  obtain ⟨hdue₃, hdue₄, hpending₃⟩ := hanswered.of_answered
  have hleft : (m₁.stage.begin m₁.next source event).left = heard := by
    rw [hheard, ← hbefore.stage_eq]
    rfl
  have hnext₂ : m₁.next < m₂.next := by
    rw [hstep.next_eq]
    exact Nat.lt_succ_self _
  have hnext₃ : m₁.next < m₃.next := by
    rw [hduring.next_eq]
    omega
  have hnext₄ : m₁.next < m₄.next := by
    rw [hanswered.next_eq]
    omega
  -- All that was pending is done until the announcement is over, and nothing afterwards.
  have hcalls_before : callsBy m₁.next before = [] := hbefore.callsBy_eq_nil hm (Nat.le_refl _)
  have hcalls : callsBy m₁.next during = heard.map (·, event) := by
    have hpending : m₂.pendingCalls m₁.next = heard.map (·, event) := by
      rw [Moment.pendingCalls, hfind, ← hleft]
      rfl
    rw [← hpending, hduring.pendingCalls_eq hm₂ hnext₂, hpending₃, List.append_nil]
  have hcalls_rest : callsBy m₁.next rest = [] := by
    rw [hanswered.pendingCalls_eq hm₃ hnext₃,
      hrest.pendingCalls_eq (hanswered.numbered hm₃) hnext₄] at hpending₃
    exact (List.append_eq_nil_iff.1 (List.append_eq_nil_iff.1 hpending₃).2).1
  have hrelays_before := hbefore.relays_eq m₁.next
  have hrelays := hduring.relays_eq m₁.next
  have hrelays_rest := hrest.relays_eq m₁.next
  rw [Moment.dueBy_of_due hstart, hcalls_before] at hrelays_before
  rw [Moment.dueBy_of_due hdue₂, Moment.dueBy_of_due hdue₃, hcalls, List.append_nil,
    List.nil_append] at hrelays
  rw [Moment.dueBy_of_due hdue₄, hcalls_rest] at hrelays_rest
  refine ⟨during, rest, by rw [hleft], ⟨hcalls_before, hcalls, hcalls_rest⟩,
    ⟨(List.append_eq_nil_iff.1 hrelays_before.symm).1, hrelays.symm,
      (List.append_eq_nil_iff.1 hrelays_rest.symm).1⟩, ?_⟩
  rintro during₁ k cause' source' event' during₂ rfl
  -- What begins later has a higher number, and the announcement is the innermost at its end.
  obtain ⟨m₅, hduring₁, h₅⟩ := hduring.exists_of_append
  cases h₅ with
  | @cons _ m₆ _ _ _ hstep₅ hduring₂ =>
    obtain ⟨rfl, -, hfind₅⟩ := hstep₅.of_announced
    have hlt : m₁.next < m₅.next := by
      rw [hduring₁.next_eq]
      omega
    obtain ⟨during₃, during₄, _, _, rfl, -⟩ := hduring₂.exists_answered
      (hstep₅.numbered (hduring₁.numbered hm₂)) hfind₅ (hanswered.find?_of_answered hm₃ hlt)
    exact ⟨_, during₃, during₄, rfl⟩

/-! ### Announcements on stages -/

section

variable {depth : Nat} {source : EmitterId} {event : Event} {h h' : Hub σ} {d : Delivery}

theorem Hub.map_fst_invokeAll {deliver : Deliver σ} {ls : List (Listener σ)}
    {calls : List (ListenerId × List Delivery)}
    (hrun : invokeAll deliver event ls h = some (calls, h')) :
    calls.map Prod.fst = ls.map (·.id) := by
  induction ls generalizing h calls with
  | nil =>
    cases hrun
    rfl
  | cons l ls ih =>
    obtain ⟨⟨ds, h₁⟩, -, hrun⟩ := Option.bind_eq_some_iff.1 hrun
    obtain ⟨⟨calls', h₂⟩, hcalls, heq⟩ := Option.bind_eq_some_iff.1 hrun
    cases heq
    exact congrArg (l.id :: ·) (ih hcalls)

theorem Hub.count_of_emit (hrun : h.emit depth source event = some (d, h')) :
    d.count = ((h.emitter source).hearing event.name).length := by
  cases depth with
  | zero => cases hrun
  | succ depth =>
    obtain ⟨⟨calls, h₁⟩, hcalls, heq⟩ := Option.bind_eq_some_iff.1 hrun
    cases heq
    have hlength := congrArg List.length (map_fst_invokeAll hcalls)
    rwa [List.length_map, List.length_map] at hlength

/-- An announcement begins with its own beginning. -/
theorem Hub.exists_recordEmit (hrun : h.emit depth source event = some (d, h')) :
    ∃ rest, h.recordEmit depth none 0 source event =
      some (.announced 0 none source event :: rest, d, h') := by
  rw [← map_snd_recordEmit depth none 0, Option.map_eq_some_iff] at hrun
  obtain ⟨⟨log, r⟩, hlog, rfl⟩ := hrun
  cases depth with
  | zero => cases hlog
  | succ depth =>
    obtain ⟨⟨log', calls, h₁⟩, -, heq⟩ := Option.bind_eq_some_iff.1 hlog
    cases heq
    exact ⟨_, hlog⟩

/-- An announcement on a stage answers how many listeners heard it when it began, and has a
    chronicle. In that, whatever handlers do meanwhile, every announcement, the first one and all
    that are nested in it, is over at some time and answers how many listeners heard it when it
    began; until then it calls exactly these, in the order in which they registered, each once
    and with its event; and it calls nobody before its beginning or after its end. -/
theorem Stage.emit_calls_hearing {s s' : Stage σ}
    (hrun : s.emit depth source event = some (d, s')) :
    d.count = ((s.hub.emitter source).hearing event.name).length ∧
    ∃ log, s.hub.recordEmit depth none 0 source event = some (log, d, s'.hub) ∧
      replay s log = s' ∧ (∃ rest, log = .announced 0 none source event :: rest) ∧
      ∀ before n cause source event after,
        log = before ++ .announced n cause source event :: after →
          ∃ heard, heard = ((replay s before).hub.emitter source).hearing event.name ∧
            ∃ during rest, after = during ++ .answered n heard.length :: rest ∧
              callsBy n during = heard.map (·, event) ∧
              callsBy n before = [] ∧ callsBy n rest = [] := by
  obtain ⟨⟨d, h'⟩, hemit, heq⟩ := Option.bind_eq_some_iff.1 hrun
  cases heq
  obtain ⟨rest, hlog⟩ := Hub.exists_recordEmit hemit
  have hpath : Path ⟨s, 0, none, []⟩ _ _ :=
    Hub.path_of_recordEmit depth none 0 source event s [] _ _ _ hlog
  refine ⟨Hub.count_of_emit hemit, _, hlog, hpath.stage_eq.symm, ⟨rest, rfl⟩, ?_⟩
  intro before n cause source event after heq
  rw [heq] at hpath
  obtain ⟨during, rest, hafter, ⟨hbefore, hduring, hrest⟩, -⟩ :=
    hpath.calls_of_announced (Moment.numbered_of_idle s 0) rfl rfl rfl
  exact ⟨_, rfl, during, rest, hafter, hduring, hbefore, hrest⟩

/-- An emitter with two listeners. The first one, when it is called, takes away both of them,
    registers another one and announces the event again. -/
def Stage.fickle : Stage Unit where
  hub.emitters := .insert ∅ ⟨0⟩ ⟨[
    ⟨⟨0⟩, none, .react fun event =>
      .cancel ⟨0⟩ ⟨0⟩ fun _ => .cancel ⟨0⟩ ⟨1⟩ fun _ =>
        .listen ⟨0⟩ none (fun _ => .done) fun _ => .emit ⟨0⟩ event fun _ => .done⟩,
    ⟨⟨1⟩, some "once", .react fun _ => .done⟩], 2⟩
  hub.stores := ∅
  hub.nextEmitter := 1
  hub.client := ()
  templates := ∅
  made := 0

theorem Stage.emit_calls_hearing_fickle :
    ∃ d s', fickle.emit 3 ⟨0⟩ ⟨"once", none⟩ = some (d, s') ∧ d.count = 2 := by
  obtain ⟨⟨d, s'⟩, hrun⟩ : ∃ r, fickle.emit 3 ⟨0⟩ ⟨"once", none⟩ = some r :=
    Option.isSome_iff_exists.1 (by rfl)
  exact ⟨d, s', hrun, (emit_calls_hearing hrun).1⟩

end

end Stencil
