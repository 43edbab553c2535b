import Stencil.Proofs.Chronicle
import Stencil.Proofs.Fields
import Stencil.Proofs.Layering

/-!
# News

A listener that knows the fields of a store can put on top of them what it is told of every change
(`Json.Fields.applied`), in the order in which it is called. What it receives from the store in a
chronicle is its mail (`Mail`).

What a chronicle tells about one field of a store is its news (`News`): the announcements that have
still to call the listener, the value announced last, and the value announced last *in time*, which
is when no announcement of this field had still to call the listener. Something was announced in
time if something was announced at all (`News.isSome_inTime`), as the first value was.
-/

namespace Stencil

variable {σ : Type} {o : Occurrence σ} {log : List (Occurrence σ)} {n : Nat} {store : EmitterId}
  {id : ListenerId} {key : String} {event : Event}

/-! ### What events tell -/

/-- The fields of which an event tells that they have changed, with their values. -/
def Event.told (event : Event) : Json.Fields :=
  if event.name = "change" then .ofList ((event.payload.bind Json.fields?).getD []) else []

/-- The value of a field, if an event tells that it has changed. -/
def Event.told? (key : String) (event : Event) : Option Json := Json.Fields.get? key event.told

theorem Event.distinct_told (event : Event) : event.told.Distinct := by
  rw [told]
  split
  · exact List.pairwise_map.2 ((Json.Fields.ordered_ofList _).imp ne_of_lt)
  · exact List.nodup_nil

theorem Event.name_of_told? (h : (event.told? key).isSome = true) : event.name = "change" := by
  by_contra hname
  rw [told?, told, if_neg hname] at h
  cases h

/-- Fields with what some events tell put on top of them, in turn. -/
def Json.Fields.applied (fs : Fields) (events : List Event) : Fields :=
  events.foldl (fun fs event => merge fs event.told) fs

theorem Json.Fields.get?_applied_concat (fs : Fields) (events : List Event) (event : Event)
    (key : String) :
    get? key (fs.applied (events ++ [event])) =
      (event.told? key).or (get? key (fs.applied events)) := by
  rw [applied, List.foldl_concat]
  exact get?_merge event.distinct_told key _

/-! ### What a listener is told -/

/-- What a listener has received from an emitter. -/
structure Mail where
  /-- The announcements that the emitter has begun. -/
  begun : List Nat
  /-- The events with which they called the listener, in order. -/
  events : List Event

/-- The mail after an occurrence. -/
def Mail.next (store : EmitterId) (id : ListenerId) (mail : Mail) : Occurrence σ → Mail
  | .announced n _ source _ =>
    if source = store then { mail with begun := n :: mail.begun } else mail
  | .called n l event =>
    if l.id = id ∧ n ∈ mail.begun then { mail with events := mail.events ++ [event] } else mail
  | _ => mail

/-- What the listener of a handle receives from an emitter in a chronicle. -/
def Mail.of (store : EmitterId) (id : ListenerId) (log : List (Occurrence σ)) : Mail :=
  log.foldl (Mail.next store id) ⟨[], []⟩

/-- The events with which the announcements of an emitter call the listener of a handle, in
    order. -/
def received (store : EmitterId) (id : ListenerId) (log : List (Occurrence σ)) : List Event :=
  (Mail.of store id log).events

/-- What there is to tell about a field of a store, for a listener. -/
structure News where
  /-- The announcements of a value that have still to call the listener, the latest first. -/
  waiting : List Nat
  /-- The value announced last. -/
  last : Option Json
  /-- The value announced last of those that were announced in time: when no announcement had
      still to call the listener. -/
  inTime : Option Json

/-- The news after an occurrence. -/
def News.next (store : EmitterId) (id : ListenerId) (key : String) (news : News) :
    Occurrence σ → News
  | .announced n _ source event =>
    if source = store then
      match event.told? key with
      | some v => ⟨n :: news.waiting, some v, if news.waiting = [] then some v else news.inTime⟩
      | none => news
    else news
  | .called n l _ => if l.id = id then { news with waiting := news.waiting.erase n } else news
  | _ => news

/-- What a chronicle tells about a field of a store, for the listener of a handle. -/
def News.of (store : EmitterId) (id : ListenerId) (key : String) (log : List (Occurrence σ)) :
    News :=
  log.foldl (News.next store id key) ⟨[], none, none⟩

theorem Mail.of_concat (store : EmitterId) (id : ListenerId) (log : List (Occurrence σ))
    (o : Occurrence σ) :
    Mail.of store id (log ++ [o]) = (Mail.of store id log).next store id o :=
  List.foldl_concat ..

theorem News.of_concat (store : EmitterId) (id : ListenerId) (key : String)
    (log : List (Occurrence σ)) (o : Occurrence σ) :
    News.of store id key (log ++ [o]) = (News.of store id key log).next store id key o :=
  List.foldl_concat ..

/-- An occurrence that is neither the beginning of an announcement nor a call. -/
def Occurrence.IsQuiet (o : Occurrence σ) : Prop :=
  o.isAnnouncement = false ∧ ∀ n, o.callBy? n = none

theorem Occurrence.IsQuiet.mail_next (ho : o.IsQuiet) (mail : Mail) :
    mail.next store id o = mail := by
  cases o with
  | announced => cases ho.1
  | called n => exact absurd (ho.2 n) (by simp [callBy?])
  | _ => rfl

theorem Occurrence.IsQuiet.news_next (ho : o.IsQuiet) (news : News) :
    news.next store id key o = news := by
  cases o with
  | announced => cases ho.1
  | called n => exact absurd (ho.2 n) (by simp [callBy?])
  | _ => rfl

/-- The number of the announcement that an emitter begins. -/
def Occurrence.begins? (e : EmitterId) : Occurrence σ → Option Nat
  | announced n _ source _ => if source = e then some n else none
  | _ => none

theorem Occurrence.IsQuiet.begins?_eq_none (ho : o.IsQuiet) (e : EmitterId) :
    o.begins? e = none := by
  cases o with
  | announced => cases ho.1
  | _ => rfl

/-- The announcements that an emitter begins, in order. -/
def EmitterId.begun (e : EmitterId) (log : List (Occurrence σ)) : List Nat :=
  log.filterMap (·.begins? e)

theorem Mail.begun_next (mail : Mail) (o : Occurrence σ) :
    (mail.next store id o).begun = (o.begins? store).toList ++ mail.begun := by
  cases o with
  | announced n cause source event =>
    rw [next, Occurrence.begins?]
    split <;> rfl
  | called n l event =>
    rw [next]
    split <;> rfl
  | _ => rfl

theorem Mail.mem_begun_iff {log : List (Occurrence σ)} :
    n ∈ (Mail.of store id log).begun ↔ n ∈ store.begun log := by
  induction log using List.reverseRecOn with
  | nil => exact Iff.rfl
  | append_singleton log o ih =>
    rw [Mail.of_concat, Mail.begun_next, List.mem_append, ih, EmitterId.begun, EmitterId.begun,
      List.filterMap_append, List.mem_append, or_comm]
    cases ho : o.begins? store <;> simp [ho]

/-- The event with which one of some announcements calls the listener of a handle. -/
def Occurrence.eventFor? (id : ListenerId) (ns : List Nat) : Occurrence σ → Option Event
  | called n l event => if l.id = id ∧ n ∈ ns then some event else none
  | _ => none

theorem Occurrence.eventFor?_congr {ns ns' : List Nat} (o : Occurrence σ)
    (h : ∀ n l event, o = .called n l event → l.id = id → (n ∈ ns ↔ n ∈ ns')) :
    o.eventFor? id ns = o.eventFor? id ns' := by
  cases o with
  | called n l event => exact if_congr (and_congr_right (h n l event rfl)) rfl rfl
  | _ => rfl

theorem received_concat (store : EmitterId) (id : ListenerId) (log : List (Occurrence σ))
    (o : Occurrence σ) :
    received store id (log ++ [o]) =
      received store id log ++ (o.eventFor? id (store.begun log)).toList := by
  have hevent : o.eventFor? id (store.begun log) = o.eventFor? id (Mail.of store id log).begun :=
    o.eventFor?_congr fun n l event _ _ => Mail.mem_begun_iff.symm
  rw [received, Mail.of_concat, hevent]
  cases o with
  | announced n cause source event =>
    rw [Mail.next]
    split <;> exact (List.append_nil _).symm
  | called n l event =>
    rw [Mail.next, Occurrence.eventFor?]
    split
    · rfl
    · exact (List.append_nil _).symm
  | _ => exact (List.append_nil _).symm

/-- What a listener receives while a chronicle goes on comes from what begins meanwhile, if what had
    begun before does not call it any more. -/
theorem received_append {log log' : List (Occurrence σ)}
    (h : ∀ n l event, .called n l event ∈ log' → n ∈ store.begun log → l.id ≠ id) :
    received store id (log ++ log') = received store id log ++ received store id log' := by
  induction log' using List.reverseRecOn with
  | nil => rw [List.append_nil, show received store id [] = [] from rfl, List.append_nil]
  | append_singleton log' o ih =>
    have hbefore := ih fun n l event hcall => h n l event (List.mem_append_left _ hcall)
    have hevent : o.eventFor? id (store.begun (log ++ log')) =
        o.eventFor? id (store.begun log') := by
      refine o.eventFor?_congr fun n l event ho hl => ?_
      rw [EmitterId.begun, List.filterMap_append, List.mem_append]
      exact or_iff_right fun hn => h n l event (by simp [ho]) hn hl
    rw [← List.append_assoc, received_concat, received_concat, hbefore, hevent, List.append_assoc]

/-- Nothing is received from announcements that do not call the listener. -/
theorem received_eq_nil {log : List (Occurrence σ)}
    (h : ∀ n l event, .called n l event ∈ log → n ∈ store.begun log → l.id ≠ id) :
    received store id log = [] := by
  induction log using List.reverseRecOn with
  | nil => rfl
  | append_singleton log o ih =>
    have hbegun {n : Nat} (hn : n ∈ store.begun log) : n ∈ store.begun (log ++ [o]) := by
      rw [EmitterId.begun, List.filterMap_append]
      exact List.mem_append_left _ hn
    have hbefore := ih fun n l event hcall hn =>
      h n l event (List.mem_append_left _ hcall) (hbegun hn)
    have hevent : o.eventFor? id (store.begun log) = o.eventFor? id [] := by
      refine o.eventFor?_congr fun n l event ho hl => ?_
      exact iff_of_false (fun hn => h n l event (by simp [ho]) (hbegun hn) hl) List.not_mem_nil
    rw [received_concat, hbefore, hevent]
    cases o <;> simp [Occurrence.eventFor?]

/-! ### Values announced in time -/

/-- What is waiting is an announcement of a change. -/
theorem News.exists_announced {log : List (Occurrence σ)}
    (hn : n ∈ (News.of store id key log).waiting) :
    ∃ cause event, .announced n cause store event ∈ log ∧ event.name = "change" := by
  induction log using List.reverseRecOn with
  | nil => cases hn
  | append_singleton log o ih =>
    have hold (hn : n ∈ (News.of store id key log).waiting) :
        ∃ cause event, .announced n cause store event ∈ log ++ [o] ∧ event.name = "change" := by
      obtain ⟨cause, event, hmem, hname⟩ := ih hn
      exact ⟨cause, event, List.mem_append_left _ hmem, hname⟩
    rw [News.of_concat] at hn
    cases o with
    | announced k cause source event =>
      rw [next] at hn
      split at hn
      · next hsource =>
        split at hn
        · next v htold =>
          rcases List.mem_cons.1 hn with rfl | hn
          · subst hsource
            have hsome : (event.told? key).isSome = true := by rw [htold]; rfl
            exact ⟨cause, event, by simp, Event.name_of_told? hsome⟩
          · exact hold hn
        · exact hold hn
      · exact hold hn
    | called k l event =>
      rw [next] at hn
      split at hn
      · exact hold (List.mem_of_mem_erase hn)
      · exact hold hn
    | _ => exact hold hn

/-- If a value was announced, one was announced in time: the first one was. -/
theorem News.isSome_inTime (store : EmitterId) (id : ListenerId) (key : String)
    (log : List (Occurrence σ)) :
    ((News.of store id key log).waiting ≠ [] →
      (News.of store id key log).inTime.isSome = true) ∧
    (News.of store id key log).inTime.isSome = (News.of store id key log).last.isSome := by
  induction log using List.reverseRecOn with
  | nil => exact ⟨fun h => absurd rfl h, rfl⟩
  | append_singleton log o ih =>
    rw [News.of_concat]
    cases o with
    | announced n cause source event =>
      rw [next]
      split
      · split
        · split
          · exact ⟨fun _ => rfl, rfl⟩
          · next hwaiting => exact ⟨fun _ => ih.1 hwaiting, ih.1 hwaiting⟩
        · exact ih
      · exact ih
    | called n l event =>
      rw [next]
      split
      · refine ⟨fun h => ih.1 fun hwaiting => h ?_, ih.2⟩
        show (News.of store id key log).waiting.erase n = []
        rw [hwaiting, List.erase_nil]
      · exact ih
    | _ => exact ih

/-- Whatever there was before, it makes no difference to have the value announced last in time in
    the place of the value announced last exactly if the two are the same. -/
theorem News.inTime_or_eq_iff (store : EmitterId) (id : ListenerId) (key : String)
    (log : List (Occurrence σ)) (v : Option Json) :
    (News.of store id key log).inTime.or v = (News.of store id key log).last.or v ↔
      (News.of store id key log).inTime = (News.of store id key log).last := by
  have hsome := (isSome_inTime store id key log).2
  cases hlast : (News.of store id key log).last with
  | none =>
    rw [hlast, Option.isSome_none, Option.isSome_eq_false_iff, Option.isNone_iff_eq_none] at hsome
    simp [hsome]
  | some w =>
    rw [hlast, Option.isSome_some, Option.isSome_iff_exists] at hsome
    obtain ⟨w', hw'⟩ := hsome
    rw [hw', Option.some_or, Option.some_or]

end Stencil
