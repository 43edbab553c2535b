import Stencil.Proofs.News
import Stencil.Proofs.Snapshot

/-!
# Overtaking

Announcements nest: when a listener that a store calls before another one sets the same field again,
the other one is told of the second change first, and of the first one afterwards. The second change
has overtaken the first one.

Of the announcements of a field that are under way and have still to call a listener, it is the
outermost that calls it last, and of these this one alone was in time. So whatever overtakes, the
listener holds in the end what was announced last in time (`Kept`).

* `Path.kept`: so it is at every moment of a chronicle at which no announcement of the field has
  still to call the listener;
* `Path.waiting_eq_nil`: and so whenever all announcements of changes of the store are over.
-/

namespace Stencil

variable {σ : Type} {s : Stage σ} {m m' : Moment σ} {o : Occurrence σ} {log : List (Occurrence σ)}
  {n j : Nat} {store : EmitterId} {id : ListenerId} {key : String} {event : Event}
  {fs : Json.Fields}

/-! ### Announcements that are under way -/

theorem Step.next_le (h : Step m o m') : m.next ≤ m'.next := by
  rw [h.next_eq]
  exact Nat.le_add_right _ _

theorem Step.next_lt_of_announced {cause : Option Nat} {source : EmitterId}
    (h : Step m (.announced n cause source event) m') : m.next < m'.next := by
  rw [h.next_eq]
  exact Nat.lt_succ_self _

theorem Step.find?_of_announced {cause : Option Nat} {source : EmitterId}
    (h : Step m (.announced n cause source event) m') (hj : j < n) : m'.find? j = m.find? j := by
  cases h with
  | announced | relayed => exact Moment.find?_begin hj _ _
  | acted ho => exact ho.elim

/-- Of the announcements under way it is the latest one that calls a listener. -/
theorem Step.of_called {l : Listener σ} (h : Step m (.called n l event) m') (hm : m.Numbered) :
    ∃ a ls, m.find? n = some a ∧ a.event = event ∧ a.left = l :: ls ∧
      m'.find? n = some { a with left := ls, called := a.called + 1 } ∧
      (∀ j, j ≠ n → m'.find? j = m.find? j) ∧ ∀ j a, m.find? j = some a → j ≤ n := by
  cases h with
  | @called s k n c event l ls as =>
    refine ⟨⟨n, event, l :: ls, c⟩, ls, (Moment.find?_cons ..).trans (if_pos rfl), rfl, rfl,
      (Moment.find?_cons ..).trans (if_pos rfl), fun j hj => ?_, fun j a ha => ?_⟩
    · rw [Moment.find?_cons, Moment.find?_cons, if_neg hj.symm, if_neg hj.symm]
      rfl
    · have hnumber : a.number = j := by simpa using List.find?_some ha
      rcases List.mem_cons.1 (List.mem_of_find?_eq_some ha) with rfl | hmem
      · exact Nat.le_of_eq hnumber.symm
      · exact hnumber ▸ Nat.le_of_lt ((List.pairwise_cons.1 hm.decreasing).1 a hmem)
  | acted ho => exact ho.elim

/-- An announcement has still to call the listener of a handle. -/
def Announcement.Owes (a : Announcement σ) (id : ListenerId) : Prop := ∃ l ∈ a.left, l.id = id

/-- An announcement at two moments, between which it did not call the listener of a handle. -/
structure Announcement.SameFor (a a' : Announcement σ) (id : ListenerId) : Prop where
  event_eq : a'.event = a.event
  left : a'.left.Sublist a.left
  owes_iff : a'.Owes id ↔ a.Owes id

theorem Announcement.SameFor.refl (a : Announcement σ) (id : ListenerId) : a.SameFor a id :=
  ⟨rfl, .refl _, .rfl⟩

/-- As far as some announcements and the listener of a handle are concerned, nothing happened
    between two moments. -/
structure Moment.SameFor (m m' : Moment σ) (id : ListenerId) (ns : List Nat) : Prop where
  back : ∀ n ∈ ns, ∀ a', m'.find? n = some a' → ∃ a, m.find? n = some a ∧ a.SameFor a' id
  forth : ∀ n ∈ ns, ∀ a, m.find? n = some a → a.Owes id →
    ∃ a', m'.find? n = some a' ∧ a.SameFor a' id

theorem Moment.sameFor_of_eq {ns : List Nat} (h : ∀ n ∈ ns, m'.find? n = m.find? n) :
    m.SameFor m' id ns where
  back n hn a' ha' := ⟨a', h n hn ▸ ha', .refl ..⟩
  forth n hn a ha _ := ⟨a, (h n hn).trans ha, .refl ..⟩

/-- What is neither the beginning of an announcement nor a call leaves what is under way as it is,
    unless it has called all its listeners. -/
theorem Step.sameFor_of_isQuiet (h : Step m o m') (hm : m.Numbered) (ho : o.IsQuiet)
    (id : ListenerId) (ns : List Nat) : m.SameFor m' id ns := by
  cases h with
  | announced | relayed => cases ho.1
  | @called s k n => exact absurd (ho.2 n) (by simp [Occurrence.callBy?])
  | @answered s k n c event as =>
    refine ⟨fun j _ a ha => ⟨a, ?_, .refl ..⟩, fun j _ a ha howes => ⟨a, ?_, .refl ..⟩⟩
    · refine (Moment.find?_cons ..).trans ((if_neg ?_).trans ha)
      rintro rfl
      rw [hm.find?_tail] at ha
      cases ha
    · rw [Moment.find?_cons] at ha
      split at ha
      · cases ha
        obtain ⟨l, hl, -⟩ := howes
        exact absurd hl List.not_mem_nil
      · exact ha
  | acted => exact Moment.sameFor_of_eq fun _ _ => rfl

/-- A call of another listener leaves what is under way as it is for this one. -/
theorem Step.sameFor_of_called {l : Listener σ} (h : Step m (.called n l event) m')
    (hm : m.Numbered) (hl : l.id ≠ id) (ns : List Nat) : m.SameFor m' id ns := by
  obtain ⟨a, ls, ha, rfl, hleft, ha', hother, -⟩ := h.of_called hm
  have hsame : a.SameFor { a with left := ls, called := a.called + 1 } id := by
    refine ⟨rfl, hleft ▸ List.sublist_cons_self l ls, ?_⟩
    simp [Announcement.Owes, hleft, hl]
  refine ⟨fun j _ b hb => ?_, fun j _ b hb _ => ?_⟩
  · by_cases hj : j = n
    · subst hj
      rw [ha'] at hb
      cases hb
      exact ⟨a, ha, hsame⟩
    · exact ⟨b, hother j hj ▸ hb, .refl ..⟩
  · by_cases hj : j = n
    · subst hj
      rw [ha] at hb
      cases hb
      exact ⟨_, ha', hsame⟩
    · exact ⟨b, (hother j hj).trans hb, .refl ..⟩

/-! ### What a listener holds -/

/-- A listener is there to hear of the changes of a store, and has a handle of its own. -/
structure Stage.Tells (s : Stage σ) (store : EmitterId) (id : ListenerId) : Prop where
  nodup : ((s.hub.emitter store).listeners.map (·.id)).Nodup
  hears : ∃ l ∈ (s.hub.emitter store).listeners, l.id = id ∧ l.hears "change" = true

theorem Stage.Tells.nodup_begin (hs : s.Tells store id) (n : Nat) (event : Event) :
    ((s.begin n store event).left.map (·.id)).Nodup :=
  hs.nodup.sublist (List.filter_sublist.map _)

theorem Stage.Tells.owes_begin (hs : s.Tells store id) (n : Nat)
    (htold : (event.told? key).isSome = true) : (s.begin n store event).Owes id := by
  obtain ⟨l, hl, hid, hhears⟩ := hs.hears
  rw [← Event.name_of_told? htold] at hhears
  exact ⟨l, List.mem_filter.2 ⟨hl, hhears⟩, hid⟩

/-- An announcement that tells of a field is under way and has still to call the listener of a
    handle. -/
def Moment.Owes (m : Moment σ) (id : ListenerId) (key : String) (n : Nat) : Prop :=
  ∃ a, m.find? n = some a ∧ (a.event.told? key).isSome = true ∧ a.Owes id

theorem Moment.SameFor.owes_iff {ns : List Nat} (h : m.SameFor m' id ns) (hn : n ∈ ns) :
    m'.Owes id key n ↔ m.Owes id key n := by
  constructor
  · rintro ⟨a', ha', htold, howes⟩
    obtain ⟨a, ha, hsame⟩ := h.back n hn a' ha'
    exact ⟨a, ha, hsame.event_eq ▸ htold, hsame.owes_iff.1 howes⟩
  · rintro ⟨a, ha, htold, howes⟩
    obtain ⟨a', ha', hsame⟩ := h.forth n hn a ha howes
    exact ⟨a', ha', hsame.event_eq ▸ htold, hsame.owes_iff.2 howes⟩

/-- What a chronicle tells about a field is true at the moment to which it leads, and the listener
    holds the value announced last in time unless it has still to be told. -/
structure Kept (store : EmitterId) (id : ListenerId) (key : String) (fs : Json.Fields)
    (mail : Mail) (news : News) (m : Moment σ) : Prop where
  /-- What has begun has a number below the next one. -/
  below : ∀ n ∈ mail.begun, n < m.next
  /-- No announcement of the store calls the listener twice. -/
  nodup : ∀ n ∈ mail.begun, ∀ a, m.find? n = some a → (a.left.map (·.id)).Nodup
  /-- What has still to call the listener is under way. -/
  waiting_iff : ∀ n, n ∈ news.waiting ↔ n ∈ mail.begun ∧ m.Owes id key n
  /-- The latest comes first. -/
  decreasing : news.waiting.Pairwise fun i j => j < i
  /-- The outermost was in time. -/
  outermost : ∀ n, news.waiting.getLast? = some n →
    ∃ a, m.find? n = some a ∧ a.event.told? key = news.inTime
  /-- Where nothing is waiting, the listener holds what was announced last in time. -/
  holds : news.waiting = [] → Json.Fields.get? key (fs.applied mail.events) =
    news.inTime.or (Json.Fields.get? key fs)

namespace Kept

variable {mail : Mail} {news : News}

theorem start (store : EmitterId) (id : ListenerId) (key : String) (fs : Json.Fields)
    (m : Moment σ) : Kept store id key fs ⟨[], []⟩ ⟨[], none, none⟩ m where
  below _ h := absurd h List.not_mem_nil
  nodup _ h := absurd h List.not_mem_nil
  waiting_iff _ := ⟨fun h => absurd h List.not_mem_nil, fun h => absurd h.1 List.not_mem_nil⟩
  decreasing := .nil
  outermost _ h := nomatch h
  holds _ := rfl

/-- Where nothing happens to what has begun, nothing changes. -/
theorem of_sameFor (hk : Kept store id key fs mail news m) (h : m.SameFor m' id mail.begun)
    (hnext : m.next ≤ m'.next) : Kept store id key fs mail news m' where
  below n hn := Nat.lt_of_lt_of_le (hk.below n hn) hnext
  nodup n hn a' ha' := by
    obtain ⟨a, ha, hsame⟩ := h.back n hn a' ha'
    exact (hk.nodup n hn a ha).sublist (hsame.left.map _)
  waiting_iff n := by
    rw [hk.waiting_iff]
    exact and_congr_right fun hn => (h.owes_iff hn).symm
  decreasing := hk.decreasing
  outermost n hn := by
    obtain ⟨hbegun, a', ha', -, howes⟩ := (hk.waiting_iff n).1 (List.mem_of_getLast? hn)
    obtain ⟨a, ha, htold⟩ := hk.outermost n hn
    obtain rfl := Option.some.inj (ha.symm.trans ha')
    obtain ⟨a', ha', hsame⟩ := h.forth n hbegun a ha howes
    exact ⟨a', ha', hsame.event_eq ▸ htold⟩
  holds := hk.holds

section

variable {cause : Option Nat}

/-- When the store begins an announcement, this is the latest one, and nothing has happened yet to
    those before it. -/
theorem before_begin (hk : Kept store id key fs mail news m)
    (hstep : Step m (.announced n cause store event) m') :
    Kept store id key fs mail news m' ∧ (∀ j ∈ mail.begun, j < n) ∧ n < m'.next ∧
      m'.find? n = some (m.stage.begin n store event) := by
  obtain ⟨rfl, -, hfind⟩ := hstep.of_announced
  have hlt := hstep.next_lt_of_announced
  exact ⟨hk.of_sameFor (Moment.sameFor_of_eq fun j hj => hstep.find?_of_announced (hk.below j hj))
    (Nat.le_of_lt hlt), hk.below, hlt, hfind⟩

theorem nodup_begin (hk : Kept store id key fs mail news m') (hs : m.stage.Tells store id)
    (hfind : m'.find? n = some (m.stage.begin n store event)) :
    ∀ j ∈ n :: mail.begun, ∀ a, m'.find? j = some a → (a.left.map (·.id)).Nodup := by
  refine List.forall_mem_cons.2 ⟨fun a ha => ?_, hk.nodup⟩
  obtain rfl := Option.some.inj (hfind.symm.trans ha)
  exact hs.nodup_begin n event

/-- An announcement of the store that does not tell of the field. -/
theorem begin_other (hk : Kept store id key fs mail news m)
    (hstep : Step m (.announced n cause store event) m') (hs : m.stage.Tells store id)
    (htold : event.told? key = none) :
    Kept store id key fs { mail with begun := n :: mail.begun } news m' := by
  obtain ⟨hk, hlt, hn, hfind⟩ := hk.before_begin hstep
  have hnot : ¬m'.Owes id key n := by
    rintro ⟨a, ha, hsome, -⟩
    obtain rfl := Option.some.inj (hfind.symm.trans ha)
    rw [Stage.begin, htold] at hsome
    cases hsome
  refine ⟨List.forall_mem_cons.2 ⟨hn, hk.below⟩, hk.nodup_begin hs hfind, fun j => ?_,
    hk.decreasing, hk.outermost, hk.holds⟩
  rw [hk.waiting_iff, List.mem_cons, or_and_right, iff_or_self]
  rintro ⟨rfl, howes⟩
  exact absurd howes hnot

/-- An announcement of the store that tells of the field. It is the innermost one now; it was in
    time if it is the outermost one as well. -/
theorem begin_change (hk : Kept store id key fs mail news m)
    (hstep : Step m (.announced n cause store event) m') (hs : m.stage.Tells store id)
    {v : Json} (htold : event.told? key = some v) :
    Kept store id key fs { mail with begun := n :: mail.begun }
      ⟨n :: news.waiting, some v, if news.waiting = [] then some v else news.inTime⟩ m' := by
  obtain ⟨hk, hlt, hn, hfind⟩ := hk.before_begin hstep
  have hsome : (event.told? key).isSome = true := by rw [htold]; rfl
  have howes : m'.Owes id key n := ⟨_, hfind, hsome, hs.owes_begin n hsome⟩
  refine ⟨List.forall_mem_cons.2 ⟨hn, hk.below⟩, hk.nodup_begin hs hfind, fun j => ?_, ?_,
    fun j hj => ?_, fun h => nomatch h⟩
  · rw [List.mem_cons, List.mem_cons, hk.waiting_iff, or_and_right]
    refine or_congr_left ⟨?_, And.left⟩
    rintro rfl
    exact ⟨rfl, howes⟩
  · exact List.pairwise_cons.2 ⟨fun j hj => hlt j ((hk.waiting_iff j).1 hj).1, hk.decreasing⟩
  · by_cases hwaiting : news.waiting = []
    · rw [hwaiting, List.getLast?_singleton, Option.some.injEq] at hj
      subst hj
      exact ⟨_, hfind, htold.trans (if_pos hwaiting).symm⟩
    · obtain ⟨i, is, hcons⟩ := List.exists_cons_of_ne_nil hwaiting
      rw [hcons, List.getLast?_cons_cons, ← hcons] at hj
      obtain ⟨a, ha, htold⟩ := hk.outermost j hj
      exact ⟨a, ha, htold.trans (if_neg hwaiting).symm⟩

end

section

variable {l : Listener σ}

/-- When an announcement has called the listener, it does not call it again. -/
theorem not_owes_of_called (hk : Kept store id key fs mail news m) (hm : m.Numbered)
    (hstep : Step m (.called n l event) m') (hl : l.id = id) (hn : n ∈ mail.begun) :
    ¬m'.Owes id key n := by
  obtain ⟨a, ls, ha, -, hleft, ha', -⟩ := hstep.of_called hm
  have hnodup := hk.nodup n hn a ha
  rw [hleft, List.map_cons, List.nodup_cons] at hnodup
  rintro ⟨b, hb, -, l', hl', hid⟩
  obtain rfl := Option.some.inj (ha'.symm.trans hb)
  exact hnodup.1 (List.mem_map.2 ⟨l', hl', hid.trans hl.symm⟩)

/-- If the announcement that calls a listener was waiting, it is the latest of those that were. -/
theorem exists_waiting_eq (hk : Kept store id key fs mail news m) (hm : m.Numbered)
    (hstep : Step m (.called n l event) m') (hn : n ∈ news.waiting) :
    ∃ ns, news.waiting = n :: ns := by
  obtain ⟨-, -, -, -, -, -, -, hmax⟩ := hstep.of_called hm
  obtain ⟨i, ns, hwaiting⟩ := List.exists_cons_of_ne_nil (List.ne_nil_of_mem hn)
  obtain ⟨-, a, ha, -⟩ := (hk.waiting_iff i).1 (hwaiting ▸ List.mem_cons_self)
  have hdecreasing := hk.decreasing
  rw [hwaiting] at hn hdecreasing
  rcases List.mem_cons.1 hn with rfl | hn
  · exact ⟨ns, hwaiting⟩
  · exact absurd ((List.pairwise_cons.1 hdecreasing).1 n hn) (Nat.not_lt.2 (hmax i a ha))

/-- When an announcement of the store has called the listener, the value announced last in time is
    what the listener is told, unless there is an announcement further out that is waiting. -/
theorem told_of_called (hk : Kept store id key fs mail news m) (hm : m.Numbered)
    (hstep : Step m (.called n l event) m') (hl : l.id = id) (hn : n ∈ mail.begun)
    (hnil : news.waiting.erase n = []) :
    Json.Fields.get? key (fs.applied (mail.events ++ [event])) =
      news.inTime.or (Json.Fields.get? key fs) := by
  obtain ⟨a, ls, ha, rfl, hleft, -⟩ := hstep.of_called hm
  have howes : a.Owes id := ⟨l, hleft ▸ List.mem_cons_self, hl⟩
  rw [Json.Fields.get?_applied_concat]
  cases htold : a.event.told? key with
  | none =>
    -- It tells of something else, so it was not waiting.
    have hnot : n ∉ news.waiting := by
      rw [hk.waiting_iff]
      rintro ⟨-, b, hb, hsome, -⟩
      obtain rfl := Option.some.inj (ha.symm.trans hb)
      rw [htold] at hsome
      cases hsome
    rw [List.erase_of_not_mem hnot] at hnil
    rw [Option.none_or, hk.holds hnil]
  | some v =>
    -- It was the innermost one, and as none is left it was the outermost one.
    have hwaiting := (hk.waiting_iff n).2 ⟨hn, a, ha, by rw [htold]; rfl, howes⟩
    obtain ⟨ns, hcons⟩ := hk.exists_waiting_eq hm hstep hwaiting
    rw [hcons, List.erase_cons_head] at hnil
    obtain ⟨b, hb, hinTime⟩ := hk.outermost n (by rw [hcons, hnil]; rfl)
    obtain rfl := Option.some.inj (ha.symm.trans hb)
    rw [← hinTime, htold]
    rfl

/-- A call of the listener by an announcement of the store. -/
theorem call (hk : Kept store id key fs mail news m) (hm : m.Numbered)
    (hstep : Step m (.called n l event) m') (hl : l.id = id) (hn : n ∈ mail.begun) :
    Kept store id key fs { mail with events := mail.events ++ [event] }
      { news with waiting := news.waiting.erase n } m' := by
  obtain ⟨a, ls, ha, -, hleft, ha', hother, -⟩ := hstep.of_called hm
  have hnot := hk.not_owes_of_called hm hstep hl hn
  have hnodup : news.waiting.Nodup := hk.decreasing.imp Nat.ne_of_gt
  have hwaiting : ∀ j, j ∈ news.waiting.erase n → j ≠ n ∧ j ∈ news.waiting := fun j =>
    hnodup.mem_erase_iff.1
  refine ⟨fun j hj => ?_, fun j hj b hb => ?_, fun j => ?_,
    hk.decreasing.sublist List.erase_sublist, fun j hj => ?_, hk.told_of_called hm hstep hl hn⟩
  · exact Nat.lt_of_lt_of_le (hk.below j hj) hstep.next_le
  · by_cases hjn : j = n
    · subst hjn
      obtain rfl := Option.some.inj (ha'.symm.trans hb)
      refine (hk.nodup j hj a ha).sublist (List.Sublist.map _ ?_)
      exact hleft ▸ List.sublist_cons_self l ls
    · exact hk.nodup j hj b (hother j hjn ▸ hb)
  · rw [hnodup.mem_erase_iff, hk.waiting_iff]
    by_cases hjn : j = n
    · subst hjn
      exact ⟨fun h => absurd rfl h.1, fun h => absurd h.2 hnot⟩
    · rw [Moment.Owes, Moment.Owes, hother j hjn]
      exact and_iff_right hjn
  · obtain ⟨hjn, -⟩ := hwaiting j (List.mem_of_getLast? hj)
    rw [hother j hjn]
    refine hk.outermost j ?_
    by_cases hmem : n ∈ news.waiting
    · -- What is taken away is the first of several, so the last one is still the same.
      obtain ⟨ns, hcons⟩ := hk.exists_waiting_eq hm hstep hmem
      rw [hcons, List.erase_cons_head] at hj
      have hlast := List.mem_of_getLast? hj
      obtain ⟨i, is, rfl⟩ := List.exists_cons_of_ne_nil (List.ne_nil_of_mem hlast)
      rw [hcons, List.getLast?_cons_cons, hj]
    · rwa [List.erase_of_not_mem hmem] at hj

/-- A call by an announcement that is not of the store. -/
theorem call_other (hk : Kept store id key fs mail news m) (hm : m.Numbered)
    (hstep : Step m (.called n l event) m') (hn : n ∉ mail.begun) :
    Kept store id key fs mail { news with waiting := news.waiting.erase n } m' := by
  obtain ⟨_, _, -, -, -, -, hother, -⟩ := hstep.of_called hm
  have hwaiting : news.waiting.erase n = news.waiting :=
    List.erase_of_not_mem fun hmem => hn ((hk.waiting_iff n).1 hmem).1
  have hsame : m.SameFor m' id mail.begun :=
    Moment.sameFor_of_eq fun j hj => hother j fun hjn => hn (hjn ▸ hj)
  rw [hwaiting]
  exact hk.of_sameFor hsame hstep.next_le

end

theorem step (hk : Kept store id key fs mail news m) (hm : m.Numbered) (hstep : Step m o m')
    (hs : m.stage.Tells store id) :
    Kept store id key fs (mail.next store id o) (news.next store id key o) m' := by
  have hquiet (ho : o.IsQuiet) :
      Kept store id key fs (mail.next store id o) (news.next store id key o) m' := by
    rw [ho.mail_next, ho.news_next]
    exact hk.of_sameFor (hstep.sameFor_of_isQuiet hm ho id _) hstep.next_le
  cases o with
  | announced n cause source event =>
    by_cases hsource : source = store
    · subst hsource
      cases htold : event.told? key with
      | none =>
        have hk' := hk.begin_other hstep hs htold
        simpa only [Mail.next, News.next, if_true, htold] using hk'
      | some v =>
        have hk' := hk.begin_change hstep hs htold
        simpa only [Mail.next, News.next, if_true, htold] using hk'
    · obtain ⟨rfl, -⟩ := hstep.of_announced
      have hsame : m.SameFor m' id mail.begun :=
        Moment.sameFor_of_eq fun j hj => hstep.find?_of_announced (hk.below j hj)
      simp only [Mail.next, News.next, if_neg hsource]
      exact hk.of_sameFor hsame hstep.next_le
  | called n l event =>
    by_cases hl : l.id = id
    · by_cases hn : n ∈ mail.begun
      · simpa only [Mail.next, News.next, hl, hn, and_self, if_true] using hk.call hm hstep hl hn
      · simpa only [Mail.next, News.next, hl, hn, and_false, if_true, if_false] using
          hk.call_other hm hstep hn
    · simp only [Mail.next, News.next, hl, false_and, if_false]
      exact hk.of_sameFor (hstep.sameFor_of_called hm hl _) hstep.next_le
  | _ => exact hquiet ⟨rfl, fun _ => rfl⟩

end Kept

/-- As long as a listener is there to hear of the changes of a store, what a chronicle tells about
    a field is true, and the listener holds the value announced last in time whenever nothing is
    waiting. -/
theorem Path.kept (h : Path m log m') (hm : m.Numbered) (key : String) (fs : Json.Fields) :
    (∀ before, before <+: log → (replay m.stage before).Tells store id) →
      Kept store id key fs (Mail.of store id log) (News.of store id key log) m' :=
  h.concat_induction (motive := fun log m' =>
      (∀ before, before <+: log → (replay m.stage before).Tells store id) →
        Kept store id key fs (Mail.of store id log) (News.of store id key log) m')
    (fun _ => .start ..)
    fun {log o m₁ m₂} hpath hstep hk hs => by
      have hlog := hs log (List.prefix_append ..)
      rw [← hpath.stage_eq] at hlog
      rw [Mail.of_concat, News.of_concat]
      exact (hk fun before hbefore => hs before (hbefore.trans (List.prefix_append ..))).step
        (hpath.numbered hm) hstep hlog

/-! ### Announcements that are over -/

theorem Step.find?_eq_none (h : Step m o m') (hj : j < m.next) (hnone : m.find? j = none) :
    m'.find? j = none := by
  cases h with
  | announced | relayed => exact (Moment.find?_begin hj _ _).trans hnone
  | called =>
    rw [Moment.find?_cons] at hnone ⊢
    split at hnone
    · cases hnone
    · next hnumber => exact (if_neg hnumber).trans hnone
  | answered =>
    rw [Moment.find?_cons] at hnone
    split at hnone
    · cases hnone
    · exact hnone
  | acted => exact hnone

/-- An announcement that is over is not under way any more. -/
theorem Path.find?_of_answered (h : Path m log m') (hm : m.Numbered) {count : Nat}
    (hover : .answered n count ∈ log) : m'.find? n = none := by
  refine And.right (a := n < m'.next) ?_
  refine h.concat_induction (motive := fun log m' => .answered n count ∈ log →
    n < m'.next ∧ m'.find? n = none) nofun ?_ hover
  intro log o m₁ m₂ hpath hstep ih hover
  rcases List.mem_append.1 hover with hover | hlast
  · obtain ⟨hlt, hnone⟩ := ih hover
    exact ⟨Nat.lt_of_lt_of_le hlt hstep.next_le, hstep.find?_eq_none hlt hnone⟩
  · obtain rfl := List.mem_singleton.1 hlast
    have hm₁ := hpath.numbered hm
    cases hstep with
    | answered => exact ⟨hm₁.below _ List.mem_cons_self, hm₁.find?_tail⟩
    | acted ho => exact ho.elim

/-- When all announcements of changes of the store are over, nothing is waiting. -/
theorem Path.waiting_eq_nil (h : Path m log m') (hm : m.Numbered)
    (hk : Kept store id key fs (Mail.of store id log) (News.of store id key log) m')
    (hended : ∀ n cause event, .announced n cause store event ∈ log → event.name = "change" →
      ∃ count, .answered n count ∈ log) :
    (News.of store id key log).waiting = [] := by
  refine List.eq_nil_iff_forall_not_mem.2 fun n hn => ?_
  obtain ⟨cause, event, hannounced, hname⟩ := News.exists_announced hn
  obtain ⟨count, hanswered⟩ := hended n cause event hannounced hname
  obtain ⟨-, a, ha, -⟩ := (hk.waiting_iff n).1 hn
  rw [h.find?_of_answered hm hanswered] at ha
  cases ha

end Stencil
