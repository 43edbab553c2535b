import Stencil.Proofs.Plain
import Stencil.Proofs.Depth

/-!
# The record of a walk

A walk keeps a record of what it materialised (`State.trace`). The record can be
replayed: the contents of its names, materialised in turn, give its texts and the
world in which the walk is (`Content.materializeAll`), so nothing else was
materialised. No name is in it twice, and each can be reached from the layout
through the texts in it. All this holds however the walk ends (`Recorded`).

As long as the walk goes on, a name in the record is done with or being unfolded,
and never both; what is being unfolded is a way down from the layout; and what is
done with has as its expanded text the expansion of its text, by the texts in the
record (`Sound`). These are kept when a section is begun (`Sound.opened`), when
it is done with (`Sound.closed`), and so by every walk (`Visits.sound`).
-/

namespace Stencil.Section

open Placeholder

variable {γ σ : Type} {run : γ → σ → String × σ}

/-- Some contents materialised in turn: their texts, and the world afterwards. -/
def Content.materializeAll (run : γ → σ → String × σ) : List (Content γ) → σ → List String × σ
  | [], world => ([], world)
  | c :: cs, world =>
    let (texts, world') := materializeAll run cs (c.after run world)
    (c.text run world :: texts, world')

theorem Content.materializeAll_concat {cs : List (Content γ)} {c : Content γ} {world world' : σ}
    {ts : List String} (h : materializeAll run cs world = (ts, world')) :
    materializeAll run (cs ++ [c]) world = (ts ++ [c.text run world'], c.after run world') := by
  induction cs generalizing world ts with
  | nil =>
    obtain ⟨rfl, rfl⟩ := Prod.mk.inj h
    rfl
  | cons d ds ih =>
    obtain ⟨rfl, h₂⟩ := Prod.mk.inj h
    have := ih (Prod.ext rfl h₂)
    rw [List.cons_append, materializeAll, this]
    rfl

/-- What a walk down from the text `layout` has materialised, beginning with
    `world`, is on record. -/
structure Recorded (run : γ → σ → String × σ) (sections : Table γ) (world : σ) (layout : String)
    (s : State γ σ) : Prop where
  replay : Content.materializeAll run (s.trace.map fun e => sections.content e.1) world =
    (s.trace.map Prod.snd, s.world)
  nodup : (s.trace.map Prod.fst).Nodup
  reachable : ∀ n, (s.texts n).isSome → Reachable s.texts layout n

/-- The walk down from the text `layout` goes on in the state `s`. -/
structure Sound (run : γ → σ → String × σ) (sections : Table γ) (world : σ) (layout : String)
    (s : State γ σ) : Prop extends Recorded run sections world layout s where
  content : ∀ n, s.working.content n = sections.content n
  leads : Leads s.texts layout s.unfolding
  nodup_unfolding : s.unfolding.Nodup
  not_settled : ∀ n ∈ s.unfolding, s.settled.get? n = none
  settled_or_unfolding : ∀ n, (s.texts n).isSome → (s.settled.get? n).isSome ∨ n ∈ s.unfolding
  settled : ∀ n v, s.settled.get? n = some v → ∃ t, s.texts n = some t ∧ Expands s.texts t v ∧
    ∀ m, Mentions t m → (s.settled.get? m).isSome

variable {sections : Table γ} {world : σ} {layout : String} {n : Name} {s s₁ s' : State γ σ}
  {ns chain : List Name}

theorem Recorded.leave (h : Recorded run sections world layout s) :
    Recorded run sections world layout s.leave :=
  ⟨h.replay, h.nodup, h.reachable⟩

/-- The walk begins with an empty record. -/
theorem sound_begun (run : γ → σ → String × σ) (sections : Table γ) (world : σ) (text : String) :
    Sound run sections world text (.begun sections world text) where
  replay := by simp [Content.materializeAll]
  nodup := by simp
  reachable n hn := by simp at hn
  content := State.begun_content
  leads := by
    rw [State.begun_unfolding]
    exact ⟨.nil, nofun⟩
  nodup_unfolding := by simp
  not_settled n hn := by simp at hn
  settled_or_unfolding n hn := by simp at hn
  settled n v hv := by
    rw [State.begun_settled] at hv
    cases hv

/-- A name that is neither done with nor being unfolded is not on record. -/
theorem Sound.texts_eq_none (h : Sound run sections world layout s)
    (hn : s.settled.get? n = none) (hu : n ∉ s.unfolding) : s.texts n = none := by
  by_contra hne
  rcases h.settled_or_unfolding n (Option.isSome_iff_ne_none.2 hne) with hs | hs
  · rw [hn] at hs
    cases hs
  · exact hu hs

/-- A way down to `n` goes on to the names in its text. -/
theorem leads_opened (run : γ → σ → String × σ) (hn : s.texts n = none)
    (hl : Leads s.texts layout (s.unfolding ++ [n])) :
    ∀ m ∈ references (s.enter run n).1,
      Leads (s.opened run n).texts layout ((s.opened run n).unfolding ++ [m]) := by
  intro m hm
  rw [State.opened_unfolding]
  exact (hl.mono State.texts_within_opened).concat
    ⟨_, State.texts_opened_self hn, mem_references.1 hm⟩

/-- A name that is on record once a section is begun was so before, or is that of
    the section. -/
theorem isSome_texts_opened {m : Name} (h : ((s.opened run n).texts m).isSome) :
    (s.texts m).isSome ∨ m = n := by
  rw [State.texts, State.opened_trace, OrderedMap.isSome_find_iff, List.map_append,
    List.mem_append, ← OrderedMap.isSome_find_iff] at h
  exact h.imp_right List.mem_singleton.1

/-- A section that is begun goes on record. -/
theorem Recorded.opened (h : Recorded run sections world layout s)
    (hs : ∀ n, s.working.content n = sections.content n) (hn : s.texts n = none)
    (hl : Leads s.texts layout (s.unfolding ++ [n])) :
    Recorded run sections world layout (s.opened run n) where
  replay := by
    rw [State.opened_trace, State.opened_world, State.enter_text, hs, List.map_append,
      List.map_append]
    exact Content.materializeAll_concat h.replay
  nodup := by
    have hnot : n ∉ s.trace.map Prod.fst := by
      rw [← OrderedMap.isSome_find_iff, Option.not_isSome_iff_eq_none]
      exact hn
    rw [State.opened_trace, List.map_append, List.map_singleton, ← List.concat_eq_append]
    exact h.nodup.concat hnot
  reachable m hm := by
    have hle : s.texts.Within (s.opened run n).texts := State.texts_within_opened
    rcases isSome_texts_opened hm with hm | rfl
    · exact (h.reachable m hm).mono hle
    · exact (hl.mono hle).reachable (List.mem_append_right _ (List.mem_singleton_self m))

/-- The walk goes on with a section that is begun. -/
theorem Sound.opened (h : Sound run sections world layout s) (hn : s.settled.get? n = none)
    (hu : n ∉ s.unfolding) (hl : Leads s.texts layout (s.unfolding ++ [n])) :
    Sound run sections world layout (s.opened run n) where
  toRecorded := h.toRecorded.opened h.content (h.texts_eq_none hn hu) hl
  content m := (State.opened_content m).trans (h.content m)
  leads := by
    rw [State.opened_unfolding]
    exact hl.mono State.texts_within_opened
  nodup_unfolding := by
    rw [State.opened_unfolding, ← List.concat_eq_append]
    exact h.nodup_unfolding.concat hu
  not_settled m hm := by
    rw [State.opened_unfolding, List.mem_append, List.mem_singleton] at hm
    rw [State.opened_settled]
    rcases hm with hm | rfl
    · exact h.not_settled m hm
    · exact hn
  settled_or_unfolding m hm := by
    rw [State.opened_settled, State.opened_unfolding, List.mem_append, List.mem_singleton,
      ← or_assoc]
    exact (isSome_texts_opened hm).imp_left (h.settled_or_unfolding m)
  settled m v hv := by
    rw [State.opened_settled] at hv
    obtain ⟨t, ht, hexp, hm⟩ := h.settled m v hv
    rw [State.opened_settled]
    exact ⟨t, State.texts_within_opened m t ht, hexp.mono State.texts_within_opened, hm⟩

/-- Putting in the texts of what is done with gives the expansion of a text. -/
theorem Sound.expands (h : Sound run sections world layout s) {text : String}
    (ht : ∀ m, Mentions text m → (s.settled.get? m).isSome) :
    Expands s.texts text (substitute s.settled.get? text) := by
  refine expands_substitute fun m hm => ?_
  obtain ⟨v, hv⟩ := Option.isSome_iff_exists.1 (ht m hm)
  obtain ⟨t, ht, hexp, -⟩ := h.settled m v hv
  exact ⟨t, v, ht, hexp, hv⟩

section

variable {front : List Name} {text : String}

theorem State.closed_unfolding (hu : s.unfolding = front ++ [n]) :
    (s.closed n text).unfolding = front := by
  show s.unfolding.dropLast = front
  rw [hu, List.dropLast_concat]

theorem State.closed_settled_self :
    (s.closed n text).settled.get? n = some (substitute s.settled.get? text) :=
  OrderedMap.get?_insert_self ..

theorem State.closed_settled_of_ne {m : Name} (h : m ≠ n) :
    (s.closed n text).settled.get? m = s.settled.get? m :=
  OrderedMap.get?_insert_of_ne _ h _

theorem State.isSome_closed_settled {m : Name} (h : (s.settled.get? m).isSome) :
    ((s.closed n text).settled.get? m).isSome := by
  by_cases hm : m = n
  · rw [hm, closed_settled_self]
    rfl
  · rwa [closed_settled_of_ne hm]

/-- The innermost section is done with once all names in its text are. -/
theorem Sound.closed (h : Sound run sections world layout s) (hu : s.unfolding = front ++ [n])
    (ht : s.texts n = some text) (hm : ∀ m, Mentions text m → (s.settled.get? m).isSome) :
    Sound run sections world layout (s.closed n text) where
  toRecorded := ⟨h.replay, h.nodup, h.reachable⟩
  content := h.content
  leads := by
    have hleads := h.leads
    rw [hu] at hleads
    rw [State.closed_unfolding hu]
    exact hleads.left_of_append
  nodup_unfolding := by
    have hnodup := h.nodup_unfolding
    rw [hu] at hnodup
    rw [State.closed_unfolding hu]
    exact (List.nodup_append.1 hnodup).1
  not_settled m hmem := by
    have hnodup := h.nodup_unfolding
    rw [hu] at hnodup
    rw [State.closed_unfolding hu] at hmem
    have hne : m ≠ n := (List.nodup_append.1 hnodup).2.2 m hmem n (List.mem_singleton_self n)
    rw [State.closed_settled_of_ne hne]
    exact h.not_settled m (hu ▸ List.mem_append_left _ hmem)
  settled_or_unfolding m hsome := by
    rw [State.closed_unfolding hu]
    rcases h.settled_or_unfolding m hsome with hs | hmem
    · exact .inl (State.isSome_closed_settled hs)
    · rw [hu, List.mem_append, List.mem_singleton] at hmem
      rcases hmem with hmem | rfl
      · exact .inr hmem
      · exact .inl (by rw [State.closed_settled_self]; rfl)
  settled m v hv := by
    by_cases hne : m = n
    · -- Its expanded text is the expansion of its text, as those put in are.
      rw [hne, State.closed_settled_self, Option.some.injEq] at hv
      rw [hne, ← hv]
      exact ⟨text, ht, h.expands hm, fun k hk => State.isSome_closed_settled (hm k hk)⟩
    · rw [State.closed_settled_of_ne hne] at hv
      obtain ⟨t, ht, hexp, hall⟩ := h.settled m v hv
      exact ⟨t, ht, hexp, fun k hk => State.isSome_closed_settled (hall k hk)⟩

end

theorem State.Keeps.leads {m : Name} (h : s.Keeps s')
    (hl : Leads s.texts layout (s.unfolding ++ [m])) :
    Leads s'.texts layout (s'.unfolding ++ [m]) := by
  rw [h.unfolding]
  exact hl.mono h.texts

/-- A new section is begun, visited and done with. -/
theorem Sound.visited (h : Sound run sections world layout s₁) (hnone : s.texts n = none)
    (hi : Visits run (references (s.enter run n).1) (s.opened run n) s₁) :
    Sound run sections world layout (s₁.closed n (s.enter run n).1) :=
  h.closed (hi.keeps.unfolding.trans State.opened_unfolding)
    (hi.keeps.texts _ _ (State.texts_opened_self hnone))
    fun m hm => hi.settled m (mem_references.2 hm)

/-- A walk that succeeds can go on. -/
theorem Visits.sound (h : Visits run ns s s') (hs : Sound run sections world layout s)
    (hl : ∀ n ∈ ns, Leads s.texts layout (s.unfolding ++ [n])) :
    Sound run sections world layout s' := by
  induction h with
  | nil => exact hs
  | known _ _ ih => exact ih hs fun m hm => hl m (List.mem_cons_of_mem _ hm)
  | fresh hn hu hi _ ihi ih =>
    have hln := hl _ List.mem_cons_self
    have hnone := hs.texts_eq_none hn hu
    have hs₁ := ihi (hs.opened hn hu hln) (leads_opened run hnone hln)
    refine ih (hs₁.visited hnone hi) fun m hm => ?_
    exact (hi.keeps_closed hn).leads (hl m (List.mem_cons_of_mem _ hm))

/-- A walk that stops is on record. -/
theorem Stops.recorded (h : Stops run ns s chain s') (hs : Sound run sections world layout s)
    (hl : ∀ n ∈ ns, Leads s.texts layout (s.unfolding ++ [n])) :
    Recorded run sections world layout s' := by
  induction h with
  | back => exact hs.toRecorded
  | inside hn hu _ ih =>
    have hln := hl _ List.mem_cons_self
    exact (ih (hs.opened hn hu hln) (leads_opened run (hs.texts_eq_none hn hu) hln)).leave
  | later hv _ ih =>
    refine ih (hv.sound hs fun m hm => ?_) fun m hm => ?_
    · exact hl m (List.mem_singleton.1 hm ▸ List.mem_cons_self)
    · exact hv.keeps.leads (hl m (List.mem_cons_of_mem _ hm))

/-! ### Layouts -/

/-- The names that a layout mentions are reached directly from it. -/
theorem leads_begun {text : String} : ∀ n ∈ references text,
    Leads (State.begun sections world text).texts text
      ((State.begun sections world text).unfolding ++ [n]) := by
  intro n hn
  rw [State.begun_unfolding]
  exact leads_singleton (mem_references.1 hn)

/-- When all names in a text are done with, the names on record are those that
    can be reached from the text. -/
theorem Sound.mem_trace_iff {text : String} (h : Sound run sections world text s)
    (ht : ∀ m, Mentions text m → (s.settled.get? m).isSome) :
    n ∈ s.trace.map Prod.fst ↔ Reachable s.texts text n := by
  rw [← OrderedMap.isSome_find_iff]
  refine ⟨h.reachable n, fun hn => ?_⟩
  -- What is mentioned has an expansion, so no way down meets a name without a text.
  exact (hn.grounded fun m => (h.expands ht).grounded).isSome

theorem Sound.eq_substitute (h : Sound run sections world layout s) {t v : String}
    (hn : s.settled.get? n = some v) (ht : s.texts n = some t) :
    v = substitute s.settled.get? t := by
  obtain ⟨t', ht', hexp, hm⟩ := h.settled n v hn
  rw [ht, Option.some.injEq] at ht'
  subst ht'
  exact hexp.unique (h.expands hm)

/-- When all names in a text and all on record are done with, the same text is put
    in the place of all references to a name. -/
theorem Sound.exists_value (h : Sound run sections world layout s) (hu : s.unfolding = [])
    {text : String} (ht : ∀ m, Mentions text m → (s.settled.get? m).isSome) :
    ∃ value : Name → String,
      substitute s.settled.get? text = substitute (fun n => some (value n)) text ∧
      ∀ n t, (n, t) ∈ s.trace → value n = substitute (fun m => some (value m)) t := by
  -- No name that matters is without an expanded text, so the default is never put in.
  have hvalue : ∀ u, (∀ m, Mentions u m → (s.settled.get? m).isSome) →
      substitute s.settled.get? u =
        substitute (fun m => some ((s.settled.get? m).getD "")) u := by
    refine fun u hm => substitute_congr fun m hmu => ?_
    obtain ⟨v, hv⟩ := Option.isSome_iff_exists.1 (hm m hmu)
    rw [hv]
    rfl
  refine ⟨fun n => (s.settled.get? n).getD "", hvalue text ht, fun n t hnt => ?_⟩
  have hn : s.texts n = some t := (OrderedMap.find_eq_some_iff h.nodup).2 hnt
  have hsome : (s.settled.get? n).isSome := by
    refine (h.settled_or_unfolding n (by rw [hn]; rfl)).resolve_right ?_
    rw [hu]
    exact List.not_mem_nil
  obtain ⟨v, hv⟩ := Option.isSome_iff_exists.1 hsome
  obtain ⟨t', ht', -, hm⟩ := h.settled n v hv
  rw [hn, Option.some.injEq] at ht'
  calc (s.settled.get? n).getD "" = v := by rw [hv]; rfl
    _ = substitute s.settled.get? t := h.eq_substitute hv hn
    _ = _ := hvalue t (ht' ▸ hm)

/-- The texts that were materialised. -/
def Outcome.texts (o : Outcome γ σ) : Texts := fun n => OrderedMap.find n o.trace

/-- However it ends, an expansion materialises the layout and then the sections on
    record, and nothing else, in turn; and no section is on record twice. If it
    succeeds, the sections on record are those that are reachable by the texts on
    record, and all references to a section were given the same text. -/
theorem resolve_materializes_once (run : γ → σ → String × σ) (layout : Content γ)
    (sections : Table γ) (world : σ) :
    Content.materializeAll run
        (layout :: (resolve run layout sections world).trace.map fun e => sections.content e.1)
        world =
      (layout.text run world :: (resolve run layout sections world).trace.map Prod.snd,
        (resolve run layout sections world).world) ∧
    ((resolve run layout sections world).trace.map Prod.fst).Nodup ∧
    ∀ e, (resolve run layout sections world).result = .ok e →
      (∀ n, n ∈ (resolve run layout sections world).trace.map Prod.fst ↔
        Reachable (resolve run layout sections world).texts (layout.text run world) n) ∧
      ∃ value : Name → String,
        e.text = substitute (fun n => some (value n)) (layout.text run world) ∧
        ∀ n t, (n, t) ∈ (resolve run layout sections world).trace →
          value n = substitute (fun m => some (value m)) t := by
  rcases resolve_visits_or_stops run layout sections world with ⟨s, hv, hr⟩ | ⟨chain, s, hv, hr⟩
  · have hs : Sound run sections (layout.after run world) (layout.text run world) s :=
      hv.sound (sound_begun ..) leads_begun
    have hunfolding : s.unfolding = [] := hv.keeps.unfolding.trans State.begun_unfolding
    rw [hr]
    refine ⟨?_, hs.nodup, fun e he => ?_⟩
    · rw [Content.materializeAll, hs.replay]
    · have hm : ∀ m, Mentions (layout.text run world) m → (s.settled.get? m).isSome :=
        fun m hm => hv.settled m (mem_references.2 hm)
      cases he
      exact ⟨fun n => hs.mem_trace_iff hm, hs.exists_value hunfolding hm⟩
  · have hs : Recorded run sections (layout.after run world) (layout.text run world) s :=
      hv.recorded (sound_begun ..) leads_begun
    rw [hr]
    refine ⟨?_, hs.nodup, fun e he => nomatch he⟩
    rw [Content.materializeAll, hs.replay]

end Stencil.Section
