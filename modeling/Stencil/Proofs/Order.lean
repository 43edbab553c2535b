import Stencil.Proofs.Pure

/-!
# The order of a walk

The plain walk meets a section each time it goes down to it: first the section,
then all that is met below it, and then what comes after it (`Meets`). A text
whose names are grounded has such an order, and only one (`Grounded.meets`,
`Meets.unique`).

A walk that looks at every section once takes the sections up in the order in
which the plain walk first meets them (`Visits.meets`): when it comes to one that
is done with, all that the plain walk would meet below it is done with as well.
-/

namespace Stencil.Section

open Placeholder

variable {γ σ : Type} {run : γ → σ → String × σ} {texts texts' : Texts}

/-- The names that the walk down from some names meets, each time it does: a name,
    then those below it, then those after it. -/
inductive Meets (texts : Texts) : (names met : List Name) → Prop
  | nil : Meets texts [] []
  | cons {n : Name} {ns below after : List Name} {t : String} : texts n = some t →
      Meets texts (references t) below → Meets texts ns after →
      Meets texts (n :: ns) (n :: (below ++ after))

variable {n : Name} {ns met met' : List Name}

theorem Meets.of_mentionsAs (hm : texts.MentionsAs texts') (h : Meets texts ns met) :
    Meets texts' ns met := by
  induction h with
  | nil => exact .nil
  | cons ht _ _ ihb iha =>
    obtain ⟨t', ht', hrefs⟩ := hm _ _ ht
    exact .cons ht' (hrefs ▸ ihb) iha

theorem Meets.mono (hle : texts.Within texts') (h : Meets texts ns met) : Meets texts' ns met :=
  h.of_mentionsAs hle.mentionsAs

/-- The walk down from some names meets names in one order only. -/
theorem Meets.unique (h : Meets texts ns met) (h' : Meets texts ns met') : met = met' := by
  induction h generalizing met' with
  | nil => cases h' with | nil => rfl
  | cons ht _ _ ihb iha =>
    cases h' with
    | cons ht' hb' ha' =>
      rw [ht, Option.some.injEq] at ht'
      rw [ihb (ht' ▸ hb'), iha ha']

/-- What is met is one of the names or can be reached from one. -/
theorem Meets.exists_reflTransGen (h : Meets texts ns met) :
    ∀ m ∈ met, ∃ n ∈ ns, Relation.ReflTransGen (Refers texts) n m := by
  induction h with
  | nil => exact fun _ hm => absurd hm List.not_mem_nil
  | @cons n ns below after t ht _ _ ihb iha =>
    intro m hm
    rcases List.mem_cons.1 hm with rfl | hm
    · exact ⟨m, List.mem_cons_self, .refl⟩
    · rcases List.mem_append.1 hm with hm | hm
      · obtain ⟨k, hk, hkm⟩ := ihb m hm
        exact ⟨n, List.mem_cons_self, .head ⟨t, ht, mem_references.1 hk⟩ hkm⟩
      · obtain ⟨k, hk, hkm⟩ := iha m hm
        exact ⟨k, List.mem_cons_of_mem _ hk, hkm⟩

/-- The texts of what is met are known. -/
theorem Meets.isSome (h : Meets texts ns met) : ∀ m ∈ met, (texts m).isSome := by
  induction h with
  | nil => exact fun _ hm => absurd hm List.not_mem_nil
  | cons ht _ _ ihb iha =>
    intro m hm
    rcases List.mem_cons.1 hm with rfl | hm
    · rw [ht]
      rfl
    · exact (List.mem_append.1 hm).elim (ihb m) (iha m)

/-- The walk down from a grounded name comes to an end. -/
theorem Grounded.meets (h : Grounded texts n) :
    ∃ t below, texts n = some t ∧ Meets texts (references t) below := by
  induction h with
  | @intro n t ht _ ih =>
    have hmeets : ∀ ms : List Name, (∀ m ∈ ms, Mentions t m) → ∃ met, Meets texts ms met := by
      intro ms hms
      induction ms with
      | nil => exact ⟨[], .nil⟩
      | cons m ms ihms =>
        obtain ⟨u, below, hu, hbelow⟩ := ih m (hms m List.mem_cons_self)
        obtain ⟨after, hafter⟩ := ihms fun k hk => hms k (List.mem_cons_of_mem _ hk)
        exact ⟨_, .cons hu hbelow hafter⟩
    obtain ⟨below, hbelow⟩ := hmeets (references t) fun m hm => mem_references.1 hm
    exact ⟨t, below, ht, hbelow⟩

/-! ### The order of the record -/

section

variable {sections : Table γ} {world : σ} {layout : String} {s s' : State γ σ}

theorem Sound.mem_trace_of_settled (h : Sound run sections world layout s)
    (hn : (s.settled.get? n).isSome) : n ∈ s.trace.map Prod.fst := by
  rw [← OrderedMap.isSome_find_iff]
  exact (h.grounded hn).isSome

/-- A walk goes on in the order in which the plain walk meets the sections, without
    those on record. -/
theorem Visits.meets (h : Visits run ns s s') (hs : Sound run sections world layout s)
    (hl : ∀ n ∈ ns, Leads s.texts layout (s.unfolding ++ [n])) :
    ∃ met, Meets s'.texts ns met ∧
      s'.trace.map Prod.fst = Name.distinct (s.trace.map Prod.fst ++ met) := by
  induction h with
  | nil =>
    refine ⟨[], .nil, ?_⟩
    rw [List.append_nil, Name.distinct_of_nodup hs.nodup]
  | @known n ns s s' hn hr ih =>
    obtain ⟨after, hafter, htrace⟩ := ih hs fun m hm => hl m (List.mem_cons_of_mem _ hm)
    obtain ⟨t, below, ht, hbelow⟩ := (hs.grounded hn).meets
    have hle := hr.keeps.texts
    refine ⟨n :: (below ++ after), .cons (hle _ _ ht) (hbelow.mono hle) hafter, ?_⟩
    -- What the plain walk meets below a section that is done with is on record.
    have hmem : ∀ m ∈ n :: below, m ∈ s.trace.map Prod.fst := by
      intro m hm
      rcases List.mem_cons.1 hm with rfl | hm
      · exact hs.mem_trace_of_settled hn
      · obtain ⟨k, hk, hkm⟩ := hbelow.exists_reflTransGen m hm
        exact hs.mem_trace_of_settled
          (hs.settled_of_transGen hn (.head' ⟨t, ht, mem_references.1 hk⟩ hkm))
    rw [htrace, ← List.cons_append, Name.distinct_append_append_of_subset hmem]
  | @fresh n ns s s₁ s' hn hu hi hr ihi ih =>
    have hln := hl _ List.mem_cons_self
    have hnone := hs.texts_eq_none hn hu
    have hopened := hs.opened hn hu hln
    have hlopened := leads_opened run hnone hln
    obtain ⟨below, hbelow, hinner⟩ := ihi hopened hlopened
    obtain ⟨after, hafter, houter⟩ := ih ((hi.sound hopened hlopened).visited hnone hi)
      fun m hm => (hi.keeps_closed hn).leads (hl m (List.mem_cons_of_mem _ hm))
    have hle : s₁.texts.Within s'.texts := hr.keeps.texts
    have ht : s₁.texts n = some (s.enter run n).1 :=
      hi.keeps.texts _ _ (State.texts_opened_self hnone)
    refine ⟨n :: (below ++ after), .cons (hle _ _ ht) (hbelow.mono hle) hafter, ?_⟩
    calc s'.trace.map Prod.fst = Name.distinct (s₁.trace.map Prod.fst ++ after) := houter
      _ = Name.distinct ((s.opened run n).trace.map Prod.fst ++ below ++ after) := by
        rw [hinner, Name.distinct_distinct_append]
      _ = Name.distinct (s.trace.map Prod.fst ++ n :: (below ++ after)) := by
        rw [State.opened_trace, List.map_append, List.map_singleton, List.append_assoc,
          List.append_assoc, List.singleton_append]

end

/-! ### Layouts -/

/-- An expansion that succeeds has visited all names in the layout, and gives what
    the walk has come to. -/
theorem visits_of_resolve_eq_ok {layout : Content γ} {sections : Table γ} {world : σ}
    {e : Expanded γ} (h : (resolve run layout sections world).result = .ok e) :
    ∃ s : State γ σ,
      Visits run (references (layout.text run world))
        (.begun sections (layout.after run world) (layout.text run world)) s ∧
      Sound run sections (layout.after run world) (layout.text run world) s ∧
      e = ⟨substitute s.settled.get? (layout.text run world), s.missing, s.working⟩ ∧
      resolve run layout sections world = ⟨.ok e, s.warnings, s.trace, s.world⟩ := by
  rcases resolve_visits_or_stops run layout sections world with ⟨s, hv, hr⟩ | ⟨chain, s, -, hr⟩
  · rw [hr] at h
    cases h
    exact ⟨s, hv, hv.sound (sound_begun ..) leads_begun, rfl, hr⟩
  · rw [hr] at h
    cases h

/-- The sections on record are those that the plain walk meets, in the order in
    which it first meets them, by any texts that hold those on record. -/
theorem resolve_meets {layout : Content γ} {sections : Table γ} {world : σ} {e : Expanded γ}
    (h : (resolve run layout sections world).result = .ok e)
    (hwithin : (resolve run layout sections world).texts.Within texts) :
    ∃ met, Meets texts (references (layout.text run world)) met ∧
      (resolve run layout sections world).trace.map Prod.snd =
        (Name.distinct met).filterMap texts := by
  obtain ⟨s, hv, hs, -, hr⟩ := visits_of_resolve_eq_ok h
  obtain ⟨met, hmet, htrace⟩ := hv.meets (sound_begun ..) leads_begun
  rw [State.begun_trace, List.map_nil, List.nil_append] at htrace
  rw [hr] at hwithin ⊢
  refine ⟨met, hmet.mono hwithin, ?_⟩
  have htexts : ∀ n ∈ Name.distinct met, s.texts n = texts n := by
    intro n hn
    obtain ⟨t, ht⟩ := Option.isSome_iff_exists.1 (hmet.isSome n (Name.mem_distinct.1 hn))
    rw [ht, hwithin n t ht]
  calc s.trace.map Prod.snd = (s.trace.map Prod.fst).filterMap s.texts :=
        (OrderedMap.filterMap_find hs.nodup).symm
    _ = (Name.distinct met).filterMap texts := by
        rw [htrace, List.filterMap_congr htexts]

end Stencil.Section
