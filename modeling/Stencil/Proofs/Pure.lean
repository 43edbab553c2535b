import Stencil.Proofs.Record

/-!
# Pure contents

A content is pure if its text is the same in every world (`Content.Pure`), as a
text that was written down is, or a generator that always answers the same. The
texts of pure sections are known beforehand (`Table.texts`), and then so is what
a walk through them comes to.

A walk looks at every section once, whereas the plain walk goes down into it each
time it is met. Still the one passes where the other succeeds, as all that can be
reached from what is done with is done with, and so is not being unfolded
(`Visits.passes`); and they close the same circle (`Stops.circles`).

So for pure sections

* a layout is expanded if no section on a cycle can be reached from it, and its
  text is the plain expansion (`resolve_eq_expansion`);
* it fails exactly if one can be reached, and with the circle that the plain walk
  closes first (`resolve_fails_iff_onCycle`).
-/

namespace Stencil.Section

open Placeholder

variable {γ σ : Type} {run : γ → σ → String × σ}

/-! ### The plain walk -/

section

variable {sections : Table γ} {world : σ} {layout : String} {m n : Name} {s s' : State γ σ}
  {ns chain : List Name}

theorem Sound.grounded (h : Sound run sections world layout s)
    (hn : (s.settled.get? n).isSome) : Grounded s.texts n := by
  obtain ⟨v, hv⟩ := Option.isSome_iff_exists.1 hn
  obtain ⟨t, ht, hexp, -⟩ := h.settled n v hv
  exact .intro ht fun m => hexp.grounded

theorem Sound.settled_of_refers (h : Sound run sections world layout s)
    (hm : (s.settled.get? m).isSome) (hmn : Refers s.texts m n) : (s.settled.get? n).isSome := by
  obtain ⟨v, hv⟩ := Option.isSome_iff_exists.1 hm
  obtain ⟨t, ht, -, hall⟩ := h.settled m v hv
  exact hall n ((refers_iff ht).1 hmn)

/-- All that can be reached from what is done with is done with. -/
theorem Sound.settled_of_transGen (h : Sound run sections world layout s)
    (hm : (s.settled.get? m).isSome) (hmn : Relation.TransGen (Refers s.texts) m n) :
    (s.settled.get? n).isSome := by
  induction hmn with
  | single hmn => exact h.settled_of_refers hm hmn
  | tail _ hkn ih => exact h.settled_of_refers ih hkn

theorem Sound.not_mem_unfolding (h : Sound run sections world layout s)
    (hn : (s.settled.get? n).isSome) : n ∉ s.unfolding := by
  intro hu
  rw [h.not_settled n hu] at hn
  cases hn

/-- Where a walk succeeds, the plain walk passes. -/
theorem Visits.passes (h : Visits run ns s s') (hs : Sound run sections world layout s)
    (hl : ∀ n ∈ ns, Leads s.texts layout (s.unfolding ++ [n])) :
    Passes s'.texts s.unfolding ns := by
  induction h with
  | nil => exact .nil
  | known hn hr ih =>
    -- What is done with is gone through once more, and leads to nothing that is
    -- being unfolded.
    obtain ⟨t, ht, hp⟩ := (hs.grounded hn).passes fun m hm hnm =>
      hs.not_mem_unfolding (hs.settled_of_transGen hn hnm) hm
    have hle := hr.keeps.texts
    exact .cons (hs.not_mem_unfolding hn) (hle _ _ ht) (hp.mono hle)
      (ih hs fun m hm => hl m (List.mem_cons_of_mem _ hm))
  | fresh hn hu hi hr ihi ih =>
    have hln := hl _ List.mem_cons_self
    have hnone := hs.texts_eq_none hn hu
    have hopened := hs.opened hn hu hln
    have hlopened := leads_opened run hnone hln
    have hkeeps := hi.keeps_closed hn
    have hp := ihi hopened hlopened
    have hps := ih ((hi.sound hopened hlopened).visited hnone hi) fun m hm =>
      hkeeps.leads (hl m (List.mem_cons_of_mem _ hm))
    rw [State.opened_unfolding] at hp
    rw [hkeeps.unfolding] at hps
    exact .cons hu (hr.keeps.texts _ _ (hi.keeps.texts _ _ (State.texts_opened_self hnone)))
      (hp.mono hr.keeps.texts) hps

theorem Stops.texts_within (h : Stops run ns s chain s') : s.texts.Within s'.texts := by
  induction h with
  | back => exact .refl _
  | inside _ _ _ ih => exact State.texts_within_opened.trans ih
  | later hv _ ih => exact hv.keeps.texts.trans ih

/-- Where a walk stops, the plain walk closes the same circle. -/
theorem Stops.circles (h : Stops run ns s chain s') (hs : Sound run sections world layout s)
    (hl : ∀ n ∈ ns, Leads s.texts layout (s.unfolding ++ [n])) :
    Circles s'.texts s.unfolding ns chain := by
  induction h with
  | back _ hu => exact .back hu
  | inside hn hu hi ih =>
    have hln := hl _ List.mem_cons_self
    have hnone := hs.texts_eq_none hn hu
    have hc := ih (hs.opened hn hu hln) (leads_opened run hnone hln)
    rw [State.opened_unfolding] at hc
    exact .inside hu (hi.texts_within _ _ (State.texts_opened_self hnone)) hc
  | @later n ns chain s s₁ s' hv hr ih =>
    -- What was visited before passes, and passes still when there are more texts.
    have hln : ∀ m ∈ [n], Leads s.texts layout (s.unfolding ++ [m]) := fun m hm =>
      hl m (List.mem_singleton.1 hm ▸ List.mem_cons_self)
    have hc := ih (hv.sound hs hln) fun m hm => hv.keeps.leads (hl m (List.mem_cons_of_mem _ hm))
    rw [hv.keeps.unfolding] at hc
    cases (hv.passes hs hln).mono hr.texts_within with
    | cons hu ht hp _ => exact .later hu ht hp hc

end

/-! ### Known texts -/

/-- The text of a content is the same in every world. -/
def Content.Pure (run : γ → σ → String × σ) (c : Content γ) : Prop :=
  ∀ world world', c.text run world = c.text run world'

/-- The contents of all sections are pure. -/
def Table.Pure (run : γ → σ → String × σ) (t : Table γ) : Prop :=
  ∀ n c, t.get? n = some c → c.Pure run

/-- The texts of the sections of a table in the given world; a name without a
    section has the empty text. -/
def Table.texts (run : γ → σ → String × σ) (world : σ) (t : Table γ) : Texts :=
  fun n => some ((t.content n).text run world)

theorem Table.Pure.content {sections : Table γ} (h : sections.Pure run) (n : Name) :
    (sections.content n).Pure run := by
  rw [Table.content]
  cases hn : sections.get? n with
  | none => exact fun _ _ => rfl
  | some c => exact h n c hn

theorem Content.text_of_materializeAll {ε : Type} {content : ε → Content γ} {text : ε → String}
    (world : σ) (hpure : ∀ e, (content e).Pure run) {es : List ε} {world₁ world₂ : σ}
    (h : materializeAll run (es.map content) world₁ = (es.map text, world₂)) :
    ∀ e ∈ es, text e = (content e).text run world := by
  induction es generalizing world₁ with
  | nil => exact fun _ he => absurd he List.not_mem_nil
  | cons d ds ih =>
    obtain ⟨htexts, hworld⟩ := Prod.mk.inj h
    obtain ⟨hd, hds⟩ := List.cons.inj htexts
    intro e he
    rcases List.mem_cons.1 he with rfl | he
    · rw [← hd]
      exact hpure _ _ _
    · exact ih (Prod.ext hds hworld) e he

/-- What is on record of pure sections is known beforehand. -/
theorem Recorded.within {sections : Table γ} {world world' : σ} {layout : String} {s : State γ σ}
    (h : Recorded run sections world layout s) (hpure : sections.Pure run) :
    s.texts.Within (sections.texts run world') := by
  intro n t hn
  have hmem : (n, t) ∈ s.trace := OrderedMap.mem_of_find hn
  have := Content.text_of_materializeAll world' (fun e => hpure.content e.1) h.replay _ hmem
  rw [Table.texts, ← this]

/-! ### Layouts -/

section

variable (layout : Content γ) {sections : Table γ} (world : σ)

/-- The texts on record of pure sections are known beforehand. -/
theorem resolve_texts_within (hpure : sections.Pure run) (world' : σ) :
    (resolve run layout sections world).texts.Within (sections.texts run world') := by
  have hbegun := sound_begun run sections (layout.after run world) (layout.text run world)
  rcases resolve_visits_or_stops run layout sections world with ⟨s, hv, hr⟩ | ⟨chain, s, hv, hr⟩
  · rw [hr]
    exact (hv.sound hbegun leads_begun).within hpure
  · rw [hr]
    exact (hv.recorded hbegun leads_begun).within hpure

/-- By any texts that hold those on record, a layout is expanded plainly, or it
    fails with the circle that the plain walk closes. -/
theorem resolve_expands_or_circles_of_within {texts : Texts}
    (hwithin : (resolve run layout sections world).texts.Within texts) :
    (∃ e, (resolve run layout sections world).result = .ok e ∧
      Expands texts (layout.text run world) e.text) ∨
    ∃ chain, (resolve run layout sections world).result = .error (.circular chain) ∧
      Circles texts [] (references (layout.text run world)) chain := by
  have hbegun := sound_begun run sections (layout.after run world) (layout.text run world)
  rcases resolve_visits_or_stops run layout sections world with ⟨s, hv, hr⟩ | ⟨chain, s, hv, hr⟩
  · have hs := hv.sound hbegun leads_begun
    have hexp := hs.expands fun m hm => hv.settled m (mem_references.2 hm)
    rw [hr] at hwithin ⊢
    exact .inl ⟨_, rfl, hexp.mono hwithin⟩
  · have hc := hv.circles hbegun leads_begun
    rw [State.begun_unfolding] at hc
    rw [hr] at hwithin ⊢
    exact .inr ⟨chain, rfl, hc.mono hwithin⟩

/-- A layout is expanded plainly, or it fails with the circle that the plain walk
    closes. -/
theorem resolve_expands_or_circles (hpure : sections.Pure run) :
    (∃ e, (resolve run layout sections world).result = .ok e ∧
      Expands (sections.texts run world) (layout.text run world) e.text) ∨
    ∃ chain, (resolve run layout sections world).result = .error (.circular chain) ∧
      Circles (sections.texts run world) [] (references (layout.text run world)) chain :=
  resolve_expands_or_circles_of_within layout world (resolve_texts_within layout world hpure world)

/-- What a layout is expanded to is its plain expansion. -/
theorem expands_of_resolve_eq_ok (hpure : sections.Pure run) {e : Expanded γ}
    (h : (resolve run layout sections world).result = .ok e) :
    Expands (sections.texts run world) (layout.text run world) e.text := by
  rcases resolve_expands_or_circles layout world hpure with ⟨e', h', hexp⟩ | ⟨chain, h', -⟩
  · rw [h] at h'
    cases h'
    exact hexp
  · rw [h] at h'
    cases h'

theorem isCycle_of_circles {texts : Texts} {text : String} {chain : List Name}
    (h : Circles texts [] (references text) chain) : IsCycle texts text chain :=
  h.isCycle List.nodup_nil fun _ hn => leads_singleton (mem_references.1 hn)

/-- A text that has an expansion is passed by the plain walk. -/
theorem Expands.not_circles {texts : Texts} {text out : String} {chain : List Name}
    (h : Expands texts text out) : ¬Circles texts [] (references text) chain := by
  intro hc
  obtain ⟨n, hn, hcycle⟩ := (isCycle_of_circles hc).exists_onCycle
  exact h.not_onCycle hn hcycle

/-- A layout that has a plain expansion is expanded to it. -/
theorem exists_resolve_eq_ok_of_expands (hpure : sections.Pure run) {out : String}
    (h : Expands (sections.texts run world) (layout.text run world) out) :
    ∃ e, (resolve run layout sections world).result = .ok e ∧ e.text = out := by
  rcases resolve_expands_or_circles layout world hpure with ⟨e, he, hexp⟩ | ⟨chain, -, hc⟩
  · exact ⟨e, he, hexp.unique h⟩
  · exact absurd hc h.not_circles

/-- A layout from which the plain walk closes a circle fails with it. -/
theorem resolve_eq_error_of_circles (hpure : sections.Pure run) {chain : List Name}
    (h : Circles (sections.texts run world) [] (references (layout.text run world)) chain) :
    (resolve run layout sections world).result = .error (.circular chain) := by
  rcases resolve_expands_or_circles layout world hpure with ⟨e, -, hexp⟩ | ⟨chain', he, hc⟩
  · exact absurd h hexp.not_circles
  · rw [he, hc.unique h]

/-- If no section on a cycle can be reached from a layout, the layout is expanded,
    and its text is the plain expansion. -/
theorem resolve_eq_expansion (hpure : sections.Pure run)
    (hcycle : ∀ n, Reachable (sections.texts run world) (layout.text run world) n →
      ¬OnCycle (sections.texts run world) n) :
    ∃ e, (resolve run layout sections world).result = .ok e ∧
      ∀ out, Expands (sections.texts run world) (layout.text run world) out ↔ out = e.text := by
  rcases resolve_expands_or_circles layout world hpure with ⟨e, hr, hexp⟩ | ⟨chain, -, hc⟩
  · exact ⟨e, hr, fun out => ⟨fun hout => hout.unique hexp, fun hout => hout ▸ hexp⟩⟩
  · obtain ⟨n, hn, hon⟩ := (isCycle_of_circles hc).exists_onCycle
    exact absurd hon (hcycle n hn)

/-- Generators that always answer the same, in a world that counts their calls. -/
def fixedAnswer (text : String) (calls : Nat) : String × Nat := (text, calls + 1)

theorem pure_fixedAnswer (t : Table String) : t.Pure fixedAnswer := by
  intro n c _ world world'
  cases c <;> rfl

/-- What is asked of a successful expansion tells that there is one. -/
theorem exists_of_toOption_map_eq {α : Type} {f : Expanded γ → α} {a : α}
    {r : Except Failure (Expanded γ)} (h : r.toOption.map f = some a) :
    ∃ e, r = .ok e ∧ f e = a := by
  cases r with
  | error _ => cases h
  | ok e => exact ⟨e, rfl, Option.some.inj h⟩

/-- Two sections that share a third and a missing one, which are generated or
    written down, and are referred to in either case. -/
def sharing : Table String :=
  .ofSections [("head", .literal "<@Title@>@gone@"), ("BODY", .generated "@title@, @GONE@@head@"),
    ("Title", .generated "t")]

theorem resolve_eq_expansion_sharing :
    sharing.Pure fixedAnswer ∧
    (∀ n, Reachable (sharing.texts fixedAnswer 0) "@Head@ @body@ @HEAD@" n →
      ¬OnCycle (sharing.texts fixedAnswer 0) n) ∧
    ∃ e, (resolve fixedAnswer (.literal "@Head@ @body@ @HEAD@") sharing 0).result = .ok e ∧
      ∀ out, Expands (sharing.texts fixedAnswer 0) "@Head@ @body@ @HEAD@" out ↔ out = e.text := by
  have hpure := pure_fixedAnswer sharing
  have hcycle : ∀ n, Reachable (sharing.texts fixedAnswer 0) "@Head@ @body@ @HEAD@" n →
      ¬OnCycle (sharing.texts fixedAnswer 0) n := by
    have hgone : Grounded (sharing.texts fixedAnswer 0) (.of "gone") :=
      .of_references rfl references_empty (by simp)
    have htitle : Grounded (sharing.texts fixedAnswer 0) (.of "title") :=
      .of_references rfl (by decide +kernel : references "t" = []) (by simp)
    have hhead : Grounded (sharing.texts fixedAnswer 0) (.of "head") :=
      .of_references rfl
        (by decide +kernel : references "<@Title@>@gone@" = [.of "title", .of "gone"])
        (by simp [htitle, hgone])
    have hbody : Grounded (sharing.texts fixedAnswer 0) (.of "body") :=
      .of_references rfl
        (by decide +kernel :
          references "@title@, @GONE@@head@" = [.of "title", .of "gone", .of "head"])
        (by simp [htitle, hgone, hhead])
    have hlayout : references "@Head@ @body@ @HEAD@" = [.of "head", .of "body"] := by
      decide +kernel
    intro n hn
    refine (hn.grounded fun m hm => ?_).not_onCycle
    rw [← mem_references, hlayout] at hm
    rcases List.mem_pair.1 hm with rfl | rfl
    · exact hhead
    · exact hbody
  exact ⟨hpure, hcycle, resolve_eq_expansion (.literal "@Head@ @body@ @HEAD@") 0 hpure hcycle⟩

/-- The expansion of a layout fails exactly if a section on a cycle can be reached
    from it. It fails with the circle that the plain walk closes first: a way from
    a section that the layout leads to around to this section. -/
theorem resolve_fails_iff_onCycle (hpure : sections.Pure run) :
    ((∃ f, (resolve run layout sections world).result = .error f) ↔
      ∃ n, Reachable (sections.texts run world) (layout.text run world) n ∧
        OnCycle (sections.texts run world) n) ∧
    ∀ f, (resolve run layout sections world).result = .error f →
      ∃ chain, f = .circular chain ∧
        IsCycle (sections.texts run world) (layout.text run world) chain ∧
        (∀ n ∈ chain, OnCycle (sections.texts run world) n) ∧
        ∀ chain',
          Circles (sections.texts run world) [] (references (layout.text run world)) chain' ↔
            chain' = chain := by
  rcases resolve_expands_or_circles layout world hpure with ⟨e, hr, hexp⟩ | ⟨chain, hr, hc⟩
  · rw [hr]
    refine ⟨⟨fun ⟨f, hf⟩ => (nomatch hf), fun ⟨n, hn, hcycle⟩ => ?_⟩, fun f hf => (nomatch hf)⟩
    exact absurd hcycle (hexp.not_onCycle hn)
  · have hcycle := isCycle_of_circles hc
    rw [hr]
    refine ⟨⟨fun _ => ?_, fun _ => ⟨_, rfl⟩⟩, fun f hf => ?_⟩
    · exact hcycle.exists_onCycle
    · cases hf
      exact ⟨chain, rfl, hcycle, hcycle.onCycle,
        fun chain' => ⟨fun h => h.unique hc, fun h => h ▸ hc⟩⟩

/-- Three sections in a ring, and one that is shared by two of them. -/
def ring : Table String :=
  .ofSections [("a", .literal "@shared@ @B@"), ("b", .generated "@SHARED@@c@"),
    ("C", .literal "@A@"), ("shared", .literal "s")]

theorem resolve_fails_iff_onCycle_ring :
    ring.Pure fixedAnswer ∧
    (∃ f, (resolve fixedAnswer (.literal "@shared@ @b@") ring 0).result = .error f) ∧
    ∃ n, Reachable (ring.texts fixedAnswer 0) "@shared@ @b@" n ∧
      OnCycle (ring.texts fixedAnswer 0) n := by
  have hpure := pure_fixedAnswer ring
  have hfails : ∃ f, (resolve fixedAnswer (.literal "@shared@ @b@") ring 0).result = .error f := by
    have hnot : (resolve fixedAnswer (.literal "@shared@ @b@") ring 0).result.isOk = false := by
      decide +kernel
    cases hr : (resolve fixedAnswer (.literal "@shared@ @b@") ring 0).result with
    | error f => exact ⟨f, rfl⟩
    | ok e =>
      rw [hr] at hnot
      cases hnot
  exact ⟨hpure, hfails, (resolve_fails_iff_onCycle (.literal "@shared@ @b@") 0 hpure).1.1 hfails⟩

end

end Stencil.Section
