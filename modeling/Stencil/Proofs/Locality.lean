import Stencil.Proofs.Recovery

/-!
# Locality

An expansion depends on the sections that can be reached from the layout, and on
nothing else: neither on other sections, which may even refer back to themselves,
nor on the order in which sections were put into the table.

What goes on record can be reached from the layout (`resolve_reachable`). So when
two tables agree on what can be reached, the texts that the one puts on record are
those of the other (`resolve_texts_within_of_agree`), and by these texts there is
one plain expansion, one circle that a plain walk closes, and one order in which
it meets sections (`resolve_eq_of_agree`).
-/

namespace Stencil.Section

open Placeholder

variable {γ σ : Type} {run : γ → σ → String × σ}

section

variable {texts texts' : Texts} {layout : String} {met : List Name} {n : Name}

/-- Where texts agree on what can be reached by the ones, no more can be reached by
    the others. -/
theorem Reachable.of_agree (hagree : ∀ n, Reachable texts layout n → texts' n = texts n)
    (h : Reachable texts' layout n) : Reachable texts layout n := by
  induction h with
  | mention hn => exact .mention hn
  | @step m n _ hmn ih =>
    obtain ⟨t, ht, hn⟩ := hmn
    exact .step ih ⟨t, hagree m ih ▸ ht, hn⟩

/-- What is mentioned in a text that is met can be reached. -/
theorem Meets.reachable_of_mentions (h : Meets texts (references layout) met) {t : String}
    (ht : t ∈ textsMet texts layout met) (hn : Mentions t n) : Reachable texts layout n := by
  rcases List.mem_cons.1 ht with rfl | ht
  · exact .mention hn
  · obtain ⟨m, hm, hmt⟩ := List.mem_filterMap.1 ht
    obtain ⟨k, hk, hkm⟩ := h.exists_reflTransGen m (Name.mem_distinct.1 hm)
    have hreach : Reachable texts layout k := .mention (mem_references.1 hk)
    exact .step (hreach.reflTransGen hkm) ⟨t, hmt, hn⟩

end

section

variable (layout : Content γ) {sections sections' : Table γ} (world world' : σ)

/-- The sections on record can be reached by the texts on record. -/
theorem resolve_reachable (n : Name)
    (hn : ((resolve run layout sections world).texts n).isSome) :
    Reachable (resolve run layout sections world).texts (layout.text run world) n := by
  have hbegun := sound_begun run sections (layout.after run world) (layout.text run world)
  rcases resolve_visits_or_stops run layout sections world with ⟨s, hv, hr⟩ | ⟨chain, s, hv, hr⟩
  · rw [hr] at hn ⊢
    exact (hv.sound hbegun leads_begun).reachable n hn
  · rw [hr] at hn ⊢
    exact (hv.recorded hbegun leads_begun).reachable n hn

/-- The texts on record of pure sections are known from any texts that agree with
    theirs on what can be reached. -/
theorem resolve_texts_within_of_agree (hpure : sections.Pure run) {texts : Texts}
    (hagree : ∀ n, Reachable (sections.texts run world) (layout.text run world) n →
      texts n = sections.texts run world n) :
    (resolve run layout sections world).texts.Within texts := by
  have hwithin := resolve_texts_within layout world hpure world
  intro n t hn
  have hreach := resolve_reachable layout world n (by rw [hn]; rfl)
  rw [hagree n (hreach.mono hwithin), hwithin n t hn]

/-- Two tables of pure sections that agree on all names that can be reached from a
    layout, by the texts of the one, are the same to it: they give the same text and
    the same missing names, or the same failure. -/
theorem resolve_eq_of_agree (hlayout : layout.Pure run) (hpure : sections.Pure run)
    (hpure' : sections'.Pure run)
    (hagree : ∀ n, Reachable (sections.texts run world) (layout.text run world) n →
      sections'.get? n = sections.get? n) :
    (resolve run layout sections' world').result.map (fun e => (e.text, e.missing)) =
      (resolve run layout sections world).result.map fun e => (e.text, e.missing) := by
  have htext : layout.text run world' = layout.text run world := hlayout world' world
  have htexts : ∀ n, Reachable (sections.texts run world) (layout.text run world) n →
      sections'.texts run world' n = sections.texts run world n := by
    intro n hn
    rw [Table.texts, Table.texts, Table.content, hagree n hn, ← Table.content,
      hpure.content n world' world]
  -- Both runs are told by the texts of the second table.
  have hwithin := resolve_texts_within_of_agree layout world hpure htexts
  have hwithin' := resolve_texts_within layout world' hpure' world'
  have hplain := resolve_expands_or_circles_of_within layout world hwithin
  have hplain' := resolve_expands_or_circles_of_within layout world' hwithin'
  rw [htext] at hplain'
  rcases hplain with ⟨e, he, hexp⟩ | ⟨chain, he, hc⟩
  · rcases hplain' with ⟨e', he', hexp'⟩ | ⟨chain', -, hc'⟩
    · obtain ⟨met, hmet, hmissing, -⟩ := resolve_missing_eq_news he hwithin
      obtain ⟨met', hmet', hmissing', -⟩ := resolve_missing_eq_news he' hwithin'
      rw [htext] at hmet' hmissing'
      obtain rfl := hmet.unique hmet'
      -- The names in the texts that are met are new by the one table if they are by
      -- the other.
      have hsame : e'.missing = e.missing := by
        rw [hmissing, hmissing']
        refine congrArg _ (news_congr fun t ht n hn => ?_)
        have hreach := (hmet.reachable_of_mentions ht hn).of_agree htexts
        rw [OrderedMap.mem_keys_iff, OrderedMap.mem_keys_iff, hagree n hreach]
      rw [he, he', Except.map, Except.map, hexp'.unique hexp, hsame]
    · exact absurd hc' hexp.not_circles
  · rcases hplain' with ⟨e', -, hexp'⟩ | ⟨chain', he', hc'⟩
    · exact absurd hc hexp'.not_circles
    · rw [he, he', hc.unique hc']

end

/-- A section that refers to another one and to a missing one. -/
def linked : Table String :=
  .ofSections [("a", .literal "@B@ @gone@"), ("b", .generated "x")]

/-- The same sections in another order, after one that refers to itself. -/
def relinked : Table String :=
  .ofSections [("loop", .literal "@LOOP@"), ("B", .generated "x"), ("A", .literal "@B@ @gone@")]

theorem resolve_eq_of_agree_linked :
    (Content.literal "@a@").Pure fixedAnswer ∧ linked.Pure fixedAnswer ∧
    relinked.Pure fixedAnswer ∧
    (∀ n, Reachable (linked.texts fixedAnswer 0) "@a@" n → relinked.get? n = linked.get? n) ∧
    (resolve fixedAnswer (.literal "@a@") relinked 1).result.map (fun e => (e.text, e.missing)) =
      (resolve fixedAnswer (.literal "@a@") linked 0).result.map fun e => (e.text, e.missing) := by
  have hlayout : (Content.literal "@a@").Pure fixedAnswer := fun _ _ => rfl
  have hpure := pure_fixedAnswer linked
  have hpure' := pure_fixedAnswer relinked
  have hreach : ∀ n, Reachable (linked.texts fixedAnswer 0) "@a@" n →
      n ∈ [.of "a", .of "b", .of "gone"] := fun _ hn =>
    hn.mem_of_closed (by decide +kernel) (by decide +kernel)
  have hagree : ∀ n, Reachable (linked.texts fixedAnswer 0) "@a@" n →
      relinked.get? n = linked.get? n := by
    intro n hn
    have hmem := hreach n hn
    rw [List.mem_cons, List.mem_pair] at hmem
    rcases hmem with rfl | rfl | rfl
    · rfl
    · rfl
    · rfl
  exact ⟨hlayout, hpure, hpure', hagree,
    resolve_eq_of_agree (.literal "@a@") 0 1 hlayout hpure hpure' hagree⟩

end Stencil.Section
