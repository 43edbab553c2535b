import Stencil.Proofs.Order

/-!
# Recovery

The names that have no section are recovered text by text: all those of a text at
once, before any section in it is looked at. So they come in the order in which
texts are expanded, and within a text in the order of first mention; and a name
that comes up again is known by then. Told of the texts alone, these are the
names that are *new* in each of them (`news`), and a walk recovers the names that
are new in the layout and in the texts on record, in this order, with a warning
for each text that has any (`State.Recovers`).

For pure sections

* the names recovered are the reachable ones without a section, in the order of
  the plain walk, and the table is that given, followed by empty sections of
  these names (`resolve_recovers_in_order`);
* a layout that was expanded is expanded to the same text with the table that came
  out, and then nothing is recovered (`resolve_recovered_sections`).
-/

namespace Stencil.Section

open Placeholder

variable {γ σ : Type} {run : γ → σ → String × σ} {sections : Table γ}

/-! ### New names -/

/-- The names that are new in each of some texts, in turn: not among those known,
    and in no text before. -/
def news : (known : List Name) → List String → List (List Name)
  | _, [] => []
  | known, text :: texts =>
    let new := (references text).filter fun n => decide (n ∉ known)
    new :: news (known ++ new) texts

section

variable {known known' : List Name} {n : Name} {ts ts' : List String}

theorem news_append : news known (ts ++ ts') =
    news known ts ++ news (known ++ (news known ts).flatten) ts' := by
  induction ts generalizing known with
  | nil => simp [news]
  | cons t ts ih =>
    rw [List.cons_append, news, news, ih, List.flatten_cons, List.append_assoc, List.cons_append]

/-- A name is new somewhere if it is not known and some text mentions it. -/
theorem mem_flatten_news : n ∈ (news known ts).flatten ↔ n ∉ known ∧ ∃ t ∈ ts, Mentions t n := by
  induction ts generalizing known with
  | nil => simp [news]
  | cons t ts ih =>
    rw [news, List.flatten_cons, List.mem_append, ih, List.mem_filter, decide_eq_true_iff,
      mem_references, List.exists_mem_cons_iff, List.mem_append, List.mem_filter,
      decide_eq_true_iff, mem_references]
    by_cases hk : n ∈ known
    · simp [hk]
    · by_cases ht : Mentions t n
      · simp [hk, ht]
      · simp [hk, ht]

/-- No name is new twice. -/
theorem nodup_flatten_news : (news known ts).flatten.Nodup := by
  induction ts generalizing known with
  | nil => exact List.nodup_nil
  | cons t ts ih =>
    rw [news, List.flatten_cons, List.nodup_append]
    refine ⟨(Name.nodup_distinct _).sublist List.filter_sublist, ih, ?_⟩
    rintro n hn m hm rfl
    exact (mem_flatten_news.1 hm).1 (List.mem_append_right _ hn)

/-- Only the names that the texts mention matter among those known. -/
theorem news_congr (h : ∀ t ∈ ts, ∀ n, Mentions t n → (n ∈ known ↔ n ∈ known')) :
    news known ts = news known' ts := by
  induction ts generalizing known known' with
  | nil => rfl
  | cons t ts ih =>
    have hnew : (references t).filter (fun n => decide (n ∉ known)) =
        (references t).filter fun n => decide (n ∉ known') := by
      refine List.filter_congr fun n hn => ?_
      rw [decide_eq_decide, h t List.mem_cons_self n (mem_references.1 hn)]
    rw [news, news, hnew, ih]
    intro u hu n hn
    rw [List.mem_append, List.mem_append, h u (List.mem_cons_of_mem _ hu) n hn]

end

/-! ### What a walk recovers -/

namespace State

variable {s s' : State γ σ} {n : Name} {names ns : List Name} {read : List String}

theorem recover_missing : (s.recover names).missing = s.missing ++ s.unknown names := by
  unfold recover
  split
  · next h => rw [h, List.append_nil]
  · next h => rw [h]

theorem recover_warnings :
    (s.recover names).warnings = s.warnings ++ [s.unknown names].filter (· ≠ []) := by
  unfold recover
  split
  · next h => simp [h]
  · next h => simp [h]

theorem mem_unknown_iff : n ∈ s.unknown names ↔ n ∈ names ∧ n ∉ s.working.keys := by
  rw [unknown, List.mem_filter, OrderedMap.mem_keys_iff, Bool.not_eq_true, Bool.not_eq_true',
    OrderedMap.contains]

theorem nodup_unknown (hnames : names.Nodup) : (s.unknown names).Nodup :=
  hnames.sublist List.filter_sublist

theorem recover_entries (hnames : names.Nodup) : (s.recover names).working.entries =
    s.working.entries ++ (s.unknown names).map fun n => (n, .empty) := by
  have hentries := s.working.entries_insertMany_map (nodup_unknown hnames)
    (fun n hn => (mem_unknown_iff.1 hn).2) Content.empty
  rw [← hentries]
  unfold recover
  split
  · next h => rw [h]; rfl
  · next h => rw [h]

/-- What is new in the texts that were read has been recovered, and nothing else. -/
structure Recovers (sections : Table γ) (read : List String) (s : State γ σ) : Prop where
  entries : s.working.entries = sections.entries ++ s.missing.map fun n => (n, .empty)
  missing : s.missing = (news sections.keys read).flatten
  warnings : s.warnings = (news sections.keys read).filter (· ≠ [])

theorem recovers_start (sections : Table γ) (world : σ) :
    (start sections world).Recovers sections [] where
  entries := (List.append_nil _).symm
  missing := rfl
  warnings := rfl

/-- When one more text is read, what is unknown in it is what is new. -/
theorem Recovers.recover (h : s.Recovers sections read) (text : String) :
    (s.recover (references text)).Recovers sections (read ++ [text]) := by
  have hnews : news sections.keys (read ++ [text]) =
      news sections.keys read ++ [s.unknown (references text)] := by
    rw [news_append, news, news, ← h.missing]
    congr 2
    refine List.filter_congr fun n _ => ?_
    have hkeys : s.working.keys = sections.keys ++ s.missing := by
      rw [OrderedMap.keys, h.entries, List.map_append, List.map_map]
      exact congrArg _ (List.map_id _)
    rw [OrderedMap.contains, ← hkeys, decide_not, Bool.not_inj_iff, ← Bool.coe_iff_coe,
      decide_eq_true_iff, OrderedMap.mem_keys_iff]
  constructor
  · have hnodup : (references text).Nodup := Name.nodup_distinct _
    rw [recover_entries hnodup, recover_missing, h.entries, List.map_append, List.append_assoc]
  · rw [recover_missing, hnews, List.flatten_append, ← h.missing, List.flatten_singleton]
  · rw [recover_warnings, hnews, List.filter_append, ← h.warnings]

theorem recovers_begun (sections : Table γ) (world : σ) (text : String) :
    (begun sections world text).Recovers sections [text] :=
  (recovers_start sections world).recover text

theorem Recovers.opened (h : s.Recovers sections read) :
    (s.opened run n).Recovers sections (read ++ [(s.enter run n).1]) :=
  have hentered : (s.enter run n).2.Recovers sections read := ⟨h.entries, h.missing, h.warnings⟩
  hentered.recover _

theorem Recovers.closed (h : s.Recovers sections read) (n : Name) (text : String) :
    (s.closed n text).Recovers sections read := ⟨h.entries, h.missing, h.warnings⟩

end State

variable {s s' : State γ σ} {ns : List Name} {text : String}

/-- A walk reads the texts that go on record. -/
theorem Visits.recovers (h : Visits run ns s s')
    (hs : s.Recovers sections (text :: s.trace.map Prod.snd)) :
    s'.Recovers sections (text :: s'.trace.map Prod.snd) := by
  induction h with
  | nil => exact hs
  | known _ _ ih => exact ih hs
  | @fresh n ns s s₁ s' _ _ _ _ ihi ih =>
    refine ih (State.Recovers.closed (ihi ?_) n _)
    rw [State.opened_trace, List.map_append, List.map_singleton, ← List.cons_append]
    exact hs.opened

section

variable {world : σ} {texts : Texts} {n : Name}

/-- When all names in a text are done with, no texts of other sections can be
    reached from it than those on record. -/
theorem Sound.reachable_of_within (h : Sound run sections world text s)
    (ht : ∀ m, Mentions text m → (s.settled.get? m).isSome) (hwithin : s.texts.Within texts)
    (hn : Reachable texts text n) : Reachable s.texts text n := by
  induction hn with
  | mention hn => exact .mention hn
  | @step m n _ hmn ih =>
    have hm : (s.texts m).isSome := OrderedMap.isSome_find_iff.2 ((h.mem_trace_iff ht).2 ih)
    obtain ⟨t, hmt⟩ := Option.isSome_iff_exists.1 hm
    exact .step ih ⟨t, hmt, (refers_iff (hwithin m t hmt)).1 hmn⟩

/-- A name can be reached from a text whose names are all done with exactly if it
    is mentioned there or in a text on record. -/
theorem Sound.reachable_iff (h : Sound run sections world text s)
    (ht : ∀ m, Mentions text m → (s.settled.get? m).isSome) (hwithin : s.texts.Within texts) :
    Reachable texts text n ↔ ∃ t ∈ text :: s.trace.map Prod.snd, Mentions t n := by
  constructor
  · intro hn
    cases h.reachable_of_within ht hwithin hn with
    | mention hn => exact ⟨text, List.mem_cons_self, hn⟩
    | @step m _ _ hmn =>
      obtain ⟨t, hmt, hn⟩ := hmn
      have hmem : (m, t) ∈ s.trace := OrderedMap.mem_of_find hmt
      exact ⟨t, List.mem_cons_of_mem _ (List.mem_map_of_mem (f := Prod.snd) hmem), hn⟩
  · rintro ⟨t, hmem, hn⟩
    rcases List.mem_cons.1 hmem with rfl | hmem
    · exact .mention hn
    · obtain ⟨⟨m, _⟩, hm, rfl⟩ := List.mem_map.1 hmem
      have hmt : s.texts m = some _ := (OrderedMap.find_eq_some_iff h.nodup).2 hm
      have hreach : Reachable s.texts text m := h.reachable m (by rw [hmt]; rfl)
      exact .step (hreach.mono hwithin) ⟨_, hwithin m _ hmt, hn⟩

end

/-! ### Layouts -/

theorem Table.pure_of_content {t : Table γ} (h : ∀ n, (t.content n).Pure run) : t.Pure run := by
  intro n c hc
  have hn := h n
  rwa [Table.content, hc] at hn

/-- Pure sections have the same texts in every world, and so have those of a table
    with the same contents. -/
theorem Table.Pure.texts_eq {t : Table γ} (hpure : sections.Pure run)
    (h : ∀ n, t.content n = sections.content n) (world world' : σ) :
    t.texts run world' = sections.texts run world := by
  funext n
  rw [Table.texts, Table.texts, h, hpure.content n world' world]

/-- The texts that are expanded when `met` are the names met on the walk down from
    the layout: that of the layout, and then that of each section as it is first
    met. -/
def textsMet (texts : Texts) (layout : String) (met : List Name) : List String :=
  layout :: (Name.distinct met).filterMap texts

section

variable {layout : Content γ} {world : σ} {e : Expanded γ}

theorem recovers_of_resolve_eq_ok (h : (resolve run layout sections world).result = .ok e) :
    ∃ s : State γ σ, s.working = e.sections ∧ s.missing = e.missing ∧
      s.warnings = (resolve run layout sections world).warnings ∧
      s.Recovers sections
        (layout.text run world :: (resolve run layout sections world).trace.map Prod.snd) := by
  obtain ⟨s, hv, -, rfl, hr⟩ := visits_of_resolve_eq_ok h
  have hbegun := State.recovers_begun sections (layout.after run world) (layout.text run world)
  rw [hr]
  refine ⟨s, rfl, rfl, rfl, hv.recovers ?_⟩
  rwa [State.begun_trace]

/-- The names recovered are those that are new in the texts met, by any texts that
    hold those on record, and there is one warning for each text that has any. -/
theorem resolve_missing_eq_news {texts : Texts}
    (h : (resolve run layout sections world).result = .ok e)
    (hwithin : (resolve run layout sections world).texts.Within texts) :
    ∃ met, Meets texts (references (layout.text run world)) met ∧
      e.missing =
        (news sections.keys (textsMet texts (layout.text run world) met)).flatten ∧
      (resolve run layout sections world).warnings =
        (news sections.keys (textsMet texts (layout.text run world) met)).filter (· ≠ []) := by
  obtain ⟨met, hmet, htrace⟩ := resolve_meets h hwithin
  obtain ⟨s, -, hmissing, hwarnings, hs⟩ := recovers_of_resolve_eq_ok h
  rw [htrace] at hs
  exact ⟨met, hmet, hmissing ▸ hs.missing, hwarnings ▸ hs.warnings⟩

/-- The names recovered are those that can be reached and have no section. -/
theorem mem_missing_iff (hpure : sections.Pure run)
    (h : (resolve run layout sections world).result = .ok e) (n : Name) :
    n ∈ e.missing ↔
      Reachable (sections.texts run world) (layout.text run world) n ∧ n ∉ sections.keys := by
  have hwithin := resolve_texts_within layout world hpure world
  obtain ⟨t, -, hmissing, -, ht⟩ := recovers_of_resolve_eq_ok h
  obtain ⟨s, hv, hs, -, hr⟩ := visits_of_resolve_eq_ok h
  rw [hr] at hwithin ht
  rw [← hmissing, ht.missing, mem_flatten_news, and_comm,
    hs.reachable_iff (fun m hm => hv.settled m (mem_references.2 hm)) hwithin]

/-- The sections given come out with their contents, and so do missing ones, which
    count as empty. -/
theorem content_of_resolve_eq_ok (h : (resolve run layout sections world).result = .ok e)
    (n : Name) : e.sections.content n = sections.content n := by
  obtain ⟨s, -, hs, rfl, -⟩ := visits_of_resolve_eq_ok h
  exact hs.content n

theorem entries_of_resolve_eq_ok (h : (resolve run layout sections world).result = .ok e) :
    e.sections.entries = sections.entries ++ e.missing.map fun n => (n, .empty) := by
  obtain ⟨s, hworking, hmissing, -, hs⟩ := recovers_of_resolve_eq_ok h
  rw [← hworking, ← hmissing, hs.entries]

/-- A successful expansion of pure sections recovers the names that can be reached
    and have no section, each once, in the order in which the plain walk first meets
    the texts that mention them, and within a text in the order of first mention.
    There is one warning for each text with names to recover, with these names; and
    the table that comes out is the one given, followed by empty sections of the
    names recovered, in the same order. -/
theorem resolve_recovers_in_order (hpure : sections.Pure run)
    (h : (resolve run layout sections world).result = .ok e) :
    e.missing.Nodup ∧
    (∀ n, n ∈ e.missing ↔
      Reachable (sections.texts run world) (layout.text run world) n ∧ n ∉ sections.keys) ∧
    (∃ met, Meets (sections.texts run world) (references (layout.text run world)) met ∧
      e.missing = (news sections.keys
        (textsMet (sections.texts run world) (layout.text run world) met)).flatten ∧
      (resolve run layout sections world).warnings = (news sections.keys
        (textsMet (sections.texts run world) (layout.text run world) met)).filter (· ≠ [])) ∧
    (resolve run layout sections world).warnings.flatten = e.missing ∧
    e.sections.entries = sections.entries ++ e.missing.map fun n => (n, .empty) := by
  obtain ⟨met, hmet, hmissing, hwarnings⟩ :=
    resolve_missing_eq_news h (resolve_texts_within layout world hpure world)
  refine ⟨?_, mem_missing_iff hpure h, ⟨met, hmet, hmissing, hwarnings⟩, ?_,
    entries_of_resolve_eq_ok h⟩
  · rw [hmissing]
    exact nodup_flatten_news
  · rw [hwarnings, hmissing, List.flatten_filter_ne_nil]

/-- Two sections that mention names without a section, some of them the same. -/
def gaps : Table String :=
  .ofSections [("a", .literal "@gone@ @B@ @lost@"), ("b", .generated "@LOST@@c@@Gone@ @far@")]

theorem resolve_gaps : ∃ e,
    (resolve fixedAnswer (.literal "@A@ @c@ @b@") gaps 0).result = .ok e ∧
      e.missing = [.of "c", .of "gone", .of "lost", .of "far"] :=
  exists_of_toOption_map_eq (by decide +kernel)

theorem resolve_recovers_in_order_gaps :
    gaps.Pure fixedAnswer ∧
    ∃ e, (resolve fixedAnswer (.literal "@A@ @c@ @b@") gaps 0).result = .ok e ∧
      e.missing = [.of "c", .of "gone", .of "lost", .of "far"] ∧
      e.missing.Nodup ∧
      (∀ n, n ∈ e.missing ↔
        Reachable (gaps.texts fixedAnswer 0) "@A@ @c@ @b@" n ∧ n ∉ gaps.keys) ∧
      (∃ met, Meets (gaps.texts fixedAnswer 0) (references "@A@ @c@ @b@") met ∧
        e.missing = (news gaps.keys
          (textsMet (gaps.texts fixedAnswer 0) "@A@ @c@ @b@" met)).flatten ∧
        (resolve fixedAnswer (.literal "@A@ @c@ @b@") gaps 0).warnings = (news gaps.keys
          (textsMet (gaps.texts fixedAnswer 0) "@A@ @c@ @b@" met)).filter (· ≠ [])) ∧
      (resolve fixedAnswer (.literal "@A@ @c@ @b@") gaps 0).warnings.flatten = e.missing ∧
      e.sections.entries = gaps.entries ++ e.missing.map fun n => (n, .empty) := by
  have hpure := pure_fixedAnswer gaps
  obtain ⟨e, h, hmissing⟩ := resolve_gaps
  exact ⟨hpure, e, h, hmissing, resolve_recovers_in_order hpure h⟩

/-- Where all names that can be reached have a section, nothing is recovered. -/
theorem missing_eq_nil_of_forall_mem_keys (hpure : sections.Pure run)
    (h : (resolve run layout sections world).result = .ok e)
    (hall : ∀ n, Reachable (sections.texts run world) (layout.text run world) n →
      n ∈ sections.keys) :
    e.missing = [] ∧ e.sections = sections ∧
      (resolve run layout sections world).warnings = [] := by
  have hmissing : e.missing = [] := by
    refine List.eq_nil_iff_forall_not_mem.2 fun n hn => ?_
    obtain ⟨hreach, hnot⟩ := (mem_missing_iff hpure h n).1 hn
    exact hnot (hall n hreach)
  refine ⟨hmissing, OrderedMap.eq_of_entries_eq ?_, ?_⟩
  · rw [entries_of_resolve_eq_ok h, hmissing, List.map_nil, List.append_nil]
  · obtain ⟨met, -, hnews, hwarnings⟩ :=
      resolve_missing_eq_news h (resolve_texts_within layout world hpure world)
    rw [hmissing, eq_comm, List.flatten_eq_nil_iff] at hnews
    rw [hwarnings, List.filter_eq_nil_iff]
    intro new hnew
    simp [hnews new hnew]

/-- A layout that was expanded with pure contents is expanded again, to the same
    text, with the table that came out; nothing is recovered then, and the table
    comes out as it is. -/
theorem resolve_recovered_sections (hlayout : layout.Pure run) (hpure : sections.Pure run)
    (h : (resolve run layout sections world).result = .ok e) (world' : σ) :
    (resolve run layout e.sections world').result = .ok ⟨e.text, [], e.sections⟩ ∧
    (resolve run layout e.sections world').warnings = [] := by
  have hcontent : ∀ n, e.sections.content n = sections.content n := content_of_resolve_eq_ok h
  have hpure' : e.sections.Pure run := Table.pure_of_content fun n => hcontent n ▸ hpure.content n
  have htexts : e.sections.texts run world' = sections.texts run world :=
    hpure.texts_eq hcontent world world'
  have hexp : Expands (e.sections.texts run world') (layout.text run world') e.text := by
    rw [htexts, hlayout world' world]
    exact expands_of_resolve_eq_ok layout world hpure h
  have hall : ∀ n, Reachable (e.sections.texts run world') (layout.text run world') n →
      n ∈ e.sections.keys := by
    -- What had no section the first time has been recovered, so it has one now.
    intro n hn
    rw [htexts, hlayout world' world] at hn
    rw [OrderedMap.keys, entries_of_resolve_eq_ok h, List.map_append, List.mem_append]
    by_cases hkeys : n ∈ sections.keys
    · exact .inl hkeys
    · have hmem : n ∈ e.missing := (mem_missing_iff hpure h n).2 ⟨hn, hkeys⟩
      exact .inr (List.mem_map.2 ⟨_, List.mem_map_of_mem hmem, rfl⟩)
  rcases resolve_expands_or_circles layout world' hpure' with ⟨e', h', hexp'⟩ | ⟨chain, -, hc⟩
  · obtain ⟨hmissing, hsections, hwarnings⟩ := missing_eq_nil_of_forall_mem_keys hpure' h' hall
    refine ⟨?_, hwarnings⟩
    rw [h', ← hexp'.unique hexp, ← hmissing, ← hsections]
  · exact absurd hc hexp.not_circles

theorem resolve_recovered_sections_gaps :
    (Content.literal "@A@ @c@ @b@").Pure fixedAnswer ∧ gaps.Pure fixedAnswer ∧
    ∃ e, (resolve fixedAnswer (.literal "@A@ @c@ @b@") gaps 0).result = .ok e ∧
      e.missing ≠ [] ∧
      (resolve fixedAnswer (.literal "@A@ @c@ @b@") e.sections 1).result =
        .ok ⟨e.text, [], e.sections⟩ ∧
      (resolve fixedAnswer (.literal "@A@ @c@ @b@") e.sections 1).warnings = [] := by
  have hlayout : (Content.literal "@A@ @c@ @b@").Pure fixedAnswer := fun _ _ => rfl
  have hpure := pure_fixedAnswer gaps
  obtain ⟨e, h, hmissing⟩ := resolve_gaps
  refine ⟨hlayout, hpure, e, h, ?_, resolve_recovered_sections hlayout hpure h 1⟩
  rw [hmissing]
  exact List.cons_ne_nil _ _

end

end Stencil.Section
