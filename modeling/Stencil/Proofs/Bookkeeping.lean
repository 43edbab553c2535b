import Stencil.Proofs.Recovery

/-!
# The books of a walk

In its state a walk keeps books: the sections it knows, the texts it is done with, the sections it
is unfolding, and the names that were missing. They fit together if no section is unfolded inside
itself or done with before its end, and all that is in the books is a known section
(`State.Consistent`). Names that are recovered at once may then as well be recovered, and told as
missing, one after the other (`State.Consistent.recover_eq`).

Calls (`Task`) do no more to the books than to add to them. What is written there stays, and what
is new in the table are empty sections, one for each name that is new among those missing
(`State.GrowsTo`). When a call returns, with a text or with a failure, what is being unfolded is as
it was before (`State.ReturnsTo`). That holds of every call in any state, at whatever depth
(`Task.returnsTo`); and books that fit together still do when it returns (`Task.consistent`).
-/

namespace Stencil.Section

open Placeholder

variable {γ σ : Type} {run : γ → σ → String × σ}

/-! ### Books -/

namespace State

/-- The books fit together. -/
structure Consistent (s : State γ σ) : Prop where
  nodup : s.unfolding.Nodup
  disjoint : s.unfolding.Disjoint s.settled.keys
  unfolding_known : s.unfolding ⊆ s.working.keys
  settled_known : s.settled.keys ⊆ s.working.keys
  missing_known : s.missing ⊆ s.working.keys

/-- What is in the books of `s` is in those of `s'`. Sections that are known only in `s'` come
    behind the others and are empty, and they are those that are told as missing only there. -/
structure GrowsTo (s s' : State γ σ) : Prop where
  settled : ∀ n text, s.settled.get? n = some text → s'.settled.get? n = some text
  recovered : ∃ names, s'.working.entries = s.working.entries ++ names.map (fun n => (n, .empty)) ∧
    s'.missing = s.missing ++ names

/-- A call that is made in the state `s` may return in `s'`. -/
structure ReturnsTo (s s' : State γ σ) : Prop extends s.GrowsTo s' where
  unfolding : s'.unfolding = s.unfolding

variable {s s₁ s' : State γ σ} {n : Name} {names ns : List Name} {text : String}

theorem GrowsTo.refl (s : State γ σ) : s.GrowsTo s where
  settled _ _ h := h
  recovered := ⟨[], (List.append_nil _).symm, (List.append_nil _).symm⟩

theorem GrowsTo.trans (h : s.GrowsTo s₁) (h' : s₁.GrowsTo s') : s.GrowsTo s' where
  settled n text hn := h'.settled n text (h.settled n text hn)
  recovered := by
    obtain ⟨names, hentries, hmissing⟩ := h.recovered
    obtain ⟨names', hentries', hmissing'⟩ := h'.recovered
    refine ⟨names ++ names', ?_, ?_⟩
    · rw [hentries', hentries, List.map_append, List.append_assoc]
    · rw [hmissing', hmissing, List.append_assoc]

/-- What is known stays known. -/
theorem GrowsTo.keys_subset (h : s.GrowsTo s') : s.working.keys ⊆ s'.working.keys := by
  obtain ⟨names, hentries, -⟩ := h.recovered
  rw [OrderedMap.keys, OrderedMap.keys, hentries, List.map_append]
  exact List.subset_append_left _ _

/-- Every section stays what it is, what is not known being empty. -/
theorem GrowsTo.content (h : s.GrowsTo s') (n : Name) :
    s'.working.content n = s.working.content n := by
  obtain ⟨names, hentries, -⟩ := h.recovered
  rw [Table.content, Table.content, OrderedMap.get?, OrderedMap.get?, hentries,
    OrderedMap.find_append]
  cases OrderedMap.find n s.working.entries with
  | some content => rfl
  | none =>
    -- What is found behind the others is empty, as is what is not found at all.
    rw [Option.none_or]
    cases hn : OrderedMap.find n (names.map fun n => (n, (.empty : Content γ))) with
    | none => rfl
    | some content =>
      obtain ⟨m, -, hm⟩ := List.mem_map.1 (OrderedMap.mem_of_find hn)
      cases hm
      rfl

theorem ReturnsTo.refl (s : State γ σ) : s.ReturnsTo s := ⟨.refl s, rfl⟩

theorem ReturnsTo.trans (h : s.ReturnsTo s₁) (h' : s₁.ReturnsTo s') : s.ReturnsTo s' :=
  ⟨h.toGrowsTo.trans h'.toGrowsTo, h'.unfolding.trans h.unfolding⟩

/-- The books are empty, but for the sections that were given. -/
theorem consistent_start (sections : Table γ) (world : σ) : (start sections world).Consistent where
  nodup := List.nodup_nil
  disjoint := List.disjoint_nil_left _
  unfolding_known := List.nil_subset _
  settled_known := List.nil_subset _
  missing_known := List.nil_subset _

theorem not_mem_settled_keys_iff : n ∉ s.settled.keys ↔ s.settled.get? n = none := by
  rw [OrderedMap.mem_keys_iff, Option.not_isSome_iff_eq_none]

/-! ### Names that are recovered -/

/-- The state with one more warning. -/
def warn (s : State γ σ) (names : List Name) : State γ σ :=
  { s with warnings := s.warnings ++ [names] }

/-- The state with one name recovered as an empty section, and told as missing unless it was
    before. -/
def recoverOne (s : State γ σ) (n : Name) : State γ σ :=
  { s with
    working := s.working.insert n .empty
    missing := if n ∈ s.missing then s.missing else s.missing ++ [n] }

theorem Consistent.warn (h : s.Consistent) (names : List Name) : (s.warn names).Consistent :=
  ⟨h.nodup, h.disjoint, h.unfolding_known, h.settled_known, h.missing_known⟩

theorem growsTo_warn (s : State γ σ) (names : List Name) : s.GrowsTo (s.warn names) :=
  ⟨(GrowsTo.refl s).settled, (GrowsTo.refl s).recovered⟩

theorem mem_keys_recoverOne {m : Name} :
    m ∈ (s.recoverOne n).working.keys ↔ m ∈ s.working.keys ∨ m = n := by
  rw [recoverOne, OrderedMap.keys_insert]
  split
  · next hn => exact ⟨.inl, fun h => h.elim id fun hm => hm ▸ hn⟩
  · rw [List.mem_append, List.mem_singleton]

theorem mem_keys_recoverAll {m : Name} :
    m ∈ (ns.foldl recoverOne s).working.keys ↔ m ∈ s.working.keys ∨ m ∈ ns := by
  induction ns generalizing s with
  | nil => simp
  | cons n ns ih => rw [List.foldl_cons, ih, mem_keys_recoverOne, List.mem_cons, or_assoc]

theorem Consistent.recoverOne (h : s.Consistent) (n : Name) : (s.recoverOne n).Consistent where
  nodup := h.nodup
  disjoint := h.disjoint
  unfolding_known _ hm := mem_keys_recoverOne.2 (.inl (h.unfolding_known hm))
  settled_known _ hm := mem_keys_recoverOne.2 (.inl (h.settled_known hm))
  missing_known m hm := by
    rw [mem_keys_recoverOne]
    rw [State.recoverOne] at hm
    split at hm
    · exact .inl (h.missing_known hm)
    · exact (List.mem_append.1 hm).imp (fun hm => h.missing_known hm) List.mem_singleton.1

theorem Consistent.recoverAll (h : s.Consistent) (ns : List Name) :
    (ns.foldl State.recoverOne s).Consistent := by
  induction ns generalizing s with
  | nil => exact h
  | cons n ns ih => exact ih (h.recoverOne n)

/-- What is not known has not been told as missing. -/
theorem Consistent.missing_recoverOne (h : s.Consistent) (hn : n ∉ s.working.keys) :
    (s.recoverOne n).missing = s.missing ++ [n] := if_neg fun hm => hn (h.missing_known hm)

/-- Distinct names that are unknown are recovered, and told as missing, in their order. -/
theorem Consistent.recoverAll_eq (h : s.Consistent) (hns : ns.Nodup)
    (hnew : ∀ n ∈ ns, n ∉ s.working.keys) : ns.foldl State.recoverOne s =
      { s with
        working := s.working.insertMany (ns.map fun n => (n, .empty))
        missing := s.missing ++ ns } := by
  induction ns generalizing s with
  | nil => rw [List.append_nil]; rfl
  | cons n ns ih =>
    have hrest : ∀ m ∈ ns, m ∉ (s.recoverOne n).working.keys := by
      intro m hm
      rw [mem_keys_recoverOne, not_or]
      exact ⟨hnew m (List.mem_cons_of_mem _ hm), fun hmn => (List.nodup_cons.1 hns).1 (hmn ▸ hm)⟩
    rw [List.foldl_cons, ih (h.recoverOne n) (List.nodup_cons.1 hns).2 hrest,
      h.missing_recoverOne (hnew n List.mem_cons_self), List.append_assoc]
    rfl

theorem Consistent.growsTo_recoverAll (h : s.Consistent) (hns : ns.Nodup)
    (hnew : ∀ n ∈ ns, n ∉ s.working.keys) : s.GrowsTo (ns.foldl State.recoverOne s) := by
  rw [h.recoverAll_eq hns hnew]
  exact ⟨fun _ _ hn => hn, ns, s.working.entries_insertMany_map hns hnew .empty, rfl⟩

/-- To recover the unknown ones among some names is to recover them one after the other, after a
    warning. -/
theorem Consistent.recover_eq (h : s.Consistent) (hnames : names.Nodup)
    (hne : s.unknown names ≠ []) :
    s.recover names = (s.unknown names).foldl State.recoverOne (s.warn (s.unknown names)) := by
  have hnodup : (s.unknown names).Nodup := nodup_unknown hnames
  have hnew : ∀ n ∈ s.unknown names, n ∉ s.working.keys := fun n hn => (mem_unknown_iff.1 hn).2
  rw [(h.warn _).recoverAll_eq hnodup hnew, State.recover]
  split
  · next hnil => exact absurd hnil hne
  · next hcons => rw [hcons]; rfl

theorem Consistent.recover (h : s.Consistent) (hnames : names.Nodup) :
    (s.recover names).Consistent := by
  by_cases hne : s.unknown names = []
  · rwa [State.recover, hne]
  · rw [h.recover_eq hnames hne]
    exact (h.warn _).recoverAll _

theorem returnsTo_recover (s : State γ σ) (hnames : names.Nodup) :
    s.ReturnsTo (s.recover names) where
  settled n text hn := by rwa [recover_settled]
  recovered := ⟨s.unknown names, recover_entries hnames, recover_missing⟩
  unfolding := recover_unfolding

/-- Names that are recovered are known. -/
theorem subset_keys_recover (s : State γ σ) (hnames : names.Nodup) :
    names ⊆ (s.recover names).working.keys := by
  intro n hn
  rw [OrderedMap.keys, recover_entries hnames, List.map_append, List.mem_append, List.map_map]
  by_cases hk : n ∈ s.working.keys
  · exact .inl hk
  · exact .inr (List.mem_map.2 ⟨n, mem_unknown_iff.2 ⟨hn, hk⟩, rfl⟩)

/-! ### Sections that are begun and left -/

theorem growsTo_enter (s : State γ σ) (n : Name) : s.GrowsTo (s.enter run n).2 :=
  ⟨(GrowsTo.refl s).settled, (GrowsTo.refl s).recovered⟩

theorem growsTo_leave (s : State γ σ) : s.GrowsTo s.leave :=
  ⟨(GrowsTo.refl s).settled, (GrowsTo.refl s).recovered⟩

/-- The text of a section that had none before is kept. -/
theorem GrowsTo.settle (h : s.GrowsTo s₁) (hn : s.settled.get? n = none) (text : String) :
    s.GrowsTo (s₁.settle n text) where
  settled m v hm := by
    have hne : m ≠ n := fun hmn => by rw [hmn, hn] at hm; cases hm
    rw [State.settle, OrderedMap.get?_insert_of_ne _ hne]
    exact h.settled m v hm
  recovered := h.recovered

theorem Consistent.enter (h : s.Consistent) (hknown : n ∈ s.working.keys)
    (hn : s.settled.get? n = none) (hu : n ∉ s.unfolding) : (s.enter run n).2.Consistent where
  nodup := by
    show (s.unfolding ++ [n]).Nodup
    rw [← List.concat_eq_append]
    exact h.nodup.concat hu
  disjoint := List.disjoint_append_left.2
    ⟨h.disjoint, List.singleton_disjoint.2 (not_mem_settled_keys_iff.2 hn)⟩
  unfolding_known := List.append_subset.2
    ⟨h.unfolding_known, List.cons_subset.2 ⟨hknown, List.nil_subset _⟩⟩
  settled_known := h.settled_known
  missing_known := h.missing_known

theorem Consistent.leave (h : s.Consistent) : s.leave.Consistent where
  nodup := h.nodup.sublist (List.dropLast_sublist _)
  disjoint := List.disjoint_of_subset_left (List.dropLast_subset _) h.disjoint
  unfolding_known := List.Subset.trans (List.dropLast_subset _) h.unfolding_known
  settled_known := h.settled_known
  missing_known := h.missing_known

theorem mem_keys_settle {m : Name} (h : m ∈ (s.settle n text).settled.keys) :
    m ∈ s.settled.keys ∨ m = n := by
  rw [settle, OrderedMap.keys_insert] at h
  split at h
  · exact .inl h
  · exact (List.mem_append.1 h).imp_right List.mem_singleton.1

theorem Consistent.settle (h : s.Consistent) (hknown : n ∈ s.working.keys)
    (hu : n ∉ s.unfolding) : (s.settle n text).Consistent where
  nodup := h.nodup
  disjoint m hm hmem := by
    rcases mem_keys_settle hmem with hmem | rfl
    · exact h.disjoint hm hmem
    · exact hu hm
  unfolding_known := h.unfolding_known
  settled_known m hmem := by
    rcases mem_keys_settle hmem with hmem | rfl
    · exact h.settled_known hmem
    · exact hknown
  missing_known := h.missing_known

/-- A section that was begun is left. -/
theorem ReturnsTo.leave (h : (s.enter run n).2.ReturnsTo s₁) : s.ReturnsTo s₁.leave where
  toGrowsTo := ((growsTo_enter s n).trans h.toGrowsTo).trans (growsTo_leave s₁)
  unfolding := by
    show s₁.unfolding.dropLast = s.unfolding
    rw [h.unfolding]
    exact List.dropLast_concat

/-- A section that is left has no text yet, as it was being unfolded. -/
theorem ReturnsTo.settled_leave (h : (s.enter run n).2.ReturnsTo s₁) (hs : s₁.Consistent) :
    s₁.leave.settled.get? n = none := by
  refine not_mem_settled_keys_iff.1 (hs.disjoint ?_)
  rw [h.unfolding]
  exact List.mem_append_right _ (List.mem_singleton_self n)

end State

/-! ### Calls -/

/-- What is called in the course of an expansion. -/
inductive Task
  /-- To expand a text. -/
  | expand (text : String)
  /-- To visit a section. -/
  | visit (n : Name)

namespace Task

/-- Does a task, going at most `depth` sections down. -/
def perform (run : γ → σ → String × σ) (depth : Nat) : Task → Walk γ σ String
  | .expand text => Section.expand run depth text
  | .visit n => Section.visit run depth n

/-- A section that is to be visited is known. -/
def Known (s : State γ σ) : Task → Prop
  | .expand _ => True
  | .visit n => n ∈ s.working.keys

end Task

/-- A way to visit names returns, and keeps the books consistent where it is asked for a known
    section. -/
structure Orderly (ask : Name → Walk γ σ String) : Prop where
  returnsTo : ∀ n (s : State γ σ), s.ReturnsTo (ask n s).2
  consistent : ∀ {n} {s : State γ σ}, s.Consistent → n ∈ s.working.keys → (ask n s).2.Consistent

section

variable {ask : Name → Walk γ σ String} {s s₁ : State γ σ} {n : Name} {ns before after : List Name}
  {text : String} {depth : Nat}

theorem nodup_references (text : String) : (references text).Nodup := Name.nodup_distinct _

theorem visitAll_cons_snd : (visitAll ask (n :: ns) s).2 = (ask n s).2 ∨
    (visitAll ask (n :: ns) s).2 = (visitAll ask ns (ask n s).2).2 := by
  rw [visitAll]
  split
  · next hn => rw [hn]; exact .inl rfl
  · next hn =>
    rw [hn]
    refine .inr ?_
    split
    · next hr => rw [hr]
    · next hr => rw [hr]

/-- After some names were visited, the visit goes on with the others. -/
theorem visitAll_append_snd {values : List (Name × String)}
    (h : visitAll ask before s = (.ok values, s₁)) :
    (visitAll ask (before ++ after) s).2 = (visitAll ask after s₁).2 := by
  induction before generalizing s values with
  | nil => cases h; rfl
  | cons n before ih =>
    rw [visitAll] at h
    split at h
    · cases h
    · next v s₂ hn =>
      split at h
      · cases h
      · next rest s₃ hrest =>
        cases h
        rw [List.cons_append, visitAll, hn, ← ih hrest]
        dsimp only
        split
        · next hr => rw [hr]
        · next hr => rw [hr]

/-- As far as the state is concerned, a text is expanded by the visits of the names in it. -/
theorem expandWith_snd : (expandWith ask text s).2 =
    (visitAll ask (references text) (s.recover (references text))).2 := by
  rw [expandWith]
  split
  · next href => rw [href]; rfl
  · next n ns href =>
    rw [href]
    rcases visitAll ask (n :: ns) (s.recover (n :: ns)) with ⟨e | values, s₁⟩ <;> rfl

/-- After a new section was expanded, or failed to be, it is left, and its text is kept if there is
    one. -/
theorem visit_snd (hn : s.settled.get? n = none) (hu : n ∉ s.unfolding)
    (h : (expand run depth (s.enter run n).1 (s.enter run n).2).2 = s₁) :
    (visit run (depth + 1) n s).2 = s₁.leave ∨
      ∃ expanded, (visit run (depth + 1) n s).2 = s₁.leave.settle n expanded := by
  rw [visit_of_not_mem hn hu]
  rw [expand] at h
  split
  · next hr => rw [← h, hr]; exact .inl rfl
  · next expanded _ hr => rw [← h, hr]; exact .inr ⟨expanded, rfl⟩

/-- A visit leaves the state alone, or a new section is begun. -/
theorem visit_succ_snd_eq_or (run : γ → σ → String × σ) (depth : Nat) (n : Name) (s : State γ σ) :
    (visit run (depth + 1) n s).2 = s ∨ s.settled.get? n = none ∧ n ∉ s.unfolding := by
  cases hn : s.settled.get? n with
  | some v =>
    rw [visit_of_settled hn]
    exact .inl rfl
  | none =>
    by_cases hu : n ∈ s.unfolding
    · rw [visit_of_mem hn hu]
      exact .inl rfl
    · exact .inr ⟨rfl, hu⟩

namespace Orderly

theorem returnsTo_visitAll (h : Orderly ask) (ns : List Name) (s : State γ σ) :
    s.ReturnsTo (visitAll ask ns s).2 := by
  induction ns generalizing s with
  | nil => exact .refl s
  | cons n ns ih =>
    rcases visitAll_cons_snd with hr | hr
    · rw [hr]
      exact h.returnsTo n s
    · rw [hr]
      exact (h.returnsTo n s).trans (ih _)

theorem consistent_visitAll (h : Orderly ask) (hs : s.Consistent) (hns : ns ⊆ s.working.keys) :
    (visitAll ask ns s).2.Consistent := by
  induction ns generalizing s with
  | nil => exact hs
  | cons n ns ih =>
    obtain ⟨hn, hns⟩ := List.cons_subset.1 hns
    rcases visitAll_cons_snd with hr | hr
    · rw [hr]
      exact h.consistent hs hn
    · rw [hr]
      exact ih (h.consistent hs hn) (List.Subset.trans hns (h.returnsTo n s).keys_subset)

theorem returnsTo_expandWith (h : Orderly ask) (text : String) (s : State γ σ) :
    s.ReturnsTo (expandWith ask text s).2 := by
  rw [expandWith_snd]
  exact (State.returnsTo_recover s (nodup_references text)).trans (h.returnsTo_visitAll _ _)

theorem consistent_expandWith (h : Orderly ask) (hs : s.Consistent) (text : String) :
    (expandWith ask text s).2.Consistent := by
  rw [expandWith_snd]
  exact h.consistent_visitAll (hs.recover (nodup_references text))
    (State.subset_keys_recover s (nodup_references text))

/-- The visit of a name in a text begins with consistent books, and the name is known. -/
theorem visiting (h : Orderly ask) (hs : s.Consistent) {values : List (Name × String)}
    (href : references text = before ++ n :: after)
    (hv : visitAll ask before (s.recover (references text)) = (.ok values, s₁)) :
    s.ReturnsTo s₁ ∧ s₁.Consistent ∧ n ∈ s₁.working.keys := by
  have hnames : before ++ n :: after ⊆ (s.recover (references text)).working.keys :=
    href ▸ State.subset_keys_recover s (nodup_references text)
  obtain ⟨hbefore, hafter⟩ := List.append_subset.1 hnames
  have hreturns := h.returnsTo_visitAll before (s.recover (references text))
  have hconsistent := h.consistent_visitAll (hs.recover (nodup_references text)) hbefore
  rw [hv] at hreturns hconsistent
  exact ⟨(State.returnsTo_recover s (nodup_references text)).trans hreturns, hconsistent,
    hreturns.keys_subset (hafter List.mem_cons_self)⟩

end Orderly

/-- At every depth, visits are orderly. -/
theorem orderly_visit (run : γ → σ → String × σ) (depth : Nat) : Orderly (visit run depth) := by
  induction depth with
  | zero => exact ⟨fun n s => .refl s, fun hs _ => hs⟩
  | succ depth ih =>
    constructor
    · intro n s
      rcases visit_succ_snd_eq_or run depth n s with hr | ⟨hn, hu⟩
      · rw [hr]
        exact .refl s
      · have hleft := (ih.returnsTo_expandWith (s.enter run n).1 (s.enter run n).2).leave
        rcases visit_snd hn hu rfl with hr | ⟨expanded, hr⟩
        · rw [hr]
          exact hleft
        · rw [hr]
          exact ⟨hleft.toGrowsTo.settle hn expanded, hleft.unfolding⟩
    · intro n s hs hknown
      rcases visit_succ_snd_eq_or run depth n s with hr | ⟨hn, hu⟩
      · rwa [hr]
      · have hleft := (ih.returnsTo_expandWith (s.enter run n).1 (s.enter run n).2).leave
        have hentered : (s.enter run n).2.Consistent := hs.enter hknown hn hu
        have hinside := ih.consistent_expandWith hentered (s.enter run n).1
        rcases visit_snd hn hu rfl with hr | ⟨expanded, hr⟩
        · rw [hr]
          exact hinside.leave
        · rw [hr]
          exact hinside.leave.settle (hleft.keys_subset hknown) (hleft.unfolding ▸ hu)

/-- Every call returns with what it found in the books, and with more in them. -/
theorem Task.returnsTo (run : γ → σ → String × σ) (task : Task) (depth : Nat) (s : State γ σ) :
    s.ReturnsTo (task.perform run depth s).2 := by
  cases task with
  | expand text => exact (orderly_visit run depth).returnsTo_expandWith text s
  | visit n => exact (orderly_visit run depth).returnsTo n s

/-- A call that may go as deep as there are sections does not run out of depth. -/
theorem Task.perform_ne_tooDeep (task : Task) {sections : Table γ}
    (hs : ∀ n, s.working.content n = sections.content n) (hdepth : sections.size < depth) :
    (task.perform run depth s).1 ≠ .error .tooDeep := by
  cases task with
  | expand text =>
    exact expandWith_ne_tooDeep_iff.2 (visitAll_ne_tooDeep
      (fun n => State.recover_content.trans (hs n))
      (Nat.lt_of_le_of_lt (State.room_le sections _) hdepth))
  | visit n =>
    have hvisit : (visitAll (Section.visit run depth) [n] s).1 ≠ .error .tooDeep :=
      visitAll_ne_tooDeep hs (Nat.lt_of_le_of_lt (State.room_le sections _) hdepth)
    exact (visitAll_cons_ne_tooDeep_iff.1 hvisit).1

theorem Task.consistent (run : γ → σ → String × σ) {task : Task} (depth : Nat) (hs : s.Consistent)
    (hknown : task.Known s) : (task.perform run depth s).2.Consistent := by
  cases task with
  | expand text => exact (orderly_visit run depth).consistent_expandWith hs text
  | visit n => exact (orderly_visit run depth).consistent hs hknown

end

end Stencil.Section
