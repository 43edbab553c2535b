import Stencil.Proofs.Bookkeeping

/-!
# All states of a walk

A walk passes other states than those in which calls begin and return (`During`): while the names
of a text are recovered, one after the other (`State.recoverOne`), and when a section is left, but
its text is not kept yet. The books fit together in all of these (`During.consistent`), and nothing
that is in them is lost by the end of the call (`During.growsTo_perform`). It is only because they
fit together that a name is told as missing whenever it is recovered
(`growsTo_expand_of_recovering`), and that no text is kept where there is one already
(`growsTo_visit_of_left`).

* `resolve_keeps_books`: the books at all times while a layout is expanded.
-/

namespace Stencil.Section

open Placeholder

variable {γ σ : Type} {run : γ → σ → String × σ}

/-! ### States that are passed -/

/-- The states that are passed while a task is done, which is begun in the state `s` with `depth`
    sections to go down: `s'` is one of them. -/
inductive During (run : γ → σ → String × σ) : Task → Nat → State γ σ → State γ σ → Prop
  /-- The task is begun. -/
  | begun {task : Task} {depth : Nat} {s : State γ σ} : During run task depth s s
  /-- Of the unknown names of a text, after a warning, those in `before` have been recovered. -/
  | recovering {text : String} {depth : Nat} {s : State γ σ} {before after : List Name} :
      s.unknown (references text) = before ++ after → before ++ after ≠ [] →
      During run (.expand text) depth s
        (before.foldl State.recoverOne (s.warn (before ++ after)))
  /-- Of the names of a text, those in `before` have been visited, and `n` is being visited. -/
  | visiting {text : String} {depth : Nat} {s s₁ s' : State γ σ} {before after : List Name}
      {n : Name} {values : List (Name × String)} : references text = before ++ n :: after →
      visitAll (visit run depth) before (s.recover (references text)) = (.ok values, s₁) →
      During run (.visit n) depth s₁ s' → During run (.expand text) depth s s'
  /-- A section that is new is begun, and its text is being expanded. -/
  | inside {n : Name} {depth : Nat} {s s' : State γ σ} : s.settled.get? n = none →
      n ∉ s.unfolding →
      During run (.expand (s.enter run n).1) depth (s.enter run n).2 s' →
      During run (.visit n) (depth + 1) s s'
  /-- A section that was begun is left. -/
  | left {n : Name} {depth : Nat} {s s₁ : State γ σ} : s.settled.get? n = none →
      n ∉ s.unfolding → (expand run depth (s.enter run n).1 (s.enter run n).2).2 = s₁ →
      During run (.visit n) (depth + 1) s s₁.leave
  /-- The task is done, or has failed. -/
  | returned {task : Task} {depth : Nat} {s : State γ σ} :
      During run task depth s (task.perform run depth s).2

variable {task : Task} {depth : Nat} {s s₁ s' : State γ σ} {text : String} {n : Name}
  {before after : List Name} {values : List (Name × String)}

/-- A section that was begun is left with consistent books, in which it has no text yet. -/
theorem State.Consistent.left (hs : s.Consistent) (hknown : n ∈ s.working.keys)
    (hn : s.settled.get? n = none) (hu : n ∉ s.unfolding)
    (h : (expand run depth (s.enter run n).1 (s.enter run n).2).2 = s₁) :
    s.ReturnsTo s₁.leave ∧ s₁.leave.Consistent ∧ s₁.leave.settled.get? n = none := by
  have hs₁ : s₁.Consistent :=
    h ▸ (orderly_visit run depth).consistent_expandWith (hs.enter hknown hn hu) _
  have hreturns : (s.enter run n).2.ReturnsTo s₁ :=
    h ▸ (orderly_visit run depth).returnsTo_expandWith _ _
  exact ⟨hreturns.leave, hs₁.leave, hreturns.settled_leave hs₁⟩

/-- The books fit together in all states. -/
theorem During.consistent (h : During run task depth s s') (hs : s.Consistent)
    (hknown : task.Known s) : s'.Consistent := by
  induction h with
  | begun => exact hs
  | recovering => exact (hs.warn _).recoverAll _
  | visiting href hv _ ih =>
    obtain ⟨-, hs₁, hn⟩ := (orderly_visit run _).visiting hs href hv
    exact ih hs₁ hn
  | inside hn hu _ ih => exact ih (hs.enter hknown hn hu) trivial
  | left hn hu hr => exact (hs.left hknown hn hu hr).2.1
  | returned => exact Task.consistent run _ hs hknown

/-- Nothing that was in the books when a task was begun is lost while it is done. -/
theorem During.growsTo (h : During run task depth s s') (hs : s.Consistent)
    (hknown : task.Known s) : s.GrowsTo s' := by
  induction h with
  | begun => exact .refl _
  | @recovering text _ s before after hunknown _ =>
    have hnodup : (before ++ after).Nodup :=
      hunknown ▸ State.nodup_unknown (nodup_references text)
    refine (s.growsTo_warn _).trans ((hs.warn _).growsTo_recoverAll
      (List.nodup_append.1 hnodup).1 fun n hn => ?_)
    exact (State.mem_unknown_iff.1 (hunknown ▸ List.mem_append_left _ hn)).2
  | visiting href hv _ ih =>
    obtain ⟨hreturns, hs₁, hn⟩ := (orderly_visit run _).visiting hs href hv
    exact hreturns.toGrowsTo.trans (ih hs₁ hn)
  | inside hn hu _ ih =>
    exact (State.growsTo_enter _ _).trans (ih (hs.enter hknown hn hu) trivial)
  | left hn hu hr => exact (hs.left hknown hn hu hr).1.toGrowsTo
  | returned => exact (Task.returnsTo run _ _ _).toGrowsTo

/-- Names that are recovered are recovered with the others by the end of a call. -/
theorem growsTo_expand_of_recovering (hs : s.Consistent)
    (hunknown : s.unknown (references text) = before ++ after) (hne : before ++ after ≠ []) :
    (before.foldl State.recoverOne (s.warn (before ++ after))).GrowsTo
      (expand run depth text s).2 := by
  have hnodup : (before ++ after).Nodup := hunknown ▸ State.nodup_unknown (nodup_references text)
  obtain ⟨-, hafter, hdisjoint⟩ := List.nodup_append'.1 hnodup
  have hrecover : s.recover (references text) =
      after.foldl State.recoverOne (before.foldl State.recoverOne (s.warn (before ++ after))) := by
    rw [hs.recover_eq (nodup_references text) (hunknown ▸ hne), hunknown, List.foldl_append]
  have hnew : ∀ n ∈ after,
      n ∉ (before.foldl State.recoverOne (s.warn (before ++ after))).working.keys := by
    intro n hn
    rw [State.mem_keys_recoverAll, not_or]
    exact ⟨(State.mem_unknown_iff.1 (hunknown ▸ List.mem_append_right _ hn)).2,
      fun hmem => hdisjoint hmem hn⟩
  rw [expand, expandWith_snd]
  refine (((hs.warn _).recoverAll before).growsTo_recoverAll hafter hnew).trans ?_
  rw [← hrecover]
  exact ((orderly_visit run depth).returnsTo_visitAll _ _).toGrowsTo

/-- What is in the books after the visit of a name is there when all names are visited. -/
theorem growsTo_expand_of_visiting (href : references text = before ++ n :: after)
    (hv : visitAll (visit run depth) before (s.recover (references text)) = (.ok values, s₁)) :
    (visit run depth n s₁).2.GrowsTo (expand run depth text s).2 := by
  have happend : (visitAll (visit run depth) (before ++ n :: after)
      (s.recover (references text))).2 = _ := visitAll_append_snd hv
  rw [expand, expandWith_snd]
  rw [← href] at happend
  rw [happend]
  rcases visitAll_cons_snd with hr | hr
  · rw [hr]
    exact .refl _
  · rw [hr]
    exact ((orderly_visit run depth).returnsTo_visitAll after _).toGrowsTo

/-- What is in the books when a section is left is there when its text is kept, as no text is kept
    where there is one already. -/
theorem growsTo_visit_of_left (hs : s.Consistent) (hknown : n ∈ s.working.keys)
    (hn : s.settled.get? n = none) (hu : n ∉ s.unfolding)
    (h : (expand run depth (s.enter run n).1 (s.enter run n).2).2 = s₁) :
    s₁.leave.GrowsTo (visit run (depth + 1) n s).2 := by
  obtain ⟨-, -, hnone⟩ := hs.left hknown hn hu h
  rcases visit_snd hn hu h with hr | ⟨expanded, hr⟩
  · rw [hr]
    exact .refl _
  · rw [hr]
    exact (State.GrowsTo.refl _).settle hnone expanded

/-- Nothing that is in the books while a task is done is lost by the end of it. -/
theorem During.growsTo_perform (h : During run task depth s s') (hs : s.Consistent)
    (hknown : task.Known s) : s'.GrowsTo (task.perform run depth s).2 := by
  induction h with
  | begun => exact (Task.returnsTo run _ _ _).toGrowsTo
  | recovering hunknown hne => exact growsTo_expand_of_recovering hs hunknown hne
  | visiting href hv _ ih =>
    obtain ⟨-, hs₁, hn⟩ := (orderly_visit run _).visiting hs href hv
    exact (ih hs₁ hn).trans (growsTo_expand_of_visiting href hv)
  | inside hn hu _ ih =>
    refine (ih (hs.enter hknown hn hu) trivial).trans ((State.growsTo_leave _).trans ?_)
    exact growsTo_visit_of_left hs hknown hn hu rfl
  | left hn hu hr => exact growsTo_visit_of_left hs hknown hn hu hr
  | returned => exact .refl _

/-! ### Layouts -/

/-- The states that are passed while a layout is expanded. -/
def Passed (run : γ → σ → String × σ) (layout : Content γ) (sections : Table γ) (world : σ) :
    State γ σ → Prop :=
  During run (.expand (layout.text run world)) (depthBound sections)
    (.start sections (layout.after run world))

/-- An expansion ends in the last of its states, which tells what there is to tell. -/
structure Ends (o : Outcome γ σ) (s : State γ σ) : Prop where
  unfolding : s.unfolding = []
  expanded : ∀ e, o.result = .ok e → e.sections = s.working ∧ e.missing = s.missing
  warnings : o.warnings = s.warnings
  trace : o.trace = s.trace
  world : o.world = s.world

theorem ends_resolve (run : γ → σ → String × σ) (layout : Content γ) (sections : Table γ)
    (world : σ) : Ends (resolve run layout sections world)
      ((Task.expand (layout.text run world)).perform run (depthBound sections)
        (.start sections (layout.after run world))).2 := by
  have hreturns := Task.returnsTo run (.expand (layout.text run world)) (depthBound sections)
    (.start sections (layout.after run world))
  have hresolve : resolve run layout sections world =
      let r := (Task.expand (layout.text run world)).perform run (depthBound sections)
        (.start sections (layout.after run world))
      ⟨r.1.map fun text => ⟨text, r.2.missing, r.2.working⟩, r.2.warnings, r.2.trace, r.2.world⟩ :=
    rfl
  rw [hresolve]
  rcases hr : (Task.expand (layout.text run world)).perform run (depthBound sections)
    (.start sections (layout.after run world)) with ⟨e | text, s⟩
  · rw [hr] at hreturns
    exact ⟨hreturns.unfolding, nofun, rfl, rfl, rfl⟩
  · rw [hr] at hreturns
    refine ⟨hreturns.unfolding, fun e he => ?_, rfl, rfl, rfl⟩
    cases he
    exact ⟨rfl, rfl⟩

/-- Whatever generators answer, the books fit together in every state that is passed while a layout
    is expanded: no section is unfolded inside itself, none that is being unfolded is done with, and
    all of these are known sections. Every call that is made in such a state returns with the same
    sections being unfolded and with the same texts kept for the sections that were done with; what
    was known is where it was, and only empty sections have come behind it, under the names newly
    told as missing. It does so also if it fails; and it has enough depth where it may go as deep as
    there are sections given. So what is in the books stays there to the end. -/
theorem resolve_keeps_books (run : γ → σ → String × σ) (layout : Content γ) (sections : Table γ)
    (world : σ) (s : State γ σ) (h : Passed run layout sections world s) :
    s.Consistent ∧
    (∀ task depth, s.ReturnsTo (Task.perform run depth task s).2 ∧
      (sections.size < depth → (Task.perform run depth task s).1 ≠ .error .tooDeep)) ∧
    (State.start sections (layout.after run world)).GrowsTo s ∧
    ∃ last, Passed run layout sections world last ∧ s.GrowsTo last ∧
      Ends (resolve run layout sections world) last := by
  have hstart := State.consistent_start sections (layout.after run world)
  have hgrows := h.growsTo hstart trivial
  exact ⟨h.consistent hstart trivial, fun task depth => ⟨task.returnsTo run depth s,
    task.perform_ne_tooDeep hgrows.content⟩, hgrows, _, .returned,
    h.growsTo_perform hstart trivial, ends_resolve run layout sections world⟩

/-- A generator that refers to the section `B` at first, and to a section that is new later on. -/
def referring : Unit → Nat → String × Nat := fun _ calls =>
  (if calls = 0 then "@B@" else "@NEW@", calls + 1)

/-- Two sections that refer to each other, as long as the generator of the first one does. -/
def tangled : Table Unit := Table.ofSections [("A", .generated ()), ("B", .literal "@A@")]

/-- In the section `B`, which the section `A` refers to, the books fit together, and from there
    every call returns. -/
theorem resolve_keeps_books_tangled : ∃ s, Passed referring (.literal "@A@@gone@") tangled 0 s ∧
    s.unfolding = [.of "A", .of "B"] ∧ s.missing = [.of "gone"] ∧ s.Consistent ∧
    (∀ task depth, s.ReturnsTo (Task.perform referring depth task s).2 ∧
      (tangled.size < depth → (Task.perform referring depth task s).1 ≠ .error .tooDeep)) ∧
    (State.start tangled 0).GrowsTo s ∧
    ∃ last, Passed referring (.literal "@A@@gone@") tangled 0 last ∧ s.GrowsTo last ∧
      Ends (resolve referring (.literal "@A@@gone@") tangled 0) last := by
  let s₀ : State Unit Nat := .begun tangled 0 "@A@@gone@"
  let s₁ : State Unit Nat := s₀.opened referring (.of "A")
  have hlayout : references "@A@@gone@" = [] ++ .of "A" :: [.of "gone"] := by decide +kernel
  have hA : references (s₀.enter referring (.of "A")).1 = [] ++ .of "B" :: [] := by decide +kernel
  have hu₀ : s₀.unfolding = [] := State.begun_unfolding
  have hu₁ : s₁.unfolding = [.of "A"] := State.opened_unfolding.trans (by rw [hu₀]; rfl)
  have hs₀ : s₀.settled = ∅ := State.begun_settled
  have hs₁ : s₁.settled = ∅ := State.opened_settled.trans hs₀
  have hB : Name.of "B" ∉ [Name.of "A"] := by decide
  have h : Passed referring (.literal "@A@@gone@") tangled 0 (s₁.enter referring (.of "B")).2 :=
    .visiting hlayout rfl (.inside (hs₀ ▸ rfl) (hu₀ ▸ List.not_mem_nil)
      (.visiting hA rfl (.inside (hs₁ ▸ rfl) (hu₁ ▸ hB) .begun)))
  refine ⟨_, h, ?_, by decide +kernel, resolve_keeps_books _ _ _ _ _ h⟩
  show s₁.unfolding ++ [.of "B"] = _
  rw [hu₁]
  rfl

end Stencil.Section
