import Stencil.Proofs.Walk

/-!
# Depth of a walk

How deep a walk can go does not depend on what generators answer. Names may come
up that nobody has seen before, so neither the table nor the text gets smaller on
the way down. What gets smaller is the *room* (`State.room`): the sections of the
table given that are not being unfolded. A given section takes its place in the
room when it is begun (`State.room_opened_lt`); and a section that was not given
is empty, so its text mentions nothing and nothing is asked for inside it
(`State.enter_text_of_not_mem`).

Calls that are nested in each other are told by `Nested`. There are at most as
many as there is room, plus one (`Nested.length_le`), and a walk that may go as
deep as that does not run out (`visitAll_ne_tooDeep`). A walk that does not run
out is the same at any greater depth (`visit_of_le`).
-/

namespace Stencil.Section

open Placeholder

variable {γ σ : Type} {run : γ → σ → String × σ} {sections : Table γ}

/-! ### Room -/

namespace State

/-- How many of the sections given are not being unfolded. -/
def room (sections : Table γ) (s : State γ σ) : Nat :=
  (sections.keys.filter fun n => decide (n ∉ s.unfolding)).length

variable {s : State γ σ} {n : Name}

theorem room_le (sections : Table γ) (s : State γ σ) : s.room sections ≤ sections.size := by
  calc s.room sections ≤ sections.keys.length := List.length_filter_le _ _
    _ = sections.size := List.length_map _

/-- A section that is begun leaves less room. -/
theorem room_opened_lt (hn : n ∈ sections.keys) (hu : n ∉ s.unfolding) :
    (s.opened run n).room sections < s.room sections := by
  -- What is left is what there was, without `n`.
  have hroom : (s.opened run n).room sections =
      ((sections.keys.filter fun m => decide (m ∉ s.unfolding)).filter
        fun m => decide (m ≠ n)).length := by
    rw [room, List.filter_filter, opened_unfolding]
    congr 2
    funext m
    simp only [List.mem_append, List.mem_singleton, not_or, Bool.decide_and]
    exact Bool.and_comm _ _
  rw [hroom, room, List.length_filter_lt_length_iff_exists]
  exact ⟨n, List.mem_filter.2 ⟨hn, decide_eq_true hu⟩, by simp⟩

theorem Keeps.room {s' : State γ σ} (h : s.Keeps s') : s'.room sections = s.room sections := by
  rw [State.room, State.room, h.unfolding]

/-- A section that was not given has the empty text. -/
theorem enter_text_of_not_mem (hs : ∀ n, s.working.content n = sections.content n)
    (hn : n ∉ sections.keys) : (s.enter run n).1 = "" := by
  have hnone : sections.get? n = none := by
    rwa [OrderedMap.mem_keys_iff, Option.not_isSome_iff_eq_none] at hn
  rw [enter_text, hs, Table.content, hnone]
  rfl

end State

/-! ### Nested calls -/

/-- A call: a name is visited in some state. -/
structure Call (γ σ : Type) where
  /-- The name that is visited. -/
  name : Name
  /-- The state in which it is visited. -/
  state : State γ σ

/-- While `text` is expanded in the state `s`, the call `c` is made: its name is
    in the text, and the names before it have been visited. -/
def Asks (run : γ → σ → String × σ) (text : String) (s : State γ σ) (c : Call γ σ) : Prop :=
  ∃ depth before after values, references text = before ++ c.name :: after ∧
    visitAll (visit run depth) before (s.recover (references text)) = (.ok values, c.state)

/-- Calls made while `text` is expanded in the state `s`, each made inside the
    one before it, which began a section. -/
inductive Nested (run : γ → σ → String × σ) : String → State γ σ → List (Call γ σ) → Prop
  | call {text : String} {s : State γ σ} {c : Call γ σ} : Asks run text s c → Nested run text s [c]
  | inside {text : String} {s : State γ σ} {c : Call γ σ} {cs : List (Call γ σ)} :
      Asks run text s c → c.state.settled.get? c.name = none → c.name ∉ c.state.unfolding →
      Nested run (c.state.enter run c.name).1 (c.state.enter run c.name).2 cs →
      Nested run text s (c :: cs)

theorem Asks.keeps {text : String} {s : State γ σ} {c : Call γ σ} (h : Asks run text s c) :
    (s.recover (references text)).Keeps c.state := by
  obtain ⟨depth, before, after, values, -, hv⟩ := h
  exact ((walks_visit depth).visits_of_visitAll hv).1.keeps

theorem not_nested_empty {s : State γ σ} {cs : List (Call γ σ)} : ¬Nested run "" s cs := by
  have hasks : ∀ c, ¬Asks run "" s c := by
    rintro c ⟨depth, before, after, values, href, -⟩
    rw [references_empty] at href
    simp at href
  intro h
  cases h with
  | call hc => exact hasks _ hc
  | inside hc => exact hasks _ hc

/-- Nested calls are at most as many as the sections given that are not being
    unfolded, plus one. -/
theorem Nested.length_le {text : String} {s : State γ σ} {cs : List (Call γ σ)}
    (h : Nested run text s cs) (hs : ∀ n, s.working.content n = sections.content n) :
    cs.length ≤ s.room sections + 1 := by
  induction h with
  | call => exact Nat.le_add_left _ _
  | @inside text s c cs hc hn hu hcs ih =>
    have hcontent : ∀ n, c.state.working.content n = sections.content n := fun n =>
      ((hc.keeps.content n).trans State.recover_content).trans (hs n)
    -- Only a section that was given has a text in which a call can be made.
    have hmem : c.name ∈ sections.keys := by
      by_contra hmem
      rw [State.enter_text_of_not_mem hcontent hmem] at hcs
      exact not_nested_empty hcs
    have hlt : (c.state.opened run c.name).room sections < c.state.room sections :=
      State.room_opened_lt hmem hu
    have hroom : c.state.room sections = s.room sections := by
      rw [hc.keeps.room, State.room, State.room, State.recover_unfolding]
    have hle : cs.length ≤ (c.state.opened run c.name).room sections + 1 := by
      have := ih hcontent
      rwa [State.room, State.opened_unfolding]
    rw [List.length_cons]
    omega

/-! ### Running out of depth

A visit runs out of depth when a visit inside it does. -/

section

variable {ask ask' : Name → Walk γ σ String} {depth : Nat} {n : Name} {ns : List Name}
  {text : String} {s : State γ σ}

theorem visitAll_cons_ne_tooDeep_iff : (visitAll ask (n :: ns) s).1 ≠ .error .tooDeep ↔
    (ask n s).1 ≠ .error .tooDeep ∧
      ∀ v s₁, ask n s = (.ok v, s₁) → (visitAll ask ns s₁).1 ≠ .error .tooDeep := by
  rcases hn : ask n s with ⟨e | v, s₁⟩
  · simp [visitAll, hn]
  · rcases hr : visitAll ask ns s₁ with ⟨e | values, s₂⟩ <;> simp [visitAll, hn, hr]

theorem expandWith_ne_tooDeep_iff : (expandWith ask text s).1 ≠ .error .tooDeep ↔
    (visitAll ask (references text) (s.recover (references text))).1 ≠ .error .tooDeep := by
  rw [expandWith]
  split
  · next href => simp [href, visitAll]
  · next n ns href =>
    rw [href]
    rcases visitAll ask (n :: ns) (s.recover (n :: ns)) with ⟨e | values, s₁⟩ <;> simp

theorem visit_succ_ne_tooDeep_iff (hn : s.settled.get? n = none) (hu : n ∉ s.unfolding) :
    (visit run (depth + 1) n s).1 ≠ .error .tooDeep ↔
      (expandWith (visit run depth) (s.enter run n).1 (s.enter run n).2).1 ≠ .error .tooDeep := by
  rw [visit_of_not_mem hn hu]
  rcases expandWith (visit run depth) (s.enter run n).1 (s.enter run n).2 with ⟨e | out, s₁⟩ <;>
    simp

/-- There is enough depth where there is more of it than room. -/
theorem visitAll_ne_tooDeep (hs : ∀ n, s.working.content n = sections.content n)
    (hroom : s.room sections < depth) : (visitAll (visit run depth) ns s).1 ≠ .error .tooDeep := by
  -- Down from a name there is less room, from one name to the next there is the same.
  induction depth generalizing ns s with
  | zero => exact absurd hroom (Nat.not_lt_zero _)
  | succ depth ih =>
    induction ns generalizing s with
    | nil => exact nofun
    | cons n ns ihns =>
      refine visitAll_cons_ne_tooDeep_iff.2 ⟨?_, fun v s₁ hv => ?_⟩
      · cases hn : s.settled.get? n with
        | some v =>
          rw [visit_of_settled hn]
          exact nofun
        | none =>
          by_cases hu : n ∈ s.unfolding
          · rw [visit_of_mem hn hu]
            exact nofun
          · rw [visit_succ_ne_tooDeep_iff hn hu, expandWith_ne_tooDeep_iff]
            by_cases hmem : n ∈ sections.keys
            · refine ih (fun m => (State.opened_content m).trans (hs m)) ?_
              exact Nat.lt_of_lt_of_le (State.room_opened_lt hmem hu) (Nat.le_of_lt_succ hroom)
            · -- Nothing is visited in the text of a section that was not given.
              rw [State.enter_text_of_not_mem hs hmem, references_empty]
              exact nofun
      · have hkeeps := ((walks_visit _).visits hv).1.keeps
        exact ihns (fun m => (hkeeps.content m).trans (hs m)) (hkeeps.room ▸ hroom)

/-! ### More depth -/

theorem visitAll_eq_of_agree (h : ∀ n s, (ask n s).1 ≠ .error .tooDeep → ask' n s = ask n s)
    (hv : (visitAll ask ns s).1 ≠ .error .tooDeep) : visitAll ask' ns s = visitAll ask ns s := by
  induction ns generalizing s with
  | nil => rfl
  | cons n ns ih =>
    obtain ⟨hn, hns⟩ := visitAll_cons_ne_tooDeep_iff.1 hv
    rw [visitAll, visitAll, h n s hn]
    split
    · rfl
    · next v s₁ hv => rw [ih (hns v s₁ hv)]

theorem expandWith_eq_of_agree (h : ∀ n s, (ask n s).1 ≠ .error .tooDeep → ask' n s = ask n s)
    (hv : (expandWith ask text s).1 ≠ .error .tooDeep) :
    expandWith ask' text s = expandWith ask text s := by
  rw [expandWith_ne_tooDeep_iff] at hv
  have hns := visitAll_eq_of_agree h hv
  rw [expandWith, expandWith]
  split
  · rfl
  · next n ns href => rw [← href, hns]

/-- A visit that has enough depth is the same at any greater depth. -/
theorem visit_of_le {depth' : Nat} (hle : depth ≤ depth') (n : Name) (s : State γ σ)
    (hv : (visit run depth n s).1 ≠ .error .tooDeep) :
    visit run depth' n s = visit run depth n s := by
  induction depth generalizing depth' n s with
  | zero => exact absurd rfl hv
  | succ depth ih =>
    cases depth' with
    | zero => exact absurd hle (Nat.not_succ_le_zero _)
    | succ depth' =>
      cases hn : s.settled.get? n with
      | some v => rw [visit_of_settled hn, visit_of_settled hn]
      | none =>
        by_cases hu : n ∈ s.unfolding
        · rw [visit_of_mem hn hu, visit_of_mem hn hu]
        · rw [visit_succ_ne_tooDeep_iff hn hu] at hv
          rw [visit_of_not_mem hn hu, visit_of_not_mem hn hu,
            expandWith_eq_of_agree (fun n s => ih (Nat.le_of_succ_le_succ hle) n s) hv]

end

/-! ### Layouts -/

variable (run) (layout : Content γ) (sections : Table γ) (world : σ)

theorem expand_start_ne_tooDeep (text : String) :
    (expand run (depthBound sections) text (.start sections world)).1 ≠ .error .tooDeep := by
  rw [expand, expandWith_ne_tooDeep_iff]
  exact visitAll_ne_tooDeep State.begun_content (Nat.lt_succ_of_le (State.room_le sections _))

/-- The expansion of a layout is a walk that succeeds or stops. -/
theorem resolve_visits_or_stops :
    (∃ s : State γ σ,
      Visits run (references (layout.text run world))
        (.begun sections (layout.after run world) (layout.text run world)) s ∧
      resolve run layout sections world =
        ⟨.ok ⟨substitute s.settled.get? (layout.text run world), s.missing, s.working⟩,
          s.warnings, s.trace, s.world⟩) ∨
    ∃ chain, ∃ s : State γ σ,
      Stops run (references (layout.text run world))
        (.begun sections (layout.after run world) (layout.text run world)) chain s ∧
      resolve run layout sections world =
        ⟨.error (.circular chain), s.warnings, s.trace, s.world⟩ := by
  have hdeep :=
    expand_start_ne_tooDeep run sections (layout.after run world) (layout.text run world)
  have hresolve : resolve run layout sections world =
      let r := expand run (depthBound sections) (layout.text run world)
        (.start sections (layout.after run world))
      ⟨r.1.map fun text => ⟨text, r.2.missing, r.2.working⟩, r.2.warnings, r.2.trace, r.2.world⟩ :=
    rfl
  rcases hr : expand run (depthBound sections) (layout.text run world)
    (.start sections (layout.after run world)) with ⟨(chain | _) | out, s⟩
  · refine .inr ⟨chain, s, (walks_visit _).stops_of_expandWith hr, ?_⟩
    rw [hresolve, hr]
    rfl
  · exact absurd (congrArg Prod.fst hr) hdeep
  · obtain ⟨hvisits, rfl⟩ := (walks_visit _).visits_of_expandWith hr
    refine .inl ⟨s, hvisits, ?_⟩
    rw [hresolve, hr]
    rfl

/-- Whatever generators answer, calls are nested in each other at most as deep as
    there are sections in the table given, plus one. So the walk does not run out
    of this depth, and more of it would change nothing. -/
theorem nested_le_size_add_one :
    (∀ calls, Nested run (layout.text run world) (.start sections (layout.after run world)) calls →
      calls.length ≤ sections.size + 1) ∧
    (∀ depth, sections.size + 1 ≤ depth →
      expand run depth (layout.text run world) (.start sections (layout.after run world)) =
        expand run (sections.size + 1) (layout.text run world)
          (.start sections (layout.after run world))) ∧
    (resolve run layout sections world).result ≠ .error .tooDeep := by
  refine ⟨fun calls h => ?_, fun depth hle => ?_, fun h => ?_⟩
  · calc calls.length ≤ (State.start sections (layout.after run world)).room sections + 1 :=
          h.length_le fun _ => rfl
      _ ≤ sections.size + 1 := Nat.succ_le_succ (State.room_le sections _)
  · exact expandWith_eq_of_agree (fun n s => visit_of_le hle n s)
      (expand_start_ne_tooDeep run sections _ _)
  · rcases resolve_visits_or_stops run layout sections world with ⟨s, -, hr⟩ | ⟨chain, s, -, hr⟩
    · rw [hr] at h
      cases h
    · rw [hr] at h
      cases h

end Stencil.Section
