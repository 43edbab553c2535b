import Stencil.Proofs.OrderedMap
import Stencil.Proofs.Reference
import Stencil.Section.Expansion

/-!
# Walks

The walk through the sections without the bound on its depth: what a visit of
some names in turn does when it succeeds (`Visits`) and when it meets a section
that is being unfolded (`Stops`). A visit that does not run out of depth is one
of the two (`visits_of_visitAll`, `stops_of_visitAll`), so what holds of every
walk is proved along these, one case for each way in which a name is dealt with:

* it is done with (`known`) and nothing happens;
* it is new (`fresh`, `inside`): it is begun (`State.opened`), the names in its
  text are visited, and it is done with (`State.closed`);
* it is being unfolded (`back`): the walk ends.

A walk keeps what is being unfolded, the contents of all names, the expanded
texts and the materialised ones; it only adds to them (`Visits.keeps`).
-/

namespace Stencil.Section

open Placeholder

variable {γ σ : Type} {run : γ → σ → String × σ}

/-- The content under a name: empty if there is no section. -/
def Table.content (t : Table γ) (n : Name) : Content γ := (t.get? n).getD .empty

/-- The text of a content in the given world. -/
def Content.text (run : γ → σ → String × σ) (world : σ) (c : Content γ) : String :=
  (c.materialize run world).1

/-- The world after a content was materialised in the given one. -/
def Content.after (run : γ → σ → String × σ) (world : σ) (c : Content γ) : σ :=
  (c.materialize run world).2

namespace State

/-- The texts that were materialised so far. -/
def texts (s : State γ σ) : Texts := fun n => OrderedMap.find n s.trace

/-- A layout with the text `text` is begun, and the names in it are known. -/
def begun (sections : Table γ) (world : σ) (text : String) : State γ σ :=
  (start sections world).recover (references text)

/-- The section `n` is begun, and the names in its text are known. -/
def opened (run : γ → σ → String × σ) (n : Name) (s : State γ σ) : State γ σ :=
  (s.enter run n).2.recover (references (s.enter run n).1)

/-- The innermost section `n`, whose text is `text`, is done with, after all names
    in its text. -/
def closed (n : Name) (text : String) (s : State γ σ) : State γ σ :=
  s.leave.settle n (substitute s.settled.get? text)

variable {s : State γ σ} {n : Name} {names : List Name}

theorem enter_text : (s.enter run n).1 = (s.working.content n).text run s.world := rfl

@[simp] theorem recover_settled : (s.recover names).settled = s.settled := by
  unfold recover; split <;> rfl

@[simp] theorem recover_unfolding : (s.recover names).unfolding = s.unfolding := by
  unfold recover; split <;> rfl

@[simp] theorem recover_trace : (s.recover names).trace = s.trace := by
  unfold recover; split <;> rfl

@[simp] theorem recover_world : (s.recover names).world = s.world := by
  unfold recover; split <;> rfl

@[simp] theorem recover_texts : (s.recover names).texts = s.texts := by
  funext m
  rw [texts, recover_trace]
  rfl

@[simp] theorem recover_content : (s.recover names).working.content n = s.working.content n := by
  unfold recover
  split
  · rfl
  · next m ms h =>
    refine OrderedMap.getD_get?_insertMany s.working fun k hk => ?_
    -- A recovered name was unknown, so it counts as empty already.
    rw [← h] at hk
    have hk' : s.working.get? k = none := by
      simpa [OrderedMap.contains] using (List.mem_filter.1 hk).2
    rw [hk']
    rfl

section

variable {sections : Table γ} {world : σ} {text : String}

@[simp] theorem begun_settled : (begun sections world text).settled = ∅ := recover_settled

@[simp] theorem begun_unfolding : (begun sections world text).unfolding = [] := recover_unfolding

@[simp] theorem begun_trace : (begun sections world text).trace = [] := recover_trace

@[simp] theorem begun_world : (begun sections world text).world = world := recover_world

@[simp] theorem begun_texts : (begun sections world text).texts n = none :=
  congrFun recover_texts n

theorem begun_content (n : Name) :
    (begun sections world text).working.content n = sections.content n := recover_content

end

@[simp] theorem opened_settled : (s.opened run n).settled = s.settled := recover_settled

@[simp] theorem opened_unfolding : (s.opened run n).unfolding = s.unfolding ++ [n] :=
  recover_unfolding

@[simp] theorem opened_content (m : Name) :
    (s.opened run n).working.content m = s.working.content m := recover_content

@[simp] theorem opened_trace :
    (s.opened run n).trace = s.trace ++ [(n, (s.enter run n).1)] := recover_trace

@[simp] theorem opened_world :
    (s.opened run n).world = (s.working.content n).after run s.world := recover_world

end State

/-! ### What a walk does -/

/-- The names are visited in turn, and all of it succeeds. -/
inductive Visits (run : γ → σ → String × σ) : List Name → State γ σ → State γ σ → Prop
  | nil {s : State γ σ} : Visits run [] s s
  | known {n : Name} {ns : List Name} {s s' : State γ σ} : (s.settled.get? n).isSome →
      Visits run ns s s' → Visits run (n :: ns) s s'
  | fresh {n : Name} {ns : List Name} {s s₁ s' : State γ σ} : s.settled.get? n = none →
      n ∉ s.unfolding → Visits run (references (s.enter run n).1) (s.opened run n) s₁ →
      Visits run ns (s₁.closed n (s.enter run n).1) s' → Visits run (n :: ns) s s'

/-- The names are visited in turn until a section is met that is being unfolded,
    from which `chain` leads around to it. -/
inductive Stops (run : γ → σ → String × σ) :
    List Name → State γ σ → (chain : List Name) → State γ σ → Prop
  | back {n : Name} {ns : List Name} {s : State γ σ} : s.settled.get? n = none →
      n ∈ s.unfolding → Stops run (n :: ns) s (s.chain n) s
  | inside {n : Name} {ns chain : List Name} {s s₁ : State γ σ} : s.settled.get? n = none →
      n ∉ s.unfolding → Stops run (references (s.enter run n).1) (s.opened run n) chain s₁ →
      Stops run (n :: ns) s chain s₁.leave
  | later {n : Name} {ns chain : List Name} {s s₁ s' : State γ σ} : Visits run [n] s s₁ →
      Stops run ns s₁ chain s' → Stops run (n :: ns) s chain s'

variable {ns ms chain : List Name} {n : Name} {s s₁ s' : State γ σ}

theorem Visits.append (h : Visits run ns s s₁) (h' : Visits run ms s₁ s') :
    Visits run (ns ++ ms) s s' := by
  induction h with
  | nil => exact h'
  | known hn _ ih => exact .known hn (ih h')
  | fresh hn hu hi _ _ ih => exact .fresh hn hu hi (ih h')

theorem Stops.cons (h : Stops run [n] s chain s') : Stops run (n :: ns) s chain s' := by
  cases h with
  | back hn hu => exact .back hn hu
  | inside hn hu hi => exact .inside hn hu hi
  | later _ h => exact nomatch h

/-! ### What a walk keeps -/

/-- What was there in the state `s` is still there in `s'`. -/
structure State.Keeps (s s' : State γ σ) : Prop where
  unfolding : s'.unfolding = s.unfolding
  content : ∀ n, s'.working.content n = s.working.content n
  settled : ∀ n v, s.settled.get? n = some v → s'.settled.get? n = some v
  texts : s.texts.Within s'.texts

theorem State.Keeps.refl (s : State γ σ) : s.Keeps s where
  unfolding := rfl
  content _ := rfl
  settled _ _ h := h
  texts := .refl _

theorem State.Keeps.trans (h : s.Keeps s₁) (h' : s₁.Keeps s') : s.Keeps s' where
  unfolding := h'.unfolding.trans h.unfolding
  content n := (h'.content n).trans (h.content n)
  settled n v hn := h'.settled n v (h.settled n v hn)
  texts := h.texts.trans h'.texts

theorem State.texts_opened_self (hn : s.texts n = none) :
    (s.opened run n).texts n = some (s.enter run n).1 := by
  rw [State.texts] at hn
  simp [State.texts, OrderedMap.find_append, hn, OrderedMap.find]

theorem State.texts_within_opened : s.texts.Within (s.opened run n).texts := by
  intro m t hm
  rw [State.texts, State.opened_trace, OrderedMap.find_append]
  rw [State.texts] at hm
  rw [hm]
  rfl

/-- A new section is begun, visited and done with. -/
theorem State.Keeps.closed {text : String} (hn : s.settled.get? n = none)
    (h : (s.opened run n).Keeps s₁) : s.Keeps (s₁.closed n text) where
  unfolding := by
    show s₁.unfolding.dropLast = s.unfolding
    rw [h.unfolding, State.opened_unfolding, List.dropLast_concat]
  content m := (h.content m).trans (State.opened_content m)
  settled m v hm := by
    have hne : m ≠ n := fun hmn => by rw [hmn, hn] at hm; cases hm
    refine (OrderedMap.get?_insert_of_ne _ hne _).trans (h.settled m v ?_)
    rw [State.opened_settled, hm]
  texts := State.texts_within_opened.trans h.texts

theorem Visits.keeps (h : Visits run ns s s') : s.Keeps s' := by
  induction h with
  | nil => exact .refl _
  | known _ _ ih => exact ih
  | fresh hn _ _ _ ihi ih => exact (ihi.closed hn).trans ih

theorem Visits.keeps_closed (hn : s.settled.get? n = none)
    (hi : Visits run (references (s.enter run n).1) (s.opened run n) s₁) :
    s.Keeps (s₁.closed n (s.enter run n).1) := hi.keeps.closed hn

/-- What was visited is done with. -/
theorem Visits.settled (h : Visits run ns s s') : ∀ n ∈ ns, (s'.settled.get? n).isSome := by
  induction h with
  | nil => exact fun _ hn => absurd hn List.not_mem_nil
  | known hn hr ih =>
    intro m hm
    rcases List.mem_cons.1 hm with rfl | hm
    · obtain ⟨v, hv⟩ := Option.isSome_iff_exists.1 hn
      rw [hr.keeps.settled m v hv]
      rfl
    · exact ih m hm
  | @fresh n ns s s₁ s' _ _ _ hr _ ih =>
    intro m hm
    rcases List.mem_cons.1 hm with rfl | hm
    · rw [hr.keeps.settled m _ (OrderedMap.get?_insert_self ..)]
      rfl
    · exact ih m hm

/-! ### The program walks -/

/-- A way to visit names walks: it succeeds with the expanded text of the name,
    and is circular where the walk stops. -/
structure Walks (run : γ → σ → String × σ) (ask : Name → Walk γ σ String) : Prop where
  visits {n : Name} {s s' : State γ σ} {v : String} : ask n s = (.ok v, s') →
    Visits run [n] s s' ∧ s'.settled.get? n = some v
  stops {n : Name} {s s' : State γ σ} {chain : List Name} :
    ask n s = (.error (.circular chain), s') → Stops run [n] s chain s'

variable {ask : Name → Walk γ σ String} {text : String}

/-- Visiting names in turn gives the texts that they are done with. -/
theorem Walks.visits_of_visitAll (h : Walks run ask) {values : List (Name × String)}
    (hv : visitAll ask ns s = (.ok values, s')) :
    Visits run ns s s' ∧ ∀ n ∈ ns, OrderedMap.find n values = s'.settled.get? n := by
  induction ns generalizing s values with
  | nil =>
    obtain ⟨_, rfl⟩ := Prod.mk.inj hv
    exact ⟨.nil, fun _ hn => absurd hn List.not_mem_nil⟩
  | cons n ns ih =>
    rw [visitAll] at hv
    split at hv
    · cases hv
    · next v s₁ hn =>
      split at hv
      · cases hv
      · next rest s₂ hrest =>
        obtain ⟨⟨⟩, rfl⟩ := Prod.mk.inj hv
        obtain ⟨hn, hvalue⟩ := h.visits hn
        obtain ⟨hns, hvalues⟩ := ih hrest
        refine ⟨hn.append hns, fun m hm => ?_⟩
        by_cases hmn : n = m
        · -- What the first name is done with stays so in the walk through the others.
          rw [OrderedMap.find, if_pos hmn, hns.keeps.settled m v (hmn ▸ hvalue)]
        · rw [OrderedMap.find, if_neg hmn]
          exact hvalues m ((List.mem_cons.1 hm).resolve_left (Ne.symm hmn))

theorem Walks.stops_of_visitAll (h : Walks run ask)
    (hv : visitAll ask ns s = (.error (.circular chain), s')) : Stops run ns s chain s' := by
  induction ns generalizing s with
  | nil => cases hv
  | cons n ns ih =>
    rw [visitAll] at hv
    split at hv
    · next hn =>
      obtain ⟨⟨⟩, rfl⟩ := Prod.mk.inj hv
      exact (h.stops hn).cons
    · next v s₁ hn =>
      split at hv
      · next hrest =>
        obtain ⟨⟨⟩, rfl⟩ := Prod.mk.inj hv
        exact .later (h.visits hn).1 (ih hrest)
      · cases hv

/-- A text is expanded by visiting the names in it and putting in what they are
    done with. -/
theorem Walks.visits_of_expandWith (h : Walks run ask) {out : String}
    (hv : expandWith ask text s = (.ok out, s')) :
    Visits run (references text) (s.recover (references text)) s' ∧
      out = substitute s'.settled.get? text := by
  rw [expandWith] at hv
  split at hv
  · next href =>
    obtain ⟨⟨⟩, rfl⟩ := Prod.mk.inj hv
    rw [href]
    exact ⟨.nil, (substitute_of_references_eq_nil href).symm⟩
  · next n ns href =>
    rw [← href] at hv
    split at hv
    · cases hv
    · next values s₁ hvisits =>
      obtain ⟨⟨⟩, rfl⟩ := Prod.mk.inj hv
      obtain ⟨hvisits, hvalues⟩ := h.visits_of_visitAll hvisits
      exact ⟨hvisits, substitute_congr fun m hm => hvalues m (mem_references.2 hm)⟩

theorem Walks.stops_of_expandWith (h : Walks run ask)
    (hv : expandWith ask text s = (.error (.circular chain), s')) :
    Stops run (references text) (s.recover (references text)) chain s' := by
  rw [expandWith] at hv
  split at hv
  · cases hv
  · next n ns href =>
    rw [← href] at hv
    split at hv
    · next hstops =>
      obtain ⟨⟨⟩, rfl⟩ := Prod.mk.inj hv
      exact h.stops_of_visitAll hstops
    · cases hv

theorem visit_of_settled {depth : Nat} {v : String} (hn : s.settled.get? n = some v) :
    visit run (depth + 1) n s = (.ok v, s) := by
  rw [visit, hn]

theorem visit_of_mem {depth : Nat} (hn : s.settled.get? n = none) (hu : n ∈ s.unfolding) :
    visit run (depth + 1) n s = (.error (.circular (s.chain n)), s) := by
  rw [visit, hn]
  exact if_pos hu

theorem visit_of_not_mem {depth : Nat} (hn : s.settled.get? n = none) (hu : n ∉ s.unfolding) :
    visit run (depth + 1) n s =
      match expandWith (visit run depth) (s.enter run n).1 (s.enter run n).2 with
      | (.error e, s) => (.error e, s.leave)
      | (.ok out, s) => (.ok out, s.leave.settle n out) := by
  rw [visit, hn]
  exact if_neg hu

/-- At every depth, the program walks. -/
theorem walks_visit (depth : Nat) : Walks run (visit run depth) := by
  induction depth with
  | zero =>
    constructor
    · intro n s s' v h
      cases h
    · intro n s s' chain h
      cases h
  | succ depth ih =>
    constructor
    · intro n s s' v h
      cases hn : s.settled.get? n with
      | some w =>
        rw [visit_of_settled hn] at h
        obtain ⟨⟨⟩, rfl⟩ := Prod.mk.inj h
        exact ⟨.known (by rw [hn]; rfl) .nil, hn⟩
      | none =>
        by_cases hu : n ∈ s.unfolding
        · rw [visit_of_mem hn hu] at h
          cases h
        · rw [visit_of_not_mem hn hu] at h
          split at h
          · cases h
          · next out s₁ hout =>
            obtain ⟨⟨⟩, rfl⟩ := Prod.mk.inj h
            obtain ⟨hvisits, rfl⟩ := ih.visits_of_expandWith hout
            exact ⟨.fresh hn hu hvisits .nil, OrderedMap.get?_insert_self ..⟩
    · intro n s s' chain h
      cases hn : s.settled.get? n with
      | some w =>
        rw [visit_of_settled hn] at h
        cases h
      | none =>
        by_cases hu : n ∈ s.unfolding
        · rw [visit_of_mem hn hu] at h
          obtain ⟨⟨⟩, rfl⟩ := Prod.mk.inj h
          exact .back hn hu
        · rw [visit_of_not_mem hn hu] at h
          split at h
          · next hstops =>
            obtain ⟨⟨⟩, rfl⟩ := Prod.mk.inj h
            exact .inside hn hu (ih.stops_of_expandWith hstops)
          · cases h

end Stencil.Section
