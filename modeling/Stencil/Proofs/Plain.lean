import Mathlib.Data.List.Chain
import Mathlib.Data.List.Nodup
import Stencil.Proofs.Reference

/-!
# Plain expansion

What expansion means, without anything that is kept on the way: no sections that
are done with, no table that grows, no list of distinct names.

* `Expands texts text out`: `out` is the text `text` with every placeholder, as
  they are found from left to right, replaced by the expansion of the text of its
  section. Nothing is said about texts that were put in, so they are not read
  again. A text has at most one expansion (`Expands.unique`), and none if a
  section on a cycle can be reached from it (`Expands.not_onCycle`).
* `Passes texts path names` and `Circles texts path names chain`: the walk that
  goes down into every name, in order, each time it is met, along the path of the
  names that lead to it. It passes if no name is met on its own path; else it
  circles, and the first name that is met again ends it with the `circle` which
  it closes. It cannot do both, and it closes only one circle
  (`Passes.not_circles`, `Circles.unique`).

Grounded names are passed (`Grounded.passes`), and the circle closed by a walk
from a layout is a cycle of pairwise distinct sections that the layout leads to
(`Circles.isCycle`).
-/

namespace Stencil.Section

open Placeholder

variable {texts texts' : Texts}

/-! ### The expanded text -/

/-- The text that some pieces stand for, every placeholder being replaced by
    what the pieces of the text of its section stand for. -/
inductive Spells (texts : Texts) : List Piece → List Char → Prop
  | nil : Spells texts [] []
  | char {c : Char} {ps : List Piece} {cs : List Char} : Spells texts ps cs →
      Spells texts (.char c :: ps) (c :: cs)
  | reference {name : List Char} {t : String} {ps : List Piece} {inner cs : List Char} :
      texts (.of (String.ofList name)) = some t → Spells texts (pieces t.toList) inner →
      Spells texts ps cs → Spells texts (.reference name :: ps) (inner ++ cs)

/-- The text `out` is the expansion of `text`. -/
def Expands (texts : Texts) (text out : String) : Prop :=
  Spells texts (pieces text.toList) out.toList

theorem Spells.mono (hle : texts.Within texts') {ps : List Piece} {cs : List Char}
    (h : Spells texts ps cs) : Spells texts' ps cs := by
  induction h with
  | nil => exact .nil
  | char _ ih => exact .char ih
  | reference ht _ _ ihi ih => exact .reference (hle _ _ ht) ihi ih

theorem Expands.mono (hle : texts.Within texts') {text out : String}
    (h : Expands texts text out) : Expands texts' text out := Spells.mono hle h

theorem Spells.unique {ps : List Piece} {cs cs' : List Char} (h : Spells texts ps cs)
    (h' : Spells texts ps cs') : cs = cs' := by
  induction h generalizing cs' with
  | nil => cases h' with | nil => rfl
  | char _ ih => cases h' with | char h' => rw [ih h']
  | reference ht _ _ ihi ih =>
    cases h' with
    | reference ht' hi' h' =>
      rw [ht, Option.some.injEq] at ht'
      rw [ihi (ht' ▸ hi'), ih h']

/-- A text has at most one expansion. -/
theorem Expands.unique {text out out' : String} (h : Expands texts text out)
    (h' : Expands texts text out') : out = out' :=
  String.toList_inj.1 (Spells.unique h h')

/-- The names in pieces that stand for a text are grounded. -/
theorem Spells.grounded {ps : List Piece} {cs : List Char} (h : Spells texts ps cs) :
    ∀ name, Piece.reference name ∈ ps → Grounded texts (.of (String.ofList name)) := by
  induction h with
  | nil => exact fun _ hmem => absurd hmem List.not_mem_nil
  | char _ ih =>
    intro name hmem
    rcases List.mem_cons.1 hmem with h | h
    · cases h
    · exact ih name h
  | reference ht _ _ ihi ih =>
    -- The names in the text of its section are the names in the inner pieces.
    intro name hmem
    rcases List.mem_cons.1 hmem with h | h
    · rw [Piece.reference.injEq] at h
      refine .intro (h ▸ ht) fun m hm => ?_
      obtain ⟨name', hname', rfl⟩ := hm.exists_mem_pieces
      exact ihi name' hname'
    · exact ih name h

theorem Expands.grounded {text out : String} (h : Expands texts text out) {n : Name}
    (hn : Mentions text n) : Grounded texts n := by
  obtain ⟨name, hname, rfl⟩ := hn.exists_mem_pieces
  exact Spells.grounded h name hname

/-- What can be reached from a text that has an expansion lies on no cycle. -/
theorem Expands.not_onCycle {text out : String} (h : Expands texts text out) {n : Name}
    (hn : Reachable texts text n) : ¬OnCycle texts n :=
  (hn.grounded fun _ => h.grounded).not_onCycle

theorem spells_filled {values : Name → Option String} {ps : List Piece}
    (h : ∀ name, Piece.reference name ∈ ps → ∃ t v, texts (.of (String.ofList name)) = some t ∧
      Expands texts t v ∧ values (.of (String.ofList name)) = some v) :
    Spells texts ps (ps.flatMap (Piece.filled values)) := by
  induction ps with
  | nil => exact .nil
  | cons p ps ih =>
    have hps := ih fun name hname => h name (List.mem_cons_of_mem _ hname)
    cases p with
    | char c => exact .char hps
    | reference name =>
      obtain ⟨t, v, ht, hv, hvalue⟩ := h name List.mem_cons_self
      rw [List.flatMap_cons, Piece.filled, hvalue]
      exact .reference ht hv hps

/-- Putting in the expansions of all the sections that a text mentions gives its
    expansion. -/
theorem expands_substitute {values : Name → Option String} {text : String}
    (h : ∀ n, Mentions text n →
      ∃ t v, texts n = some t ∧ Expands texts t v ∧ values n = some v) :
    Expands texts text (substitute values text) := by
  rw [Expands, substitute, String.toList_ofList]
  exact spells_filled fun name hname => h _ (mentions_of_mem_pieces hname)

/-! ### The walk -/

/-- The way from `n` along a path on which it lies to `n` again. -/
def circle (path : List Name) (n : Name) : List Name :=
  path.dropWhile (fun m => decide (m ≠ n)) ++ [n]

/-- The walk down from some names, which `path` leads to, meets no name on its
    own path. -/
inductive Passes (texts : Texts) : (path names : List Name) → Prop
  | nil {path : List Name} : Passes texts path []
  | cons {path ns : List Name} {n : Name} {t : String} : n ∉ path → texts n = some t →
      Passes texts (path ++ [n]) (references t) → Passes texts path ns →
      Passes texts path (n :: ns)

/-- The walk down from some names, which `path` leads to, first meets a name on
    its own path when it closes the circle `chain`. -/
inductive Circles (texts : Texts) : (path names chain : List Name) → Prop
  | back {path ns : List Name} {n : Name} : n ∈ path → Circles texts path (n :: ns) (circle path n)
  | inside {path ns chain : List Name} {n : Name} {t : String} : n ∉ path → texts n = some t →
      Circles texts (path ++ [n]) (references t) chain → Circles texts path (n :: ns) chain
  | later {path ns chain : List Name} {n : Name} {t : String} : n ∉ path → texts n = some t →
      Passes texts (path ++ [n]) (references t) → Circles texts path ns chain →
      Circles texts path (n :: ns) chain

variable {path ns chain chain' : List Name}

theorem Passes.of_mentionsAs (hm : texts.MentionsAs texts') (h : Passes texts path ns) :
    Passes texts' path ns := by
  induction h with
  | nil => exact .nil
  | cons hn ht _ _ ihi ih =>
    obtain ⟨t', ht', hrefs⟩ := hm _ _ ht
    exact .cons hn ht' (hrefs ▸ ihi) ih

theorem Passes.mono (hle : texts.Within texts') (h : Passes texts path ns) :
    Passes texts' path ns := h.of_mentionsAs hle.mentionsAs

theorem Circles.of_mentionsAs (hm : texts.MentionsAs texts') (h : Circles texts path ns chain) :
    Circles texts' path ns chain := by
  induction h with
  | back hn => exact .back hn
  | inside hn ht _ ih =>
    obtain ⟨t', ht', hrefs⟩ := hm _ _ ht
    exact .inside hn ht' (hrefs ▸ ih)
  | later hn ht hi _ ih =>
    obtain ⟨t', ht', hrefs⟩ := hm _ _ ht
    exact .later hn ht' (hrefs ▸ hi.of_mentionsAs hm) ih

theorem Circles.mono (hle : texts.Within texts') (h : Circles texts path ns chain) :
    Circles texts' path ns chain := h.of_mentionsAs hle.mentionsAs

/-- A walk that passes closes no circle. -/
theorem Passes.not_circles (h : Passes texts path ns) : ¬Circles texts path ns chain := by
  induction h generalizing chain with
  | nil => exact fun h => nomatch h
  | cons hn ht _ _ ihi ih =>
    intro h
    cases h with
    | back hn' => exact hn hn'
    | inside _ ht' hc =>
      rw [ht, Option.some.injEq] at ht'
      exact ihi (ht' ▸ hc)
    | later _ _ _ hc => exact ih hc

/-- A walk closes one circle only. -/
theorem Circles.unique (h : Circles texts path ns chain) (h' : Circles texts path ns chain') :
    chain = chain' := by
  -- At every name the two walks do the same, as it is either on the path or not, and
  -- what is below it either passes or circles.
  induction h generalizing chain' with
  | back hn =>
    cases h' with
    | back => rfl
    | inside hn' => exact absurd hn hn'
    | later hn' => exact absurd hn hn'
  | inside hn ht hc ih =>
    cases h' with
    | back hn' => exact absurd hn' hn
    | inside _ ht' hc' =>
      rw [ht, Option.some.injEq] at ht'
      exact ih (ht' ▸ hc')
    | later _ ht' hp _ =>
      rw [ht, Option.some.injEq] at ht'
      exact absurd (ht' ▸ hc) hp.not_circles
  | later hn ht hp _ ih =>
    cases h' with
    | back hn' => exact absurd hn' hn
    | inside _ ht' hc' =>
      rw [ht, Option.some.injEq] at ht'
      exact absurd (ht' ▸ hc') hp.not_circles
    | later _ _ _ hc' => exact ih hc'

/-- A grounded name is passed on every path to which no way leads down from it. -/
theorem Grounded.passes {n : Name} (h : Grounded texts n) {path : List Name}
    (hpath : ∀ m ∈ path, ¬Relation.TransGen (Refers texts) n m) :
    ∃ t, texts n = some t ∧ Passes texts (path ++ [n]) (references t) := by
  induction h generalizing path with
  | @intro n t ht hg ih =>
    have hn : ¬OnCycle texts n := (Grounded.intro ht hg).not_onCycle
    refine ⟨t, ht, ?_⟩
    -- No way leads from a mentioned name to `n` or to its path, as it would lead
    -- there from `n` as well.
    have hdown : ∀ m, Mentions t m → ∀ k ∈ path ++ [n],
        ¬Relation.ReflTransGen (Refers texts) m k := by
      intro m hm k hk hmk
      have hnk : Relation.TransGen (Refers texts) n k := .head' ⟨t, ht, hm⟩ hmk
      rcases List.mem_append.1 hk with hk | hk
      · exact hpath k hk hnk
      · exact hn (List.mem_singleton.1 hk ▸ hnk)
    have hpass : ∀ ms : List Name, (∀ m ∈ ms, Mentions t m) → Passes texts (path ++ [n]) ms := by
      intro ms hms
      induction ms with
      | nil => exact .nil
      | cons m ms ihms =>
        have hm := hms m List.mem_cons_self
        obtain ⟨u, hu, hpu⟩ := ih m hm fun k hk hmk => hdown m hm k hk hmk.to_reflTransGen
        exact .cons (fun hmem => hdown m hm m hmem .refl) hu hpu
          (ihms fun k hk => hms k (List.mem_cons_of_mem _ hk))
    exact hpass _ fun m hm => mem_references.1 hm

/-! ### The circle -/

/-- The path leads down from a layout: it begins with a name that the layout
    mentions, and every name is mentioned in the text of the one before. -/
def Leads (texts : Texts) (layout : String) (path : List Name) : Prop :=
  path.IsChain (Refers texts) ∧ ∀ n ∈ path.head?, Mentions layout n

/-- The chain leads from a name around to the same name again, through sections
    that are pairwise distinct, and the layout leads there. -/
def IsCycle (texts : Texts) (layout : String) (chain : List Name) : Prop :=
  ∃ n ns, chain = n :: ns ++ [n] ∧ (n :: ns).Nodup ∧ Reachable texts layout n ∧
    chain.IsChain (Refers texts)

variable {layout : String} {m n : Name}

theorem leads_singleton (h : Mentions layout n) : Leads texts layout [n] := by
  refine ⟨.singleton n, fun m hm => ?_⟩
  rw [List.head?_cons, Option.mem_some_iff] at hm
  exact hm ▸ h

theorem Leads.mono (hle : texts.Within texts') (h : Leads texts layout path) :
    Leads texts' layout path :=
  ⟨h.1.imp fun _ _ => Refers.mono hle, h.2⟩

theorem Leads.concat (h : Leads texts layout (path ++ [m])) (hmn : Refers texts m n) :
    Leads texts layout (path ++ [m] ++ [n]) := by
  refine ⟨h.1.append (.singleton n) ?_, fun k hk => h.2 k ?_⟩
  · intro a ha b hb
    rw [List.getLast?_concat, Option.mem_some_iff] at ha
    rw [List.head?_cons, Option.mem_some_iff] at hb
    exact ha ▸ hb ▸ hmn
  · rw [List.head?_append_of_ne_nil _ (by simp)] at hk
    exact hk

theorem Leads.left_of_append {rest : List Name} (h : Leads texts layout (path ++ rest)) :
    Leads texts layout path := by
  refine ⟨h.1.left_of_append, fun n hn => h.2 n ?_⟩
  rw [List.head?_append, Option.mem_def.1 hn]
  rfl

theorem reachable_of_isChain (hc : path.IsChain (Refers texts))
    (hh : ∀ n ∈ path.head?, Reachable texts layout n) : ∀ n ∈ path, Reachable texts layout n := by
  induction path with
  | nil => exact fun _ hn => absurd hn List.not_mem_nil
  | cons m ms ih =>
    have hm := hh m rfl
    intro n hn
    rcases List.mem_cons.1 hn with rfl | hn
    · exact hm
    · exact ih hc.tail (fun k hk => .step hm (hc.rel_head? hk)) n hn

/-- Every name on a path that leads down from a layout is reachable. -/
theorem Leads.reachable (h : Leads texts layout path) (hn : n ∈ path) : Reachable texts layout n :=
  reachable_of_isChain h.1 (fun m hm => .mention (h.2 m hm)) n hn

/-- A circle closes a final part of the path. -/
theorem exists_circle_eq (h : n ∈ path) :
    ∃ before after, path = before ++ n :: after ∧ circle path n = n :: after ++ [n] := by
  induction path with
  | nil => exact absurd h List.not_mem_nil
  | cons m ms ih =>
    by_cases hm : m = n
    · exact ⟨[], ms, by rw [hm]; rfl, by simp [circle, hm]⟩
    · obtain ⟨before, after, hms, hc⟩ := ih ((List.mem_cons.1 h).resolve_left (Ne.symm hm))
      refine ⟨m :: before, after, by rw [hms]; rfl, ?_⟩
      rw [← hc, circle, circle, List.dropWhile_cons_of_pos (by simp [hm])]

/-- The circle closed by a walk down from a layout is a cycle to which the
    layout leads. -/
theorem Circles.isCycle (h : Circles texts path ns chain) (hpath : path.Nodup)
    (hns : ∀ n ∈ ns, Leads texts layout (path ++ [n])) : IsCycle texts layout chain := by
  induction h with
  | @back path ns n hn =>
    have hleads := hns n List.mem_cons_self
    obtain ⟨before, after, rfl, hc⟩ := exists_circle_eq hn
    refine ⟨n, after, hc, (List.nodup_append.1 hpath).2.1,
      hleads.reachable (List.mem_append_left _ hn), ?_⟩
    rw [hc]
    exact hleads.1.suffix ⟨before, by simp⟩
  | @inside path ns chain n t hn ht _ ih =>
    have hleads := hns n List.mem_cons_self
    have hpath' : (path ++ [n]).Nodup := by
      rw [← List.concat_eq_append]
      exact hpath.concat hn
    exact ih hpath' fun m hm => hleads.concat ⟨t, ht, mem_references.1 hm⟩
  | later _ _ _ _ ih => exact ih hpath fun m hm => hns m (List.mem_cons_of_mem _ hm)

/-- Every section of a cycle can be reached from itself. -/
theorem IsCycle.onCycle (h : IsCycle texts layout chain) : ∀ m ∈ chain, OnCycle texts m := by
  obtain ⟨n, ns, rfl, -, -, hc⟩ := h
  -- Along the chain, every name is reached from all those before it.
  have hp : (n :: ns ++ [n]).Pairwise (Relation.TransGen (Refers texts)) :=
    (hc.imp fun _ _ => .single).pairwise
  rw [List.pairwise_append] at hp
  have hback : ∀ m ∈ n :: ns, Relation.TransGen (Refers texts) m n :=
    fun m hm => hp.2.2 m hm n (List.mem_singleton_self n)
  intro m hm
  rcases List.mem_append.1 hm with hm | hm
  · rcases List.mem_cons.1 hm with rfl | hns
    · exact hback m hm
    · exact (hback m hm).trans ((List.pairwise_cons.1 hp.1).1 m hns)
  · exact List.mem_singleton.1 hm ▸ hback n List.mem_cons_self

theorem IsCycle.exists_onCycle (h : IsCycle texts layout chain) :
    ∃ n, Reachable texts layout n ∧ OnCycle texts n := by
  have hcycle := h.onCycle
  obtain ⟨n, ns, rfl, -, hn, -⟩ := h
  exact ⟨n, hn, hcycle n List.mem_cons_self⟩

end Stencil.Section
