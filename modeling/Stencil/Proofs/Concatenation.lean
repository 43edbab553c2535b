import Stencil.Proofs.Piece
import Stencil.Proofs.Recovery

/-!
# Concatenated layouts

Two texts one after the other are read like each by itself, unless a placeholder is found
that begins in the first one and ends in the second one (`pieces_append_iff`). Else the
names in the whole are those in the first text and then those in the second one that are
not in the first (`references_append`).

The run through the whole does not visit a name again that both texts mention, and uses
what the first half has left behind. But the plain walk passes a name each time or never,
so to leave out those it has passed changes nothing (`Circles.filter`). For pure
sections, a concatenated layout is expanded to the concatenated texts, or fails as its
first half does, or else as its second half does (`resolve_append`).
-/

namespace Stencil

open Section (Name)

namespace Placeholder

variable {front back : List Char} {p : Piece}

/-- In two texts one after the other, a placeholder is found that begins in the first one
    and ends in the second one. -/
def Straddles (front back : List Char) : Prop :=
  ∃ before name after, pieces (front ++ back) = before ++ .reference name :: after ∧
    (before.flatMap Piece.written).length < front.length ∧
    front.length <
      (before.flatMap Piece.written).length + (Piece.reference name).written.length

/-- A placeholder does so behind a piece that is read first, too. -/
theorem Straddles.cons (h : Straddles front back)
    (hp : pieces (p.written ++ (front ++ back)) = p :: pieces (front ++ back)) :
    Straddles (p.written ++ front) back := by
  obtain ⟨before, name, after, hpieces, hbegin, hend⟩ := h
  refine ⟨p :: before, name, after, ?_, ?_, ?_⟩
  · rw [List.append_assoc, hp, hpieces, List.cons_append]
  · rw [List.flatMap_cons, List.length_append, List.length_append]
    omega
  · rw [List.flatMap_cons, List.length_append, List.length_append]
    omega

theorem pieces_append (h : ¬Straddles front back) :
    pieces (front ++ back) = pieces front ++ pieces back := by
  fun_induction pieces front with
  | case1 => rfl
  | case2 cs name rest hclosed ih =>
    obtain ⟨hname, rfl⟩ := closedName?_eq_some_iff.1 hclosed
    have hclosed' : closedName? (name ++ '@' :: rest ++ back) = some (name, rest ++ back) :=
      closedName?_eq_some_iff.2 ⟨hname, List.append_assoc ..⟩
    have hpieces := pieces_of_closedName? hclosed'
    rw [List.cons_append, hpieces, List.cons_append, ih]
    intro hstraddles
    have hwritten : '@' :: (name ++ '@' :: rest) = (Piece.reference name).written ++ rest := by
      simp [Piece.written]
    rw [hwritten] at h
    refine h (hstraddles.cons ?_)
    rw [← hpieces, ← List.append_assoc, ← hwritten, List.cons_append]
  | case3 cs hclosed ih =>
    cases hclosed' : closedName? (cs ++ back) with
    | none =>
      have hpieces := pieces_of_closedName?_eq_none hclosed'
      have hrest : ¬Straddles cs back := fun hs => h (hs.cons (p := .char '@') hpieces)
      rw [List.cons_append, hpieces, List.cons_append, ih hrest]
    | some r =>
      -- The name that the sign opens is closed behind the first text.
      obtain ⟨hname, heq⟩ := closedName?_eq_some_iff.1 hclosed'
      have hlt : cs.length < (r.1 ++ ['@']).length := by
        by_contra hle
        have hwhole : r.1 ++ ['@'] <+: cs ++ back := ⟨r.2, by rw [heq, List.append_assoc]; rfl⟩
        obtain ⟨rest, hrest⟩ := List.prefix_of_prefix_length_le hwhole
          (List.prefix_append cs back) (Nat.not_lt.1 hle)
        rw [← hrest, closedName?_eq_some_iff.2 ⟨hname, List.append_assoc ..⟩] at hclosed
        cases hclosed
      refine absurd ⟨[], r.1, pieces r.2, pieces_of_closedName? hclosed', ?_, ?_⟩ h
      · exact Nat.succ_pos _
      · rw [Piece.written, List.length_cons, List.length_cons, List.flatMap_nil, List.length_nil]
        omega
  | case4 c cs hc ih =>
    have hpieces : pieces (c :: (cs ++ back)) = .char c :: pieces (cs ++ back) :=
      pieces_cons_of_ne hc
    have hrest : ¬Straddles cs back := fun hs => h (hs.cons (p := .char c) hpieces)
    rw [List.cons_append, hpieces, List.cons_append, ih hrest]

theorem pieces_append_iff :
    pieces (front ++ back) = pieces front ++ pieces back ↔ ¬Straddles front back := by
  refine ⟨?_, pieces_append⟩
  rintro h ⟨before, name, after, hpieces, hbegin, hend⟩
  have hfront := congrArg List.length (flatMap_written_pieces front)
  rw [h] at hpieces
  rcases List.append_eq_append_iff.1 hpieces with ⟨more, rfl, -⟩ | ⟨more, hmore, hafter⟩
  · rw [List.flatMap_append, List.length_append] at hbegin
    omega
  · cases more with
    | nil =>
      rw [hmore, List.append_nil] at hfront
      omega
    | cons p more =>
      obtain rfl : .reference name = p := (List.cons.inj hafter).1
      rw [hmore, List.flatMap_append, List.flatMap_cons, List.length_append,
        List.length_append] at hfront
      omega

instance (front back : List Char) : Decidable (Straddles front back) :=
  decidable_of_iff (pieces (front ++ back) ≠ pieces front ++ pieces back)
    (not_congr pieces_append_iff |>.trans not_not)

example : Straddles "a@b".toList "c@".toList := by decide +kernel

/-- The names in two texts one after the other are those in the first one and then those
    in the second one that are new. -/
theorem references_append {front back : String} (h : ¬Straddles front.toList back.toList) :
    references (front ++ back) =
      references front ++ (references back).filter fun n => decide (n ∉ references front) := by
  rw [references, scan, String.toList_append, pieces_append h, List.filterMap_append,
    List.map_append, Name.distinct_append]
  simp only [references, scan, Name.mem_distinct]

end Placeholder

namespace Section

open Placeholder

variable {texts : Texts} {path ns ms chain : List Name} {front back : String}

/-! ### The plain walk -/

theorem Passes.of_mem (h : Passes texts path ns) {n : Name} (hn : n ∈ ns) :
    n ∉ path ∧ ∃ t, texts n = some t ∧ Passes texts (path ++ [n]) (references t) := by
  induction h with
  | nil => exact absurd hn List.not_mem_nil
  | cons hpath ht hinner _ _ ih =>
    rcases List.mem_cons.1 hn with rfl | hn
    · exact ⟨hpath, _, ht, hinner⟩
    · exact ih hn

/-- A walk that closes a circle does not come to the names behind. -/
theorem Circles.append (h : Circles texts path ns chain) (ms : List Name) :
    Circles texts path (ns ++ ms) chain := by
  induction h with
  | back hn => exact .back hn
  | inside hn ht hinner => exact .inside hn ht hinner
  | later hn ht hinner _ ih => exact .later hn ht hinner ih

/-- Behind names that it passes, the walk goes on to the others. -/
theorem Passes.append_circles (h : Passes texts path ns) (hc : Circles texts path ms chain) :
    Circles texts path (ns ++ ms) chain := by
  induction h with
  | nil => exact hc
  | cons hn ht hinner _ _ ih => exact .later hn ht hinner (ih hc)

/-- Names that a walk passes can be left out of it. -/
theorem Circles.filter (hc : Circles texts path ms chain) (h : Passes texts path ns) :
    Circles texts path (ms.filter fun n => decide (n ∉ ns)) chain := by
  induction hc with
  | @back path ms n hn =>
    have hmem : n ∉ ns := fun hmem => (h.of_mem hmem).1 hn
    rw [List.filter_cons_of_pos (by simpa using hmem)]
    exact .back hn
  | @inside path ms chain n t hn ht hinner _ =>
    -- Below a name that is passed, no circle is closed.
    have hmem : n ∉ ns := fun hmem => by
      obtain ⟨-, t', ht', hpasses⟩ := h.of_mem hmem
      rw [ht, Option.some.injEq] at ht'
      exact (ht' ▸ hpasses).not_circles hinner
    rw [List.filter_cons_of_pos (by simpa using hmem)]
    exact .inside hn ht hinner
  | @later path ms chain n t hn ht hinner _ ih =>
    by_cases hmem : n ∈ ns
    · rw [List.filter_cons_of_neg (by simpa using hmem)]
      exact ih h
    · rw [List.filter_cons_of_pos (by simpa using hmem)]
      exact .later hn ht hinner (ih h)

theorem passes_of_forall_grounded (h : ∀ n ∈ ns, Grounded texts n) : Passes texts [] ns := by
  induction ns with
  | nil => exact .nil
  | cons n ns ih =>
    have hpath : ∀ m ∈ ([] : List Name), ¬Relation.TransGen (Refers texts) n m :=
      List.forall_mem_nil _
    obtain ⟨t, ht, hinner⟩ := (h n List.mem_cons_self).passes hpath
    exact .cons List.not_mem_nil ht hinner (ih fun m hm => h m (List.mem_cons_of_mem _ hm))

theorem Spells.append {ps qs : List Piece} {cs ds : List Char} (h : Spells texts ps cs)
    (h' : Spells texts qs ds) : Spells texts (ps ++ qs) (cs ++ ds) := by
  induction h with
  | nil => exact h'
  | char _ ih => exact .char ih
  | reference ht hinner _ _ ih =>
    rw [List.append_assoc]
    exact .reference ht hinner ih

/-! ### Two texts -/

section

variable {out out' : String}

/-- The expansion of two texts one after the other is that of the one and then that of the
    other. -/
theorem Expands.append (hsplit : ¬Straddles front.toList back.toList)
    (h : Expands texts front out) (h' : Expands texts back out') :
    Expands texts (front ++ back) (out ++ out') := by
  rw [Expands, String.toList_append, String.toList_append, pieces_append hsplit]
  exact Spells.append h h'

/-- A circle in the first text is closed first. -/
theorem Circles.of_front (hsplit : ¬Straddles front.toList back.toList)
    (hc : Circles texts [] (references front) chain) :
    Circles texts [] (references (front ++ back)) chain := by
  rw [references_append hsplit]
  exact hc.append _

/-- A circle in the second text is closed behind a first text that has an expansion. -/
theorem Circles.of_back (hsplit : ¬Straddles front.toList back.toList)
    (h : Expands texts front out) (hc : Circles texts [] (references back) chain) :
    Circles texts [] (references (front ++ back)) chain := by
  have hpasses : Passes texts [] (references front) :=
    passes_of_forall_grounded fun n hn => h.grounded (mem_references.1 hn)
  rw [references_append hsplit]
  exact hpasses.append_circles (hc.filter hpasses)

end

/-! ### Layouts -/

variable {γ σ : Type} {run : γ → σ → String × σ} {sections : Table γ}

/-- Where no placeholder lies across the place at which two texts meet, with pure sections
    the whole closes the circle that the first text closes; if that is expanded, the circle
    that the second text closes; and if both are, it is expanded to their texts, one after the
    other. -/
theorem resolve_append (hpure : sections.Pure run)
    (hsplit : ¬Straddles front.toList back.toList) (world world₁ world₂ : σ) :
    (∃ chain, (resolve run (.literal front) sections world₁).result = .error (.circular chain) ∧
      (resolve run (.literal (front ++ back)) sections world).result =
        .error (.circular chain)) ∨
    (∃ e₁ chain, (resolve run (.literal front) sections world₁).result = .ok e₁ ∧
      (resolve run (.literal back) sections world₂).result = .error (.circular chain) ∧
      (resolve run (.literal (front ++ back)) sections world).result =
        .error (.circular chain)) ∨
    ∃ e₁ e₂ e, (resolve run (.literal front) sections world₁).result = .ok e₁ ∧
      (resolve run (.literal back) sections world₂).result = .ok e₂ ∧
      (resolve run (.literal (front ++ back)) sections world).result = .ok e ∧
      e.text = e₁.text ++ e₂.text := by
  -- The texts of the sections are the same in all three runs.
  have htexts : ∀ world', sections.texts run world' = sections.texts run world := fun world' =>
    hpure.texts_eq (fun _ => rfl) world world'
  have hfront := resolve_expands_or_circles (.literal front) world₁ hpure
  have hback := resolve_expands_or_circles (.literal back) world₂ hpure
  rw [htexts] at hfront hback
  rcases hfront with ⟨e₁, he₁, hexp₁⟩ | ⟨chain, he₁, hc⟩
  · rcases hback with ⟨e₂, he₂, hexp₂⟩ | ⟨chain, he₂, hc⟩
    · obtain ⟨e, he, htext⟩ :=
        exists_resolve_eq_ok_of_expands (.literal (front ++ back)) world hpure
          (hexp₁.append hsplit hexp₂)
      exact .inr (.inr ⟨e₁, e₂, e, he₁, he₂, he, htext⟩)
    · have he := resolve_eq_error_of_circles (.literal (front ++ back)) world hpure
        (hc.of_back hsplit hexp₁)
      exact .inr (.inl ⟨e₁, chain, he₁, he₂, he⟩)
  · exact .inl ⟨chain, he₁, resolve_eq_error_of_circles (.literal (front ++ back)) world hpure
      (hc.of_front hsplit)⟩

/-- Both halves refer to a shared section and to a missing one, and a sign in the first one is
    not closed. -/
theorem resolve_append_sharing :
    sharing.Pure fixedAnswer ∧ ¬Straddles "@Head@ a@b".toList ".c @BODY@".toList ∧
    ∃ e₁ e₂ e, (resolve fixedAnswer (.literal "@Head@ a@b") sharing 1).result = .ok e₁ ∧
      (resolve fixedAnswer (.literal ".c @BODY@") sharing 2).result = .ok e₂ ∧
      (resolve fixedAnswer (.literal ("@Head@ a@b" ++ ".c @BODY@")) sharing 0).result = .ok e ∧
      e.text = e₁.text ++ e₂.text := by
  have hpure := pure_fixedAnswer sharing
  have hsplit : ¬Straddles "@Head@ a@b".toList ".c @BODY@".toList := by decide +kernel
  have hok : (resolve fixedAnswer (.literal ("@Head@ a@b" ++ ".c @BODY@")) sharing 0).result.isOk =
      true := by decide +kernel
  rcases resolve_append hpure hsplit 0 1 2 with ⟨chain, -, he⟩ | ⟨e₁, chain, -, -, he⟩ | h
  · rw [he] at hok
    cases hok
  · rw [he] at hok
    cases hok
  · exact ⟨hpure, hsplit, h⟩

end Section

end Stencil
