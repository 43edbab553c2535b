import Mathlib.Data.List.ReduceOption
import Stencil.Proofs.Piece
import Stencil.Proofs.Pure

/-!
# Seams

The text of a section is put in the place of a placeholder, and the text that comes
out is not read again. So it may contain placeholders: from the layout `@A@B@`, with
the section `@` under `A`, comes `@B@`, whether or not there is a section `B`.

But none of them stood in the layout or in a section, as those were all replaced.
Wherever one is found, a *seam* lies between its two signs: a place where the text
of a section begins or ends. To say so, the text is spelled with a mark at every
seam (`Marks`). What stands between two marks are characters that belong to no
placeholder of one text, and these do not contain one (`Marks.not_infix`).

The first half of a placeholder across a seam is a sign, and behind it characters of
a name only, up to the seam. A text is *tight* if it has no such sign, which is seen
by looking at this text alone (`Tight`). From tight texts no placeholder comes out.
-/

namespace Stencil.Section

open Placeholder

variable {texts : Texts} {layout : String} {ps : List Piece} {ms ms' w : List (Option Char)}
  {name : List Char}

/-- The text that some pieces stand for, with a mark (`none`) wherever the text of a
    section begins or ends. -/
inductive Marks (texts : Texts) : List Piece → List (Option Char) → Prop
  | nil : Marks texts [] []
  | char {c : Char} {ps : List Piece} {ms : List (Option Char)} : Marks texts ps ms →
      Marks texts (.char c :: ps) (some c :: ms)
  | reference {name : List Char} {t : String} {ps : List Piece} {inner ms : List (Option Char)} :
      texts (.of (String.ofList name)) = some t → Marks texts (pieces t.toList) inner →
      Marks texts ps ms → Marks texts (.reference name :: ps) (none :: (inner ++ none :: ms))

/-- The expansion of a text can be marked. -/
theorem Spells.exists_marks {cs : List Char} (h : Spells texts ps cs) :
    ∃ ms, Marks texts ps ms ∧ ms.reduceOption = cs := by
  induction h with
  | nil => exact ⟨[], .nil, rfl⟩
  | @char c _ _ _ ih =>
    obtain ⟨ms, hms, rfl⟩ := ih
    exact ⟨some c :: ms, .char hms, List.reduceOption_cons_of_some c ms⟩
  | reference ht _ _ ihi ih =>
    obtain ⟨inner, hinner, rfl⟩ := ihi
    obtain ⟨ms, hms, rfl⟩ := ih
    refine ⟨_, .reference ht hinner hms, ?_⟩
    rw [List.reduceOption_cons_of_none, List.reduceOption_append, List.reduceOption_cons_of_none]

/-! ### Between the seams -/

/-- What contains no mark lies on one side of a mark. -/
theorem infix_of_infix_append_none (hw : none ∉ w) (h : w <:+: ms ++ none :: ms') :
    w <:+: ms ∨ w <:+: ms' := by
  have hfront : ∀ v, v ⊆ w → v <+: none :: ms' → v = [] := by
    intro v hv h
    rcases List.prefix_cons_iff.1 h with rfl | ⟨v', rfl, -⟩
    · rfl
    · exact absurd (hv List.mem_cons_self) hw
  rcases List.infix_append_iff.1 h with h | h | ⟨v, v', rfl, hv, hv'⟩
  · exact .inl h
  · rcases List.infix_cons_iff.1 h with h | h
    · rw [hfront w (List.Subset.refl w) h]
      exact .inl List.nil_infix
    · exact .inr h
  · rw [hfront v' (List.subset_append_right v v') hv', List.append_nil]
    exact .inl hv.isInfix

/-- Characters in front of the first seam belong to no placeholder. -/
theorem Marks.map_char_of_map_some (h : Marks texts ps ms) {cs : List Char}
    (hcs : cs.map some <+: ms) : cs.map Piece.char <+: ps := by
  induction h generalizing cs with
  | nil =>
    rw [List.prefix_nil, List.map_eq_nil_iff] at hcs
    rw [hcs]
    exact List.nil_prefix
  | char _ ih =>
    cases cs with
    | nil => exact List.nil_prefix
    | cons d cs =>
      rw [List.map_cons, List.cons_prefix_cons, Option.some.injEq] at hcs
      rw [List.map_cons, List.cons_prefix_cons, hcs.1]
      exact ⟨rfl, ih hcs.2⟩
  | reference =>
    cases cs with
    | nil => exact List.nil_prefix
    | cons d cs =>
      rw [List.map_cons, List.cons_prefix_cons] at hcs
      exact absurd hcs.1 (Option.some_ne_none d)

/-- No placeholder lies between two seams. -/
theorem Marks.not_infix (h : Marks texts ps ms) (hname : IsName name)
    (hps : ¬(Piece.reference name).written.map Piece.char <:+: ps) :
    ¬(Piece.reference name).written.map some <:+: ms := by
  induction h with
  | nil =>
    rw [List.infix_nil]
    exact List.cons_ne_nil _ _
  | char hms ih =>
    rw [List.infix_cons_iff, not_or]
    refine ⟨fun hfront => hps (Marks.map_char_of_map_some (.char hms) hfront).isInfix, ih ?_⟩
    exact fun hinfix => hps (List.infix_cons_iff.2 (.inr hinfix))
  | reference ht hinner hms ihi ih =>
    rw [List.infix_cons_iff, not_or]
    constructor
    · rw [Piece.written, List.map_cons, List.cons_prefix_cons]
      exact fun hfront => Option.some_ne_none '@' hfront.1
    · intro hinfix
      rcases infix_of_infix_append_none (by simp) hinfix with hinfix | hinfix
      · exact ihi (not_infix_pieces hname) hinfix
      · exact ih (fun hinfix => hps (List.infix_cons_iff.2 (.inr hinfix))) hinfix

/-! ### Across a seam -/

/-- Without marks there are only characters. -/
theorem map_some_reduceOption (h : none ∉ ms) : ms.reduceOption.map some = ms := by
  induction ms with
  | nil => rfl
  | cons m ms ih =>
    rw [List.mem_cons, not_or] at h
    cases m with
    | none => exact absurd rfl h.1
    | some c => rw [List.reduceOption_cons_of_some, List.map_cons, ih h.2]

/-- A placeholder that is spelled, but not between two seams, has a seam between its
    signs. -/
theorem exists_seam {before after : List Char}
    (h : ms.reduceOption = before ++ '@' :: (name ++ '@' :: after))
    (hms : ¬(Piece.reference name).written.map some <:+: ms) :
    ∃ v, some '@' :: (v ++ [some '@']) <:+: ms ∧ v.reduceOption = name ∧ none ∈ v := by
  -- The marks are cut at the two signs.
  obtain ⟨front, ms₁, rfl, -, h₁⟩ := List.filterMap_eq_append_iff.1 h
  obtain ⟨front', _, ms₂, rfl, -, rfl, h₂⟩ := List.filterMap_eq_cons_iff.1 h₁
  obtain ⟨v, ms₃, rfl, hv, h₃⟩ := List.filterMap_eq_append_iff.1 h₂
  obtain ⟨v', _, back, rfl, hv', rfl, -⟩ := List.filterMap_eq_cons_iff.1 h₃
  have hinfix : some '@' :: (v ++ v' ++ [some '@']) <:+:
      front ++ (front' ++ some '@' :: (v ++ (v' ++ some '@' :: back))) :=
    ⟨front ++ front', back, by simp⟩
  have hname : (v ++ v').reduceOption = name := by
    have hnil : v'.reduceOption = [] := List.filterMap_eq_nil_iff.2 hv'
    rw [List.reduceOption_append, hnil, List.append_nil]
    exact hv
  refine ⟨v ++ v', hinfix, hname, ?_⟩
  by_contra hnone
  apply hms
  rw [Piece.written, List.map_cons, List.map_append, ← hname, map_some_reduceOption hnone]
  exact hinfix

/-! ### Tight texts -/

/-- Whether no sign is followed by characters of a name only, up to a mark or to the
    end; `behind` tells that such a sign and such characters stand before. -/
def tightFrom : (behind : Bool) → List (Option Char) → Bool
  | behind, [] => !behind
  | behind, none :: ms => !behind && tightFrom false ms
  | behind, some c :: ms => tightFrom (c == '@' || behind && isNameChar c) ms

/-- Behind a sign that belongs to no placeholder of the text, another character comes
    than those of a name, before the next placeholder and before the end. -/
def Tight (text : String) : Prop := tightFrom false ((pieces text.toList).map Piece.char?) = true

instance (text : String) : Decidable (Tight text) :=
  inferInstanceAs (Decidable (tightFrom false ((pieces text.toList).map Piece.char?) = true))

theorem tightFrom_append_none (behind : Bool) :
    tightFrom behind (ms ++ none :: ms') = (tightFrom behind ms && tightFrom false ms') := by
  induction ms generalizing behind with
  | nil => rfl
  | cons m ms ih =>
    cases m with
    | none => rw [List.cons_append, tightFrom, tightFrom, ih, Bool.and_assoc]
    | some c => rw [List.cons_append, tightFrom, tightFrom, ih]

/-- Where all texts put in are tight, no mark comes too early. -/
theorem Marks.tightFrom_eq_true (h : Marks texts ps ms)
    (hps : ∀ name, .reference name ∈ ps → Reachable texts layout (.of (String.ofList name)))
    (htight : ∀ n t, Reachable texts layout n → texts n = some t → Tight t) (behind : Bool)
    (hp : tightFrom behind (ps.map Piece.char?) = true) : tightFrom behind ms = true := by
  induction h generalizing behind with
  | nil => exact hp
  | char _ ih => exact ih (fun name hname => hps name (List.mem_cons_of_mem _ hname)) _ hp
  | @reference name t ps inner ms ht _ _ ihi ih =>
    have hreach := hps name List.mem_cons_self
    rw [List.map_cons, Piece.char?, tightFrom, Bool.and_eq_true] at hp
    rw [tightFrom, tightFrom_append_none, Bool.and_eq_true, Bool.and_eq_true]
    refine ⟨hp.1, ihi (fun name hname => ?_) false (htight _ t hreach ht),
      ih (fun name hname => hps name (List.mem_cons_of_mem _ hname)) false hp.2⟩
    exact .step hreach ⟨t, ht, mentions_of_mem_pieces hname⟩

/-- A mark among characters of a name comes too early. -/
theorem tightFrom_eq_false_of_seam {v : List (Option Char)}
    (hname : ∀ c ∈ v.reduceOption, isNameChar c) (hv : none ∈ v) :
    tightFrom true (v ++ ms) = false := by
  induction v with
  | nil => exact absurd hv List.not_mem_nil
  | cons m v ih =>
    cases m with
    | none => rfl
    | some c =>
      rw [List.reduceOption_cons_of_some] at hname
      have hc := hname c List.mem_cons_self
      rw [List.cons_append, tightFrom, hc, Bool.and_true, Bool.or_true]
      refine ih (fun d hd => hname d (List.mem_cons_of_mem _ hd)) ?_
      exact (List.mem_cons.1 hv).resolve_left nofun

theorem tightFrom_of_append_sign (behind : Bool)
    (h : tightFrom behind (ms ++ some '@' :: ms') = true) : tightFrom true ms' = true := by
  induction ms generalizing behind with
  | nil => exact h
  | cons m ms ih =>
    cases m with
    | none =>
      rw [List.cons_append, tightFrom, Bool.and_eq_true] at h
      exact ih false h.2
    | some c => exact ih _ h

/-! ### Layouts -/

section

variable {γ σ : Type} {run : γ → σ → String × σ} {layout : Content γ} {sections : Table γ}
  {world : σ} {e : Expanded γ}

/-- In the text that comes out for pure sections, there is a seam between the two
    signs of every placeholder; so none stands there as it stood in the layout or in
    a section. If these are tight, there is no placeholder at all. -/
theorem resolve_placeholders_across_seams (hpure : sections.Pure run)
    (h : (resolve run layout sections world).result = .ok e) :
    (∃ ms, Marks (sections.texts run world) (pieces (layout.text run world).toList) ms ∧
      ms.reduceOption = e.text.toList ∧
      ∀ name ∈ scan e.text, ∃ v, some '@' :: (v ++ [some '@']) <:+: ms ∧
        v.reduceOption = name.toList ∧ none ∈ v) ∧
    (Tight (layout.text run world) →
      (∀ n t, Reachable (sections.texts run world) (layout.text run world) n →
        sections.texts run world n = some t → Tight t) →
      scan e.text = []) := by
  obtain ⟨ms, hms, htext⟩ :=
    Spells.exists_marks (expands_of_resolve_eq_ok layout world hpure h)
  have hseam : ∀ name ∈ scan e.text, ∃ v, some '@' :: (v ++ [some '@']) <:+: ms ∧
      v.reduceOption = name.toList ∧ none ∈ v ∧ IsName name.toList := by
    intro s hs
    obtain ⟨p, hp, hps⟩ := List.mem_filterMap.1 hs
    cases p with
    | char c => cases hps
    | reference name =>
      rw [Piece.name?, Option.some.injEq] at hps
      obtain ⟨hname, before, after, hcs⟩ := exists_append_of_mem_pieces hp
      rw [← hps, String.toList_ofList]
      obtain ⟨v, hv, hvname, hnone⟩ :=
        exists_seam (htext.trans hcs) (hms.not_infix hname (not_infix_pieces hname))
      exact ⟨v, hv, hvname, hnone, hname⟩
  refine ⟨⟨ms, hms, htext, fun name hname => ?_⟩, fun hlayout htight => ?_⟩
  · obtain ⟨v, hv, hvname, hnone, -⟩ := hseam name hname
    exact ⟨v, hv, hvname, hnone⟩
  · -- The characters behind the first sign are those of a name up to the seam.
    refine List.eq_nil_iff_forall_not_mem.2 fun name hname => ?_
    obtain ⟨v, ⟨front, back, hv⟩, hvname, hnone, -, hchars⟩ := hseam name hname
    have hall := hms.tightFrom_eq_true (fun name hname => .mention (mentions_of_mem_pieces hname))
      htight false hlayout
    rw [← hv, List.append_assoc, List.cons_append] at hall
    have htrue := tightFrom_of_append_sign false hall
    rw [List.append_assoc, tightFrom_eq_false_of_seam (hvname ▸ hchars) hnone] at htrue
    cases htrue

end

/-- Two sections with signs that belong to no placeholder. -/
def sender : Table String :=
  .ofSections [("sender", .literal "<info@example.org> @Place@"), ("place", .literal "@ home")]

theorem resolve_placeholders_across_seams_sender :
    sender.Pure fixedAnswer ∧
    ∃ e, (resolve fixedAnswer (.literal "From: @SENDER@.") sender 0).result = .ok e ∧
      e.text = "From: <info@example.org> @ home." ∧
      (∃ ms, Marks (sender.texts fixedAnswer 0) (pieces "From: @SENDER@.".toList) ms ∧
        ms.reduceOption = e.text.toList ∧
        ∀ name ∈ scan e.text, ∃ v, some '@' :: (v ++ [some '@']) <:+: ms ∧
          v.reduceOption = name.toList ∧ none ∈ v) ∧
      Tight "From: @SENDER@." ∧
      (∀ n t, Reachable (sender.texts fixedAnswer 0) "From: @SENDER@." n →
        sender.texts fixedAnswer 0 n = some t → Tight t) ∧
      scan e.text = [] := by
  have hpure := pure_fixedAnswer sender
  have hlayout : Tight "From: @SENDER@." := by decide +kernel
  have htight : ∀ n t, Reachable (sender.texts fixedAnswer 0) "From: @SENDER@." n →
      sender.texts fixedAnswer 0 n = some t → Tight t := by
    intro n t hn ht
    have hmem : n ∈ [Name.of "sender", .of "place"] :=
      hn.mem_of_closed (by decide +kernel) (by decide +kernel)
    have hall : ∀ m ∈ [Name.of "sender", .of "place"], ∀ u ∈ sender.texts fixedAnswer 0 m,
        Tight u := by decide +kernel
    exact hall n hmem t ht
  obtain ⟨e, h, htext⟩ : ∃ e,
      (resolve fixedAnswer (.literal "From: @SENDER@.") sender 0).result = .ok e ∧
        e.text = "From: <info@example.org> @ home." :=
    exists_of_toOption_map_eq (by decide +kernel)
  obtain ⟨hseams, hscan⟩ := resolve_placeholders_across_seams hpure h
  exact ⟨hpure, e, h, htext, hseams, hlayout, htight, hscan hlayout htight⟩

/-- A section whose text is a sign, and another one. -/
def sign : Table String := .ofSections [("a", .literal "@"), ("b", .literal "x")]

/-- A placeholder can come out although it has a section, and so has everything that
    can be reached from the layout. -/
theorem exists_known_placeholder_sign :
    (∀ n, Reachable (sign.texts fixedAnswer 0) "@A@B@" n → n ∈ sign.keys) ∧
    ∃ e, (resolve fixedAnswer (.literal "@A@B@") sign 0).result = .ok e ∧
      e.text = "@B@" ∧ ∃ name ∈ scan e.text, Name.of name ∈ sign.keys := by
  obtain ⟨e, h, htext⟩ : ∃ e,
      (resolve fixedAnswer (.literal "@A@B@") sign 0).result = .ok e ∧ e.text = "@B@" :=
    exists_of_toOption_map_eq (by decide +kernel)
  refine ⟨fun n hn => hn.mem_of_closed (by decide +kernel) (by decide +kernel), e, h, htext, ?_⟩
  rw [htext]
  exact ⟨"B", by decide +kernel, by decide +kernel⟩

end Stencil.Section
