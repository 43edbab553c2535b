import Stencil.Proofs.Filling
import Stencil.Proofs.Pure
import Stencil.Template.Rendering

/-!
# Outlines of renderings

The sections of a table are often all written down (`Table.IsLiteral`), and so is the
layout. Then a rendering is expanded to one text, or closes one circle, for whatever
generators there are and in whatever world: the data have no part in it
(`resolve_literal`).

The segments of the expanded text are the outline of all renderings of the layout with
these sections, by any template that has them and computes no data of its own
(`Template.HasTexts`): whatever its options, its data source and the data given from
outside are, they only fill the tags of this outline (`render_fills_outline`). What looks
like a section or a tag in a value is shown as it is.
-/

namespace Stencil

open Section Placeholder

namespace Section

variable {γ σ : Type}

/-- All sections of a table are texts that were written down. -/
def Table.IsLiteral (t : Table γ) : Prop := ∀ c ∈ t.values, c.literal?.isSome

instance (t : Table γ) : Decidable t.IsLiteral :=
  inferInstanceAs (Decidable (∀ c ∈ t.values, c.literal?.isSome))

/-- The texts of a table that were written down; a name without one has the empty text. -/
def Table.literals (t : Table γ) : Texts := fun n => some ((t.content n).literal?.getD "")

theorem Table.IsLiteral.exists_content_eq {t : Table γ} (h : t.IsLiteral) (n : Name) :
    ∃ text, t.content n = .literal text := by
  rw [Table.content]
  cases hn : t.get? n with
  | none => exact ⟨"", rfl⟩
  | some c =>
    have hc := h c (List.mem_map_of_mem (OrderedMap.mem_of_find hn))
    cases c with
    | literal text => exact ⟨text, rfl⟩
    | generated g => cases hc

/-- The texts of literal sections are the same for all generators, and in all worlds. -/
theorem Table.IsLiteral.texts_eq {t : Table γ} (h : t.IsLiteral) (run : γ → σ → String × σ)
    (world : σ) : t.texts run world = t.literals := by
  funext n
  obtain ⟨text, hn⟩ := h.exists_content_eq n
  rw [Table.texts, Table.literals, hn]
  rfl

theorem Table.IsLiteral.pure {t : Table γ} (h : t.IsLiteral) (run : γ → σ → String × σ) :
    t.Pure run := by
  intro n c hn world world'
  obtain ⟨text, hc⟩ := h.exists_content_eq n
  rw [Table.content, hn] at hc
  cases hc
  rfl

/-- A literal layout with literal sections closes one circle, or is expanded to one text,
    for all generators and in all worlds. -/
theorem resolve_literal (layout : String) {sections : Table γ} (h : sections.IsLiteral) :
    (∃ chain, Circles sections.literals [] (references layout) chain ∧
      ∀ {σ : Type} (run : γ → σ → String × σ) (world : σ),
        (resolve run (.literal layout) sections world).result = .error (.circular chain)) ∨
    ∃ out, Expands sections.literals layout out ∧
      ∀ {σ : Type} (run : γ → σ → String × σ) (world : σ),
        ∃ e, (resolve run (.literal layout) sections world).result = .ok e ∧ e.text = out := by
  have hplain : ∀ {σ : Type} (run : γ → σ → String × σ) (world : σ),
      (∃ e, (resolve run (.literal layout) sections world).result = .ok e ∧
        Expands sections.literals layout e.text) ∨
      ∃ chain, (resolve run (.literal layout) sections world).result = .error (.circular chain) ∧
        Circles sections.literals [] (references layout) chain := by
    intro σ run world
    have hrun := resolve_expands_or_circles (.literal layout) world (h.pure run)
    rwa [h.texts_eq run world] at hrun
  -- Any run tells which of the two it is, such as one that generates nothing.
  rcases hplain (fun _ _ => ("", ())) () with ⟨e, -, hexp⟩ | ⟨chain, -, hc⟩
  · refine .inr ⟨e.text, hexp, fun run world => ?_⟩
    rcases hplain run world with ⟨e', hr, hexp'⟩ | ⟨chain, -, hc⟩
    · exact ⟨e', hr, hexp'.unique hexp⟩
    · exact absurd hc hexp.not_circles
  · refine .inl ⟨chain, hc, fun run world => ?_⟩
    rcases hplain run world with ⟨e, -, hexp⟩ | ⟨chain', hr, hc'⟩
    · exact absurd hc hexp.not_circles
    · rw [hr, hc'.unique hc]

end Section

namespace Template

variable {σ : Type}

/-- A template whose layout is a given text, with given sections, that computes no data
    of its own and fills in tags as usual. -/
structure HasTexts (t : Template σ) (layout : String) (sections : Table (Generator σ)) : Prop where
  layout_eq : t.layout = .literal layout
  sections_eq : t.sections = sections
  prepare_eq : t.prepare = none
  interpolator_eq : t.interpolator = Tag.interpolate

/-- The data with which a template is rendered. -/
def renderedWith (t : Template σ) (external : Option Json) (h : Hub σ) : Context :=
  (t.countDraw.renderContext external h).1

/-- How the layout is expanded in a rendering. -/
def expansion (t : Template σ) (external : Option Json) (h : Hub σ) :
    Section.Outcome (Generator σ) σ :=
  t.countDraw.expand (t.renderedWith external h) (t.countDraw.renderContext external h).2

@[simp] theorem countDraw_interpolator (t : Template σ) :
    t.countDraw.interpolator = t.interpolator := rfl

/-- A rendering expands the layout, and hands the expanded text to the interpolator. -/
theorem render_result (t : Template σ) (external : Option Json) (h : Hub σ) :
    (t.render external h).result =
      ((t.expansion external h).result.mapError .sections).bind fun e =>
        (t.interpolator e.text (t.renderedWith external h)).mapError (.tags · e.text) := by
  rw [expansion, renderedWith, ← countDraw_interpolator]
  cases hexp : (t.countDraw.expand (t.countDraw.renderContext external h).1
    (t.countDraw.renderContext external h).2).result with
  | error failure => simp only [render, hexp, Except.mapError, Except.bind]
  | ok e =>
    cases hint : t.countDraw.interpolator e.text (t.countDraw.renderContext external h).1 with
    | error err => simp only [render, hexp, hint, Except.mapError, Except.bind]
    | ok text => simp only [render, hexp, hint, Except.mapError, Except.bind]

variable {t : Template σ} {layout out : String} {sections : Table (Generator σ)}
  {chain : List Name}

/-- The template made from a draft has the texts of the draft. -/
theorem hasTexts_build {d : Draft σ} (hlayout : d.layout = .literal layout) (n : Nat)
    (emitter : EmitterId) : (d.build n emitter).HasTexts layout d.sections :=
  ⟨hlayout, rfl, rfl, rfl⟩

theorem HasTexts.expansion_eq (ht : t.HasTexts layout sections) (external : Option Json)
    (h : Hub σ) :
    t.expansion external h =
      resolve (generate (t.countDraw.view (t.countDraw.renderContext external h).2)
        (t.renderedWith external h)) (.literal layout) sections
        (t.countDraw.renderContext external h).2.client := by
  rw [expansion, expand, countDraw, ht.layout_eq, ht.sections_eq]

/-- Where a layout closes a circle with some sections, renderings fail with it. -/
theorem HasTexts.render_of_circular (ht : t.HasTexts layout sections)
    (hr : ∀ (run : Generator σ → σ → String × σ) (world : σ),
      (resolve run (.literal layout) sections world).result = .error (.circular chain))
    (external : Option Json) (h : Hub σ) :
    (t.render external h).result = .error (.sections (.circular chain)) := by
  rw [render_result, ht.expansion_eq, hr]
  rfl

/-- Where a layout is expanded to one text with some sections, renderings fill it. -/
theorem HasTexts.render_of_expanded (ht : t.HasTexts layout sections)
    (hr : ∀ (run : Generator σ → σ → String × σ) (world : σ),
      ∃ e, (resolve run (.literal layout) sections world).result = .ok e ∧ e.text = out)
    (external : Option Json) (h : Hub σ) :
    (t.render external h).result =
      (Tag.interpolate out (t.renderedWith external h)).mapError (.tags · out) := by
  obtain ⟨e, he, rfl⟩ := hr (generate (t.countDraw.view (t.countDraw.renderContext external h).2)
    (t.renderedWith external h)) (t.countDraw.renderContext external h).2.client
  rw [render_result, ht.expansion_eq, he, ht.interpolator_eq]
  rfl

/-- A layout with literal sections has one outline for all renderings, whatever the data
    are: a circle that it closes, or an expanded text that cannot be read, or the segments
    of one that can. In the last case a rendering is its segments filled with the data
    of that rendering. -/
theorem render_fills_outline (layout : String) {sections : Table (Generator σ)}
    (hsections : sections.IsLiteral) :
    (∃ chain, Circles sections.literals [] (references layout) chain ∧
      ∀ t : Template σ, t.HasTexts layout sections → ∀ external h,
        (t.render external h).result = .error (.sections (.circular chain))) ∨
    ∃ out, Expands sections.literals layout out ∧
      ((∃ e, Tag.parse out = .error e ∧
        ∀ t : Template σ, t.HasTexts layout sections → ∀ external h,
          (t.render external h).result = .error (.tags e out)) ∨
      ∃ segments, Tag.parse out = .ok segments ∧
        ∀ t : Template σ, t.HasTexts layout sections → ∀ external h,
          ∃ r, Tag.Filled (t.renderedWith external h) segments r ∧
            (t.render external h).result = r.mapError (.tags · out)) := by
  rcases resolve_literal layout hsections with ⟨chain, hc, hr⟩ | ⟨out, hexp, hr⟩
  · exact .inl ⟨chain, hc, fun t ht external h => ht.render_of_circular hr external h⟩
  refine .inr ⟨out, hexp, ?_⟩
  cases hparse : Tag.parse out with
  | error e =>
    refine .inl ⟨e, rfl, fun t ht external h => ?_⟩
    rw [ht.render_of_expanded hr, Tag.interpolate_of_parse_eq_error hparse]
    rfl
  | ok segments =>
    refine .inr ⟨segments, rfl, fun t ht external h => ⟨_, ?_, ht.render_of_expanded hr external h⟩⟩
    exact (Tag.interpolate_eq_iff hparse).1 rfl

/-- A greeting that names somebody twice, once escaped. -/
def greeting : Draft Unit where
  stem := "greeting"
  layout := .literal "@Title@<%- name %>"
  sections := .ofSections [("title", .literal "<%= name %>, ")]
  options := []

theorem render_fills_outline_greeting :
    greeting.sections.IsLiteral ∧
    (greeting.build 1 ⟨0⟩).HasTexts "@Title@<%- name %>" greeting.sections ∧
    ∃ out segments, Expands greeting.sections.literals "@Title@<%- name %>" out ∧
      Tag.parse out = .ok segments ∧
      ∀ external h, ∃ r, Tag.Filled ((greeting.build 1 ⟨0⟩).renderedWith external h) segments r ∧
        ((greeting.build 1 ⟨0⟩).render external h).result = r.mapError (.tags · out) := by
  have hlit : greeting.sections.IsLiteral := by decide +kernel
  have ht : (greeting.build 1 ⟨0⟩).HasTexts "@Title@<%- name %>" greeting.sections :=
    hasTexts_build rfl 1 ⟨0⟩
  -- It has an outline, as it can be rendered with a name.
  have hok : ((greeting.build 1 ⟨0⟩).render (some (.object [("name", .string "x")]))
      (.start ())).result.isOk = true := by decide +kernel
  refine ⟨hlit, ht, ?_⟩
  rcases render_fills_outline "@Title@<%- name %>" hlit with
    ⟨chain, -, hr⟩ | ⟨out, hexp, ⟨e, -, hr⟩ | ⟨segments, hparse, hr⟩⟩
  · rw [hr _ ht] at hok
    cases hok
  · rw [hr _ ht] at hok
    cases hok
  · exact ⟨out, segments, hexp, hparse, fun external h => hr _ ht external h⟩

example :
    (renderOnce "@Title@<%- name %>" [("title", .literal "<%= name %>, ")]
      (.object [("name", .string "@TITLE@<%= 1 %>")]) ()).toOption =
      some "@TITLE@<%= 1 %>, @TITLE@&lt;%= 1 %&gt;" := by
  cbv

end Template

end Stencil
