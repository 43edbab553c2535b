import Stencil.Proofs.Outline
import Stencil.Proofs.Redrawing

/-!
# Repeated renderings

A text with tags reads nothing of a context but what stands under the roots of its tags
(`Tag.HasRoot`): two contexts that agree there fill it alike (`Tag.interpolate_congr`). The data of
a rendering change with the number of the rendering, under one name only
(`Template.Unchanged.get?_renderedWith`). So a template whose layout and sections are written down,
and whose expanded text has no tag with this name as its root, comes out the same each time it is
rendered.

Between two renderings anything may happen, as long as the template keeps its texts, its options
and its id, and its source has the same value again (`Template.Unchanged`). A rendering is itself
such a thing, whether it fails or not (`unchanged_render`). What a template comes to in the course
of this is told by `Template.Renderings`.

* `Template.renderings_repeat`: all renderings have the same result.
-/

namespace Stencil

open Section Placeholder

/-! ### What a text reads -/

namespace Tag

/-- A text can be divided into plain texts and tags, and one of the tags has the given root. -/
def HasRoot (text root : String) : Prop :=
  ∃ d : Division, d.chars = text.toList ∧ ∃ s ∈ d.segments 0, s.root? = some root

variable {c c' : Context} {text : String}

theorem Segment.fill_congr {s : Segment}
    (h : ∀ root, s.root? = some root → c.get? root = c'.get? root) : s.fill c = s.fill c' := by
  cases s with
  | text cs => rfl
  | tag escaped path span =>
    have hroot : c.get? (pathRoot path) = c'.get? (pathRoot path) := h _ rfl
    rw [fill, fill, lookup, lookup, Context.getPath?_eq, Context.getPath?_eq, hroot]

theorem fillAll_congr {segments : List Segment}
    (h : ∀ s ∈ segments, ∀ root, s.root? = some root → c.get? root = c'.get? root) :
    fillAll c segments = fillAll c' segments := by
  induction segments with
  | nil => rfl
  | cons s segments ih =>
    rw [List.forall_mem_cons] at h
    rw [fillAll, fillAll, Segment.fill_congr h.1, ih h.2]

/-- In a text that can be read, the roots are those of its segments. -/
theorem hasRoot_iff {segments : List Segment} {root : String} (h : parse text = .ok segments) :
    HasRoot text root ↔ ∃ s ∈ segments, s.root? = some root := by
  constructor
  · rintro ⟨d, hd, hroot⟩
    have hparse : parse text = .ok (d.segments 0) := parse_eq_ok_iff.2 ⟨d, hd, rfl⟩
    rw [h] at hparse
    rwa [Except.ok.inj hparse]
  · obtain ⟨d, hd, rfl⟩ := parse_eq_ok_iff.1 h
    exact fun hroot => ⟨d, hd, hroot⟩

/-- A text is filled alike from contexts that have the same under the roots of its tags. -/
theorem interpolate_congr (h : ∀ root, HasRoot text root → c.get? root = c'.get? root) :
    interpolate text c = interpolate text c' := by
  rw [interpolate_eq_bind, interpolate_eq_bind]
  cases hparse : parse text with
  | error e => rfl
  | ok segments =>
    have hfill : fillAll c segments = fillAll c' segments :=
      fillAll_congr fun s hs root hroot => h root ((hasRoot_iff hparse).2 ⟨s, hs, hroot⟩)
    exact congrArg (Except.map String.ofList) hfill

end Tag

/-! ### What changes from one rendering to the next -/

/-- What is found under a name in layered data depends on the lower layer by this name only. -/
theorem Json.Fields.get?_merge_congr {k : String} {lower lower' : Fields}
    (h : get? k lower = get? k lower') (upper : Fields) :
    get? k (merge lower upper) = get? k (merge lower' upper) := by
  induction upper generalizing lower lower' with
  | nil => exact h
  | cons f upper ih =>
    refine ih ?_
    by_cases hk : k = f.1
    · rw [hk, get?_insert_self, get?_insert_self]
    · rw [get?_insert_of_ne hk, get?_insert_of_ne hk, h]

namespace Template

variable {σ : Type} {t t' t'' : Template σ} {h h' h'' : Hub σ} {external : Option Json}
  {results : List (Except RenderError String)}

/-- The value of the source of a template at a moment, if it is connected to one. -/
def sourceValue? (t : Template σ) (h : Hub σ) : Option Json := t.source.map (·.read h)

/-- What is asked of a template at two moments: that its id, its options, its layout and its
    sections are the same, what computes data for it and what fills in its tags, and that the
    value of its source is the same. How often it was rendered may have changed. -/
structure Unchanged (t : Template σ) (h : Hub σ) (t' : Template σ) (h' : Hub σ) : Prop where
  id_eq : t'.id = t.id
  options_eq : t'.options = t.options
  layout_eq : t'.layout = t.layout
  sections_eq : t'.sections = t.sections
  prepare_eq : t'.prepare = t.prepare
  interpolator_eq : t'.interpolator = t.interpolator
  source_eq : t'.sourceValue? h' = t.sourceValue? h

theorem Unchanged.trans (h₁ : t.Unchanged h t' h') (h₂ : t'.Unchanged h' t'' h'') :
    t.Unchanged h t'' h'' where
  id_eq := h₂.id_eq.trans h₁.id_eq
  options_eq := h₂.options_eq.trans h₁.options_eq
  layout_eq := h₂.layout_eq.trans h₁.layout_eq
  sections_eq := h₂.sections_eq.trans h₁.sections_eq
  prepare_eq := h₂.prepare_eq.trans h₁.prepare_eq
  interpolator_eq := h₂.interpolator_eq.trans h₁.interpolator_eq
  source_eq := h₂.source_eq.trans h₁.source_eq

/-- A rendering leaves a template as it is, however it ends. -/
theorem unchanged_render (t : Template σ) (external : Option Json) (h : Hub σ) :
    t.Unchanged h (t.render external h).template (t.render external h).hub := by
  refine ⟨rfl, rfl, rfl, rfl, rfl, rfl, ?_⟩
  rw [hub_render]
  rfl

/-- The texts of a template are those that it had. -/
theorem Unchanged.hasTexts {layout : String} {sections : Table (Generator σ)}
    (hu : t.Unchanged h t' h') (ht : t.HasTexts layout sections) : t'.HasTexts layout sections where
  layout_eq := hu.layout_eq.trans ht.layout_eq
  sections_eq := hu.sections_eq.trans ht.sections_eq
  prepare_eq := hu.prepare_eq.trans ht.prepare_eq
  interpolator_eq := hu.interpolator_eq.trans ht.interpolator_eq

theorem snapshot?_map_value (t : Template σ) (h : Hub σ) :
    (t.snapshot? h).map Snapshot.value = t.sourceValue? h := by
  rw [snapshot?, sourceValue?, Option.map_map]
  rfl

/-- What a template tells about itself is the same but for the number of the rendering. -/
theorem Unchanged.get?_baseContext (hu : t.Unchanged h t' h') {key : String}
    (hkey : key ≠ Context.drawKey) : (t'.baseContext h').get? key = (t.baseContext h).get? key := by
  rw [baseContext, baseContext, snapshot?_map_value, snapshot?_map_value, hu.id_eq, hu.options_eq,
    hu.source_eq]
  by_cases hid : key = Context.domIdKey
  · rw [hid, Context.get?_insert_self, Context.get?_insert_self]
  · rw [Context.get?_insert_of_ne _ hid, Context.get?_insert_of_ne _ hid,
      Context.get?_insert_of_ne _ hkey, Context.get?_insert_of_ne _ hkey]

/-- To count a rendering makes no other change. -/
theorem Unchanged.countDraw (hu : t.Unchanged h t' h') :
    t.countDraw.Unchanged h t'.countDraw h' :=
  ⟨hu.id_eq, hu.options_eq, hu.layout_eq, hu.sections_eq, hu.prepare_eq, hu.interpolator_eq,
    hu.source_eq⟩

theorem get?_withExternal_congr {c c' : Context} {key : String} (h : c.get? key = c'.get? key)
    (external : Option Json) :
    (withExternal c external).get? key = (withExternal c' external).get? key := by
  cases external with
  | none => exact h
  | some v =>
    rw [withExternal, withExternal, Context.mergeValue, Context.mergeValue]
    split
    · exact Json.Fields.get?_merge_congr h _
    · exact h

theorem renderedWith_of_prepare_eq_none (hprepare : t.prepare = none) (external : Option Json)
    (h : Hub σ) :
    t.renderedWith external h = withExternal (t.countDraw.baseContext h) external := by
  have hfields : (t.countDraw.preparedFields h).1 = [] := by
    rw [preparedFields, Template.countDraw, hprepare]
  rw [renderedWith, renderContext]
  show withExternal ((t.countDraw.baseContext h).merge (t.countDraw.preparedFields h).1) _ = _
  rw [hfields]
  rfl

/-- The data of a template that computes none differ in the number of the rendering only. -/
theorem Unchanged.get?_renderedWith (hu : t.Unchanged h t' h') (hprepare : t.prepare = none)
    (external : Option Json) {key : String} (hkey : key ≠ Context.drawKey) :
    (t'.renderedWith external h').get? key = (t.renderedWith external h).get? key := by
  rw [renderedWith_of_prepare_eq_none hprepare,
    renderedWith_of_prepare_eq_none (hu.prepare_eq.trans hprepare)]
  exact get?_withExternal_congr (hu.countDraw.get?_baseContext hkey) external

/-! ### Renderings in turn -/

section

variable {layout : String} {sections : Table (Generator σ)}

/-- A template comes out the same after a change that leaves its texts, its options, its id and
    the value of its source as they are, if it has no tag with the number of the rendering. -/
theorem Unchanged.render_result (hu : t.Unchanged h t' h') (ht : t.HasTexts layout sections)
    (hsections : sections.IsLiteral)
    (hdraw : ∀ out, Expands sections.literals layout out → ¬Tag.HasRoot out Context.drawKey)
    (external : Option Json) :
    (t'.render external h').result = (t.render external h).result := by
  have ht' := hu.hasTexts ht
  rcases resolve_literal layout hsections with ⟨chain, -, hr⟩ | ⟨out, hexp, hr⟩
  · rw [ht.render_of_circular hr, ht'.render_of_circular hr]
  · rw [ht.render_of_expanded hr, ht'.render_of_expanded hr]
    refine congrArg (Except.mapError _) (Tag.interpolate_congr fun root hroot => ?_)
    refine hu.get?_renderedWith ht.prepare_eq external ?_
    rintro rfl
    exact hdraw out hexp hroot

end

/-- The results of the renderings of a template in the course of time, with the same external
    value. Before, between and after them the template and the world may become others, as long
    as they are unchanged in the sense of `Unchanged`. -/
inductive Renderings (external : Option Json) :
    Template σ → Hub σ → List (Except RenderError String) → Prop
  | nil {t : Template σ} {h : Hub σ} : Renderings external t h []
  | render {t : Template σ} {h : Hub σ} {results : List (Except RenderError String)} :
      Renderings external (t.render external h).template (t.render external h).hub results →
      Renderings external t h ((t.render external h).result :: results)
  | meanwhile {t t' : Template σ} {h h' : Hub σ} {results : List (Except RenderError String)} :
      t.Unchanged h t' h' → Renderings external t' h' results → Renderings external t h results

/-- A text reads nothing of a context but what its tags have as roots, so a template whose layout
    and sections are written down, which computes no data and whose expanded text has no tag for
    the number of the rendering, comes out the same each time, be it with a text or with an error
    and what that points at. Renderings that fail make no difference to those that follow. -/
theorem renderings_repeat (external : Option Json) :
    (∀ (t : Template σ) (layout : String) (sections : Table (Generator σ)),
      t.HasTexts layout sections → sections.IsLiteral →
      (∀ out, Expands sections.literals layout out → ¬Tag.HasRoot out "draw") →
      ∀ (h : Hub σ) (results : List (Except RenderError String)),
        Renderings external t h results → ∀ r ∈ results, r = (t.render external h).result) ∧
    ∀ (text : String) (c c' : Context),
      (∀ root, Tag.HasRoot text root → c.get? root = c'.get? root) →
      Tag.interpolate text c = Tag.interpolate text c' := by
  refine ⟨fun t layout sections ht hsections hdraw h results hresults => ?_,
    fun text c c' => Tag.interpolate_congr⟩
  induction hresults with
  | nil => exact nofun
  | @render t h results _ ih =>
    have hu := t.unchanged_render external h
    rw [List.forall_mem_cons]
    refine ⟨rfl, fun r hr => ?_⟩
    rw [ih (hu.hasTexts ht) r hr, hu.render_result ht hsections hdraw]
  | @meanwhile t t' h h' results hu _ ih =>
    intro r hr
    rw [ih (hu.hasTexts ht) r hr, hu.render_result ht hsections hdraw]

/-- The text of a greeting, its sections expanded. -/
def greetingText : String := "<%= name %>, <%- name %>"

theorem eq_greetingText_of_expands {out : String}
    (h : Expands greeting.sections.literals "@Title@<%- name %>" out) : out = greetingText := by
  have hlit : greeting.sections.IsLiteral := by decide +kernel
  let run : Generator Unit → Unit → String × Unit := fun _ _ => ("", ())
  have hresolve : ((resolve run (.literal "@Title@<%- name %>") greeting.sections ()).result.map
      Expanded.text).toOption = some greetingText := by decide +kernel
  cases hr : (resolve run (.literal "@Title@<%- name %>") greeting.sections ()).result with
  | error failure =>
    rw [hr] at hresolve
    cases hresolve
  | ok e =>
    rw [hr] at hresolve
    have hexp := expands_of_resolve_eq_ok (.literal "@Title@<%- name %>") () (hlit.pure run) hr
    rw [hlit.texts_eq] at hexp
    exact (h.unique hexp).trans (Option.some.inj hresolve)

theorem hasRoot_greetingText {root : String} : Tag.HasRoot greetingText root ↔ root = "name" := by
  have hparse : Tag.parse greetingText =
      .ok [.tag false "name" ⟨0, 11⟩, .text [',', ' '], .tag true "name" ⟨13, 24⟩] := by
    decide +kernel
  have hroot : pathRoot "name" = "name" := by decide +kernel
  rw [Tag.hasRoot_iff hparse]
  simp [Tag.Segment.root?, hroot, eq_comm]

/-- A greeting without a name fails again, and its text reads nothing but the name. -/
theorem renderings_repeat_greeting :
    let t := greeting.build 1 ⟨0⟩
    let first := t.render none (.start ())
    first.result = .error (.tags (.undefined "name" ⟨0, 11⟩) greetingText) ∧
    first.template.draws = 1 ∧
    (first.template.render none first.hub).result = first.result ∧
    ∀ c c' : Context, c.get? "name" = c'.get? "name" →
      Tag.interpolate greetingText c = Tag.interpolate greetingText c' := by
  intro t first
  have ht : t.HasTexts "@Title@<%- name %>" greeting.sections := hasTexts_build rfl 1 ⟨0⟩
  have hlit : greeting.sections.IsLiteral := by decide +kernel
  have hdraw : ∀ out, Expands greeting.sections.literals "@Title@<%- name %>" out →
      ¬Tag.HasRoot out "draw" := by
    rintro out hout hroot
    rw [eq_greetingText_of_expands hout, hasRoot_greetingText] at hroot
    exact absurd hroot (by decide)
  obtain ⟨hrepeat, hcongr⟩ := renderings_repeat (σ := Unit) none
  refine ⟨by decide +kernel, rfl, ?_, fun c c' hname =>
    hcongr greetingText c c' fun root hroot => ?_⟩
  · refine hrepeat t _ _ ht hlit hdraw (.start ()) [first.result, _] (.render (.render .nil)) _ ?_
    exact List.mem_cons_of_mem _ List.mem_cons_self
  · rw [hasRoot_greetingText.1 hroot, hname]

end Template

end Stencil
