import Stencil.Proofs.Fields
import Stencil.Proofs.Insertion
import Stencil.Proofs.Installation
import Stencil.Stage

/-!
# After an installation

A registry that is reached by calls and installations (`Registry.Reachable`) has a history of
calls, as an installation is one as well: its templates are registered, then its defaults are
chosen, and then its compilers are put in (`Catalog.calls`). So what the registry is made of
tells what a further catalog makes of it (`madeOf_run_calls`).

* `install_append`: a catalog after another is both of them at once, although the defaults of
  the first one are then chosen after the templates of the second one are registered;
* `installed_of_install`: what is listed and found after an installation, and what the
  templates are like that are made of the declared ones (`Installed`, `Entry.Describes`).
-/

namespace Stencil

open Registry (Call MadeOf registrations registered choices compilersPut namesOf)

variable {σ : Type}

/-! ### Registries that can be reached -/

/-- A registry that calls and installations lead to from the empty one. -/
inductive Registry.Reachable : Registry (Maker σ) → Prop
  | empty : Reachable .empty
  | call {r : Registry (Maker σ)} (c : Call (Maker σ)) : Reachable r → Reachable (r.call c).2
  | install {r r' : Registry (Maker σ)} {c : Catalog} :
      Reachable r → c.install r = .ok r' → Reachable r'

/-- An installation is a part of a history like any other. -/
theorem Registry.Reachable.exists_history {r : Registry (Maker σ)} (hr : r.Reachable) :
    ∃ h, r = Registry.after h := by
  induction hr with
  | empty => exact ⟨[], rfl⟩
  | call c _ ih =>
    obtain ⟨h, rfl⟩ := ih
    exact ⟨h ++ [c], (Registry.after_concat h c).symm⟩
  | @install _ _ c _ hc ih =>
    obtain ⟨h, rfl⟩ := ih
    exact ⟨h ++ c.calls, (Catalog.install_eq_ok_iff.1 hc).2.trans (Registry.run_append _ h _).symm⟩

/-- What a registry is made of is told by its history. -/
theorem Registry.Reachable.exists_madeOf {r : Registry (Maker σ)} (hr : r.Reachable) :
    ∃ regs chosen comps, MadeOf regs chosen comps r := by
  obtain ⟨h, rfl⟩ := hr.exists_history
  exact ⟨_, _, _, Registry.madeOf_after h⟩

/-! ### The history of an installation -/

namespace Registry

variable {κ : Type}

theorem choices_eq_nil {h : List (Call κ)} (hc : ∀ c ∈ h, ∀ known, c.choice? known = none)
    (known : List (String × String)) : choices known h = [] := by
  induction h generalizing known with
  | nil => rfl
  | cons c h ih =>
    rw [List.forall_mem_cons] at hc
    rw [choices, hc.1, ih hc.2]
    rfl

/-- Of what is known, everything that is to be the default is chosen. -/
theorem choices_map_setDefault {ks known : List (String × String)} (hk : ∀ k ∈ ks, k ∈ known) :
    choices known (ks.map fun k => (.setDefault k.1 k.2 : Call κ)) = ks := by
  induction ks with
  | nil => rfl
  | cons k ks ih =>
    rw [List.forall_mem_cons] at hk
    rw [List.map_cons, choices, Registry.choice?_of_mem hk.1]
    show [k] ++ choices (known ++ []) _ = k :: ks
    rw [List.append_nil, ih hk.2, List.singleton_append]

end Registry

namespace Catalog

open Section (Name Table)

theorem registrations_calls (c : Catalog) : registrations (c.calls : List (Call (Maker σ))) =
    c.templates.map fun e => (e.key, e.maker) := by
  simp [registrations, calls, List.filterMap_map, Function.comp_def, Call.registration?, Entry.key]

theorem compilersPut_calls (c : Catalog) : compilersPut (c.calls : List (Call (Maker σ))) =
    c.compilers.map fun k => (k.name, k.compiler) := by
  simp [compilersPut, calls, List.filterMap_map, Function.comp_def, Call.compiler?]

theorem choices_calls (c : Catalog) (known : List (String × String)) :
    choices known (c.calls : List (Call (Maker σ))) =
      (c.templates.filter Entry.isDefault).map Entry.key := by
  have hregister : ∀ known, choices known (c.templates.map fun e =>
      (.register e.type e.name e.maker : Call (Maker σ))) = [] := by
    refine Registry.choices_eq_nil fun _ hmem known => ?_
    obtain ⟨e, -, rfl⟩ := List.mem_map.1 hmem
    rfl
  have hcompiler : ∀ known, choices known (c.compilers.map fun k =>
      (.setCompiler k.name k.compiler : Call (Maker σ))) = [] := by
    refine Registry.choices_eq_nil fun _ hmem known => ?_
    obtain ⟨k, -, rfl⟩ := List.mem_map.1 hmem
    rfl
  have hregistered : registered (c.templates.map fun e =>
      (.register e.type e.name e.maker : Call (Maker σ))) = c.templates.map Entry.key := by
    simp [registered, registrations, List.filterMap_map, Function.comp_def, Call.registration?,
      Entry.key]
  rw [calls, Registry.choices_append, Registry.choices_append, hregister, hcompiler, hregistered,
    List.nil_append, List.append_nil]
  have hchosen : ∀ k ∈ (c.templates.filter Entry.isDefault).map Entry.key,
      k ∈ known ++ c.templates.map Entry.key := by
    intro k hk
    exact List.mem_append_right _ ((List.filter_sublist.map Entry.key).subset hk)
  have hmap := Registry.choices_map_setDefault (κ := Maker σ) hchosen
  rw [List.map_map] at hmap
  exact hmap

section

variable {r r' : Registry (Maker σ)} {regs : List ((String × String) × Maker σ)}
  {chosen : List (String × String)} {comps : List (String × Compiler)} {a b c : Catalog}

/-- What a registry is made of, once a catalog is installed. -/
theorem madeOf_run_calls (hr : MadeOf regs chosen comps r) (c : Catalog) :
    MadeOf (regs ++ c.templates.map fun e => (e.key, e.maker))
      (chosen ++ (c.templates.filter Entry.isDefault).map Entry.key)
      (comps ++ c.compilers.map fun k => (k.name, k.compiler)) (r.run c.calls) := by
  rw [← registrations_calls, ← compilersPut_calls (σ := σ),
    ← choices_calls (σ := σ) c (regs.map Prod.fst)]
  exact hr.run c.calls

/-! ### One catalog after another -/

instance : Append Catalog := ⟨fun a b => ⟨a.templates ++ b.templates, a.compilers ++ b.compilers⟩⟩

@[simp] theorem templates_append (a b : Catalog) :
    (a ++ b).templates = a.templates ++ b.templates := rfl

@[simp] theorem compilers_append (a b : Catalog) :
    (a ++ b).compilers = a.compilers ++ b.compilers := rfl

/-- The calls of two catalogs, which come in another order when the two are one, lead to the
    same registry: it is made of the same in both cases. -/
theorem run_calls_append (hr : MadeOf regs chosen comps r) (a b : Catalog) :
    r.run (a ++ b).calls = (r.run a.calls).run b.calls := by
  -- The order in which templates, choices and compilers come is the same within each kind.
  have hab := madeOf_run_calls (madeOf_run_calls hr a) b
  rw [List.append_assoc, List.append_assoc, List.append_assoc, ← List.map_append,
    ← List.map_append, ← List.map_append, ← List.filter_append] at hab
  exact (madeOf_run_calls hr (a ++ b)).unique hab

theorem hasTemplate_run_calls (hr : MadeOf regs chosen comps r) (c : Catalog) (e : Entry) :
    (r.run c.calls).hasTemplate e.type e.name = true ↔
      r.hasTemplate e.type e.name = true ∨ e.key ∈ c.templates.map Entry.key := by
  rw [(madeOf_run_calls hr c).hasTemplate_iff, hr.hasTemplate_iff, List.map_append,
    List.mem_append, List.map_map]
  rfl

/-- What is declared after a catalog is installed must not clash with its templates. -/
theorem apart_run_calls_iff (hr : MadeOf regs chosen comps r) (c : Catalog) (es : List Entry) :
    Apart (r.run c.calls) es ↔
      Apart r es ∧ (c.templates.map Entry.key).Disjoint (es.map Entry.key) := by
  have hfree : ∀ e : Entry, (r.run c.calls).hasTemplate e.type e.name = false ↔
      r.hasTemplate e.type e.name = false ∧ e.key ∉ c.templates.map Entry.key := by
    intro e
    rw [← Bool.not_eq_true, hasTemplate_run_calls hr, not_or, Bool.not_eq_true]
  constructor
  · rintro ⟨hnodup, hes⟩
    refine ⟨⟨hnodup, fun e he => ((hfree e).1 (hes e he)).1⟩, fun k hk hk' => ?_⟩
    obtain ⟨e, he, rfl⟩ := List.mem_map.1 hk'
    exact ((hfree e).1 (hes e he)).2 hk
  · rintro ⟨⟨hnodup, hes⟩, hdisjoint⟩
    exact ⟨hnodup, fun e he => (hfree e).2 ⟨hes e he, fun hk =>
      hdisjoint hk (List.mem_map_of_mem he)⟩⟩

/-- Two catalogs together fit exactly if they fit one after the other. -/
theorem append_fits_iff (hr : MadeOf regs chosen comps r) :
    (a ++ b).Fits r ↔ a.Fits r ∧ b.Fits (r.run a.calls) := by
  constructor
  · rintro ⟨hapart, hcheck⟩
    rw [templates_append, apart_append_iff] at hapart
    rw [compilers_append, List.forall_mem_append] at hcheck
    exact ⟨⟨hapart.1, hcheck.1⟩, (apart_run_calls_iff hr a _).2 hapart.2, hcheck.2⟩
  · rintro ⟨⟨ha, hcheck⟩, hb, hcheck'⟩
    exact ⟨apart_append_iff.2 ⟨ha, (apart_run_calls_iff hr a _).1 hb⟩,
      List.forall_mem_append.2 ⟨hcheck, hcheck'⟩⟩

/-- Two catalogs are installed one after the other exactly if they are installed as one, and
    the registry is the same afterwards. -/
theorem install_append (hr : r.Reachable) (a b : Catalog) (r' : Registry (Maker σ)) :
    (a ++ b).install r = .ok r' ↔ ∃ r₁, a.install r = .ok r₁ ∧ b.install r₁ = .ok r' := by
  obtain ⟨regs, chosen, comps, hmade⟩ := hr.exists_madeOf
  rw [install_eq_ok_iff, append_fits_iff hmade, run_calls_append hmade]
  constructor
  · rintro ⟨⟨ha, hb⟩, rfl⟩
    exact ⟨_, ha.install, hb.install⟩
  · rintro ⟨r₁, h₁, h'⟩
    obtain ⟨ha, rfl⟩ := install_eq_ok_iff.1 h₁
    obtain ⟨hb, rfl⟩ := install_eq_ok_iff.1 h'
    exact ⟨⟨ha, hb⟩, rfl⟩

/-- A page that is bare. -/
def bare : Registry (Maker Unit) :=
  (Registry.empty.call (.register "page" "bare" fun client => (.blank Unit, client))).2

/-- A page that is wide, and the default, with a body that is given twice. -/
def wide : Catalog where
  templates := [⟨"page", "wide", true, some "p", "<main>@BODY@</main>",
    [("body", "<p>"), ("Body", "<p><%= text %></p>")], []⟩]
  compilers := []

/-- A note, and a greeting. -/
def note : Catalog where
  templates := [⟨"note", "short", false, none, "<%= text %>", [], []⟩]
  compilers := [⟨"greeting", "Hello <%= name %>"⟩]

theorem reachable_bare : bare.Reachable := .call _ .empty

theorem fits_bare : (wide ++ note).Fits bare := ⟨⟨by decide, by decide⟩, by decide +kernel⟩

theorem install_append_wide_note : bare.Reachable ∧
    (wide ++ note).install bare = .ok (bare.run (wide ++ note).calls) ∧
    ∃ r, wide.install bare = .ok r ∧ note.install r = .ok (bare.run (wide ++ note).calls) :=
  ⟨reachable_bare, fits_bare.install,
    (install_append reachable_bare wide note _).1 fits_bare.install⟩

/-! ### What is there afterwards -/

/-- The names that some templates of a type are declared under, in order. -/
def namesUnder (type : String) (es : List Entry) : List String :=
  (es.filter fun e => decide (e.type = type)).map Entry.name

theorem namesOf_map_key (type : String) (es : List Entry) :
    namesOf type (es.map Entry.key) = namesUnder type es := by
  rw [namesOf, List.filter_map, List.map_map]
  rfl

theorem map_fst_registrations (es : List Entry) :
    (es.map fun e => (e.key, (e.maker : Maker σ))).map Prod.fst = es.map Entry.key := by
  rw [List.map_map]
  rfl

theorem map_fst_key (es : List Entry) : (es.map Entry.key).map Prod.fst = es.map Entry.type := by
  rw [List.map_map]
  rfl

/-- The names of one type are distinct where no template clashes, and none is taken. -/
theorem Apart.namesUnder {es : List Entry} (h : Apart r es) (type : String) :
    (namesUnder type es).Nodup ∧ ∀ name ∈ namesUnder type es, name ∉ r.templateNames type := by
  constructor
  · rw [← namesOf_map_key, namesOf, List.nodup_map_iff_inj_on (h.nodup.filter _)]
    intro k hk k' hk' hname
    have htype : k.1 = k'.1 := (of_decide_eq_true (List.mem_filter.1 hk).2).trans
      (of_decide_eq_true (List.mem_filter.1 hk').2).symm
    exact Prod.ext htype hname
  · intro name hname
    obtain ⟨e, he, rfl⟩ := List.mem_map.1 hname
    obtain ⟨he, htype⟩ := List.mem_filter.1 he
    rw [Registry.templateNames, ← of_decide_eq_true htype, OrderedMap.mem_keys_iff,
      Bool.not_eq_true]
    exact h.free e he

/-- A template is made as a catalog declares it, as the `n`-th of a stage. Options that are
    read are in order (`ordered_options_of_read?`), so they are the options as declared. -/
structure Entry.Describes (e : Entry) (n : Nat) (t : Template σ) : Prop where
  id : t.id = e.stem.getD e.type ++ "_" ++ n.repr
  layout : t.layout = .literal e.layout
  sectionNames : t.sections.keys = (e.sections.map fun s => Name.of s.1).eraseDups
  sectionTexts : ∀ name, t.sections.get? name =
    ((e.sections.filter fun s => decide (Name.of s.1 = name)).getLast?.map fun s => .literal s.2)
  options : t.options = Json.Fields.ofList e.options
  options_of_ordered : e.options.Ordered → t.options = e.options
  unconnected : t.source = none ∧ t.subscription = none
  undrawn : t.draws = 0

/-- What a catalog makes of a registry `r` when it is installed. -/
structure Installed (c : Catalog) (r r' : Registry (Maker σ)) : Prop where
  types : r'.types.keys = r.types.keys ++
    ((c.templates.map Entry.type).filter fun type => decide (type ∉ r.types.keys)).eraseDups
  templateNames : ∀ type, r'.templateNames type = r.templateNames type ++
    namesUnder type c.templates
  kept : ∀ type name make, (r.select type (some name)).1 = .ok make →
    (r'.select type (some name)).1 = .ok make
  default : ∀ type, (r'.defaultTemplate type).1 =
    (namesUnder type (c.templates.filter Entry.isDefault)).getLast?.or
      ((r.defaultTemplate type).1.or (namesUnder type c.templates).head?)
  compilerNames : r'.compilers.keys = r.compilers.keys ++
    ((c.compilers.map CompilerEntry.name).filter fun name =>
      decide (name ∉ r.compilers.keys)).eraseDups
  compilers : ∀ name, r'.compilers.get? name =
    ((c.compilers.filter fun k => decide (k.name = name)).getLast?.map
      CompilerEntry.compiler).or (r.compilers.get? name)
  made : ∀ e ∈ c.templates, r'.select e.type (some e.name) = (.ok e.maker, r') ∧
    ∀ s : Stage σ, ∃ t, (s.createBy e.maker).template? s.next = some t ∧
      e.Describes (s.made + 1) t

/-- A declared template that is made is as it is declared. -/
theorem Entry.describes_build (e : Entry) (n : Nat) (emitter : EmitterId) :
    e.Describes n ((e.draft : Draft σ).build n emitter) where
  id := rfl
  layout := rfl
  sectionNames := by
    rw [Draft.build, Entry.draft, Table.keys_ofSections, List.map_map]
    rfl
  sectionTexts name := by
    rw [Draft.build, Entry.draft, Table.get?_ofSections, List.filter_map, List.getLast?_map,
      Option.map_map]
    rfl
  options := rfl
  options_of_ordered h := h.ofList_eq
  unconnected := ⟨rfl, rfl⟩
  undrawn := rfl

theorem Entry.describes_createBy (e : Entry) (s : Stage σ) :
    ∃ t, (s.createBy e.maker).template? s.next = some t ∧ e.Describes (s.made + 1) t :=
  ⟨_, OrderedMap.get?_insert_self _ _ _, e.describes_build _ _⟩

/-- What is made of a declared template is its own, as no other template has its key. -/
theorem maker?_run_calls (hr : MadeOf regs chosen comps r) (h : c.Fits r) {e : Entry}
    (he : e ∈ c.templates) : (r.run c.calls).maker? e.type e.name = some e.maker := by
  have hnodup : ((c.templates.map fun e => (e.key, (e.maker : Maker σ))).map Prod.fst).Nodup := by
    rw [map_fst_registrations]
    exact h.apart.nodup
  rw [(madeOf_run_calls hr c).maker?, OrderedMap.find_append, ← hr.maker?,
    Registry.hasTemplate_eq_false_iff.1 (h.apart.free e he), Option.none_or]
  exact (OrderedMap.find_eq_some_iff hnodup).2 (List.mem_map_of_mem he)

/-- A catalog that is installed leaves what was there as it was, and adds to it in the order
    in which it is declared: types and names, and compilers, which are replaced where they
    are, the last of a name winning. The default of a type is what the catalog asks for last,
    or else the default it had, or else the first template that the catalog declares for it.
    Every template that is made of a declared one is as it is declared. -/
theorem installed_of_install (hr : r.Reachable) (h : c.install r = .ok r') : Installed c r r' := by
  obtain ⟨regs, chosen, comps, hmade⟩ := hr.exists_madeOf
  obtain ⟨hfits, rfl⟩ := install_eq_ok_iff.1 h
  have hmade' := madeOf_run_calls hmade c
  constructor
  · rw [hmade'.types, List.map_append, List.map_append, map_fst_registrations, map_fst_key,
      OrderedMap.eraseDups_append_eq, ← hmade.types]
  · intro type
    obtain ⟨hnodup, hfree⟩ := hfits.apart.namesUnder type
    rw [hmade'.templateNames, List.map_append, map_fst_registrations, Registry.namesOf_append,
      OrderedMap.eraseDups_append_eq, ← hmade.templateNames, namesOf_map_key,
      List.filter_eq_self.2 fun name hname => decide_eq_true (hfree name hname),
      OrderedMap.eraseDups_of_nodup hnodup]
  · intro type name make hmake
    rw [Registry.select_eq_ok_iff] at hmake ⊢
    rw [hmade'.maker?, OrderedMap.find_append, ← hmade.maker?, hmake, Option.some_or]
  · intro type
    rw [hmade'.hasDefaults.defaultTemplate, hmade.hasDefaults.defaultTemplate, hmade'.default,
      List.map_append, map_fst_registrations, Registry.defaultOf_append, ← hmade.default,
      namesOf_map_key, namesOf_map_key]
  · rw [hmade'.compilers, OrderedMap.ofList_append, OrderedMap.keys_insertMany, ← hmade.compilers,
      List.map_map]
    rfl
  · intro name
    rw [hmade'.compilers, OrderedMap.ofList_append, OrderedMap.get?_insertMany, ← hmade.compilers,
      List.filter_map, List.getLast?_map, Option.map_map]
    rfl
  · intro e he
    refine ⟨?_, e.describes_createBy⟩
    rw [Registry.select_some, maker?_run_calls hmade hfits he]
    rfl

theorem installed_of_install_wide_note : bare.Reachable ∧
    (wide ++ note).install bare = .ok (bare.run (wide ++ note).calls) ∧
    Installed (wide ++ note) bare (bare.run (wide ++ note).calls) :=
  ⟨reachable_bare, fits_bare.install, installed_of_install reachable_bare fits_bare.install⟩

end

end Catalog

end Stencil
