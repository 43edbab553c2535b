import Stencil.Proofs.Filling
import Stencil.Proofs.Installed

/-!
# Compilers of catalogs

A compiler that was installed with a catalog fills the text of its entry from the fields of
the data it is given (`Context.ofData`), and passes over what fails. As the catalog was looked
over when it was installed, the text can be read, so all that can fail is a tag whose root is
no field of the data.

Which compiler stands under a name depends only on what was put in there: of a catalog the
last entry of the name, and calls and installations that come later leave it in its place
(`Registry.Keeps`) unless they put in another one.

* `Registry.compilers_run`: what calls do to the compilers of a registry;
* `compile_of_install`: what an installed compiler makes of all data.
-/

namespace Stencil

variable {σ κ : Type}

/-! ### Data -/

namespace Json

/-- The fields of some data. Data that are no object have none, and neither have no data. -/
def dataFields (data : Option Json) : Fields := (data.bind fields?).getD []

theorem Fields.isSome_get?_insert (k k' : String) (v : Json) (fs : Fields) :
    (get? k (insert k' v fs)).isSome = true ↔ k = k' ∨ (get? k fs).isSome = true := by
  by_cases hk : k = k'
  · simp [hk]
  · simp [hk, get?_insert_of_ne hk]

theorem Fields.isSome_get?_merge (k : String) (lower upper : Fields) :
    (get? k (merge lower upper)).isSome = true ↔
      (get? k lower).isSome = true ∨ k ∈ upper.map Prod.fst := by
  induction upper generalizing lower with
  | nil => simp [merge]
  | cons f upper ih =>
    show (get? k (merge (insert f.1 f.2 lower) upper)).isSome = true ↔ _
    rw [ih, isSome_get?_insert, List.map_cons, List.mem_cons, or_assoc, or_left_comm]

end Json

/-- The context that has the fields of some data and nothing else. -/
def Context.ofData (data : Option Json) : Context := ⟨Json.Fields.ofList (Json.dataFields data)⟩

/-- Compilers fill their texts from the fields of the data, which are an empty object when not
    given. -/
theorem Context.mergeValue_getD (data : Option Json) :
    Context.empty.mergeValue (data.getD (.object [])) = .ofData data := by
  rcases data with _ | v
  · rfl
  · cases v <;> rfl

/-- The names of a context of data are those of the fields. -/
theorem Context.mem_keys_ofData {data : Option Json} {key : String} :
    key ∈ (Context.ofData data).keys ↔ key ∈ (Json.dataFields data).map Prod.fst := by
  rw [mem_keys_iff]
  exact (Json.Fields.isSome_get?_merge key [] _).trans (or_iff_right (by simp))

/-! ### The compilers of a registry -/

namespace Registry

/-- Who asks for a default may change the type, where one has to be found, but no compiler. -/
theorem compilers_defaultTemplate (r : Registry κ) (type : String) :
    (r.defaultTemplate type).2.compilers = r.compilers := by
  rw [Registry.defaultTemplate]
  cases r.types.get? type with
  | none => rfl
  | some f =>
    dsimp only
    cases f.makers.keys.head? with
    | none =>
      cases f.default with
      | none => rfl
      | some name => dsimp only; split <;> rfl
    | some first =>
      cases f.default with
      | none => rfl
      | some name => dsimp only; split <;> rfl

/-- What a call does to the compilers: it puts one in, or leaves them as they are. -/
theorem compilers_call (r : Registry κ) (c : Call κ) :
    (r.call c).2.compilers = r.compilers.insertMany c.compiler?.toList := by
  cases c with
  | register type name make =>
    cases h : r.hasTemplate type name with
    | true => rw [call, register_of_hasTemplate h]; rfl
    | false => rw [call, register_of_free h]; rfl
  | setCompiler name c => rfl
  | setDefault type name =>
    cases h : r.hasTemplate type name with
    | true => rw [call, setDefault_of_hasTemplate h]; rfl
    | false => rw [call, setDefault_of_free h]; rfl
  | defaultTemplate type => exact compilers_defaultTemplate r type
  | select type name =>
    have hselect : (r.select type name).2.compilers = r.compilers := by
      cases name with
      | some name => rw [select_some]
      | none =>
        have hdefault := compilers_defaultTemplate r type
        rcases hd : r.defaultTemplate type with ⟨name, r'⟩
        rw [hd] at hdefault
        simp only [select, hd]
        cases name.bind (r'.maker? type) <;> exact hdefault
    rw [call]
    rcases hs : r.select type name with ⟨_ | _, r'⟩
    · rw [hs] at hselect
      exact hselect
    · rw [hs] at hselect
      exact hselect
  | ask q => rfl

/-- After some calls, the compilers are those before, and those put in meanwhile. -/
theorem compilers_run (r : Registry κ) (h : List (Call κ)) :
    (r.run h).compilers = r.compilers.insertMany (compilersPut h) := by
  induction h generalizing r with
  | nil => rfl
  | cons c h ih =>
    rw [run_cons, ih, compilers_call, compilersPut_cons]
    exact List.foldl_append.symm

/-- A registry that calls and installations lead to from another one, none of which puts in a
    compiler of the given name. -/
inductive Keeps (name : String) (r : Registry (Maker σ)) : Registry (Maker σ) → Prop
  | refl : Keeps name r r
  | call {r' : Registry (Maker σ)} (c : Call (Maker σ)) :
      Keeps name r r' → (∀ k, c ≠ .setCompiler name k) → Keeps name r (r'.call c).2
  | install {r' r'' : Registry (Maker σ)} {c : Catalog} :
      Keeps name r r' → c.install r' = .ok r'' → (∀ k ∈ c.compilers, k.name ≠ name) →
      Keeps name r r''

/-- What is put in under other names leaves a compiler as it is. -/
theorem get?_compilers_run {r : Registry κ} {h : List (Call κ)} {name : String}
    (hname : ∀ k ∈ compilersPut h, k.1 ≠ name) :
    (r.run h).compilers.get? name = r.compilers.get? name := by
  have hnone : ((compilersPut h).filter fun k => decide (k.1 = name)) = [] :=
    List.filter_eq_nil_iff.2 fun k hk => by simpa using hname k hk
  rw [compilers_run, OrderedMap.get?_insertMany, hnone]
  rfl

theorem Keeps.get?_compilers {name : String} {r r' : Registry (Maker σ)} (h : r.Keeps name r') :
    r'.compilers.get? name = r.compilers.get? name := by
  induction h with
  | refl => rfl
  | @call r' c _ hc ih =>
    rw [← ih]
    refine get?_compilers_run (r := r') (h := [c]) fun k hk => ?_
    obtain ⟨c', hc', hput⟩ := List.mem_filterMap.1 hk
    cases List.mem_singleton.1 hc'
    cases c with
    | setCompiler name' k' =>
      cases hput
      rintro rfl
      exact hc k' rfl
    | _ => cases hput
  | @install r' r'' c _ hinstall hc ih =>
    rw [← ih, (Catalog.install_eq_ok_iff.1 hinstall).2]
    refine get?_compilers_run fun k hk => ?_
    rw [Catalog.compilersPut_calls] at hk
    obtain ⟨k', hk', rfl⟩ := List.mem_map.1 hk
    exact hc k' hk'

end Registry

/-! ### What compilers make -/

namespace Catalog

open Tag (Division FirstUndefined Segment)

/-- Of the entries of a name, the compiler of the last one is installed. -/
theorem get?_compilers_of_install {c : Catalog} {r r' : Registry (Maker σ)} {name : String}
    {k : CompilerEntry} (h : c.install r = .ok r')
    (hk : (c.compilers.filter fun k => decide (k.name = name)).getLast? = some k) :
    r'.compilers.get? name = some k.compiler := by
  rw [(install_eq_ok_iff.1 h).2, Registry.compilers_run, OrderedMap.get?_insertMany,
    compilersPut_calls, List.filter_map, List.getLast?_map, Option.map_map]
  show ((c.compilers.filter fun k => decide (k.name = name)).getLast?.map _).or _ = _
  rw [hk]
  rfl

/-- What a compiler makes of data is its text with the tags filled from their fields. -/
theorem CompilerEntry.compiler_of_ok {k : CompilerEntry} {data : Option Json} {text : String}
    (h : Tag.interpolate k.text (.ofData data) = .ok text) :
    k.compiler (data.getD (.object [])) = ⟨text, []⟩ := by
  rw [compiler, Context.mergeValue_getD, h]

/-- Where the tags cannot be filled, a compiler makes nothing, with a warning. -/
theorem CompilerEntry.compiler_of_error {k : CompilerEntry} {data : Option Json} {e : TagError}
    (h : Tag.interpolate k.text (.ofData data) = .error e) :
    k.compiler (data.getD (.object [])) = ⟨"", [e]⟩ := by
  rw [compiler, Context.mergeValue_getD, h]

/-- A tag is defined in the context of some data if its root is one of their fields. -/
theorem defined_ofData_iff {data : Option Json} {s : Segment} :
    s.Defined (.ofData data) ↔ ∀ root ∈ s.root?, root ∈ (Json.dataFields data).map Prod.fst :=
  forall₂_congr fun _ _ => Context.mem_keys_ofData

/-- A compiler that a catalog declares and that was not replaced since the catalog was installed
    has the text of the last entry of its name, which has a division. Of data whose fields have
    the roots of all tags in it, it makes the text filled from these fields, without a warning;
    of all other data it makes the empty text, and the one warning is about the first tag whose
    root is missing. -/
theorem compile_of_install {c : Catalog} {r r' r'' : Registry (Maker σ)} {name : String}
    (hinstall : c.install r = .ok r') (hkeeps : r'.Keeps name r'')
    (hname : name ∈ c.compilers.map CompilerEntry.name) :
    ∃ k, (c.compilers.filter fun k => decide (k.name = name)).getLast? = some k ∧
      ∃ d : Division, d.chars = k.text.toList ∧ ∀ data,
        ((Json.dataFields data).Ordered → Context.ofData data = ⟨Json.dataFields data⟩) ∧
        ((∀ s ∈ d.segments 0, ∀ root ∈ s.root?, root ∈ (Json.dataFields data).map Prod.fst) →
          ∃ text, text = String.ofList ((d.segments 0).flatMap (Segment.shown (.ofData data))) ∧
            Tag.interpolate k.text (.ofData data) = .ok text ∧
            r''.compile name data = some ⟨text, []⟩) ∧
        ((∃ s ∈ d.segments 0, ∃ root ∈ s.root?, root ∉ (Json.dataFields data).map Prod.fst) →
          ∃ e, FirstUndefined (.ofData data) (d.segments 0) e ∧
            Tag.interpolate k.text (.ofData data) = .error e ∧
            r''.compile name data = some ⟨"", [e]⟩) := by
  obtain ⟨k, hk⟩ : ∃ k, (c.compilers.filter fun k => decide (k.name = name)).getLast? = some k := by
    obtain ⟨k, hk, rfl⟩ := List.mem_map.1 hname
    refine ⟨_, List.getLast?_eq_some_getLast (List.ne_nil_of_mem (a := k) ?_)⟩
    exact List.mem_filter.2 ⟨hk, decide_eq_true rfl⟩
  -- The text of the compiler was checked when the catalog was looked over.
  have hmem : k ∈ c.compilers := List.mem_of_mem_filter (List.mem_of_getLast? hk)
  obtain ⟨segments, hparse⟩ :=
    Tag.check_eq_ok_iff.1 ((install_eq_ok_iff.1 hinstall).1.wellFormed k hmem)
  obtain ⟨d, hd, rfl⟩ := Tag.parse_eq_ok_iff.1 hparse
  refine ⟨k, hk, d, hd, fun data => ⟨fun h => ?_, fun h => ?_, fun h => ?_⟩⟩
  · rw [Context.ofData, h.ofList_eq]
  all_goals
    have hcompile : r''.compile name data = some (k.compiler (data.getD (.object []))) := by
      rw [Registry.compile, hkeeps.get?_compilers, get?_compilers_of_install hinstall hk,
        Option.map_some]
    rw [hcompile]
  · have hfilled : Tag.interpolate k.text (.ofData data) = _ :=
      (Tag.interpolate_eq_iff hparse).2 (.shown fun s hs => defined_ofData_iff.2 (h s hs))
    exact ⟨_, rfl, hfilled, congrArg some (CompilerEntry.compiler_of_ok hfilled)⟩
  · obtain ⟨s, hs, root, hroot, hmissing⟩ := h
    rcases Tag.forall_defined_or_exists_firstUndefined (.ofData data) (d.segments 0) with
      hdefined | ⟨e, he⟩
    · exact absurd (defined_ofData_iff.1 (hdefined s hs) root hroot) hmissing
    · have hfailed := (Tag.interpolate_eq_iff hparse).2 (.undefined he)
      exact ⟨e, he, hfailed, congrArg some (CompilerEntry.compiler_of_error hfailed)⟩

/-- Two greetings under one name, the second of which is installed. -/
def greetings : Catalog where
  templates := []
  compilers := [⟨"greeting", "Hi <%= nickname %>"⟩, ⟨"greeting", "Hello <%= name %>"⟩]

theorem compile_of_install_greetings :
    ∃ r' : Registry (Maker Unit), greetings.install .empty = .ok r' ∧
      r'.Keeps "greeting" (r'.setCompiler "other" fun _ => ⟨"", []⟩) ∧
      "greeting" ∈ greetings.compilers.map CompilerEntry.name ∧
      ∀ data, "name" ∈ (Json.dataFields data).map Prod.fst →
        ∃ text, Tag.interpolate "Hello <%= name %>" (.ofData data) = .ok text ∧
          (r'.setCompiler "other" fun _ => ⟨"", []⟩).compile "greeting" data =
            some ⟨text, []⟩ := by
  have hinstall :
      greetings.install .empty = .ok (Registry.empty.run (greetings.calls (σ := Unit))) :=
    Fits.install ⟨⟨List.nodup_nil, nofun⟩, by decide +kernel⟩
  have hkeeps : (Registry.empty.run (greetings.calls (σ := Unit))).Keeps "greeting"
      ((Registry.empty.run greetings.calls).setCompiler "other" fun _ => ⟨"", []⟩) :=
    .call (.setCompiler "other" fun _ => ⟨"", []⟩) .refl (by simp)
  have hname : "greeting" ∈ greetings.compilers.map CompilerEntry.name := by decide
  refine ⟨_, hinstall, hkeeps, hname, fun data hdata => ?_⟩
  obtain ⟨k, hk, d, hd, hcompile⟩ := compile_of_install hinstall hkeeps hname
  obtain rfl : (⟨"greeting", "Hello <%= name %>"⟩ : CompilerEntry) = k := by
    simpa [greetings] using hk
  have hparse : Tag.parse "Hello <%= name %>" = .ok (d.segments 0) :=
    Tag.parse_eq_ok_iff.2 ⟨d, hd, rfl⟩
  have hroots : (d.segments 0).flatMap (fun s => s.root?.toList) = ["name"] := by
    have h : (Tag.parse "Hello <%= name %>").map
        (fun segments => segments.flatMap fun s => s.root?.toList) = .ok ["name"] := by
      decide +kernel
    rw [hparse] at h
    exact Except.ok.inj h
  obtain ⟨text, -, hfilled, h⟩ := (hcompile data).2.1 fun s hs root hroot => by
    have hmem : root ∈ (d.segments 0).flatMap fun s => s.root?.toList :=
      List.mem_flatMap.2 ⟨s, hs, Option.mem_toList.2 hroot⟩
    rw [hroots, List.mem_singleton] at hmem
    exact hmem ▸ hdata
  exact ⟨text, hfilled, h⟩

end Catalog

end Stencil
