import Stencil.Proofs.OrderedMap
import Stencil.Registry

/-!
# Calls of registries

What clients do with a registry are calls (`Registry.Call`), which the registry answers and
by which it may change (`Registry.call`). A call that changes it either puts other templates
under one type (`setFamily`), by registering a name that is free or by choosing a default
that is registered, or it puts in a compiler.

As long as every type has a default that is registered (`Registry.HasDefaults`), the answer to
who asks for the default is at hand, and no name has to be found in its place. Then queries
leave the registry as it is, and so do calls that fail (`HasDefaults.call_of_isQuery`,
`HasDefaults.call_of_isFailure`).
-/

namespace Stencil.Registry

open OrderedMap (get?_insert_self get?_insert_of_ne keys_insert mem_keys_iff contains)

variable {κ : Type}

/-! ### Calls and their answers -/

/-- A question about a registry. -/
inductive Question
  /-- Whether there is a compiler. -/
  | hasCompiler (name : String)
  /-- The compilers, in order. -/
  | compilers
  /-- What a compiler makes of some data. -/
  | compile (name : String) (data : Option Json)
  /-- Whether there is a type. -/
  | hasType (type : String)
  /-- The types, in order. -/
  | types
  /-- The types with their templates, in order. -/
  | typesDetail
  /-- Whether there is a template. -/
  | hasTemplate (type name : String)
  /-- The templates of a type, in order. -/
  | templateNames (type : String)
  /-- The makers of a type, by name. -/
  | makers (type : String)

/-- A call of a registry. -/
inductive Call (κ : Type)
  /-- To register a maker. -/
  | register (type name : String) (make : κ)
  /-- To put in a compiler. -/
  | setCompiler (name : String) (c : Compiler)
  /-- To choose the default of a type. -/
  | setDefault (type name : String)
  /-- For the default of a type. -/
  | defaultTemplate (type : String)
  /-- For a maker, by its name or as the default of its type. -/
  | select (type : String) (name : Option String)
  /-- For the answer to a question. -/
  | ask (q : Question)

/-- What a registry answers to a call. -/
inductive Answer (κ : Type)
  /-- It is done. -/
  | done
  /-- The name is taken. -/
  | taken
  /-- It is refused. -/
  | refused (cause : RegistryError)
  /-- Whether something is so. -/
  | truth (b : Bool)
  /-- A name, if there is one. -/
  | name (n : Option String)
  /-- Some names. -/
  | names (ns : List String)
  /-- Some names, each with names of its own. -/
  | detail (ns : List (String × List String))
  /-- A maker. -/
  | maker (make : κ)
  /-- Makers, by name. -/
  | makers (makes : OrderedMap String κ)
  /-- What a compiler made, if there is one. -/
  | compiled (c : Option Compiled)

/-- The answer to a question. -/
def answer (r : Registry κ) : Question → Answer κ
  | .hasCompiler name => .truth (r.compilers.contains name)
  | .compilers => .names r.compilers.keys
  | .compile name data => .compiled (r.compile name data)
  | .hasType type => .truth (r.hasType type)
  | .types => .names r.types.keys
  | .typesDetail => .detail r.typesDetail
  | .hasTemplate type name => .truth (r.hasTemplate type name)
  | .templateNames type => .names (r.templateNames type)
  | .makers type => .makers (r.family type).makers

/-- The answer to a call, and the registry afterwards. -/
def call (r : Registry κ) : Call κ → Answer κ × Registry κ
  | .register type name make =>
    let (free, r) := r.register type name make
    (if free then .done else .taken, r)
  | .setCompiler name c => (.done, r.setCompiler name c)
  | .setDefault type name =>
    match r.setDefault type name with
    | .ok r => (.done, r)
    | .error cause => (.refused cause, r)
  | .defaultTemplate type =>
    let (default, r) := r.defaultTemplate type
    (.name default, r)
  | .select type name =>
    match r.select type name with
    | (.ok make, r) => (.maker make, r)
    | (.error cause, r) => (.refused cause, r)
  | .ask q => (r.answer q, r)

/-- The registry after some calls, one after the other. -/
def run (r : Registry κ) (h : List (Call κ)) : Registry κ := h.foldl (fun r c => (r.call c).2) r

theorem run_cons (r : Registry κ) (c : Call κ) (h : List (Call κ)) :
    r.run (c :: h) = (r.call c).2.run h := rfl

theorem run_append (r : Registry κ) (h h' : List (Call κ)) : r.run (h ++ h') = (r.run h).run h' :=
  List.foldl_append

/-- The answers to some calls, one after the other. -/
def answers : Registry κ → List (Call κ) → List (Answer κ)
  | _, [] => []
  | r, c :: h => (r.call c).1 :: answers (r.call c).2 h

/-! ### What a call changes -/

/-- The registry with other templates of a type. -/
def setFamily (r : Registry κ) (type : String) (f : Family κ) : Registry κ :=
  { r with types := r.types.insert type f }

/-- The registry with one more maker of a type, whose name becomes the default if there was
    none. -/
def withMaker (r : Registry κ) (type name : String) (make : κ) : Registry κ :=
  r.setFamily type ⟨(r.family type).default.or (some name), (r.family type).makers.insert name make⟩

/-- The registry with another default of a type. -/
def withDefault (r : Registry κ) (type name : String) : Registry κ :=
  r.setFamily type ⟨some name, (r.family type).makers⟩

section

variable {r : Registry κ} {type type' name name' : String} {f : Family κ} {make : κ}

@[simp] theorem family_setFamily_self : (r.setFamily type f).family type = f := by
  rw [family, setFamily, get?_insert_self, Option.getD_some]

theorem family_setFamily_of_ne (h : type' ≠ type) :
    (r.setFamily type f).family type' = r.family type' := by
  rw [family, setFamily, get?_insert_of_ne _ h, family]

theorem makers_withDefault (r : Registry κ) (type name type' : String) :
    ((r.withDefault type name).family type').makers = (r.family type').makers := by
  by_cases htype : type' = type
  · rw [htype, withDefault, family_setFamily_self]
  · rw [withDefault, family_setFamily_of_ne htype]

theorem hasTemplate_withDefault (r : Registry κ) (type name type' name' : String) :
    (r.withDefault type name).hasTemplate type' name' = r.hasTemplate type' name' := by
  rw [hasTemplate, makers_withDefault, hasTemplate]

theorem default_withDefault (r : Registry κ) (type name type' : String) :
    ((r.withDefault type name).family type').default =
      if type = type' then some name else (r.family type').default := by
  by_cases htype : type = type'
  · rw [if_pos htype, ← htype, withDefault, family_setFamily_self]
  · rw [if_neg htype, withDefault, family_setFamily_of_ne (Ne.symm htype)]

/-- A name that is registered becomes the default only if there was none. -/
theorem default_withMaker (r : Registry κ) (type name : String) (make : κ) (type' : String) :
    ((r.withMaker type name make).family type').default =
      (r.family type').default.or (if type = type' then some name else none) := by
  by_cases htype : type = type'
  · rw [if_pos htype, ← htype, withMaker, family_setFamily_self]
  · rw [if_neg htype, Option.or_none, withMaker, family_setFamily_of_ne (Ne.symm htype)]

theorem keys_types_setFamily : (r.setFamily type f).types.keys =
    if type ∈ r.types.keys then r.types.keys else r.types.keys ++ [type] := keys_insert _ _ _

theorem hasTemplate_eq_false_iff : r.hasTemplate type name = false ↔ r.maker? type name = none := by
  rw [hasTemplate, contains, Option.isSome_eq_false_iff, Option.isNone_iff_eq_none]
  rfl

/-- A name that is free goes to the end. -/
theorem templateNames_withMaker (h : r.hasTemplate type name = false) (make : κ)
    (type' : String) : (r.withMaker type name make).templateNames type' =
      r.templateNames type' ++ if type = type' then [name] else [] := by
  by_cases htype : type = type'
  · subst htype
    have hname : name ∉ (r.family type).makers.keys := by
      rw [mem_keys_iff, Bool.not_eq_true]
      exact h
    rw [if_pos rfl, templateNames, withMaker, family_setFamily_self, keys_insert, if_neg hname,
      templateNames]
  · rw [if_neg htype, List.append_nil, templateNames, withMaker,
      family_setFamily_of_ne (Ne.symm htype), templateNames]

/-- Under a name that is free, the maker is found that is put there. -/
theorem maker?_withMaker (h : r.hasTemplate type name = false) (make : κ) (type' name' : String) :
    (r.withMaker type name make).maker? type' name' =
      (r.maker? type' name').or (if (type, name) = (type', name') then some make else none) := by
  by_cases hk : (type, name) = (type', name')
  · cases hk
    rw [if_pos rfl, hasTemplate_eq_false_iff.1 h, Option.none_or, maker?, withMaker,
      family_setFamily_self, get?_insert_self]
  · rw [if_neg hk, Option.or_none, maker?, maker?, withMaker]
    by_cases htype : type = type'
    · subst htype
      have hname : name' ≠ name := fun hname => hk (hname ▸ rfl)
      rw [family_setFamily_self, get?_insert_of_ne _ hname]
    · rw [family_setFamily_of_ne (Ne.symm htype)]

theorem register_of_hasTemplate (h : r.hasTemplate type name = true) (make : κ) :
    r.register type name make = (false, r) := if_pos h

theorem register_of_free (h : r.hasTemplate type name = false) (make : κ) :
    r.register type name make = (true, r.withMaker type name make) :=
  if_neg (Bool.eq_false_iff.1 h)

/-- After a registration, what was there is there, and so is what was to be registered. -/
theorem hasTemplate_register (r : Registry κ) (make : κ) :
    (r.register type name make).2.hasTemplate type' name' = true ↔
      r.hasTemplate type' name' = true ∨ (type', name') = (type, name) := by
  cases h : r.hasTemplate type name with
  | true =>
    rw [register_of_hasTemplate h]
    refine ⟨.inl, ?_⟩
    rintro (h' | h')
    · exact h'
    · cases h'
      exact h
  | false =>
    show ((r.register type name make).2.maker? type' name').isSome = true ↔
      (r.maker? type' name').isSome = true ∨ _
    rw [register_of_free h, maker?_withMaker h, Option.isSome_or, Bool.or_eq_true]
    refine or_congr_right ?_
    by_cases hk : (type, name) = (type', name')
    · simp [hk]
    · simp [hk, Ne.symm hk]

theorem get?_types_of_not_mem (h : type ∉ r.types.keys) : r.types.get? type = none := by
  rwa [mem_keys_iff, Option.not_isSome_iff_eq_none] at h

theorem get?_types_of_mem (h : type ∈ r.types.keys) :
    r.types.get? type = some (r.family type) := by
  obtain ⟨f, hf⟩ := Option.isSome_iff_exists.1 ((mem_keys_iff _ _).1 h)
  rw [family, hf, Option.getD_some]

theorem get?_types_of_hasTemplate (h : r.hasTemplate type name = true) :
    r.types.get? type = some (r.family type) := by
  cases ht : r.types.get? type with
  | none =>
    rw [hasTemplate, family, ht] at h
    cases h
  | some f => rw [family, ht, Option.getD_some]

theorem mem_keys_of_hasTemplate (h : r.hasTemplate type name = true) : type ∈ r.types.keys := by
  rw [mem_keys_iff, get?_types_of_hasTemplate h]
  rfl

theorem setDefault_of_hasTemplate (h : r.hasTemplate type name = true) :
    r.setDefault type name = .ok (r.withDefault type name) := by
  rw [setDefault, get?_types_of_hasTemplate h]
  exact if_pos h

theorem setDefault_of_free (h : r.hasTemplate type name = false) :
    r.setDefault type name = .error (.invalidDefault type name) := by
  rw [setDefault]
  cases ht : r.types.get? type with
  | none => rfl
  | some f =>
    rw [hasTemplate, family, ht, Option.getD_some] at h
    exact if_neg (Bool.eq_false_iff.1 h)

/-- A registry in which every type has a default that is registered. -/
def HasDefaults (r : Registry κ) : Prop :=
  ∀ type f, r.types.get? type = some f →
    ∃ name, f.default = some name ∧ f.makers.contains name = true

theorem HasDefaults.defaultTemplate (h : r.HasDefaults) (type : String) :
    r.defaultTemplate type = ((r.family type).default, r) := by
  rw [Registry.defaultTemplate, family]
  cases ht : r.types.get? type with
  | none => rfl
  | some f =>
    obtain ⟨name, hdefault, hname⟩ := h type f ht
    simp only [hdefault, hname, if_true, Option.getD_some]

theorem select_some (r : Registry κ) (type name : String) :
    r.select type (some name) =
      ((r.maker? type name).elim (.error (.unknownTemplate type name)) .ok, r) := by
  rw [select, Option.bind_some]
  cases r.maker? type name <;> rfl

/-- Where no name is given, the default is selected, if there is one. -/
theorem HasDefaults.select_none (h : r.HasDefaults) (type : String) :
    r.select type none = (r.family type).default.elim
      (.error (.unknownTemplate type ""), r) fun name => r.select type (some name) := by
  rw [select]
  simp only [h.defaultTemplate]
  cases (r.family type).default with
  | none => rfl
  | some name => rfl

theorem register_eq_true_iff :
    (r.register type name make).1 = true ↔ r.hasTemplate type name = false := by
  cases h : r.hasTemplate type name with
  | true => simp [register_of_hasTemplate h]
  | false => simp [register_of_free h]

theorem exists_setDefault_eq_error_iff :
    (∃ e, r.setDefault type name = .error e) ↔ r.hasTemplate type name = false := by
  cases h : r.hasTemplate type name with
  | true => simp [setDefault_of_hasTemplate h]
  | false => simp [setDefault_of_free h]

theorem select_eq_ok_iff :
    (r.select type (some name)).1 = .ok make ↔ r.maker? type name = some make := by
  rw [select_some]
  cases r.maker? type name with
  | none => simp
  | some make' => simp

theorem exists_select_eq_error_iff :
    (∃ e, (r.select type (some name)).1 = .error e) ↔ r.hasTemplate type name = false := by
  rw [hasTemplate_eq_false_iff, select_some]
  cases r.maker? type name with
  | none => simp
  | some make' => simp

theorem HasDefaults.hasTemplate_of_default (h : r.HasDefaults)
    (hname : (r.family type).default = some name) : r.hasTemplate type name = true := by
  rw [family] at hname
  cases ht : r.types.get? type with
  | none =>
    rw [ht] at hname
    cases hname
  | some f =>
    obtain ⟨name', hdefault, hmem⟩ := h type f ht
    rw [ht, Option.getD_some, hdefault, Option.some.injEq] at hname
    rw [hasTemplate, family, ht, Option.getD_some, ← hname, hmem]

theorem HasDefaults.isSome_default (h : r.HasDefaults) (type : String) :
    (r.family type).default.isSome = r.hasType type := by
  rw [family, hasType, contains]
  cases ht : r.types.get? type with
  | none => rfl
  | some f =>
    obtain ⟨name, hdefault, -⟩ := h type f ht
    rw [Option.getD_some, hdefault]
    rfl

theorem HasDefaults.exists_select_none_eq_error_iff (h : r.HasDefaults) :
    (∃ e, (r.select type none).1 = .error e) ↔ r.hasType type = false := by
  rw [h.select_none, ← h.isSome_default]
  cases hd : (r.family type).default with
  | none => simp
  | some name =>
    rw [Option.elim_some, exists_select_eq_error_iff, h.hasTemplate_of_default hd]
    simp

/-! ### What changes nothing -/

/-- A call that only asks for something. -/
def Call.IsQuery : Call κ → Prop
  | .defaultTemplate _ | .select _ _ | .ask _ => True
  | _ => False

/-- An answer that tells of a failure. -/
def Answer.IsFailure : Answer κ → Prop
  | .taken | .refused _ => True
  | _ => False

/-- Queries leave a registry as it is. -/
theorem HasDefaults.call_of_isQuery (hr : r.HasDefaults) {c : Call κ} (hc : c.IsQuery) :
    (r.call c).2 = r := by
  cases c with
  | defaultTemplate type => rw [call, hr.defaultTemplate]
  | select type name =>
    have hselect : (r.select type name).2 = r := by
      cases name with
      | some name => rw [select_some]
      | none =>
        rw [hr.select_none]
        cases (r.family type).default with
        | none => rfl
        | some name => rw [Option.elim_some, select_some]
    rw [call]
    rcases hs : r.select type name with ⟨_ | _, r'⟩
    · rw [hs] at hselect
      exact hselect
    · rw [hs] at hselect
      exact hselect
  | ask q => rfl
  | _ => cases hc

/-- Calls that fail leave a registry as it is. -/
theorem HasDefaults.call_of_isFailure (hr : r.HasDefaults) {c : Call κ}
    (hc : (r.call c).1.IsFailure) : (r.call c).2 = r := by
  cases c with
  | register type name make =>
    cases hname : r.hasTemplate type name with
    | true => rw [Registry.call, register_of_hasTemplate hname]
    | false =>
      rw [Registry.call, register_of_free hname] at hc
      cases hc
  | setCompiler name c => cases hc
  | setDefault type name =>
    cases hname : r.hasTemplate type name with
    | true =>
      rw [Registry.call, setDefault_of_hasTemplate hname] at hc
      cases hc
    | false => rw [Registry.call, setDefault_of_free hname]
  | _ => exact hr.call_of_isQuery trivial

end

end Stencil.Registry
