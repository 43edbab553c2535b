import Stencil.Proofs.Call

/-!
# Histories of registries

Of a history, which is a list of calls, three kinds of calls matter, each in the order in which
they came: the registrations (`registrations`), the defaults that were chosen from what was
registered by then (`choices`), and the compilers that were put in (`compilersPut`). How calls
of one kind stand among those of another makes no difference beyond that, and questions and
calls that are refused make none at all.

What a registry is made of these is `MadeOf`. It holds of the empty registry, and each call
keeps it (`MadeOf.call`), so it holds after every history (`madeOf_after`); and there is only
one registry of which it holds (`MadeOf.unique`).

* `after_follows_history`: every answer of a registry is told by its history.
-/

namespace Stencil.Registry

open OrderedMap (find get?_insert_self get?_insert_of_ne keys_insert mem_keys_iff contains
  eraseDups_concat)

variable {κ : Type}

/-! ### Histories -/

/-- The registry of which some calls were made, one after the other. -/
def after (h : List (Call κ)) : Registry κ := empty.run h

theorem after_concat (h : List (Call κ)) (c : Call κ) : after (h ++ [c]) = ((after h).call c).2 :=
  run_append _ h [c]

/-- The registration that a call asks for. -/
def Call.registration? : Call κ → Option ((String × String) × κ)
  | .register type name make => some ((type, name), make)
  | _ => none

/-- The compiler that a call puts in. -/
def Call.compiler? : Call κ → Option (String × Compiler)
  | .setCompiler name c => some (name, c)
  | _ => none

/-- The default that a call chooses, those registered before being `known`. What was not
    registered before cannot be chosen. -/
def Call.choice? (known : List (String × String)) : Call κ → Option (String × String)
  | .setDefault type name => if known.contains (type, name) then some (type, name) else none
  | _ => none

/-- The registrations that were asked for, in turn. -/
def registrations (h : List (Call κ)) : List ((String × String) × κ) :=
  h.filterMap Call.registration?

/-- The types and names under which registrations were asked for, in turn. -/
def registered (h : List (Call κ)) : List (String × String) := (registrations h).map Prod.fst

/-- The compilers that were put in, in turn. -/
def compilersPut (h : List (Call κ)) : List (String × Compiler) := h.filterMap Call.compiler?

/-- The defaults that were chosen, in turn, those registered before being `known`. -/
def choices : (known : List (String × String)) → List (Call κ) → List (String × String)
  | _, [] => []
  | known, c :: h =>
    (c.choice? known).toList ++ choices (known ++ c.registration?.toList.map Prod.fst) h

/-- The names that go with a type, in turn. -/
def namesOf (type : String) (ks : List (String × String)) : List String :=
  (ks.filter fun k => decide (k.1 = type)).map Prod.snd

/-- The default of a type: the name that was chosen last, or else the one that was
    registered first. -/
def defaultOf (chosen known : List (String × String)) (type : String) : Option String :=
  (namesOf type chosen).getLast?.or (namesOf type known).head?

section

variable {ks ks' chosen known : List (String × String)} {k : String × String}
  {type name : String}

theorem choice?_of_mem (h : (type, name) ∈ known) :
    (.setDefault type name : Call κ).choice? known = some (type, name) :=
  if_pos (List.contains_iff_mem.2 h)

theorem choice?_of_not_mem (h : (type, name) ∉ known) :
    (.setDefault type name : Call κ).choice? known = none :=
  if_neg fun hk => h (List.contains_iff_mem.1 hk)

theorem registrations_cons (c : Call κ) (h : List (Call κ)) :
    registrations (c :: h) = c.registration?.toList ++ registrations h := by
  rw [registrations, List.filterMap_cons]
  cases c.registration? <;> rfl

theorem compilersPut_cons (c : Call κ) (h : List (Call κ)) :
    compilersPut (c :: h) = c.compiler?.toList ++ compilersPut h := by
  rw [compilersPut, List.filterMap_cons]
  cases c.compiler? <;> rfl

theorem registrations_append (h h' : List (Call κ)) :
    registrations (h ++ h') = registrations h ++ registrations h' := List.filterMap_append

theorem choices_append (known : List (String × String)) (h h' : List (Call κ)) :
    choices known (h ++ h') = choices known h ++ choices (known ++ registered h) h' := by
  induction h generalizing known with
  | nil => rw [registered, registrations, List.filterMap_nil, List.map_nil, List.append_nil]; rfl
  | cons c h ih =>
    rw [List.cons_append, choices, choices, ih, registered, registered, registrations_cons,
      List.map_append, List.append_assoc, List.append_assoc]

theorem mem_registered_iff {h : List (Call κ)} :
    (type, name) ∈ registered h ↔ ∃ make, .register type name make ∈ h := by
  constructor
  · intro hk
    obtain ⟨e, he, hkey⟩ := List.mem_map.1 hk
    obtain ⟨c, hc, hreg⟩ := List.mem_filterMap.1 he
    cases c with
    | register type' name' make =>
      cases hreg
      cases hkey
      exact ⟨make, hc⟩
    | _ => cases hreg
  · rintro ⟨make, hc⟩
    have he : ((type, name), make) ∈ registrations h := List.mem_filterMap.2 ⟨_, hc, rfl⟩
    exact List.mem_map_of_mem he

@[simp] theorem namesOf_append (ks ks' : List (String × String)) :
    namesOf type (ks ++ ks') = namesOf type ks ++ namesOf type ks' := by
  rw [namesOf, List.filter_append, List.map_append]
  rfl

theorem namesOf_singleton (k : String × String) :
    namesOf type [k] = if k.1 = type then [k.2] else [] := by
  by_cases hk : k.1 = type
  · simp [namesOf, hk]
  · simp [namesOf, hk]

theorem mem_namesOf : name ∈ namesOf type ks ↔ (type, name) ∈ ks := by simp [namesOf]

/-- What is chosen later comes before the default so far, what is registered later after it. -/
theorem defaultOf_append (chosen chosen' known known' : List (String × String)) (type : String) :
    defaultOf (chosen ++ chosen') (known ++ known') type =
      (namesOf type chosen').getLast?.or
        ((defaultOf chosen known type).or (namesOf type known').head?) := by
  rw [defaultOf, defaultOf, namesOf_append, namesOf_append, List.getLast?_append,
    List.head?_append, Option.or_assoc, Option.or_assoc]

/-- The name chosen last is the default. -/
theorem defaultOf_concat_left : defaultOf (chosen ++ [k]) known type =
    if k.1 = type then some k.2 else defaultOf chosen known type := by
  have happend := defaultOf_append chosen [k] known [] type
  rw [List.append_nil, namesOf_singleton] at happend
  rw [happend]
  by_cases hk : k.1 = type
  · rw [if_pos hk, if_pos hk]
    rfl
  · rw [if_neg hk, if_neg hk]
    exact Option.or_none

/-- A name registered last is the default only if there was none. -/
theorem defaultOf_concat_right : defaultOf chosen (known ++ [k]) type =
    (defaultOf chosen known type).or (if k.1 = type then some k.2 else none) := by
  have happend := defaultOf_append chosen [] known [k] type
  rw [List.append_nil, namesOf_singleton] at happend
  rw [happend]
  by_cases hk : k.1 = type
  · rw [if_pos hk, if_pos hk]
    rfl
  · rw [if_neg hk, if_neg hk]
    rfl

theorem isSome_defaultOf (chosen : List (String × String)) (hk : (type, name) ∈ known) :
    (defaultOf chosen known type).isSome := by
  have hne : namesOf type known ≠ [] := List.ne_nil_of_mem (mem_namesOf.2 hk)
  rw [defaultOf, Option.isSome_or, List.isSome_head?.2 hne, Bool.or_true]

theorem mem_of_defaultOf (hchosen : ∀ k ∈ chosen, k ∈ known)
    (h : defaultOf chosen known type = some name) : (type, name) ∈ known := by
  rw [defaultOf, Option.or_eq_some_iff] at h
  rcases h with h | ⟨-, h⟩
  · exact hchosen _ (mem_namesOf.1 (List.mem_of_getLast? h))
  · exact mem_namesOf.1 (List.mem_of_head? h)

end

/-! ### What registrations, choices and compilers make of a registry -/

/-- A registry is made of the registrations `regs`, the `chosen` defaults and the compilers
    `comps`, each of which came in turn. -/
structure MadeOf (regs : List ((String × String) × κ)) (chosen : List (String × String))
    (comps : List (String × Compiler)) (r : Registry κ) : Prop where
  types : r.types.keys = ((regs.map Prod.fst).map Prod.fst).eraseDups
  templateNames : ∀ type, r.templateNames type = (namesOf type (regs.map Prod.fst)).eraseDups
  maker? : ∀ type name, r.maker? type name = find (type, name) regs
  default : ∀ type, (r.family type).default = defaultOf chosen (regs.map Prod.fst) type
  compilers : r.compilers = .ofList comps
  chosen_mem : ∀ k ∈ chosen, k ∈ regs.map Prod.fst

variable {regs : List ((String × String) × κ)} {chosen : List (String × String)}
  {comps : List (String × Compiler)} {r r' : Registry κ} {type name : String} {make : κ}

theorem madeOf_empty : MadeOf [] [] [] (empty : Registry κ) where
  types := rfl
  templateNames _ := rfl
  maker? _ _ := rfl
  default _ := rfl
  compilers := rfl
  chosen_mem _ h := h

theorem MadeOf.hasTemplate_iff (hr : MadeOf regs chosen comps r) :
    r.hasTemplate type name = true ↔ (type, name) ∈ regs.map Prod.fst := by
  show (r.maker? type name).isSome = true ↔ _
  rw [hr.maker?, OrderedMap.isSome_find_iff]

theorem MadeOf.hasTemplate_eq_false_iff (hr : MadeOf regs chosen comps r) :
    r.hasTemplate type name = false ↔ (type, name) ∉ regs.map Prod.fst := by
  rw [← hr.hasTemplate_iff, Bool.not_eq_true]

theorem MadeOf.hasType_iff (hr : MadeOf regs chosen comps r) :
    r.hasType type = true ↔ ∃ name, (type, name) ∈ regs.map Prod.fst := by
  rw [hasType, contains, ← mem_keys_iff, hr.types, List.mem_eraseDups, List.mem_map]
  constructor
  · rintro ⟨k, hk, rfl⟩
    exact ⟨k.2, hk⟩
  · rintro ⟨name, hk⟩
    exact ⟨_, hk, rfl⟩

theorem MadeOf.hasDefaults (hr : MadeOf regs chosen comps r) : r.HasDefaults := by
  intro type f hf
  have hfamily : r.family type = f := by rw [family, hf, Option.getD_some]
  have htype : r.hasType type = true := by rw [hasType, contains, hf, Option.isSome_some]
  obtain ⟨_, hk⟩ := hr.hasType_iff.1 htype
  obtain ⟨name, hname⟩ := Option.isSome_iff_exists.1 (isSome_defaultOf chosen hk)
  refine ⟨name, ?_, ?_⟩
  · rw [← hfamily, hr.default, hname]
  · have htemplate := hr.hasTemplate_iff.2 (mem_of_defaultOf hr.chosen_mem hname)
    rwa [hasTemplate, hfamily] at htemplate

/-- A registry is told by what it is made of. -/
theorem MadeOf.unique (hr : MadeOf regs chosen comps r) (hr' : MadeOf regs chosen comps r') :
    r = r' := by
  have hfamily : ∀ type, r.family type = r'.family type := by
    intro type
    have hmakers : (r.family type).makers = (r'.family type).makers :=
      OrderedMap.ext_of_get? ((hr.templateNames type).trans (hr'.templateNames type).symm)
        fun name => (hr.maker? type name).trans (hr'.maker? type name).symm
    have hdefault := (hr.default type).trans (hr'.default type).symm
    exact Family.mk.injEq .. ▸ ⟨hdefault, hmakers⟩
  have hkeys := hr.types.trans hr'.types.symm
  have htypes : r.types = r'.types := by
    refine OrderedMap.ext_of_get? hkeys fun type => ?_
    by_cases htype : type ∈ r.types.keys
    · rw [get?_types_of_mem htype, get?_types_of_mem (hkeys ▸ htype), hfamily]
    · rw [get?_types_of_not_mem htype, get?_types_of_not_mem (hkeys ▸ htype)]
  have hcomps := hr.compilers.trans hr'.compilers.symm
  cases r
  cases r'
  cases htypes
  cases hcomps
  rfl

/-! ### One call -/

/-- Where a name is taken, one more registration of it makes no difference. -/
theorem MadeOf.register_taken (hr : MadeOf regs chosen comps r)
    (htaken : r.hasTemplate type name = true) (make : κ) :
    MadeOf (regs ++ [((type, name), make)]) chosen comps r := by
  have hmem : (type, name) ∈ regs.map Prod.fst := hr.hasTemplate_iff.1 htaken
  constructor
  · rw [hr.types, List.map_append, List.map_append, List.map_singleton, List.map_singleton,
      eraseDups_concat, if_pos (List.mem_map_of_mem hmem)]
  · intro type'
    rw [hr.templateNames, List.map_append, List.map_singleton, namesOf_append, namesOf_singleton]
    by_cases htype : type = type'
    · rw [if_pos htype, eraseDups_concat, if_pos (mem_namesOf.2 (htype ▸ hmem))]
    · rw [if_neg htype, List.append_nil]
  · intro type' name'
    rw [hr.maker?, OrderedMap.find_append, find, find]
    by_cases hk : (type, name) = (type', name')
    · obtain ⟨make', hmake⟩ := Option.isSome_iff_exists.1 (OrderedMap.isSome_find_iff.2 hmem)
      rw [← hk, hmake, Option.some_or]
    · rw [if_neg hk, Option.or_none]
  · intro type'
    rw [hr.default, List.map_append, List.map_singleton, defaultOf_concat_right]
    by_cases htype : type = type'
    · have hsome := isSome_defaultOf chosen hmem
      obtain ⟨name', hdefault⟩ := Option.isSome_iff_exists.1 hsome
      rw [← htype, hdefault, Option.some_or]
    · rw [if_neg htype, Option.or_none]
  · exact hr.compilers
  · intro k hk
    rw [List.map_append]
    exact List.mem_append_left _ (hr.chosen_mem k hk)

/-- A registration of a name that is free goes to the end. -/
theorem MadeOf.register_free (hr : MadeOf regs chosen comps r)
    (hfree : r.hasTemplate type name = false) (make : κ) :
    MadeOf (regs ++ [((type, name), make)]) chosen comps (r.withMaker type name make) := by
  have hnot : (type, name) ∉ regs.map Prod.fst := hr.hasTemplate_eq_false_iff.1 hfree
  constructor
  · rw [withMaker, keys_types_setFamily, hr.types, List.map_append, List.map_append,
      List.map_singleton, List.map_singleton, eraseDups_concat]
    simp only [List.mem_eraseDups]
  · intro type'
    rw [templateNames_withMaker hfree, hr.templateNames, List.map_append, List.map_singleton,
      namesOf_append, namesOf_singleton]
    by_cases htype : type = type'
    · have hname : name ∉ namesOf type' (regs.map Prod.fst) := by rwa [mem_namesOf, ← htype]
      rw [if_pos htype, eraseDups_concat, if_neg hname]
    · rw [if_neg htype, List.append_nil, List.append_nil]
  · intro type' name'
    rw [maker?_withMaker hfree, hr.maker?, OrderedMap.find_append, find, find]
  · intro type'
    rw [default_withMaker, hr.default, List.map_append, List.map_singleton, defaultOf_concat_right]
  · exact hr.compilers
  · intro k hk
    rw [List.map_append]
    exact List.mem_append_left _ (hr.chosen_mem k hk)

/-- A default that is chosen is the default from then on. -/
theorem MadeOf.setDefault (hr : MadeOf regs chosen comps r)
    (hname : r.hasTemplate type name = true) :
    MadeOf regs (chosen ++ [(type, name)]) comps (r.withDefault type name) := by
  constructor
  · rw [withDefault, keys_types_setFamily, if_pos (mem_keys_of_hasTemplate hname), hr.types]
  · intro type'
    rw [Registry.templateNames, makers_withDefault, ← Registry.templateNames, hr.templateNames]
  · intro type' name'
    rw [Registry.maker?, makers_withDefault, ← Registry.maker?, hr.maker?]
  · intro type'
    rw [default_withDefault, hr.default, defaultOf_concat_left]
  · exact hr.compilers
  · intro k hk
    rcases List.mem_append.1 hk with hk | hk
    · exact hr.chosen_mem k hk
    · rw [List.mem_singleton.1 hk]
      exact hr.hasTemplate_iff.1 hname

theorem MadeOf.setCompiler (hr : MadeOf regs chosen comps r) (name : String) (c : Compiler) :
    MadeOf regs chosen (comps ++ [(name, c)]) (r.setCompiler name c) where
  types := hr.types
  templateNames := hr.templateNames
  maker? := hr.maker?
  default := hr.default
  compilers := by
    rw [Registry.setCompiler, hr.compilers, OrderedMap.ofList_append]
    rfl
  chosen_mem := hr.chosen_mem

theorem MadeOf.call_of_isQuery (hr : MadeOf regs chosen comps r) {c : Call κ} (hc : c.IsQuery) :
    MadeOf (regs ++ c.registration?.toList) (chosen ++ (c.choice? (regs.map Prod.fst)).toList)
      (comps ++ c.compiler?.toList) (r.call c).2 := by
  rw [hr.hasDefaults.call_of_isQuery hc]
  cases c with
  | defaultTemplate | select | ask =>
    show MadeOf (regs ++ []) (chosen ++ []) (comps ++ []) r
    rw [List.append_nil, List.append_nil, List.append_nil]
    exact hr
  | _ => cases hc

/-- What a registry is made of after one more call. -/
theorem MadeOf.call (hr : MadeOf regs chosen comps r) (c : Call κ) :
    MadeOf (regs ++ c.registration?.toList) (chosen ++ (c.choice? (regs.map Prod.fst)).toList)
      (comps ++ c.compiler?.toList) (r.call c).2 := by
  cases c with
  | register type name make =>
    show MadeOf (regs ++ [((type, name), make)]) (chosen ++ []) (comps ++ []) _
    rw [List.append_nil, List.append_nil]
    cases hname : r.hasTemplate type name with
    | true =>
      rw [Registry.call, register_of_hasTemplate hname]
      exact hr.register_taken hname make
    | false =>
      rw [Registry.call, register_of_free hname]
      exact hr.register_free hname make
  | setCompiler name c =>
    show MadeOf (regs ++ []) (chosen ++ []) (comps ++ [(name, c)]) _
    rw [List.append_nil, List.append_nil]
    exact hr.setCompiler name c
  | setDefault type name =>
    show MadeOf (regs ++ []) _ (comps ++ []) _
    rw [List.append_nil, List.append_nil]
    cases hname : r.hasTemplate type name with
    | true =>
      rw [Registry.call, setDefault_of_hasTemplate hname,
        choice?_of_mem (hr.hasTemplate_iff.1 hname)]
      exact hr.setDefault hname
    | false =>
      rw [Registry.call, setDefault_of_free hname,
        choice?_of_not_mem (hr.hasTemplate_eq_false_iff.1 hname), Option.toList_none,
        List.append_nil]
      exact hr
  | _ => exact hr.call_of_isQuery trivial

/-- What a registry is made of after some more calls. -/
theorem MadeOf.run (hr : MadeOf regs chosen comps r) (h : List (Call κ)) :
    MadeOf (regs ++ registrations h) (chosen ++ choices (regs.map Prod.fst) h)
      (comps ++ compilersPut h) (r.run h) := by
  induction h generalizing regs chosen comps r with
  | nil =>
    rw [registrations, compilersPut, choices, List.filterMap_nil, List.filterMap_nil,
      List.append_nil, List.append_nil, List.append_nil]
    exact hr
  | cons c h ih =>
    have hmade := ih (hr.call c)
    rw [List.append_assoc, List.append_assoc, List.append_assoc, List.map_append] at hmade
    rw [registrations_cons, compilersPut_cons, choices]
    exact hmade

theorem madeOf_after (h : List (Call κ)) :
    MadeOf (registrations h) (choices [] h) (compilersPut h) (after h) := madeOf_empty.run h

/-- The history of a registry, which is empty to begin with, tells all its answers.

    What is there is what was registered, and it is selected with the maker with which it
    was registered first. Types and names are in the order of their first registrations.
    The default of a type is the name chosen last, of those that were registered when they
    were chosen, or else the first name that was registered; it is there for every type,
    and always names a template. A choice, or a selection, fails exactly if what it names
    was not registered. Queries and calls that fail change no later answer. -/
theorem after_follows_history (h : List (Call κ)) :
    (∀ type name, (after h).hasTemplate type name = true ↔
      ∃ make, .register type name make ∈ h) ∧
    (∀ type name make, ((after h).register type name make).1 = true ↔
      ∀ make', .register type name make' ∉ h) ∧
    (∀ type name make later, (∀ make', .register type name make' ∉ h) →
      ((after (h ++ .register type name make :: later)).select type (some name)).1 = .ok make) ∧
    (after h).types.keys = ((registered h).map Prod.fst).eraseDups ∧
    (∀ type, (after h).templateNames type = (namesOf type (registered h)).eraseDups) ∧
    (∀ type, ((after h).defaultTemplate type).1 =
      defaultOf (choices [] h) (registered h) type) ∧
    (∀ type, ((after h).defaultTemplate type).1.isSome = (after h).hasType type) ∧
    (∀ type name, ((after h).defaultTemplate type).1 = some name →
      (after h).hasTemplate type name = true) ∧
    (after h).HasDefaults ∧
    (∀ type name, (∃ e, (after h).setDefault type name = .error e) ↔
      ∀ make, .register type name make ∉ h) ∧
    (∀ type name, (∃ e, ((after h).select type (some name)).1 = .error e) ↔
      ∀ make, .register type name make ∉ h) ∧
    (∀ type, (∃ e, ((after h).select type none).1 = .error e) ↔
      ∀ name make, .register type name make ∉ h) ∧
    ∀ c, c.IsQuery ∨ ((after h).call c).1.IsFailure →
      ∀ later, (after (h ++ [c])).answers later = (after h).answers later := by
  have hmade := madeOf_after h
  have hdef := hmade.hasDefaults
  have hregistered : ∀ type name, (after h).hasTemplate type name = true ↔
      ∃ make, .register type name make ∈ h := by
    intro type name
    rw [hmade.hasTemplate_iff, ← registered, mem_registered_iff]
  have hfree : ∀ type name, (after h).hasTemplate type name = false ↔
      ∀ make, .register type name make ∉ h := by
    intro type name
    rw [← Bool.not_eq_true, hregistered, not_exists]
  refine ⟨hregistered, fun type name make => ?_, fun type name make later hnot => ?_, hmade.types,
    hmade.templateNames, fun type => ?_, fun type => ?_, fun type name hname => ?_, hdef,
    fun type name => ?_, fun type name => ?_, fun type => ?_, fun c hc later => ?_⟩
  · rw [register_eq_true_iff, hfree]
  · rw [select_eq_ok_iff, (madeOf_after _).maker?, registrations_append, OrderedMap.find_append,
      ← hmade.maker?, Registry.hasTemplate_eq_false_iff.1 ((hfree type name).2 hnot),
      Option.none_or]
    exact if_pos rfl
  · rw [hdef.defaultTemplate, hmade.default, registered]
  · rw [hdef.defaultTemplate, hdef.isSome_default]
  · rw [hdef.defaultTemplate] at hname
    exact hdef.hasTemplate_of_default hname
  · rw [exists_setDefault_eq_error_iff, hfree]
  · rw [exists_select_eq_error_iff, hfree]
  · rw [hdef.exists_select_none_eq_error_iff, ← Bool.not_eq_true, hmade.hasType_iff, not_exists]
    exact forall_congr' fun name => by rw [← registered, mem_registered_iff, not_exists]
  · rw [after_concat, hc.elim hdef.call_of_isQuery hdef.call_of_isFailure]

example : ((after [.register "page" "bare" 1, .register "page" "wide" 2, .setDefault "page" "wide",
    .setDefault "page" "none", .register "page" "bare" 3]).select "page" none).1.toOption =
    some 2 := by
  decide

end Stencil.Registry
