import Stencil.Proofs.Step

/-!
# What a listing tells

A listing goes through the types of a registry, the templates of each type, and the compilers, in
the order in which they first came. It asks for the default of each type to mark it, and asking may
change a registry: a type without a valid default would be given one. A registry to which calls and
installations have led has no such type, however they led to it (`Registry.ReachedBy`), so exactly
one template of each type is marked, and the registry stays as it is.

* `listing_tells_all`: what is listed is told by the history of the registry.
-/

namespace Stencil.Registry

open OrderedMap (mem_keys_iff contains)

variable {σ κ : Type}

/-! ### Histories with installations -/

/-- Calls and installations lead from the empty registry to a registry. They are listed as calls, an
    installation as those that it is made of. -/
inductive ReachedBy : List (Call (Maker σ)) → Registry (Maker σ) → Prop
  | empty : ReachedBy [] .empty
  | call {h : List (Call (Maker σ))} {r : Registry (Maker σ)} (c : Call (Maker σ)) :
      ReachedBy h r → ReachedBy (h ++ [c]) (r.call c).2
  | install {h : List (Call (Maker σ))} {r r' : Registry (Maker σ)} {c : Catalog} :
      ReachedBy h r → c.install r = .ok r' → ReachedBy (h ++ c.calls) r'

theorem ReachedBy.eq_after {h : List (Call (Maker σ))} {r : Registry (Maker σ)}
    (hr : ReachedBy h r) : r = after h := by
  induction hr with
  | empty => rfl
  | call c _ ih => rw [after_concat, ← ih]
  | install _ hc ih => rw [(Catalog.install_eq_ok_iff.1 hc).2, after, run_append, ← after, ← ih]

/-- Whatever can be reached is reached by some calls. -/
theorem reachable_iff_exists_reachedBy {r : Registry (Maker σ)} :
    r.Reachable ↔ ∃ h, ReachedBy h r := by
  constructor
  · intro hr
    induction hr with
    | empty => exact ⟨_, .empty⟩
    | call c _ ih => exact ih.elim fun _ h => ⟨_, .call c h⟩
    | install _ hc ih => exact ih.elim fun _ h => ⟨_, .install h hc⟩
  · rintro ⟨h, hr⟩
    induction hr with
    | empty => exact .empty
    | call c _ ih => exact .call c ih
    | install _ hc ih => exact .install ih hc

/-! ### Lines -/

/-- The line of a template or a compiler. -/
def nameLine (name : String) : String := "  " ++ name

/-- The line of the default template of a type. -/
def defaultLine (name : String) : String := "  " ++ name ++ " (default)"

/-- The lines of the compilers with the given names, under a heading if there are any. -/
def compilerLines (names : List String) : List String :=
  if names = [] then [] else "compilers" :: names.map nameLine

/-- Some lines tell a type with the templates `names`: the type itself, and then its templates in
    order, each in a line. Exactly one of them is marked, and it is the one that is made where no
    name is given. -/
inductive TellsType (r : Registry κ) (type : String) (names : List String) : List String → Prop
  | intro {before after : List String} {default : String} {make : κ} :
      names = before ++ default :: after → default ∉ before → default ∉ after →
      r.defaultTemplate type = (some default, r) → r.select type none = (.ok make, r) →
      r.select type (some default) = (.ok make, r) →
      TellsType r type names
        (type :: (before.map nameLine ++ defaultLine default :: after.map nameLine))

variable {r : Registry κ} {type name : String}

theorem map_familyLines_of_ne {f : Family κ} {names : List String} (hf : f.default = some name)
    (hname : name ∉ names) :
    names.map (fun n => "  " ++ n ++ if f.default = some n then " (default)" else "") =
      names.map nameLine := by
  refine List.map_congr_left fun n hn => ?_
  have hne : f.default ≠ some n := fun h => hname (Option.some.inj (hf.symm.trans h) ▸ hn)
  rw [if_neg hne, String.append_empty, nameLine]

/-- In a registry in which every type has a default, the lines of a type mark that one. -/
theorem HasDefaults.tellsType (hr : r.HasDefaults) (htype : type ∈ r.types.keys) :
    TellsType r type (r.templateNames type) (familyLines type (r.family type)) := by
  obtain ⟨name, hdefault, hname⟩ := hr type _ (get?_types_of_mem htype)
  obtain ⟨make, hmake⟩ := Option.isSome_iff_exists.1 hname
  obtain ⟨before, after, hnames⟩ := List.append_of_mem ((mem_keys_iff _ _).2 hname)
  have hnodup : (before ++ name :: after).Nodup := hnames ▸ (r.family type).makers.nodup_keys
  obtain ⟨-, hafter, hdisjoint⟩ := List.nodup_append'.1 hnodup
  have hbefore : name ∉ before := fun h => hdisjoint h List.mem_cons_self
  have hselect : r.select type (some name) = (.ok make, r) := by
    rw [select_some, maker?, hmake]
    rfl
  have hnone : r.select type none = (.ok make, r) := by
    rw [hr.select_none, hdefault]
    exact hselect
  have hlines : familyLines type (r.family type) =
      type :: (before.map nameLine ++ defaultLine name :: after.map nameLine) := by
    rw [familyLines, hnames, List.map_append, List.map_cons, map_familyLines_of_ne hdefault hbefore,
      map_familyLines_of_ne hdefault (List.nodup_cons.1 hafter).1, if_pos hdefault]
    rfl
  rw [hlines]
  exact .intro hnames hbefore (List.nodup_cons.1 hafter).1
    (by rw [hr.defaultTemplate, hdefault]) hnone hselect

/-- A listing of a registry to which calls and installations have led. Every type is told, once and
    in the order of the first registrations, with its templates in the order of theirs, of which
    exactly one is marked, the one that is made where no name is given. Behind the types, and only
    if there are compilers, these are told under a heading, once and in the order in which they were
    first put in. The registry stays as it is. -/
theorem listing_tells_all {h : List (Call (Maker σ))} {r : Registry (Maker σ)}
    (hr : ReachedBy h r) :
    (∃ groups : List (List String),
      List.Forall₂ (fun type => TellsType r type (namesOf type (registered h)).eraseDups)
        ((registered h).map Prod.fst).eraseDups groups ∧
      r.listing.1 = groups.flatten ++ compilerLines ((compilersPut h).map Prod.fst).eraseDups) ∧
    r.listing.2 = r := by
  have hmade : MadeOf (registrations h) (choices [] h) (compilersPut h) r :=
    hr.eq_after ▸ madeOf_after h
  have hdef := hmade.hasDefaults
  have hcompilers : r.compilers.keys = ((compilersPut h).map Prod.fst).eraseDups := by
    rw [hmade.compilers, OrderedMap.keys_ofList]
  refine ⟨⟨r.types.keys.map fun type => familyLines type (r.family type), ?_, ?_⟩, ?_⟩
  · rw [registered, ← hmade.types, List.forall₂_map_right_iff, List.forall₂_same]
    intro type htype
    rw [← hmade.templateNames]
    exact hdef.tellsType htype
  · rw [listing, hdef.listTypes, ← hcompilers, compilerLines, List.flatMap_def]
    dsimp only
    cases r.compilers.keys <;> rfl
  · rw [hdef.listing]

/-- The calls that lead to a bare page, a wide one, a note, and a greeting. -/
def pageCalls : List (Call (Maker Unit)) :=
  [.register "page" "bare" fun client => (.blank Unit, client)] ++
    (Catalog.wide ++ Catalog.note).calls

theorem listing_tells_all_wide_note :
    ReachedBy pageCalls (Catalog.bare.run (Catalog.wide ++ Catalog.note).calls) ∧
    (after pageCalls).listing.1 = ["page", "  bare", "  wide (default)", "note",
      "  short (default)", "compilers", "  greeting"] ∧
    (∃ groups : List (List String),
      List.Forall₂ (fun type =>
          TellsType (Catalog.bare.run (Catalog.wide ++ Catalog.note).calls) type
            (namesOf type (registered pageCalls)).eraseDups)
        ((registered pageCalls).map Prod.fst).eraseDups groups ∧
      (Catalog.bare.run (Catalog.wide ++ Catalog.note).calls).listing.1 = groups.flatten ++
        compilerLines ((compilersPut pageCalls).map Prod.fst).eraseDups) ∧
    (Catalog.bare.run (Catalog.wide ++ Catalog.note).calls).listing.2 =
      Catalog.bare.run (Catalog.wide ++ Catalog.note).calls := by
  have hr : ReachedBy pageCalls (Catalog.bare.run (Catalog.wide ++ Catalog.note).calls) :=
    .install (.call _ .empty) Catalog.fits_bare.install
  exact ⟨hr, by decide +kernel, listing_tells_all hr⟩

end Stencil.Registry
