import Stencil.Command.Run
import Stencil.Proofs.Installed
import Stencil.Stage

/-!
# Steps of a run

A run of the command goes through steps (`Step.order`), each of which may have something to say
about what the run leaves, its code and what it prints (`Applies`). What a step says is told from
what was read (`Readings`) and from what the library makes of it, without regard to the other steps:
a catalog that cannot be loaded or installed, a registry that is to be listed, data that cannot be
read, a compiler that is to be run, a type that cannot be chosen, a template that cannot be made,
and at last the template as it is rendered. It is told to the letter, up to the texts that are those
of others: the messages and the reports of the library, and the remarks of readers (`Wording`).

Nothing is left open by that. A step says one thing at most, and so does the first one of several
that has something to say (`FirstApplies`).

* `Registry.HasDefaults.listing`: what a registry is listed as;
* `Applies.unique`, `FirstApplies.unique`: what is said is told by what was read;
* `not_load_of_installs` and those after it: steps that have nothing to say.
-/

namespace Stencil

variable {σ κ : Type}

/-! ### Listings -/

namespace Registry

/-- The lines that tell the templates of a type, the default one marked. -/
def familyLines (type : String) (f : Family κ) : List String :=
  type :: f.makers.keys.map fun name =>
    "  " ++ name ++ if f.default = some name then " (default)" else ""

/-- The lines that tell what is in a registry, in order: the types with their templates, and then
    the compilers, if there are any. -/
def inventory (r : Registry κ) : List String :=
  r.types.entries.flatMap (fun e => familyLines e.1 e.2) ++
    if r.compilers.keys = [] then [] else "compilers" :: r.compilers.keys.map ("  " ++ ·)

variable {r : Registry κ}

theorem HasDefaults.listTypes (h : r.HasDefaults) (types : List String) :
    listTypes types r = (types.flatMap fun type => familyLines type (r.family type), r) := by
  induction types with
  | nil => rfl
  | cons type types ih =>
    rw [Registry.listTypes, h.defaultTemplate]
    dsimp only
    rw [ih]
    rfl

/-- A registry in which every type has a default is listed as what is in it, and stays as it is. -/
theorem HasDefaults.listing (h : r.HasDefaults) : r.listing = (r.inventory, r) := by
  have hlines : r.types.keys.flatMap (fun type => familyLines type (r.family type)) =
      r.types.entries.flatMap fun e => familyLines e.1 e.2 := by
    rw [OrderedMap.keys, List.flatMap_map]
    refine List.flatMap_congr fun e he => ?_
    have hfind : r.types.get? e.1 = some e.2 :=
      (OrderedMap.find_eq_some_iff r.types.nodup_keys).2 he
    rw [family, hfind, Option.getD_some]
  rw [Registry.listing, h.listTypes, hlines, inventory]
  dsimp only
  cases r.compilers.keys <;> rfl

end Registry

theorem Catalog.hasDefaults_of_install {c : Catalog} {r : Registry (Maker σ)}
    (h : c.install .empty = .ok r) : r.HasDefaults := by
  rw [(install_eq_ok_iff.1 h).2]
  exact (Registry.madeOf_empty.run c.calls).hasDefaults

namespace Command

/-! ### Steps -/

/-- The steps of a run. -/
inductive Step
  /-- To load the catalog. -/
  | load
  /-- To install it. -/
  | install
  /-- To list what is installed. -/
  | list
  /-- To read the data. -/
  | readData
  /-- To run a compiler. -/
  | compile
  /-- To choose a type. -/
  | chooseType
  /-- To make a template of the type. -/
  | makeTemplate
  /-- To render it. -/
  | render
  deriving DecidableEq

/-- The steps in the order in which they are gone through. -/
def Step.order : List Step :=
  [load, install, list, readData, compile, chooseType, makeTemplate, render]

/-- What a run has read. -/
structure Readings where
  /-- The text of the catalog. -/
  catalog : Except FileError String
  /-- The text of the data and the file they are from, if data were read. -/
  data : Option (String × Except FileError String)

namespace Readings

/-- What comes of installing the catalog that was read, and nothing else. -/
def Installs (w : Readings) (result : Except Catalog.InstallError (Registry (Maker Unit))) :
    Prop :=
  ∃ text c, w.catalog = .ok text ∧ Catalog.read? text = some c ∧ c.install .empty = result

/-- Data that were read, or no data where none were. -/
inductive Gives (w : Readings) : Option Json → Prop
  | nothing : w.data = none → Gives w none
  | data {file text : String} {v : Json} :
      w.data = some (file, .ok text) → Json.read? text = some v → Gives w (some v)

/-- What the compiler that is asked for makes of the data, if there is one. -/
def Compiles (w : Readings) (o : Options) (name : String) (result : Option Compiled) : Prop :=
  o.get? .compiler = some name ∧
    ∃ r data, w.Installs (.ok r) ∧ w.Gives data ∧ r.compile name data = result

/-- The types from which one is to be chosen, as none is given. -/
def Offers (w : Readings) (o : Options) (types : List String) : Prop :=
  o.get? .type = none ∧ ∃ r, w.Installs (.ok r) ∧ r.types.keys = types

/-- The type that is given, or the only one that is registered. -/
inductive Chooses (w : Readings) (o : Options) : String → Prop
  | given {type : String} : o.get? .type = some type → Chooses w o type
  | only {type : String} : w.Offers o [type] → Chooses w o type

/-- What is selected by the chosen type and the name that is given, if one is. -/
def Selects (w : Readings) (o : Options) (type : String)
    (result : Except RegistryError (Maker Unit)) : Prop :=
  w.Chooses o type ∧ ∃ r, w.Installs (.ok r) ∧ (r.select type (o.get? .name)).1 = result

/-- What the first template of a new stage, made as selected, renders to with the data. -/
def Renders (w : Readings) (o : Options) (type : String) (result : Except RenderError String) :
    Prop :=
  ∃ make data t, w.Selects o type (.ok make) ∧ w.Gives data ∧
    ((Stage.start ()).createBy make).template? ⟨1⟩ = some t ∧
    (t.render data ((Stage.start ()).createBy make).hub).result = result

end Readings

/-- What a run leaves. -/
structure Printout where
  /-- The code of the command. -/
  code : Nat
  /-- What was printed as output. -/
  output : String
  /-- What was printed as errors. -/
  errors : String
  deriving DecidableEq

/-- The steps that have something to say about a run, and what it leaves if they decide. A failure
    is printed as one message. The report of a failed rendering takes the type for the name of the
    file. -/
inductive Applies (path : String) (o : Options) (wording : Wording) (w : Readings) :
    Step → Printout → Prop
  | unreadable {cause : FileError} : w.catalog = .error cause →
      Applies path o wording w .load ⟨1, "", "Error loading catalog '" ++ path ++
        "': Failed to read catalog file: " ++ cause.message ++ "\n"⟩
  | malformed {text : String} : w.catalog = .ok text → Catalog.read? text = none →
      Applies path o wording w .load ⟨1, "", "Error loading catalog '" ++ path ++
        "': Failed to parse catalog TOML: " ++ wording.catalog text ++ "\n"⟩
  | refused {cause : Catalog.InstallError} : w.Installs (.error cause) →
      Applies path o wording w .install
        ⟨1, "", "Error installing catalog '" ++ path ++ "': " ++ cause.message ++ "\n"⟩
  | listed {r : Registry (Maker Unit)} : w.Installs (.ok r) → o.has .list = true →
      Applies path o wording w .list ⟨0, String.join (r.inventory.map (· ++ "\n")), ""⟩
  | unreadableData {file : String} {cause : FileError} : w.data = some (file, .error cause) →
      Applies path o wording w .readData
        ⟨1, "", "Error reading data '" ++ file ++ "': " ++ cause.message ++ "\n"⟩
  | malformedData {file text : String} : w.data = some (file, .ok text) →
      Json.read? text = none → Applies path o wording w .readData
        ⟨1, "", "Error reading data '" ++ file ++ "': " ++ wording.data text ++ "\n"⟩
  | unknownCompiler {name : String} : w.Compiles o name none →
      Applies path o wording w .compile
        ⟨1, "", "Error: no compiler named '" ++ name ++ "'" ++ "\n"⟩
  | compiled {name : String} {result : Compiled} : w.Compiles o name (some result) →
      Applies path o wording w .compile ⟨0, result.text ++ "\n", ""⟩
  | noType : w.Offers o [] → Applies path o wording w .chooseType
      ⟨1, "", "Error: the catalog declares no templates" ++ "\n"⟩
  | severalTypes {types : List String} : w.Offers o types → 2 ≤ types.length →
      Applies path o wording w .chooseType
        ⟨1, "", "Error: the catalog declares several types, choose one with --type" ++ "\n"⟩
  | refusedTemplate {type : String} {cause : RegistryError} : w.Selects o type (.error cause) →
      Applies path o wording w .makeTemplate ⟨1, "", "Error: " ++ cause.message ++ "\n"⟩
  | failed {type : String} {cause : RenderError} : w.Renders o type (.error cause) →
      Applies path o wording w .render ⟨1, "", "Error: " ++ cause.report type ++ "\n"⟩
  | rendered {type text : String} : w.Renders o type (.ok text) →
      Applies path o wording w .render ⟨0, text ++ "\n", ""⟩

/-- The first one of some steps that has something to say, together with what it says. -/
inductive FirstApplies (path : String) (o : Options) (wording : Wording) (w : Readings) :
    List Step → Step → Printout → Prop
  | here {step : Step} {steps : List Step} {p : Printout} : Applies path o wording w step p →
      FirstApplies path o wording w (step :: steps) step p
  | later {step step' : Step} {steps : List Step} {p : Printout} :
      (∀ p, ¬Applies path o wording w step p) → FirstApplies path o wording w steps step' p →
      FirstApplies path o wording w (step :: steps) step' p

/-! ### What steps say -/

section

variable {path : String} {o : Options} {wording : Wording} {w : Readings}
  {r r' : Registry (Maker Unit)} {data data' : Option Json} {type type' : String}
  {make : Maker Unit} {step step' : Step} {steps : List Step} {p p' : Printout}

namespace Readings

theorem Installs.unique {result result' : Except Catalog.InstallError (Registry (Maker Unit))}
    (h : w.Installs result) (h' : w.Installs result') : result = result' := by
  obtain ⟨text, c, htext, hread, rfl⟩ := h
  obtain ⟨text', c', htext', hread', rfl⟩ := h'
  obtain rfl : text = text' := Except.ok.inj (htext.symm.trans htext')
  obtain rfl : c = c' := Option.some.inj (hread.symm.trans hread')
  rfl

theorem Installs.eq (h : w.Installs (.ok r)) (h' : w.Installs (.ok r')) : r = r' :=
  Except.ok.inj (h.unique h')

theorem Gives.unique (h : w.Gives data) (h' : w.Gives data') : data = data' := by
  cases h with
  | nothing h =>
    cases h' with
    | nothing => rfl
    | data h' => cases h.symm.trans h'
  | data h hread =>
    cases h' with
    | nothing h' => cases h.symm.trans h'
    | data h' hread' =>
      cases h.symm.trans h'
      exact hread.symm.trans hread'

theorem Compiles.unique {name name' : String} {result result' : Option Compiled}
    (h : w.Compiles o name result) (h' : w.Compiles o name' result') :
    name = name' ∧ result = result' := by
  obtain ⟨hname, r, data, hr, hdata, rfl⟩ := h
  obtain ⟨hname', r', data', hr', hdata', rfl⟩ := h'
  obtain rfl : name = name' := Option.some.inj (hname.symm.trans hname')
  rw [hr.eq hr', hdata.unique hdata']
  exact ⟨rfl, rfl⟩

theorem Offers.unique {types types' : List String} (h : w.Offers o types)
    (h' : w.Offers o types') : types = types' := by
  obtain ⟨-, r, hr, rfl⟩ := h
  obtain ⟨-, r', hr', rfl⟩ := h'
  rw [hr.eq hr']

theorem Chooses.unique (h : w.Chooses o type) (h' : w.Chooses o type') : type = type' := by
  cases h with
  | given h =>
    cases h' with
    | given h' => exact Option.some.inj (h.symm.trans h')
    | only h' => exact nomatch h.symm.trans h'.1
  | only h =>
    cases h' with
    | given h' => exact nomatch h.1.symm.trans h'
    | only h' => exact (List.cons.inj (h.unique h')).1

theorem Selects.unique {result result' : Except RegistryError (Maker Unit)}
    (h : w.Selects o type result) (h' : w.Selects o type' result') :
    type = type' ∧ result = result' := by
  obtain ⟨htype, r, hr, rfl⟩ := h
  obtain ⟨htype', r', hr', rfl⟩ := h'
  rw [htype.unique htype', hr.eq hr']
  exact ⟨rfl, rfl⟩

theorem Renders.unique {result result' : Except RenderError String}
    (h : w.Renders o type result) (h' : w.Renders o type' result') :
    type = type' ∧ result = result' := by
  obtain ⟨make, data, t, hselects, hdata, ht, rfl⟩ := h
  obtain ⟨make', data', t', hselects', hdata', ht', rfl⟩ := h'
  obtain ⟨rfl, hmake⟩ := hselects.unique hselects'
  cases hmake
  cases hdata.unique hdata'
  cases ht.symm.trans ht'
  exact ⟨rfl, rfl⟩

end Readings

/-- A step says one thing at most. -/
theorem Applies.unique (h : Applies path o wording w step p)
    (h' : Applies path o wording w step p') : p = p' := by
  cases h with
  | unreadable h =>
    cases h' with
    | unreadable h' => cases h.symm.trans h'; rfl
    | malformed h' => cases h.symm.trans h'
  | malformed h =>
    cases h' with
    | unreadable h' => cases h.symm.trans h'
    | malformed h' => cases h.symm.trans h'; rfl
  | refused h => cases h' with | refused h' => cases h.unique h'; rfl
  | listed h => cases h' with | listed h' => rw [h.eq h']
  | unreadableData h =>
    cases h' with
    | unreadableData h' => cases h.symm.trans h'; rfl
    | malformedData h' => cases h.symm.trans h'
  | malformedData h =>
    cases h' with
    | unreadableData h' => cases h.symm.trans h'
    | malformedData h' => cases h.symm.trans h'; rfl
  | unknownCompiler h =>
    cases h' with
    | unknownCompiler h' => rw [(h.unique h').1]
    | compiled h' => cases (h.unique h').2
  | compiled h =>
    cases h' with
    | unknownCompiler h' => cases (h.unique h').2
    | compiled h' => cases (h.unique h').2; rfl
  | noType h =>
    cases h' with
    | noType => rfl
    | severalTypes h' hlength => cases h.unique h'; cases hlength
  | severalTypes h hlength =>
    cases h' with
    | noType h' => cases h.unique h'; cases hlength
    | severalTypes => rfl
  | refusedTemplate h => cases h' with | refusedTemplate h' => cases (h.unique h').2; rfl
  | failed h =>
    cases h' with
    | failed h' => cases (h.unique h').1; cases (h.unique h').2; rfl
    | rendered h' => cases (h.unique h').2
  | rendered h =>
    cases h' with
    | failed h' => cases (h.unique h').2
    | rendered h' => cases (h.unique h').2; rfl

/-- There is one first step, and it says one thing. -/
theorem FirstApplies.unique (h : FirstApplies path o wording w steps step p)
    (h' : FirstApplies path o wording w steps step' p') : step' = step ∧ p' = p := by
  induction h with
  | here h =>
    cases h' with
    | here h' => exact ⟨rfl, h'.unique h⟩
    | later hnot => exact absurd h (hnot _)
  | later hnot _ ih =>
    cases h' with
    | here h' => exact absurd h' (hnot _)
    | later _ h' => exact ih h'

/-! A step has nothing to say where what it is about went well. -/

theorem not_load_of_installs {result : Except Catalog.InstallError (Registry (Maker Unit))}
    (h : w.Installs result) (p : Printout) : ¬Applies path o wording w .load p := by
  obtain ⟨text, c, htext, hread, -⟩ := h
  intro happlies
  cases happlies with
  | unreadable hc => cases hc.symm.trans htext
  | malformed hc hnone =>
    cases hc.symm.trans htext
    cases hnone.symm.trans hread

theorem not_install_of_installs (h : w.Installs (.ok r)) (p : Printout) :
    ¬Applies path o wording w .install p := by
  intro happlies
  cases happlies with
  | refused h' => cases h.unique h'

theorem not_list (h : o.has .list = false) (p : Printout) : ¬Applies path o wording w .list p := by
  intro happlies
  cases happlies with
  | listed _ h' => exact Bool.false_ne_true (h.symm.trans h')

theorem not_readData_of_gives (h : w.Gives data) (p : Printout) :
    ¬Applies path o wording w .readData p := by
  intro happlies
  cases happlies with
  | unreadableData hdata =>
    cases h with
    | nothing h => cases hdata.symm.trans h
    | data h => cases hdata.symm.trans h
  | malformedData hdata hnone =>
    cases h with
    | nothing h => cases hdata.symm.trans h
    | data h hread =>
      cases hdata.symm.trans h
      cases hnone.symm.trans hread

theorem not_compile (h : o.get? .compiler = none) (p : Printout) :
    ¬Applies path o wording w .compile p := by
  intro happlies
  cases happlies with
  | unknownCompiler h' => cases h.symm.trans h'.1
  | compiled h' => cases h.symm.trans h'.1

theorem not_chooseType_of_chooses (h : w.Chooses o type) (p : Printout) :
    ¬Applies path o wording w .chooseType p := by
  -- Either none of several types is chosen, or the only one is.
  have honly {types : List String} (h' : w.Offers o types) : types = [type] := by
    cases h with
    | given h => cases h.symm.trans h'.1
    | only h => exact h'.unique h
  intro happlies
  cases happlies with
  | noType h' => cases honly h'
  | severalTypes h' hlength =>
    cases honly h'
    cases Nat.lt_irrefl 1 hlength

theorem not_makeTemplate_of_selects (h : w.Selects o type (.ok make)) (p : Printout) :
    ¬Applies path o wording w .makeTemplate p := by
  intro happlies
  cases happlies with
  | refusedTemplate h' => cases (h.unique h').2

end

end Command

end Stencil
