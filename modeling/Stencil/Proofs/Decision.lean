import Stencil.Proofs.Step

/-!
# What decides a run

A run reads the catalog, and then the data if the catalog can be installed, no listing is asked for
and data are given (`dataPath?`). How it reads does not matter, and how it ends depends on what was
read alone (`ending`): the first one of its steps that has something to say decides.

The template that a run renders is made and rendered on a hub without emitters. As it has no source,
it renders there as it does on the hub of the stage it belongs to.

* `Template.result_render_congr`: a template without a source renders alike on all hubs;
* `run_eq`: what a run reads;
* `firstApplies_ending`: what decides how it ends;
* `run_decided`: both, for all arguments that are accepted.
-/

namespace Stencil

/-! ### Templates of a new stage -/

namespace Template

variable {σ : Type} {t : Template σ}

theorem snapshot?_of_source (hsource : t.source = none) (h : Hub σ) : t.snapshot? h = none := by
  rw [snapshot?, hsource]
  rfl

theorem view_congr (hsource : t.source = none) (h h' : Hub σ) : t.view h = t.view h' := by
  rw [view, view, snapshot?_of_source hsource, snapshot?_of_source hsource]

theorem baseContext_congr (hsource : t.source = none) (h h' : Hub σ) :
    t.baseContext h = t.baseContext h' := by
  rw [baseContext, baseContext, snapshot?_of_source hsource, snapshot?_of_source hsource]

/-- A template without a source renders alike on all hubs with the same state of the client. -/
theorem result_render_congr {h h' : Hub σ} (hsource : t.source = none)
    (hclient : h.client = h'.client) (external : Option Json) :
    (t.render external h).result = (t.render external h').result := by
  have hdrawn : t.countDraw.source = none := hsource
  have hprepared : (t.countDraw.preparedFields h).1 = (t.countDraw.preparedFields h').1 ∧
      (t.countDraw.preparedFields h).2.client = (t.countDraw.preparedFields h').2.client := by
    rw [preparedFields, preparedFields, view_congr hdrawn h h', baseContext_congr hdrawn h h',
      hclient]
    cases t.countDraw.prepare with
    | none => exact ⟨rfl, hclient⟩
    | some prepare => exact ⟨rfl, rfl⟩
  simp only [render, renderContext, expand, view_congr hdrawn _ h', baseContext_congr hdrawn h h',
    hprepared]

end Template

namespace Command

/-! ### What is read -/

/-- The text of a file, or of standard input for a dash. -/
def Surroundings.read {m : Type → Type} (s : Surroundings m) (file : String) :
    m (Except FileError String) :=
  if isDash file then s.input else s.file file

/-- What comes of loading and installing the catalog of a file, and nothing else. -/
def openCatalog (path : String) (wording : Wording) :
    (catalog : Except FileError String) → Except Failure (Registry (Maker Unit))
  | .error cause => .error (.unreadableCatalog path cause)
  | .ok text =>
    match Catalog.read? text with
    | none => .error (.malformedCatalog path (wording.catalog text))
    | some c => installCatalog path c

/-- The file of the data that are read after the catalog, if any are. -/
def dataPath? (path : String) (o : Options) (wording : Wording)
    (catalog : Except FileError String) : Option String :=
  match openCatalog path wording catalog with
  | .error _ => none
  | .ok _ => if o.has .list then none else o.get? .data

/-- The data among what was read. -/
def Readings.data? (wording : Wording) (w : Readings) : Except Failure (Option Json) :=
  match w.data with
  | none => .ok none
  | some (file, .error cause) => .error (.unreadableData file cause)
  | some (file, .ok text) =>
    match Json.read? text with
    | none => .error (.malformedData file (wording.data text))
    | some v => .ok (some v)

/-- What a run prints for what it has read, or why it fails. -/
def judge (path : String) (o : Options) (wording : Wording) (w : Readings) :
    Except Failure String :=
  (openCatalog path wording w.catalog).bind fun r =>
    if o.has .list then .ok (listRegistry r)
    else (w.data? wording).bind fun data => (produce r o data).map (· ++ "\n")

/-- How a run ends that prints something or fails. -/
def Ending.of : Except Failure String → Ending
  | .ok text => .success text
  | .error cause => .failure cause

/-- How a run ends that has read something. -/
def ending (path : String) (o : Options) (wording : Wording) (w : Readings) : Ending :=
  .of (judge path o wording w)

/-- What a run leaves that ends so. -/
def Ending.printout (e : Ending) : Printout := ⟨e.code, e.output, e.errors⟩

section

variable {m : Type → Type} [Monad m] [LawfulMonad m]

theorem run_openCatalog (s : Surroundings m) (wording : Wording) (path : String) :
    (loadCatalog s wording path >>= fun c => silently (installCatalog path c)).run =
      s.file path >>= fun catalog => pure (openCatalog path wording catalog) := by
  rw [ExceptT.run_bind, loadCatalog, readText, ExceptT.run_bind, ExceptT.run_mk, bind_assoc,
    bind_assoc]
  refine bind_congr fun catalog => ?_
  cases catalog with
  | error cause => simp only [pure_bind, openCatalog]
  | ok text =>
    simp only [pure_bind, openCatalog]
    cases Catalog.read? text with
    | none => exact pure_bind _ _
    | some c => exact pure_bind _ _

theorem run_readData (s : Surroundings m) (wording : Wording) (file : String)
    (catalog : Except FileError String) :
    (readData s wording (some file)).run = s.read file >>= fun answer =>
      pure (Readings.data? wording ⟨catalog, some (file, answer)⟩) := by
  rw [readData, readText, ExceptT.run_bind, ExceptT.run_mk, bind_assoc]
  refine bind_congr fun answer => ?_
  cases answer with
  | error cause => exact pure_bind _ _
  | ok text =>
    rw [pure_bind, Readings.data?]
    dsimp only
    cases Json.read? text <;> rfl

theorem run_print (x : Except Failure String) :
    (do return (← silently x) ++ "\n" : ExceptT Failure m String).run =
      pure (x.map (· ++ "\n")) := by
  rw [ExceptT.run_bind, silently, ExceptT.run_mk, pure_bind]
  cases x <;> rfl

theorem run_perform (s : Surroundings m) (wording : Wording) (path : String) (o : Options) :
    (perform s wording path o).run = s.file path >>= fun catalog =>
      match dataPath? path o wording catalog with
      | none => pure (judge path o wording ⟨catalog, none⟩)
      | some file => s.read file >>= fun answer =>
        pure (judge path o wording ⟨catalog, some (file, answer)⟩) := by
  rw [perform, ← bind_assoc, ExceptT.run_bind, run_openCatalog, bind_assoc]
  refine bind_congr fun catalog => ?_
  rw [pure_bind, dataPath?]
  simp only [judge]
  cases openCatalog path wording catalog with
  | error cause => rfl
  | ok r =>
    dsimp only [Except.bind]
    cases o.has .list with
    | true => rfl
    | false =>
      simp only [Bool.false_eq_true, if_false]
      cases o.get? .data with
      | none =>
        rw [readData, pure_bind]
        exact run_print (m := m) _
      | some file =>
        rw [ExceptT.run_bind, run_readData s wording file catalog, bind_assoc]
        refine bind_congr fun answer => ?_
        rw [pure_bind]
        cases Readings.data? wording ⟨catalog, some (file, answer)⟩ with
        | error cause => rfl
        | ok data => exact run_print (m := m) _

/-- A run reads the catalog, then the data if there are any to be read, and then it ends. -/
theorem run_eq {arguments : List String} {path : String} {o : Options}
    (h : Request.ofArguments arguments = .ok (.run path o)) (s : Surroundings m)
    (wording : Wording) : run arguments s wording = s.file path >>= fun catalog =>
      match dataPath? path o wording catalog with
      | none => pure (ending path o wording ⟨catalog, none⟩)
      | some file => s.read file >>= fun answer =>
        pure (ending path o wording ⟨catalog, some (file, answer)⟩) := by
  rw [run, h]
  dsimp only
  rw [run_perform, bind_assoc]
  refine bind_congr fun catalog => ?_
  cases dataPath? path o wording catalog with
  | none =>
    dsimp only
    rw [pure_bind, ending]
    cases judge path o wording ⟨catalog, none⟩ <;> rfl
  | some file =>
    dsimp only
    rw [bind_assoc]
    refine bind_congr fun answer => ?_
    rw [pure_bind, ending]
    cases judge path o wording ⟨catalog, some (file, answer)⟩ <;> rfl

end

/-! ### What decides -/

section

variable {path type : String} {o : Options} {wording : Wording} {w : Readings}
  {r : Registry (Maker Unit)} {data : Option Json}

/-- A catalog that was read cannot be loaded, or something comes of installing it. -/
theorem openCatalog_cases (path : String) (o : Options) (wording : Wording) (w : Readings) :
    (∃ cause, openCatalog path wording w.catalog = .error cause ∧
      Applies path o wording w .load (Ending.failure cause).printout) ∨
    ∃ result, w.Installs result ∧
      openCatalog path wording w.catalog = result.mapError (.refusedCatalog path) := by
  cases hcatalog : w.catalog with
  | error cause => exact .inl ⟨_, rfl, .unreadable hcatalog⟩
  | ok text =>
    rw [openCatalog]
    cases hread : Catalog.read? text with
    | none => exact .inl ⟨_, rfl, .malformed hcatalog hread⟩
    | some c =>
      refine .inr ⟨c.install .empty, ⟨text, c, hcatalog, hread, rfl⟩, ?_⟩
      dsimp only
      rw [installCatalog]
      cases c.install (.empty : Registry (Maker Unit)) <;> rfl

theorem openCatalog_eq_ok_iff :
    openCatalog path wording w.catalog = .ok r ↔ w.Installs (.ok r) := by
  rcases openCatalog_cases path .none wording w with
    ⟨cause, hopen, hload⟩ | ⟨result, hresult, hopen⟩
  · rw [hopen]
    exact iff_of_false (fun h => nomatch h) fun h => not_load_of_installs h _ hload
  · rw [hopen]
    constructor
    · intro h
      cases result with
      | error cause => cases h
      | ok r' => exact Except.ok.inj h ▸ hresult
    · intro h
      rw [hresult.unique h]
      rfl

/-- What was read as data is no data, or data are given by it. -/
theorem data?_cases (path : String) (o : Options) (wording : Wording) (w : Readings) :
    (∃ cause, w.data? wording = .error cause ∧
      Applies path o wording w .readData (Ending.failure cause).printout) ∨
    ∃ data, w.Gives data ∧ w.data? wording = .ok data := by
  rw [Readings.data?]
  split
  · next hdata => exact .inr ⟨none, .nothing hdata, rfl⟩
  · next hdata => exact .inl ⟨_, rfl, .unreadableData hdata⟩
  · next hdata =>
    split
    · next hread => exact .inl ⟨_, rfl, .malformedData hdata hread⟩
    · next v hread => exact .inr ⟨some v, .data hdata hread, rfl⟩

/-- Once there is a type, a template is made and rendered. -/
theorem firstApplies_of_chooses (path : String) (wording : Wording) (hr : w.Installs (.ok r))
    (hdata : w.Gives data) (htype : w.Chooses o type) :
    ∃ step, FirstApplies path o wording w [.makeTemplate, .render] step
      (Ending.of (((makeTemplate r type (o.get? .name)).bind fun t =>
        renderTemplate t type data).map (· ++ "\n"))).printout := by
  rw [makeTemplate]
  cases hselect : (r.select type (o.get? .name)).1 with
  | error cause => exact ⟨_, .here (.refusedTemplate ⟨htype, r, hr, hselect⟩)⟩
  | ok make =>
    have hselects : w.Selects o type (.ok make) := ⟨htype, r, hr, hselect⟩
    have hrenders : w.Renders o type
        (((make ()).1.build 1 ⟨0⟩).render data (.start ())).result :=
      ⟨make, data, _, hselects, hdata, OrderedMap.get?_insert_self _ _ _,
        Template.result_render_congr rfl rfl data⟩
    refine ⟨_, .later (not_makeTemplate_of_selects hselects) (.here ?_)⟩
    dsimp only [Except.bind]
    rw [renderTemplate]
    cases hresult : (((make ()).1.build 1 ⟨0⟩).render data (.start ())).result with
    | error cause => exact .failed (hresult ▸ hrenders)
    | ok text => exact .rendered (hresult ▸ hrenders)

theorem produce_of_template (h : o.get? .compiler = none) (r : Registry (Maker Unit))
    (data : Option Json) :
    produce r o data = (chooseType r (o.get? .type)).bind fun type =>
      (makeTemplate r type (o.get? .name)).bind fun t => renderTemplate t type data := by
  rw [produce, h]
  rfl

/-- Where no compiler is asked for, a type is chosen for a template. -/
theorem firstApplies_of_template (path : String) (wording : Wording) (hr : w.Installs (.ok r))
    (hdata : w.Gives data) (hcompiler : o.get? .compiler = none) :
    ∃ step, FirstApplies path o wording w [.chooseType, .makeTemplate, .render] step
      (Ending.of ((produce r o data).map (· ++ "\n"))).printout := by
  have hgo {type : String} (htype : w.Chooses o type) :
      ∃ step, FirstApplies path o wording w [.chooseType, .makeTemplate, .render] step
        (Ending.of (((makeTemplate r type (o.get? .name)).bind fun t =>
          renderTemplate t type data).map (· ++ "\n"))).printout := by
    obtain ⟨step, hstep⟩ := firstApplies_of_chooses path wording hr hdata htype
    exact ⟨step, .later (not_chooseType_of_chooses htype) hstep⟩
  rw [produce_of_template hcompiler]
  cases htype : o.get? .type with
  | some type => exact hgo (.given htype)
  | none =>
    rw [chooseType]
    split
    · next only hkeys => exact hgo (.only ⟨htype, r, hr, hkeys⟩)
    · next hkeys => exact ⟨_, .here (.noType ⟨htype, r, hr, hkeys⟩)⟩
    · next hseveral hnone =>
      have hlength : 2 ≤ r.types.keys.length := by
        rcases hkeys : r.types.keys with _ | ⟨first, _ | ⟨second, rest⟩⟩
        · exact absurd hkeys hnone
        · exact absurd hkeys (hseveral first)
        · exact Nat.le_add_left _ _
      exact ⟨_, .here (.severalTypes ⟨htype, r, hr, rfl⟩ hlength)⟩

/-- A compiler that is asked for decides. -/
theorem firstApplies_of_gives (path : String) (wording : Wording) (hr : w.Installs (.ok r))
    (hdata : w.Gives data) :
    ∃ step, FirstApplies path o wording w [.compile, .chooseType, .makeTemplate, .render] step
        (Ending.of ((produce r o data).map (· ++ "\n"))).printout ∧
      ((o.get? .compiler).isSome = true → step = .compile) := by
  cases hcompiler : o.get? .compiler with
  | some name =>
    refine ⟨.compile, .here ?_, fun _ => rfl⟩
    rw [produce, hcompiler]
    dsimp only
    rw [runCompiler]
    cases hresult : r.compile name data with
    | none => exact .unknownCompiler ⟨hcompiler, r, data, hr, hdata, hresult⟩
    | some result => exact .compiled ⟨hcompiler, r, data, hr, hdata, hresult⟩
  | none =>
    obtain ⟨step, hstep⟩ := firstApplies_of_template path wording hr hdata hcompiler
    exact ⟨step, .later (not_compile hcompiler) hstep, fun h => nomatch h⟩

theorem listRegistry_of_installs (hr : w.Installs (.ok r)) :
    listRegistry r = String.join (r.inventory.map (· ++ "\n")) := by
  obtain ⟨_, c, -, -, hinstall⟩ := hr
  rw [listRegistry, (Catalog.hasDefaults_of_install hinstall).listing]

/-- The first step that has something to say decides how a run ends, and it is one of the first five
    where a compiler is asked for. -/
theorem firstApplies_ending (path : String) (o : Options) (wording : Wording) (w : Readings) :
    ∃ step, FirstApplies path o wording w Step.order step (ending path o wording w).printout ∧
      ((o.get? .compiler).isSome = true →
        step ∈ [Step.load, .install, .list, .readData, .compile]) := by
  rw [ending, judge]
  rcases openCatalog_cases path o wording w with ⟨cause, hopen, hload⟩ | ⟨result, hresult, hopen⟩
  · rw [hopen]
    exact ⟨.load, .here hload, fun _ => by simp⟩
  · have hload : ∀ p, ¬Applies path o wording w .load p := not_load_of_installs hresult
    rw [hopen]
    cases result with
    | error cause => exact ⟨.install, .later hload (.here (.refused hresult)), fun _ => by simp⟩
    | ok r =>
      have hinstall : ∀ p, ¬Applies path o wording w .install p := not_install_of_installs hresult
      dsimp only [Except.mapError, Except.bind]
      cases hlist : o.has .list with
      | true =>
        rw [if_pos rfl, listRegistry_of_installs hresult]
        exact ⟨.list, .later hload (.later hinstall (.here (.listed hresult hlist))),
          fun _ => by simp⟩
      | false =>
        have hlisted : ∀ p, ¬Applies path o wording w .list p := not_list hlist
        rw [if_neg Bool.false_ne_true]
        rcases data?_cases path o wording w with ⟨cause, hdata, hread⟩ | ⟨data, hgives, hdata⟩
        · rw [hdata]
          exact ⟨.readData, .later hload (.later hinstall (.later hlisted (.here hread))),
            fun _ => by simp⟩
        · have hread : ∀ p, ¬Applies path o wording w .readData p := not_readData_of_gives hgives
          obtain ⟨step, hstep, hcompile⟩ := firstApplies_of_gives path wording hresult hgives
          rw [hdata]
          refine ⟨step, .later hload (.later hinstall (.later hlisted (.later hread hstep))),
            fun h => ?_⟩
          rw [hcompile h]
          simp

/-- Data are read if they are given, the catalog can be installed, and no listing is asked for. -/
theorem dataPath?_eq_some_iff {catalog : Except FileError String} {file : String} :
    dataPath? path o wording catalog = some file ↔ o.get? .data = some file ∧ o.has .list = false ∧
      ∃ r, Readings.Installs ⟨catalog, none⟩ (.ok r) := by
  have hopens (r : Registry (Maker Unit)) :
      openCatalog path wording catalog = .ok r ↔ Readings.Installs ⟨catalog, none⟩ (.ok r) :=
    openCatalog_eq_ok_iff (w := ⟨catalog, none⟩)
  simp only [dataPath?, ← hopens]
  cases openCatalog path wording catalog with
  | error cause => simp
  | ok r => cases o.has .list <;> simp

/-- A run that ends with the code 0 prints no errors, and it ends with the code 1 otherwise and
    prints no output. -/
theorem printout_ending (path : String) (o : Options) (wording : Wording) (w : Readings) :
    (∃ text, (ending path o wording w).printout = ⟨0, text, ""⟩) ∨
      ∃ message, (ending path o wording w).printout = ⟨1, "", message ++ "\n"⟩ := by
  rw [ending]
  cases judge path o wording w with
  | ok text => exact .inl ⟨text, rfl⟩
  | error cause => exact .inr ⟨cause.message, rfl⟩

end

/-- Whatever the arguments ask for, a run reads the catalog, and then the data if the catalog can be
    installed, no listing is asked for and data are given. How it ends depends on these readings
    alone, not on how they are made. What it leaves, its code and all that it prints, is what the
    first step says that has something to say; no step behind the compilers decides where a compiler
    is asked for. Either the code is 0 and there are no errors, or it is 1 and there is no output,
    but one message as errors. -/
theorem run_decided {arguments : List String} {path : String} {o : Options}
    (h : Request.ofArguments arguments = .ok (.run path o)) (wording : Wording) :
    ∃ ending : Readings → Ending,
      (∀ w, ∃ step, FirstApplies path o wording w Step.order step (ending w).printout ∧
        (∀ step' p, FirstApplies path o wording w Step.order step' p →
          step' = step ∧ p = (ending w).printout) ∧
        ((o.get? .compiler).isSome = true →
          step ∈ [Step.load, .install, .list, .readData, .compile])) ∧
      (∀ w, (∃ text, (ending w).printout = ⟨0, text, ""⟩) ∨
        ∃ message, (ending w).printout = ⟨1, "", message ++ "\n"⟩) ∧
      (∀ catalog file, dataPath? path o wording catalog = some file ↔
        o.get? .data = some file ∧ o.has .list = false ∧
          ∃ r, Readings.Installs ⟨catalog, none⟩ (.ok r)) ∧
      ∀ {m : Type → Type} [Monad m] [LawfulMonad m] (s : Surroundings m),
        run arguments s wording = s.file path >>= fun catalog =>
          match dataPath? path o wording catalog with
          | none => pure (ending ⟨catalog, none⟩)
          | some file => s.read file >>= fun answer =>
            pure (ending ⟨catalog, some (file, answer)⟩) := by
  refine ⟨ending path o wording, fun w => ?_, printout_ending path o wording,
    fun _ _ => dataPath?_eq_some_iff, fun s => run_eq h s wording⟩
  obtain ⟨step, hstep, hcompiler⟩ := firstApplies_ending path o wording w
  exact ⟨step, hstep, fun _ _ => hstep.unique, hcompiler⟩

/-- The text of a catalog with a page that asks for a title. -/
def siteText : String :=
  "[[template]]\ntype = \"page\"\nname = \"titled\"\nlayout = \"<%= title %>\"\n"

/-- Surroundings in which every file is the catalog. -/
def siteFiles : Surroundings Id := ⟨fun _ => .ok siteText, .ok ""⟩

/-- A run for the page has no title to render, and prints the report, with the type for the name of
    the file. A listing reads nothing but the catalog, though data are given. -/
theorem run_decided_site :
    Request.ofArguments ["site.toml"] = .ok (.run "site.toml" ⟨some "site.toml", [], []⟩) ∧
    Request.ofArguments ["site.toml", "--list", "-d", "page.json"] =
      .ok (.run "site.toml" ⟨some "site.toml", [(.data, "page.json")], [.list]⟩) ∧
    ∃ rendering listing : Readings → Ending,
      (∃ step, FirstApplies "site.toml" ⟨some "site.toml", [], []⟩ {} ⟨.ok siteText, none⟩
        Step.order step (rendering ⟨.ok siteText, none⟩).printout) ∧
      (rendering ⟨.ok siteText, none⟩).printout = ⟨1, "", "Error: " ++
        (RenderError.tags (.undefined "title" ⟨0, 12⟩) "<%= title %>").report "page" ++ "\n"⟩ ∧
      (listing ⟨.ok siteText, none⟩).printout = ⟨0, "page\n  titled (default)\n", ""⟩ ∧
      ∀ {m : Type → Type} [Monad m] [LawfulMonad m] (s : Surroundings m),
        run ["site.toml"] s {} =
          s.file "site.toml" >>= (fun catalog => pure (rendering ⟨catalog, none⟩)) ∧
        run ["site.toml", "--list", "-d", "page.json"] s {} =
          s.file "site.toml" >>= fun catalog => pure (listing ⟨catalog, none⟩) := by
  have hrequest : Request.ofArguments ["site.toml"] =
      .ok (.run "site.toml" ⟨some "site.toml", [], []⟩) := rfl
  have hrequest' : Request.ofArguments ["site.toml", "--list", "-d", "page.json"] =
      .ok (.run "site.toml" ⟨some "site.toml", [(.data, "page.json")], [.list]⟩) := rfl
  obtain ⟨rendering, hrendering, -, hpath, hrun⟩ := run_decided hrequest {}
  obtain ⟨listing, -, -, hpath', hrun'⟩ := run_decided hrequest' {}
  have hnone (catalog : Except FileError String) :
      dataPath? "site.toml" ⟨some "site.toml", [], []⟩ {} catalog = none :=
    Option.eq_none_iff_forall_ne_some.2 fun file hfile => nomatch ((hpath catalog file).1 hfile).1
  have hnone' (catalog : Except FileError String) : dataPath? "site.toml"
      ⟨some "site.toml", [(.data, "page.json")], [.list]⟩ {} catalog = none :=
    Option.eq_none_iff_forall_ne_some.2 fun file hfile =>
      Bool.false_ne_true ((hpath' catalog file).1 hfile).2.1.symm
  simp only [hnone] at hrun
  simp only [hnone'] at hrun'
  have hrenders : run ["site.toml"] siteFiles {} = rendering ⟨.ok siteText, none⟩ := hrun siteFiles
  have hlists : run ["site.toml", "--list", "-d", "page.json"] siteFiles {} =
      listing ⟨.ok siteText, none⟩ := hrun' siteFiles
  refine ⟨hrequest, hrequest', rendering, listing, ?_, ?_, ?_, fun s => ⟨hrun s, hrun' s⟩⟩
  · obtain ⟨step, hstep, -, -⟩ := hrendering ⟨.ok siteText, none⟩
    exact ⟨step, hstep⟩
  · rw [← hrenders]
    decide +kernel
  · rw [← hlists]
    decide +kernel

end Command

end Stencil
