import Mathlib.Data.List.Induction
import Mathlib.Data.List.Nodup
import Stencil.Catalog.Install
import Stencil.Proofs.History

/-!
# Installing catalogs

A catalog is looked over before it is installed. It fits a registry (`Fits`) if its templates
are apart from one another and from those registered (`Apart`), and the tags of its compilers
are well formed; otherwise it is refused for the first thing that is wrong with it (`Refused`).
What fits is installed by calls of the registry (`calls`), none of which fails.

The steps of an installation can also be taken one by one, each changing the registry, up to
one that fails (`enact`). As only looking over can fail, nothing was changed by then.

* `install_all_or_nothing`: when an installation fails, with what error, and that it fails
  before anything is changed.
-/

namespace Stencil.Catalog

open Registry (Call MadeOf)

variable {σ κ : Type}

/-! ### Looking over -/

/-- The type and the name that a template is declared under. -/
def Entry.key (e : Entry) : String × String := (e.type, e.name)

/-- A template is declared under the type and name of one declared before, or of one that
    is registered. -/
def Clashes (r : Registry κ) (before : List Entry) (e : Entry) : Prop :=
  e.key ∈ before.map Entry.key ∨ r.hasTemplate e.type e.name = true

/-- No template of a list clashes with those before it. -/
structure Apart (r : Registry κ) (es : List Entry) : Prop where
  nodup : (es.map Entry.key).Nodup
  free : ∀ e ∈ es, r.hasTemplate e.type e.name = false

/-- A catalog can be installed into a registry. -/
structure Fits (c : Catalog) (r : Registry κ) : Prop where
  apart : Apart r c.templates
  wellFormed : ∀ k ∈ c.compilers, Tag.check k.text = .ok ()

/-- What is wrong with a catalog for a registry: the first template that clashes, or if there
    is none, the first compiler with a malformed tag. -/
inductive Refused (c : Catalog) (r : Registry κ) : InstallError → Prop
  | duplicate {before : List Entry} {e : Entry} {after : List Entry} :
      c.templates = before ++ e :: after → Apart r before → Clashes r before e →
      Refused c r (.duplicate e.type e.name)
  | compiler {before : List CompilerEntry} {k : CompilerEntry} {after : List CompilerEntry}
      {cause : TagError} : Apart r c.templates → c.compilers = before ++ k :: after →
      (∀ k' ∈ before, Tag.check k'.text = .ok ()) → Tag.check k.text = .error cause →
      Refused c r (.compiler k.name cause)

section

variable {r : Registry κ} {es before : List Entry} {e : Entry} {c : Catalog}
  {ks : List CompilerEntry} {err : InstallError}

theorem apart_append_iff : Apart r (es ++ before) ↔
    Apart r es ∧ Apart r before ∧ (es.map Entry.key).Disjoint (before.map Entry.key) := by
  constructor
  · rintro ⟨hnodup, hfree⟩
    rw [List.map_append, List.nodup_append'] at hnodup
    obtain ⟨hes, hbefore, hdisjoint⟩ := hnodup
    exact ⟨⟨hes, fun e he => hfree e (List.mem_append_left _ he)⟩,
      ⟨hbefore, fun e he => hfree e (List.mem_append_right _ he)⟩, hdisjoint⟩
  · rintro ⟨hes, hbefore, hdisjoint⟩
    refine ⟨?_, fun e he => (List.mem_append.1 he).elim (hes.free e) (hbefore.free e)⟩
    rw [List.map_append, List.nodup_append']
    exact ⟨hes.nodup, hbefore.nodup, hdisjoint⟩

theorem apart_singleton_iff : Apart r [e] ↔ r.hasTemplate e.type e.name = false := by
  refine ⟨fun h => h.free e (List.mem_singleton_self e), fun h => ⟨List.nodup_singleton _, ?_⟩⟩
  intro e' he'
  rwa [List.mem_singleton.1 he']

theorem apart_concat_iff : Apart r (es ++ [e]) ↔ Apart r es ∧ ¬ Clashes r es e := by
  rw [apart_append_iff, apart_singleton_iff, List.map_singleton, List.disjoint_singleton, Clashes,
    not_or, Bool.not_eq_true]
  exact and_congr_right' and_comm

/-- Either no template clashes, or there is a first one that does. -/
theorem apart_or_exists_clash (r : Registry κ) (es : List Entry) :
    Apart r es ∨ ∃ before e after, es = before ++ e :: after ∧ Apart r before ∧
      Clashes r before e := by
  induction es using List.reverseRecOn with
  | nil => exact .inl ⟨List.nodup_nil, nofun⟩
  | append_singleton es e ih =>
    rcases ih with ih | ⟨before, e', after, rfl, hbefore, he'⟩
    · by_cases he : Clashes r es e
      · exact .inr ⟨es, e, [], rfl, ih, he⟩
      · exact .inl (apart_concat_iff.2 ⟨ih, he⟩)
    · exact .inr ⟨before, e', after ++ [e], by simp, hbefore, he'⟩

theorem not_apart_iff :
    ¬ Apart r es ↔ ∃ before e after, es = before ++ e :: after ∧ Clashes r before e := by
  constructor
  · intro h
    rcases apart_or_exists_clash r es with hes | ⟨before, e, after, rfl, -, he⟩
    · exact absurd hes h
    · exact ⟨before, e, after, rfl, he⟩
  · rintro ⟨before, e, after, rfl, he⟩ h
    rw [List.append_cons] at h
    exact (apart_concat_iff.1 (apart_append_iff.1 h).1).2 he

/-- Looking over goes on behind templates that do not clash. -/
theorem checkTemplates_append (pre : List Entry) (h : Apart r (pre ++ before))
    (es : List Entry) :
    checkTemplates r (pre.map Entry.key).reverse (before ++ es) =
      checkTemplates r ((pre ++ before).map Entry.key).reverse es := by
  induction before generalizing pre with
  | nil => rw [List.append_nil, List.nil_append]
  | cons e before ih =>
    rw [List.append_cons] at h
    have he : ¬ Clashes r pre e := (apart_concat_iff.1 (apart_append_iff.1 h).1).2
    have hseen : ¬ ((e.type, e.name) ∈ (pre.map Entry.key).reverse ∨
        r.hasTemplate e.type e.name = true) := by rwa [List.mem_reverse]
    rw [List.cons_append, checkTemplates, if_neg hseen, List.append_cons, ← ih _ h, List.map_append,
      List.reverse_append]
    rfl

theorem checkTemplates_of_apart (h : Apart r es) : checkTemplates r [] es = .ok () := by
  have happend := checkTemplates_append [] h []
  rw [List.append_nil] at happend
  exact happend

theorem checkTemplates_of_clash (h : Apart r before) (he : Clashes r before e)
    (after : List Entry) :
    checkTemplates r [] (before ++ e :: after) = .error (.duplicate e.type e.name) := by
  have happend := checkTemplates_append [] h (e :: after)
  have hseen : (e.type, e.name) ∈ (before.map Entry.key).reverse ∨
      r.hasTemplate e.type e.name = true := by rwa [List.mem_reverse]
  rw [List.nil_append, checkTemplates, if_pos hseen] at happend
  exact happend

/-- Looking over goes on behind compilers that are well formed. -/
theorem checkCompilers_append {before : List CompilerEntry}
    (h : ∀ k ∈ before, Tag.check k.text = .ok ()) (ks : List CompilerEntry) :
    checkCompilers (before ++ ks) = checkCompilers ks := by
  induction before with
  | nil => rfl
  | cons k before ih =>
    rw [List.forall_mem_cons] at h
    rw [List.cons_append, checkCompilers, h.1]
    exact ih h.2

/-- Either every compiler is well formed, or there is a first one that is not. -/
theorem forall_check_or_exists_malformed (ks : List CompilerEntry) :
    (∀ k ∈ ks, Tag.check k.text = .ok ()) ∨ ∃ before k after cause, ks = before ++ k :: after ∧
      (∀ k' ∈ before, Tag.check k'.text = .ok ()) ∧ Tag.check k.text = .error cause := by
  induction ks with
  | nil => exact .inl nofun
  | cons k ks ih =>
    cases hk : Tag.check k.text with
    | error cause => exact .inr ⟨[], k, ks, cause, rfl, nofun, hk⟩
    | ok _ =>
      rcases ih with ih | ⟨before, k', after, cause, rfl, hbefore, hk'⟩
      · exact .inl (List.forall_mem_cons.2 ⟨hk, ih⟩)
      · exact .inr ⟨k :: before, k', after, cause, rfl, List.forall_mem_cons.2 ⟨hk, hbefore⟩, hk'⟩

theorem fits_or_exists_refused (c : Catalog) (r : Registry κ) :
    c.Fits r ∨ ∃ err, Refused c r err := by
  rcases apart_or_exists_clash r c.templates with h | ⟨before, e, after, hc, hbefore, he⟩
  · rcases forall_check_or_exists_malformed c.compilers with
      hk | ⟨before, k, after, cause, hc, hbefore, hk⟩
    · exact .inl ⟨h, hk⟩
    · exact .inr ⟨_, .compiler h hc hbefore hk⟩
  · exact .inr ⟨_, .duplicate hc hbefore he⟩

theorem Fits.validate (h : c.Fits r) : c.validate r = .ok () := by
  have hcompilers := checkCompilers_append h.wellFormed []
  rw [List.append_nil] at hcompilers
  rw [Catalog.validate, checkTemplates_of_apart h.apart, hcompilers]
  rfl

theorem Refused.validate (h : Refused c r err) : c.validate r = .error err := by
  cases h with
  | duplicate hc hbefore he =>
    rw [Catalog.validate, hc, checkTemplates_of_clash hbefore he]
    rfl
  | compiler happart hc hbefore hk =>
    rw [Catalog.validate, checkTemplates_of_apart happart, hc, checkCompilers_append hbefore,
      checkCompilers, hk]
    rfl

theorem validate_eq_ok_iff : c.validate r = .ok () ↔ c.Fits r := by
  refine ⟨fun h => ?_, Fits.validate⟩
  rcases fits_or_exists_refused c r with hfits | ⟨err, hrefused⟩
  · exact hfits
  · rw [hrefused.validate] at h
    cases h

theorem not_fits_iff : ¬ c.Fits r ↔
    (∃ before e after, c.templates = before ++ e :: after ∧ Clashes r before e) ∨
      ∃ k ∈ c.compilers, ∃ cause, Tag.check k.text = .error cause := by
  rw [← not_apart_iff]
  constructor
  · intro h
    rcases fits_or_exists_refused c r with hfits | ⟨_, ⟨hc, hbefore, he⟩ | ⟨_, hc, -, hk⟩⟩
    · exact absurd hfits h
    · exact .inl (not_apart_iff.2 ⟨_, _, _, hc, he⟩)
    · exact .inr ⟨_, hc ▸ List.mem_append_right _ List.mem_cons_self, _, hk⟩
  · rintro (h | ⟨k, hk, cause, hcause⟩) hfits
    · exact h hfits.apart
    · rw [hfits.wellFormed k hk] at hcause
      cases hcause

end

/-! ### Calls of an installation -/

/-- The calls that install a catalog. -/
def calls (c : Catalog) : List (Call (Maker σ)) :=
  c.templates.map (fun e => .register e.type e.name e.maker) ++
    ((c.templates.filter Entry.isDefault).map (fun e => .setDefault e.type e.name) ++
      c.compilers.map fun k => .setCompiler k.name k.compiler)

section

variable {r r' : Registry (Maker σ)} {es : List Entry} {c : Catalog} {type name : String}
  {err : InstallError}

theorem registerAll_eq_run (es : List Entry) (r : Registry (Maker σ)) :
    registerAll es r = r.run (es.map fun e => .register e.type e.name e.maker) := by
  rw [registerAll, Registry.run, List.foldl_map]
  rfl

theorem setCompilers_eq_run {κ : Type} (ks : List CompilerEntry) (r : Registry κ) :
    setCompilers ks r = r.run (ks.map fun k => .setCompiler k.name k.compiler) := by
  rw [setCompilers, Registry.run, List.foldl_map]
  rfl

theorem setDefaults_eq_run {κ : Type} {r : Registry κ}
    (h : ∀ e ∈ es, r.hasTemplate e.type e.name = true) :
    setDefaults es r = .ok (r.run ((es.filter Entry.isDefault).map fun e =>
      .setDefault e.type e.name)) := by
  induction es generalizing r with
  | nil => rfl
  | cons e es ih =>
    rw [List.forall_mem_cons] at h
    cases he : e.isDefault with
    | false =>
      rw [setDefaults, he, List.filter_cons_of_neg (by simpa using he)]
      exact ih h.2
    | true =>
      have hcall : (r.call (.setDefault e.type e.name)).2 =
          r.withDefault e.type e.name := by
        rw [Registry.call, Registry.setDefault_of_hasTemplate h.1]
      rw [setDefaults, if_pos he, List.filter_cons_of_pos he, List.map_cons, Registry.run_cons,
        hcall, Registry.setDefault_of_hasTemplate h.1]
      refine ih fun e' he' => ?_
      rw [Registry.hasTemplate_withDefault]
      exact h.2 e' he'

theorem hasTemplate_registerAll (es : List Entry) (r : Registry (Maker σ)) :
    (registerAll es r).hasTemplate type name = true ↔
      r.hasTemplate type name = true ∨ (type, name) ∈ es.map Entry.key := by
  induction es generalizing r with
  | nil => simp [registerAll]
  | cons e es ih =>
    have hcons : registerAll (e :: es) r =
        registerAll es (r.register e.type e.name e.maker).2 := rfl
    rw [hcons, ih, Registry.hasTemplate_register, List.map_cons, List.mem_cons, or_assoc]
    rfl

/-- Once a catalog was looked over, every template is new when it is registered. -/
theorem register_registerAll_of_apart {before : List Entry} {e : Entry}
    (h : Apart r (before ++ [e])) :
    ((registerAll before r).register e.type e.name e.maker).1 = true := by
  have he : ¬ Clashes r before e := (apart_concat_iff.1 h).2
  rw [Registry.register_eq_true_iff, ← Bool.not_eq_true, hasTemplate_registerAll, or_comm]
  exact he

/-- The defaults of templates that were registered are not refused. -/
theorem setDefaults_registerAll (es : List Entry) (r : Registry (Maker σ)) :
    setDefaults es (registerAll es r) =
      .ok ((registerAll es r).run ((es.filter Entry.isDefault).map fun e =>
        .setDefault e.type e.name)) :=
  setDefaults_eq_run fun _ he =>
    (hasTemplate_registerAll es r).2 (.inr (List.mem_map_of_mem (f := Entry.key) he))

/-- A catalog that fits is installed by its calls. -/
theorem Fits.install (h : c.Fits r) : c.install r = .ok (r.run c.calls) := by
  rw [Catalog.install, h.validate, calls, Registry.run_append, Registry.run_append,
    ← registerAll_eq_run, ← setCompilers_eq_run]
  show (setDefaults c.templates (registerAll c.templates r)).bind _ = _
  rw [setDefaults_registerAll]
  rfl

theorem Refused.install (h : Refused c r err) : c.install r = .error err := by
  rw [Catalog.install, h.validate]
  rfl

theorem install_eq_ok_iff : c.install r = .ok r' ↔ c.Fits r ∧ r' = r.run c.calls := by
  constructor
  · intro h
    rcases fits_or_exists_refused c r with hfits | ⟨err, hrefused⟩
    · rw [hfits.install, Except.ok.injEq] at h
      exact ⟨hfits, h.symm⟩
    · rw [hrefused.install] at h
      cases h
  · rintro ⟨hfits, rfl⟩
    exact hfits.install

theorem install_eq_error_iff : c.install r = .error err ↔ Refused c r err := by
  refine ⟨fun h => ?_, Refused.install⟩
  rcases fits_or_exists_refused c r with hfits | ⟨err', hrefused⟩
  · rw [hfits.install] at h
    cases h
  · rw [hrefused.install, Except.error.injEq] at h
    exact h ▸ hrefused

/-! ### Step by step -/

/-- Sets the defaults that some templates ask for, one after the other, up to the first one
    that is refused; and the registry by then. -/
def enactDefaults : List Entry → Registry κ → Except InstallError Unit × Registry κ
  | [], r => (.ok (), r)
  | e :: es, r =>
    if e.isDefault then
      match r.setDefault e.type e.name with
      | .error cause => (.error (.registry cause), r)
      | .ok r => enactDefaults es r
    else enactDefaults es r

/-- Installs a catalog step by step, each of which changes the registry, up to the first one
    that fails; and the registry by then. -/
def enact (c : Catalog) (r : Registry (Maker σ)) : Except InstallError Unit × Registry (Maker σ) :=
  match c.validate r with
  | .error err => (.error err, r)
  | .ok () =>
    match enactDefaults c.templates (registerAll c.templates r) with
    | (.error err, r) => (.error err, r)
    | (.ok (), r) => (.ok (), setCompilers c.compilers r)

theorem enactDefaults_of_setDefaults {r r' : Registry κ} (h : setDefaults es r = .ok r') :
    enactDefaults es r = (.ok (), r') := by
  fun_induction setDefaults es r with
  | case1 r =>
    cases h
    rfl
  | case2 r e es he cause hcause => cases h
  | case3 r e es he r₁ hr₁ ih =>
    rw [enactDefaults, if_pos he, hr₁]
    exact ih h
  | case4 r e es he ih =>
    rw [enactDefaults, if_neg he]
    exact ih h

theorem enact_of_install_eq_ok (h : c.install r = .ok r') : c.enact r = (.ok (), r') := by
  obtain ⟨hfits, rfl⟩ := install_eq_ok_iff.1 h
  rw [enact, hfits.validate]
  simp only [enactDefaults_of_setDefaults (setDefaults_registerAll c.templates r)]
  rw [calls, Registry.run_append, Registry.run_append, ← registerAll_eq_run, ← setCompilers_eq_run]

theorem enact_of_install_eq_error (h : c.install r = .error err) : c.enact r = (.error err, r) := by
  rw [enact, (install_eq_error_iff.1 h).validate]

/-- A catalog is installed as a whole or not at all. It is refused exactly if a template is
    declared as one before it, or as one that is registered, or if the tags of a compiler are
    malformed; the error is that of the first such template, or if there is none, that of the
    first such compiler. Once a catalog was looked over nothing fails any more: every
    template is new when it is registered, and no default is refused. So an installation
    that is carried out step by step leaves the registry as it was whenever it fails. -/
theorem install_all_or_nothing (c : Catalog) (r : Registry (Maker σ)) :
    ((∃ err, c.install r = .error err) ↔
      (∃ before e after, c.templates = before ++ e :: after ∧ Clashes r before e) ∨
        ∃ k ∈ c.compilers, ∃ cause, Tag.check k.text = .error cause) ∧
    (∀ err, c.install r = .error err ↔ Refused c r err) ∧
    (c.validate r = .ok () →
      (∀ before e after, c.templates = before ++ e :: after →
        ((registerAll before r).register e.type e.name e.maker).1 = true) ∧
      ∃ r', setDefaults c.templates (registerAll c.templates r) = .ok r') ∧
    (∀ err, c.install r = .error err → c.enact r = (.error err, r)) ∧
    ∀ r', c.install r = .ok r' → c.enact r = (.ok (), r') := by
  refine ⟨?_, fun err => install_eq_error_iff, fun h => ⟨fun before e after hc => ?_, _,
    setDefaults_registerAll c.templates r⟩, fun err => enact_of_install_eq_error,
    fun r' => enact_of_install_eq_ok⟩
  · rw [← not_fits_iff]
    refine ⟨fun ⟨err, h⟩ hfits => ?_, fun h => ?_⟩
    · rw [hfits.install] at h
      cases h
    · obtain ⟨err, hrefused⟩ := (fits_or_exists_refused c r).resolve_left h
      exact ⟨err, hrefused.install⟩
  · have happart := (validate_eq_ok_iff.1 h).apart
    rw [hc, List.append_cons] at happart
    exact register_registerAll_of_apart (apart_append_iff.1 happart).1

end

end Stencil.Catalog
