import Stencil.Catalog.Basic

/-!
# Installing catalogs

A catalog is installed into a registry as a whole or not at all
(`Catalog.install`). It is looked over first: no template may be declared twice
or be registered already, and the tags of every compiler must be well formed.
Then its templates are registered, its defaults are set in their order, and its
compilers put in.
-/

namespace Stencil.Catalog

variable {σ : Type}

/-- Why a catalog cannot be installed. -/
inductive InstallError
  /-- A template is declared twice, or registered already. -/
  | duplicate (type name : String)
  /-- A tag of a compiler is malformed. -/
  | compiler (name : String) (cause : TagError)
  /-- The registry refuses a default. -/
  | registry (cause : RegistryError)
  deriving DecidableEq

/-- What an error is called. -/
def InstallError.message : InstallError → String
  | duplicate type name => "template '" ++ name ++ "' of type '" ++ type ++ "' is already declared"
  | compiler name cause => "compiler '" ++ name ++ "': " ++ cause.message
  | registry cause => cause.message

/-- Looks over the templates of a catalog, those in `seen` having been declared
    before. -/
def checkTemplates {κ : Type} (r : Registry κ) : (seen : List (String × String)) →
    List Entry → Except InstallError Unit
  | _, [] => .ok ()
  | seen, e :: es =>
    if (e.type, e.name) ∈ seen ∨ r.hasTemplate e.type e.name then
      .error (.duplicate e.type e.name)
    else checkTemplates r ((e.type, e.name) :: seen) es

/-- Looks over the compilers of a catalog. -/
def checkCompilers : List CompilerEntry → Except InstallError Unit
  | [] => .ok ()
  | c :: cs =>
    match Tag.check c.text with
    | .error cause => .error (.compiler c.name cause)
    | .ok _ => checkCompilers cs

/-- Looks over a catalog that is to be installed. -/
def validate {κ : Type} (c : Catalog) (r : Registry κ) : Except InstallError Unit := do
  checkTemplates r [] c.templates
  checkCompilers c.compilers

/-- The registry with some templates registered. -/
def registerAll (es : List Entry) (r : Registry (Maker σ)) : Registry (Maker σ) :=
  es.foldl (fun r e => (r.register e.type e.name e.maker).2) r

/-- The registry with the defaults that some templates ask for. -/
def setDefaults {κ : Type} : List Entry → Registry κ → Except InstallError (Registry κ)
  | [], r => .ok r
  | e :: es, r =>
    if e.isDefault then
      match r.setDefault e.type e.name with
      | .error cause => .error (.registry cause)
      | .ok r => setDefaults es r
    else setDefaults es r

/-- The registry with some compilers put in. -/
def setCompilers {κ : Type} (cs : List CompilerEntry) (r : Registry κ) : Registry κ :=
  cs.foldl (fun r c => r.setCompiler c.name c.compiler) r

/-- The registry with a catalog installed. -/
def install (c : Catalog) (r : Registry (Maker σ)) : Except InstallError (Registry (Maker σ)) := do
  c.validate r
  let r ← setDefaults c.templates (registerAll c.templates r)
  return setCompilers c.compilers r

end Stencil.Catalog
