import Stencil.Template.Rendering
import Stencil.OrderedMap

/-!
# Registries

A registry (`Registry`) keeps makers of templates under a type and a name, and
one default name for each type: the first one registered, until another is
chosen. Beside them it keeps *compilers*, which turn data into text and belong
to no type.

Everything is listed in the order in which it was first registered. A name is
registered once: a second maker under it is refused. A compiler is replaced by a
later one of the same name, and keeps its place.

What a maker is does not matter to a registry (the type `κ`).
-/

namespace Stencil

/-- The text that a compiler made, and the errors it passed over. -/
structure Compiled where
  /-- The text. -/
  text : String
  /-- The errors, each of which is worth a warning. -/
  warnings : List TagError

/-- Turns data into text. -/
abbrev Compiler := Json → Compiled

/-- Why a registry refuses to do something. -/
inductive RegistryError
  /-- There is no such template to be the default of a type. -/
  | invalidDefault (type name : String)
  /-- There is no such template to be made. -/
  | unknownTemplate (type name : String)
  deriving DecidableEq

/-- What an error is called. -/
def RegistryError.message : RegistryError → String
  | invalidDefault type name =>
    "cannot make '" ++ name ++ "' the default of type '" ++ type ++ "': no such template"
  | unknownTemplate type name => "template '" ++ name ++ "' of type '" ++ type ++ "' does not exist"

/-- The templates of one type. -/
structure Family (κ : Type) where
  /-- The name that stands for the type when none is given. -/
  default : Option String
  /-- The makers, by name. -/
  makers : OrderedMap String κ

/-- The family without templates. -/
def Family.empty (κ : Type) : Family κ := ⟨none, ∅⟩

/-- Makers of templates by type and name, and compilers by name. -/
structure Registry (κ : Type) where
  /-- The types. -/
  types : OrderedMap String (Family κ)
  /-- The compilers. -/
  compilers : OrderedMap String Compiler

namespace Registry

variable {κ : Type}

/-- The registry in which nothing is registered. -/
def empty : Registry κ := ⟨∅, ∅⟩

instance : Inhabited (Registry κ) := ⟨empty⟩

/-! ### Compilers -/

/-- The registry with a compiler under a name. -/
def setCompiler (r : Registry κ) (name : String) (c : Compiler) : Registry κ :=
  { r with compilers := r.compilers.insert name c }

/-- What a compiler makes of some data, which are an empty object when not given.
    Nothing when there is no such compiler. -/
def compile (r : Registry κ) (name : String) (data : Option Json) : Option Compiled :=
  (r.compilers.get? name).map fun c => c (data.getD (.object []))

/-! ### Templates -/

/-- The templates of a type. -/
def family (r : Registry κ) (type : String) : Family κ :=
  (r.types.get? type).getD (Family.empty κ)

/-- Whether a type has been registered. -/
def hasType (r : Registry κ) (type : String) : Bool := r.types.contains type

/-- Whether a template has been registered. -/
def hasTemplate (r : Registry κ) (type name : String) : Bool :=
  (r.family type).makers.contains name

/-- The maker of a template. -/
def maker? (r : Registry κ) (type name : String) : Option κ := (r.family type).makers.get? name

/-- The names of the templates of a type, in order. -/
def templateNames (r : Registry κ) (type : String) : List String := (r.family type).makers.keys

/-- The types with the names of their templates, in order. -/
def typesDetail (r : Registry κ) : List (String × List String) :=
  r.types.entries.map fun e => (e.1, e.2.makers.keys)

/-- Registers a maker: whether the name was free, and the registry afterwards. The
    first name of a type becomes its default. -/
def register (r : Registry κ) (type name : String) (make : κ) : Bool × Registry κ :=
  let f := r.family type
  if f.makers.contains name then (false, r)
  else
    let f : Family κ := ⟨f.default.or (some name), f.makers.insert name make⟩
    (true, { r with types := r.types.insert type f })

/-- The default name of a type, and the registry afterwards. When no valid default
    is set, the first name becomes the default. -/
def defaultTemplate (r : Registry κ) (type : String) : Option String × Registry κ :=
  match r.types.get? type with
  | none => (none, r)
  | some f =>
    let firstName : Option String × Registry κ :=
      match f.makers.keys.head? with
      | none => (none, r)
      | some first =>
        (some first, { r with types := r.types.insert type { f with default := some first } })
    match f.default with
    | some name => if f.makers.contains name then (some name, r) else firstName
    | none => firstName

/-- The registry with another default for a type. -/
def setDefault (r : Registry κ) (type name : String) : Except RegistryError (Registry κ) :=
  match r.types.get? type with
  | none => .error (.invalidDefault type name)
  | some f =>
    if f.makers.contains name then
      .ok { r with types := r.types.insert type { f with default := some name } }
    else .error (.invalidDefault type name)

/-- The maker of a template, by its name or as the default of its type, and the
    registry afterwards. -/
def select (r : Registry κ) (type : String) (name : Option String) :
    Except RegistryError κ × Registry κ :=
  let (name, r) :=
    match name with
    | some name => (some name, r)
    | none => r.defaultTemplate type
  match name.bind (r.maker? type) with
  | some make => (.ok make, r)
  | none => (.error (.unknownTemplate type (name.getD "")), r)

/-! ### Listings -/

/-- The lines that list the given types, and the registry afterwards. -/
def listTypes : List String → Registry κ → List String × Registry κ
  | [], r => ([], r)
  | type :: types, r =>
    let (default, r) := r.defaultTemplate type
    let line (name : String) : String :=
      "  " ++ name ++ if default = some name then " (default)" else ""
    let (rest, r') := listTypes types r
    (type :: (r.templateNames type).map line ++ rest, r')

/-- The lines that list a registry, and the registry afterwards: each type with
    its templates, and then the compilers, if there are any. -/
def listing (r : Registry κ) : List String × Registry κ :=
  let (lines, r) := listTypes r.types.keys r
  let compilers :=
    match r.compilers.keys with
    | [] => []
    | names => "compilers" :: names.map ("  " ++ ·)
  (lines ++ compilers, r)

/-- A registry as diagnostics show it. -/
def described (r : Registry κ) : String :=
  let names (ns : List String) : String :=
    "[" ++ String.intercalate ", " (ns.map Text.quoted) ++ "]"
  let type (e : String × List String) : String := Text.quoted e.1 ++ ": " ++ names e.2
  "TemplateRegistry \x7b compilers: " ++ names r.compilers.keys ++
    ", types: \x7b" ++ String.intercalate ", " (r.typesDetail.map type) ++ "\x7d \x7d"

end Registry

end Stencil
