import Stencil.Catalog.Install
import Stencil.Catalog.Reader
import Stencil.Command.Options
import Stencil.Json.Reader

/-!
# Running the command

The command loads a catalog into an empty registry and then lists the registry,
runs a compiler, or renders a template, with data read from a file or from
standard input (`Command.run`). It goes through its stages in order and stops at
the first one that fails: load the catalog, install it, list if that was asked
for, read the data, run the compiler if one was asked for, choose the type, make
the template, render it. So a listing never reads the data, and a compiler needs
no type.

What the command does depends on its arguments and on what it reads, and how it
reads is left open: its surroundings (`Command.Surroundings`) answer in a monad
of their own. How it ends (`Command.Ending`) tells its code and what it prints.
Some of what it prints is not its own: what the readers of the two formats remark
on a text that they refuse, what is remarked on wrong arguments, and the help are
told by a wording that is given (`Command.Wording`).
-/

namespace Stencil.Command

/-- Why a file cannot be read as a text. -/
inductive FileError
  /-- There is no such file. -/
  | notFound
  /-- It is a directory. -/
  | isDirectory
  /-- It does not hold characters in UTF-8. -/
  | notText
  /-- Something else, as the system puts it. -/
  | other (message : String)

/-- What an error is called. -/
def FileError.message : FileError → String
  | notFound => "No such file or directory (os error 2)"
  | isDirectory => "Is a directory (os error 21)"
  | notText => "stream did not contain valid UTF-8"
  | other message => message

/-- What a run of the command can read. -/
structure Surroundings (m : Type → Type) where
  /-- The text of a file. -/
  file : String → m (Except FileError String)
  /-- The text of standard input. -/
  input : m (Except FileError String)

/-- What is printed in the words of others than the command: nothing, unless it is
    told. -/
structure Wording where
  /-- What is remarked on a text that is no catalog. -/
  catalog : String → String := fun _ => ""
  /-- What is remarked on a text that is no JSON. -/
  data : String → String := fun _ => ""
  /-- What is remarked on wrong arguments. -/
  usage : UsageError → String := fun _ => ""
  /-- The help that is shown on request. -/
  help : String := ""

/-- Why a run of the command fails. -/
inductive Failure
  /-- The file of the catalog cannot be read. -/
  | unreadableCatalog (path : String) (cause : FileError)
  /-- The file of the catalog is no catalog, on which its reader has a remark. -/
  | malformedCatalog (path : String) (remark : String := "")
  /-- The catalog cannot be installed. -/
  | refusedCatalog (path : String) (cause : Catalog.InstallError)
  /-- The file of the data cannot be read. -/
  | unreadableData (path : String) (cause : FileError)
  /-- The data are no JSON, on which their reader has a remark. -/
  | malformedData (path : String) (remark : String := "")
  /-- There is no such compiler. -/
  | unknownCompiler (name : String)
  /-- No type was given, and the catalog has none. -/
  | noType
  /-- No type was given, and the catalog has several. -/
  | severalTypes
  /-- There is no such template. -/
  | refusedTemplate (cause : RegistryError)
  /-- The template, whose type is given, cannot be rendered. -/
  | failedRendering (type : String) (cause : RenderError)

/-- What is printed for a failure. -/
def Failure.message : Failure → String
  | unreadableCatalog path cause =>
    "Error loading catalog '" ++ path ++ "': Failed to read catalog file: " ++ cause.message
  | malformedCatalog path remark =>
    "Error loading catalog '" ++ path ++ "': Failed to parse catalog TOML: " ++ remark
  | refusedCatalog path cause => "Error installing catalog '" ++ path ++ "': " ++ cause.message
  | unreadableData path cause => "Error reading data '" ++ path ++ "': " ++ cause.message
  | malformedData path remark => "Error reading data '" ++ path ++ "': " ++ remark
  | unknownCompiler name => "Error: no compiler named '" ++ name ++ "'"
  | noType => "Error: the catalog declares no templates"
  | severalTypes => "Error: the catalog declares several types, choose one with --type"
  | refusedTemplate cause => "Error: " ++ cause.message
  | failedRendering type cause => "Error: " ++ cause.report type

/-- What is printed for a failure, up to the remark of a reader. -/
def Failure.heading : Failure → String
  | malformedCatalog path _ => message (.malformedCatalog path)
  | malformedData path _ => message (.malformedData path)
  | f => f.message

/-- How a run of the command ends. -/
inductive Ending
  /-- With a text. -/
  | success (text : String)
  /-- With a failure. -/
  | failure (cause : Failure)
  /-- At once, as the arguments are wrong, with a remark on them. -/
  | misuse (cause : UsageError) (remark : String := "")

namespace Ending

/-- The code of the command. -/
def code : Ending → Nat
  | success _ => 0
  | failure _ => 1
  | misuse _ _ => 2

/-- What is printed as output. -/
def output : Ending → String
  | success text => text
  | _ => ""

/-- What is printed as errors. -/
def errors : Ending → String
  | success _ => ""
  | failure cause => cause.message ++ "\n"
  | misuse _ remark => remark

end Ending

/-! ### Stages that read -/

section

variable {m : Type → Type} [Monad m]

/-- The text that was read, or the failure that its error is. -/
def readText (wrap : FileError → Failure) (reading : m (Except FileError String)) :
    ExceptT Failure m String :=
  ExceptT.mk do
    match ← reading with
    | .ok text => return .ok text
    | .error cause => return .error (wrap cause)

/-- Loads the catalog of a file. -/
def loadCatalog (s : Surroundings m) (wording : Wording) (path : String) :
    ExceptT Failure m Catalog := do
  let text ← readText (.unreadableCatalog path) (s.file path)
  match Catalog.read? text with
  | none => throw (.malformedCatalog path (wording.catalog text))
  | some c => return c

/-- Whether a path is a dash alone, which stands for standard input. -/
def isDash (path : String) : Bool :=
  match segments '/' path.toList with
  | ['-'] :: rest => rest.all fun part => decide (part = [] ∨ part = ['.'])
  | _ => false

/-- Reads the data, if there are any to be read. -/
def readData (s : Surroundings m) (wording : Wording) :
    Option String → ExceptT Failure m (Option Json)
  | none => return none
  | some path => do
    let reading := if isDash path then s.input else s.file path
    let text ← readText (.unreadableData path) reading
    match Json.read? text with
    | none => throw (.malformedData path (wording.data text))
    | some v => return some v

end

/-! ### Stages on the registry -/

/-- The registry with a catalog, and nothing else, installed. -/
def installCatalog (path : String) (c : Catalog) : Except Failure (Registry (Maker Unit)) :=
  match c.install .empty with
  | .error cause => .error (.refusedCatalog path cause)
  | .ok r => .ok r

/-- What a registry is listed as. -/
def listRegistry (r : Registry (Maker Unit)) : String :=
  String.join (r.listing.1.map (· ++ "\n"))

/-- What a compiler makes of the data. -/
def runCompiler (r : Registry (Maker Unit)) (name : String) (data : Option Json) :
    Except Failure String :=
  match r.compile name data with
  | none => .error (.unknownCompiler name)
  | some compiled => .ok compiled.text

/-- The type to be rendered: the one given, or the only one there is. -/
def chooseType (r : Registry (Maker Unit)) : Option String → Except Failure String
  | some type => .ok type
  | none =>
    match r.types.keys with
    | [only] => .ok only
    | [] => .error .noType
    | _ => .error .severalTypes

/-- A new template of a type. -/
def makeTemplate (r : Registry (Maker Unit)) (type : String) (name : Option String) :
    Except Failure (Template Unit) :=
  match (r.select type name).1 with
  | .error cause => .error (.refusedTemplate cause)
  | .ok make => .ok ((make ()).1.build 1 ⟨0⟩)

/-- The text that a template renders to. -/
def renderTemplate (t : Template Unit) (type : String) (data : Option Json) :
    Except Failure String :=
  match (t.render data (.start ())).result with
  | .error cause => .error (.failedRendering type cause)
  | .ok text => .ok text

/-- What is made of the data: by the compiler if one is asked for, by a template
    otherwise. -/
def produce (r : Registry (Maker Unit)) (o : Options) (data : Option Json) :
    Except Failure String :=
  match o.get? .compiler with
  | some name => runCompiler r name data
  | none => do
    let type ← chooseType r (o.get? .type)
    let template ← makeTemplate r type (o.get? .name)
    renderTemplate template type data

/-! ### The whole run -/

section

variable {m : Type → Type} [Monad m]

/-- A stage that reads nothing. -/
def silently {α : Type} (x : Except Failure α) : ExceptT Failure m α := ExceptT.mk (pure x)

/-- What a run with the given catalog and options prints. -/
def perform (s : Surroundings m) (wording : Wording) (path : String) (o : Options) :
    ExceptT Failure m String := do
  let catalog ← loadCatalog s wording path
  let registry ← silently (installCatalog path catalog)
  if o.has .list then return listRegistry registry
  else
    let data ← readData s wording (o.get? .data)
    return (← silently (produce registry o data)) ++ "\n"

/-- Runs the command. -/
def run (arguments : List String) (s : Surroundings m) (wording : Wording := {}) : m Ending :=
  match Request.ofArguments arguments with
  | .error e => return .misuse e (wording.usage e)
  | .ok .help => return .success wording.help
  | .ok (.run path o) => do
    match ← (perform s wording path o).run with
    | .ok text => return .success text
    | .error e => return .failure e

end

end Stencil.Command
