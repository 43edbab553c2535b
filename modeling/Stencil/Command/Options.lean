/-!
# Arguments of the command

The command takes one catalog and options, which may stand in any order. An
option has a letter and a word: `-t` and `--type`, `-n` and `--name`, `-c` and
`--compiler`, `-d` and `--data` take a value, `-l` and `--list`, `-v` and
`--verbose` do not. The value of an option follows it, as the next argument or
behind `=`; behind a letter it may also follow at once. Letters without values
may be put together. After `--` no argument is an option any more.

No option is given twice, a compiler excludes a type and a name, and a file has
a name that is not empty. An argument that begins with a dash, the dash alone
apart, is no value of its own.
-/

namespace Stencil.Command

/-- An option with a value. -/
inductive Setting
  /-- The type of the template to be rendered. -/
  | type
  /-- The name of the template to be rendered. -/
  | name
  /-- The compiler to be run. -/
  | compiler
  /-- The file with the data. -/
  | data
  deriving DecidableEq

/-- An option without a value. -/
inductive Switch
  /-- The registry is to be listed. -/
  | list
  /-- What happens is to be logged. -/
  | verbose
  deriving DecidableEq

/-- An option, or the request for help. -/
inductive Flag
  /-- It takes a value. -/
  | setting (s : Setting)
  /-- It takes no value. -/
  | switch (s : Switch)
  /-- Help is wanted. -/
  | help

/-- The option of a letter. -/
def Flag.ofLetter? : Char → Option Flag
  | 't' => some (.setting .type)
  | 'n' => some (.setting .name)
  | 'c' => some (.setting .compiler)
  | 'd' => some (.setting .data)
  | 'l' => some (.switch .list)
  | 'v' => some (.switch .verbose)
  | 'h' => some .help
  | _ => none

/-- The option of a word. -/
def Flag.ofWord? (word : String) : Option Flag :=
  if word = "type" then some (.setting .type)
  else if word = "name" then some (.setting .name)
  else if word = "compiler" then some (.setting .compiler)
  else if word = "data" then some (.setting .data)
  else if word = "list" then some (.switch .list)
  else if word = "verbose" then some (.switch .verbose)
  else if word = "help" then some .help
  else none

/-- What the arguments ask for. -/
structure Options where
  /-- The file of the catalog. -/
  catalog : Option String
  /-- The options with their values, in order. -/
  settings : List (Setting × String)
  /-- The options without values, in order. -/
  switches : List Switch

namespace Options

/-- What no arguments ask for. -/
def none : Options := ⟨.none, [], []⟩

/-- The value of an option. -/
def get? (o : Options) (s : Setting) : Option String :=
  (o.settings.find? fun p => decide (p.1 = s)).map Prod.snd

/-- Whether an option is given. -/
def has (o : Options) (s : Switch) : Bool := decide (s ∈ o.switches)

end Options

/-- Why arguments are refused. -/
inductive UsageError
  /-- An argument is no option, or one too many. -/
  | unexpected (argument : String)
  /-- An option lacks its value. -/
  | missingValue
  /-- An option has a value it does not take. -/
  | needlessValue
  /-- An option is given twice. -/
  | repeated
  /-- A compiler is given together with a type or a name. -/
  | conflict
  /-- There is no catalog. -/
  | missingCatalog

/-- What reading arguments ends with. -/
inductive Request
  /-- To show the help. -/
  | help
  /-- To run with the given catalog and options. -/
  | run (catalog : String) (options : Options)

/-- Whether an argument can be the value of an option before it. -/
def isValue (argument : String) : Bool :=
  match argument.toList with
  | '-' :: _ :: _ => false
  | _ => true

/-- The options with one more value. -/
def addSetting (o : Options) (s : Setting) (value : String) : Except UsageError Options :=
  if (o.get? s).isSome then .error .repeated
  else if s = .data ∧ value = "" then .error .missingValue
  else .ok { o with settings := o.settings ++ [(s, value)] }

/-- The options with one more switch. -/
def addSwitch (o : Options) (s : Switch) : Except UsageError Options :=
  if o.has s then .error .repeated else .ok { o with switches := o.switches ++ [s] }

/-- The options with a file for the catalog. -/
def addCatalog (o : Options) (argument : String) : Except UsageError Options :=
  if o.catalog.isSome then .error (.unexpected argument)
  else if argument = "" then .error .missingValue
  else .ok { o with catalog := some argument }

/-- What an argument that begins with a dash leads to. -/
inductive Reading
  /-- To the request for help. -/
  | help
  /-- To more options, and perhaps to one whose value is the next argument. -/
  | more (options : Options) (wanting : Option Setting)

/-- Reads the letters behind a single dash. -/
def readLetters (argument : String) : List Char → Options → Except UsageError Reading
  | [], o => .ok (.more o .none)
  | c :: cs, o =>
    match Flag.ofLetter? c with
    | .none => .error (.unexpected argument)
    | some .help => .ok .help
    | some (.switch s) =>
      if cs.head? = some '=' then .error .needlessValue
      else do readLetters argument cs (← addSwitch o s)
    | some (.setting s) =>
      match cs with
      | [] => .ok (.more o (some s))
      | '=' :: value => do return .more (← addSetting o s (String.ofList value)) .none
      | value => do return .more (← addSetting o s (String.ofList value)) .none

/-- Reads the word behind two dashes, with a value if there is one. -/
def readWord (argument : String) (word : List Char) (o : Options) : Except UsageError Reading :=
  let name := String.ofList (word.takeWhile (· ≠ '='))
  let value : Option String :=
    match word.dropWhile (· ≠ '=') with
    | [] => .none
    | _ :: cs => some (String.ofList cs)
  match Flag.ofWord? name, value with
  | .none, _ => .error (.unexpected argument)
  | some (.setting s), some v => do return .more (← addSetting o s v) .none
  | some (.setting s), .none => .ok (.more o (some s))
  | some (.switch s), .none => do return .more (← addSwitch o s) .none
  | some .help, .none => .ok .help
  | some _, some _ => .error .needlessValue

/-- The options of arguments that are no options themselves. -/
def readCatalogs (arguments : List String) (o : Options) : Except UsageError Options :=
  arguments.foldlM addCatalog o

/-- The request of options that are complete. -/
def Options.request (o : Options) : Except UsageError Request :=
  if (o.get? .compiler).isSome ∧ ((o.get? .type).isSome ∨ (o.get? .name).isSome) then
    .error .conflict
  else
    match o.catalog with
    | .none => .error .missingCatalog
    | some path => .ok (.run path o)

/-- Reads arguments, having read those before them; `wanting` is the option whose
    value is expected first. -/
def readArguments (wanting : Option Setting) : List String → Options → Except UsageError Request
  | [], o =>
    match wanting with
    | some _ => .error .missingValue
    | .none => o.request
  | a :: rest, o =>
    match wanting with
    | some s => do
      if isValue a then readArguments .none rest (← addSetting o s a) else throw .missingValue
    | .none =>
      let goOn (reading : Except UsageError Reading) : Except UsageError Request := do
        match ← reading with
        | .help => return .help
        | .more o wanting => readArguments wanting rest o
      match a.toList with
      | ['-', '-'] => do (← readCatalogs rest o).request
      | '-' :: '-' :: word => goOn (readWord a word o)
      | '-' :: c :: letters => goOn (readLetters a (c :: letters) o)
      | _ => do readArguments .none rest (← addCatalog o a)

/-- What some arguments ask for. -/
def Request.ofArguments (arguments : List String) : Except UsageError Request :=
  readArguments .none arguments .none

end Stencil.Command
