import Stencil.Command.Run

/-!
# The command line

Runs the command on the files of the system, prints what it prints and ends with
its code.
-/

namespace Stencil.Main

open Command (FileError)

/-- The characters of bytes in UTF-8. -/
def decode (bytes : ByteArray) : Except FileError String :=
  match String.fromUTF8? bytes with
  | some text => .ok text
  | none => .error .notText

/-- What an error of the system means for a file. -/
def fileError : IO.Error → FileError
  | .noFileOrDirectory _ _ _ => .notFound
  | .inappropriateType _ _ _ => .isDirectory
  | e => .other (toString e)

/-- The text of a file of the system. -/
def readFileText (path : String) : IO (Except FileError String) := do
  match ← (IO.FS.readBinFile path).toBaseIO with
  | .ok bytes => return decode bytes
  | .error e => return .error (fileError e)

/-- All bytes of a stream, behind those read already. -/
partial def readAll (stream : IO.FS.Stream) (before : ByteArray) : IO ByteArray := do
  let bytes ← stream.read 65536
  if bytes.isEmpty then return before else readAll stream (before ++ bytes)

/-- The text of standard input. -/
def readInputText : IO (Except FileError String) := do
  match ← (readAll (← IO.getStdin) ByteArray.empty).toBaseIO with
  | .ok bytes => return decode bytes
  | .error e => return .error (fileError e)

/-- The help that is shown on request. -/
def help : String :=
  "Render section templates declared in a TOML catalog\n\n" ++
    "Usage: stencil [OPTIONS] <CATALOG>\n\n" ++
    "Arguments:\n" ++
    "  <CATALOG>  Catalog file declaring templates and compilers (TOML format)\n\n" ++
    "Options:\n" ++
    "  -t, --type <TYPE>          Template type to render\n" ++
    "  -n, --name <NAME>          Template name (defaults to the type's default template)\n" ++
    "  -c, --compiler <COMPILER>  Render a named compiler instead of a typed template\n" ++
    "  -d, --data <DATA>          JSON data file passed to the render call (\"-\" reads stdin)\n" ++
    "  -l, --list                 List registered types, templates and compilers\n" ++
    "  -v, --verbose              Enable debug logging\n" ++
    "  -h, --help                 Print help\n"

/-- Wrong arguments are answered with the help. -/
def wording : Command.Wording where
  usage _ := help
  help := help

end Stencil.Main

/-- Runs the command with the arguments it was given. -/
def main (arguments : List String) : IO UInt32 := do
  let files : Stencil.Command.Surroundings IO :=
    ⟨Stencil.Main.readFileText, Stencil.Main.readInputText⟩
  let ending ← Stencil.Command.run arguments files Stencil.Main.wording
  IO.print ending.output
  IO.eprint ending.errors
  return ending.code.toUInt32
