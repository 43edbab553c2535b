import Stencil.Tag.Basic
import Stencil.Text.Width

/-!
# Drawn reports

An error in a text is reported with the part of the text it is about, drawn for
a terminal: the name of the file with line and column, the lines on which the
error begins and ends, and an arrow to a note (`Report.draw`).

The drawing counts in characters. It is given the range of the error as two
numbers and takes them for character offsets, so a range of bytes points behind
the error, or past the end of the text, when characters of several bytes stand
before it. When the range does not lie in the text only the headline is drawn.

A line ends with any line terminator of Unicode, a carriage return and the line
feed behind it being one (`Report.lines`), and a line on which nothing stands is
drawn as such. White space in a line is drawn as spaces, a tab as many as lead
to the next multiple of four columns. Every character is coloured on its own.

* `flatten_lines`: the lines of a text put together again are the text.
-/

namespace Stencil.Report

/-! ### Lines -/

/-- A character that ends a line. -/
def isTerminator (c : Char) : Bool :=
  c == '\n' || c == '\r' || c.toNat == 0x0B || c.toNat == 0x0C || c.toNat == 0x85 ||
    c.toNat == 0x2028 || c.toNat == 0x2029

/-- A line with `c` in front of it. -/
def onto (c : Char) : List (List Char) → List (List Char)
  | [] => [[c]]
  | l :: ls => (c :: l) :: ls

/-- The lines of a text, each with its terminator. There is no empty line at the
    end. -/
def lines : List Char → List (List Char)
  | [] => []
  | c :: cs =>
    if isTerminator c && !(c == '\r' && cs.head? == some '\n') then [c] :: lines cs
    else onto c (lines cs)

theorem flatten_onto (c : Char) (ls : List (List Char)) :
    (onto c ls).flatten = c :: ls.flatten := by
  cases ls <;> simp [onto]

theorem flatten_lines (cs : List Char) : (lines cs).flatten = cs := by
  induction cs with
  | nil => rfl
  | cons c cs ih =>
    rw [lines]
    split
    · rw [List.flatten_cons, ih, List.singleton_append]
    · rw [flatten_onto, ih]

/-- A line of a text. -/
structure Line where
  /-- Its number, from zero on. -/
  number : Nat
  /-- How many characters stand before it. -/
  offset : Nat
  /-- Its characters, with the terminator. -/
  chars : List Char

/-- The given lines with their numbers and offsets, the first of them with the
    given number and offset. -/
def numbered (number offset : Nat) : List (List Char) → List Line
  | [] => []
  | l :: ls => ⟨number, offset, l⟩ :: numbered (number + 1) (offset + l.length) ls

/-- The last one of some lines that begins at `offset` or before. -/
def lineAt? (offset : Nat) (ls : List Line) : Option Line :=
  (ls.filter fun l => decide (l.offset ≤ offset)).getLast?

/-- What is drawn of a line: its characters up to the white space at its end. -/
def Line.body (l : Line) : List Char := Text.trimEnd l.chars

/-! ### Ink -/

/-- The colours of a drawing. -/
inductive Ink
  /-- The error itself. -/
  | error
  /-- The frame. -/
  | frame
  /-- The frame beside lines that are left out. -/
  | skipped
  /-- The text around the error. -/
  | plain

/-- The number of a colour among those of a terminal. -/
def Ink.code : Ink → String
  | error => "31"
  | frame => "38;5;246"
  | skipped => "38;5;240"
  | plain => "38;5;249"

/-- A text in a colour. -/
def Ink.paint (ink : Ink) (s : String) : String :=
  "\x1b[" ++ ink.code ++ "m" ++ s ++ "\x1b[0m"

/-- A character in a colour. -/
def Ink.dot (ink : Ink) (c : Char) : String := ink.paint (String.singleton c)

/-- The same text several times. -/
def times (n : Nat) (s : String) : String := String.join (List.replicate n s)

/-- Some spaces. -/
def spaces (n : Nat) : String := String.ofList (List.replicate n ' ')

/-! ### The drawing -/

/-- What is to be reported: an error at a range of a text. -/
structure Notice where
  /-- The name of the file. -/
  file : String
  /-- The headline. -/
  message : String
  /-- The note at the end of the arrow. -/
  label : String
  /-- The offset of the first character. -/
  start : Nat
  /-- The offset behind the last character. -/
  stop : Nat

/-- The margin beside a line: its number, in a column of the given width. -/
def margin (width : Nat) (l : Line) : String :=
  let number := (l.number + 1).repr
  " " ++ Ink.frame.paint (spaces (width - number.length) ++ number ++ " │") ++ " "

/-- The margin beside no line. -/
def blankMargin (width : Nat) (edge : String) : String :=
  " " ++ Ink.skipped.paint (spaces (width + 1) ++ edge) ++ " "

/-- The body of a line from column `col` on, which is the character at
    `offset`. -/
def paintBody (n : Notice) (offset col : Nat) : List Char → String
  | [] => ""
  | c :: cs =>
    let ink := if n.start ≤ offset ∧ offset < n.stop then Ink.error else Ink.plain
    let drawn :=
      if Text.isBlank c then times (Text.columns c col) (ink.dot ' ') else ink.dot c
    drawn ++ paintBody n (offset + 1) (col + 1) cs

/-- The body of a line. -/
def Notice.paintLine (n : Notice) (l : Line) : String := paintBody n l.offset 0 l.body

/-- A mark over some columns: it begins with its first text and goes on with the
    second one. -/
def stretch (mark : String × String) : (width : Nat) → String
  | 0 => ""
  | more + 1 => mark.1 ++ times more mark.2

/-- What is drawn under the first `count` characters of a line, from column
    `col` on: for each character a mark over the columns that it takes. Behind the
    end of the body characters take one column. -/
def underline (mark : Nat → String × String) (col : Nat) : Nat → List Char → String
  | 0, _ => ""
  | count + 1, cs =>
    let width :=
      match cs with
      | c :: _ => Text.columns c col
      | [] => 1
    stretch (mark col) width ++ underline mark (col + 1) count (cs.drop 1)

/-- The mark of an arrow going to the right. -/
def rule : String × String := (Ink.error.dot '─', Ink.error.dot '─')

/-- The mark of nothing. -/
def bare : String × String := (" ", " ")

/-- The drawing of an error that begins and ends on one line. -/
def Notice.drawLine (n : Notice) (width : Nat) (l : Line) : String :=
  let side := blankMargin width "│"
  if l.offset + l.chars.length < n.stop then side ++ "\n"
  else
    let count := n.stop - l.offset + 2
    let middle := (n.start + n.stop) / 2 - l.offset
    let upper (col : Nat) : String × String :=
      if col = middle then (Ink.error.dot '┬', Ink.error.dot '─')
      else if n.start ≤ l.offset + col ∧ l.offset + col < n.stop then rule
      else bare
    let lower (col : Nat) : String × String :=
      if col = middle then (Ink.error.dot '╰', Ink.error.dot '─')
      else if middle < col then rule
      else bare
    margin width l ++ n.paintLine l ++ "\n" ++
      side ++ underline upper 0 count l.body ++ "\n" ++
      side ++ underline lower 0 count l.body ++ " " ++ n.label ++ "\n"

/-- An arrow head after the given corner. -/
def arrow (corner : Char) : String :=
  Ink.error.dot corner ++ Ink.error.dot '─' ++ Ink.error.dot '▶' ++ Ink.error.dot ' '

/-- The drawing of an error that begins on one line and ends on a later one. -/
def Notice.drawLines (n : Notice) (width : Nat) (first last : Line) : String :=
  let side := blankMargin width "│"
  let drawn := n.stop - 1 < last.offset + last.chars.length
  let opening := margin width first ++ arrow '╭' ++ n.paintLine first ++ "\n"
  let gap :=
    if last.number - first.number > 1 ∨ ¬drawn then
      blankMargin width "┆" ++ Ink.error.dot '┆' ++ "   \n"
    else ""
  let closing :=
    if drawn then
      let count := last.chars.length + 2
      margin width last ++ arrow '├' ++ n.paintLine last ++ "\n" ++
        side ++ Ink.error.dot '│' ++ "   " ++ underline (fun _ => bare) 0 count last.body ++
        "\n" ++
        side ++ Ink.error.dot '╰' ++ times 3 (Ink.error.dot '─') ++
        underline (fun _ => rule) 0 count last.body ++ " " ++ n.label ++ "\n"
    else ""
  opening ++ gap ++ closing

/-- The line and the column, counted from one, of the character at `offset`, which
    stands on the given line. -/
def Line.position (l : Line) (offset : Nat) : Nat × Nat := (l.number + 1, offset - l.offset + 1)

/-- The line on which an error begins and the line on which it ends, if its range
    lies in the text. -/
def Notice.extent? (n : Notice) (source : List Char) : Option (Line × Line) :=
  let ls := numbered 0 0 (lines source)
  if source.length < n.start ∨ source.length < n.stop - 1 then none
  else do
    let first ← lineAt? n.start ls
    let last ← lineAt? (n.stop - 1) ls
    return (first, last)

/-- The line and the column at which an error is said to begin, if its range lies
    in the text. -/
def Notice.position? (n : Notice) (source : List Char) : Option (Nat × Nat) :=
  (n.extent? source).map fun (first, _) => first.position n.start

/-- The line of a drawing that names the file and the place in it. -/
def Notice.drawPlace (n : Notice) (width : Nat) (position : Nat × Nat) : String :=
  spaces (width + 2) ++ Ink.frame.dot '╭' ++ Ink.frame.dot '─' ++ Ink.frame.dot '[' ++
    n.file ++ ":" ++ position.1.repr ++ ":" ++ position.2.repr ++ Ink.frame.dot ']' ++ "\n"

/-- The drawing of an error in a text. -/
def Notice.draw (n : Notice) (source : List Char) : String :=
  let headline := Ink.error.paint "Error:" ++ " " ++ n.message ++ "\n"
  match n.extent? source with
  | none => headline
  | some (first, last) =>
    let width := (last.number + 1).repr.length
    headline ++
      n.drawPlace width (first.position n.start) ++
      spaces (width + 2) ++ Ink.frame.dot '│' ++ "\n" ++
      (if first.number = last.number then n.drawLine width first
        else n.drawLines width first last) ++
      Ink.frame.paint (times (width + 2) "─" ++ "╯") ++ "\n"

/-- The notice of an error in a tag. The range of the error counts bytes, and is
    handed on as it is. -/
def Notice.ofTagError (e : TagError) (file : String) : Notice where
  file := file
  message := e.message
  label := e.label
  start := e.span.start
  stop := e.span.stop

/-- The report of an error in the tags of a text. -/
def ofTagError (e : TagError) (text file : String) : String :=
  (Notice.ofTagError e file).draw text.toList

end Stencil.Report
