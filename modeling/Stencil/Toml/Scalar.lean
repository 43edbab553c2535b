import Stencil.Toml.Basic
import Stencil.Toml.Text

/-!
# TOML numbers and moments

An integer is decimal, without zeros in front, or hexadecimal, octal or binary
without a sign, and fits 64 bits. A number with a fraction or an exponent is
rounded to double precision and must not exceed its range; infinities and the
number that is none have names. Single underscores may stand between digits.

A moment is a day, a time of day, or both with a `T` or a space between them and
perhaps an offset. Its parts must be in range, a day also for its month; of the
fraction of a second nine digits count.

Each reader takes the longest text of its kind from the front, and gives nothing
when there is none or it is out of range.
-/

namespace Stencil.Toml

/-- Digits of a class, single underscores between them, with what follows them.
    The underscores are left out. -/
def digitRun (isDigit : Char → Bool) : List Char → Option (List Char × List Char)
  | [] => none
  | c :: cs =>
    if isDigit c then
      match cs with
      | '_' :: rest => (digitRun isDigit rest).map fun (ds, rest) => (c :: ds, rest)
      | d :: rest =>
        if isDigit d then
          (digitRun isDigit (d :: rest)).map fun (ds, rest) => (c :: ds, rest)
        else some ([c], d :: rest)
      | [] => some ([c], [])
    else none

/-- A sign, if there is one: whether it is a minus, and what follows it. -/
def readSign : List Char → Bool × List Char
  | '+' :: cs => (false, cs)
  | '-' :: cs => (true, cs)
  | cs => (false, cs)

/-- The digits of a decimal integer: a single zero, or digits of which the first
    is no zero. -/
def decimalRun (cs : List Char) : Option (List Char × List Char) :=
  match cs with
  | '0' :: rest => some (['0'], rest)
  | cs => digitRun Char.isDigit cs

/-! ### Integers -/

/-- The number that digits denote in a base up to sixteen. -/
def valueIn (base : Nat) (ds : List Char) : Nat :=
  ds.foldl (fun n d => base * n + (Json.hexValue? d).getD 0) 0

/-- An integer of 64 bits, if it fits. -/
def integer? (negative : Bool) (n : Nat) : Option Value :=
  if negative then if n ≤ Nat.pow 2 63 then some (.integer (-(n : Int))) else none
  else if n < Nat.pow 2 63 then some (.integer n) else none

/-- An integer in a base other than ten, from behind its mark. -/
def readInBase (base : Nat) (cs : List Char) : Option (Value × List Char) := do
  let isDigit (c : Char) : Bool := (Json.hexValue? c).any (· < base)
  let (ds, rest) ← digitRun isDigit cs
  let v ← integer? false (valueIn base ds)
  return (v, rest)

/-- An integer, with what follows it. -/
def readInteger (cs : List Char) : Option (Value × List Char) :=
  match cs with
  | '0' :: 'x' :: cs => readInBase 16 cs
  | '0' :: 'o' :: cs => readInBase 8 cs
  | '0' :: 'b' :: cs => readInBase 2 cs
  | cs => do
    let (negative, cs) := readSign cs
    let (ds, rest) ← decimalRun cs
    let v ← integer? negative (valueIn 10 ds)
    return (v, rest)

/-! ### Other numbers -/

/-- The double-precision number nearest to `n · 10^e`, infinite when it exceeds
    all of them. -/
def nearestFloat (n : Nat) (e : Int) : Float :=
  let order : Int := (Nat.toDigits 10 n).length + e
  if n = 0 ∨ order < -330 then 0
  else if 330 < order then 1 / 0
  else if 0 ≤ e then Float.ofScientific n false e.toNat
  else Float.ofScientific n true (-e).toNat

/-- A fraction, if there is one: its digits, from the point on. Nothing when the
    point is not followed by a digit. -/
def readFraction (cs : List Char) : Option (Option (List Char) × List Char) :=
  match cs with
  | '.' :: cs => (digitRun Char.isDigit cs).map fun (ds, rest) => (some ds, rest)
  | cs => some (none, cs)

/-- An exponent, if there is one, from the letter on. Nothing when the letter is
    not followed by a number. -/
def readExponent (cs : List Char) : Option (Option Int × List Char) :=
  match cs with
  | c :: rest =>
    if c = 'e' ∨ c = 'E' then
      let (negative, rest) := readSign rest
      (digitRun Char.isDigit rest).map fun (ds, rest) =>
        let e : Int := valueIn 10 ds
        (some (if negative then -e else e), rest)
    else some (none, cs)
  | [] => some (none, cs)

/-- A number with a fraction or an exponent, with what follows it. -/
def readDecimal (cs : List Char) : Option (Value × List Char) := do
  let (negative, cs) := readSign cs
  let (whole, cs) ← decimalRun cs
  let (fraction, cs) ← readFraction cs
  let (exponent, cs) ← readExponent cs
  if fraction.isNone && exponent.isNone then none
  else
    let places := fraction.getD []
    let x := nearestFloat (valueIn 10 (whole ++ places)) (exponent.getD 0 - places.length)
    if negative then return (.float (-x), cs)
    else if x.isInf then none
    else return (.float x, cs)

/-- A number with a name, with what follows it. -/
def readNamed (cs : List Char) : Option (Value × List Char) :=
  let (negative, cs) := readSign cs
  let signed (x : Float) : Value := .float (if negative then -x else x)
  match cs with
  | 'i' :: 'n' :: 'f' :: rest => some (signed (1 / 0), rest)
  | 'n' :: 'a' :: 'n' :: rest => some (signed (0 / 0), rest)
  | _ => none

/-! ### Moments -/

/-- Exactly `n` decimal digits in the range from `low` to `high`, as a number,
    with what follows them. -/
def readField (n low high : Nat) (cs : List Char) : Option (Nat × List Char) :=
  let ds := cs.take n
  if ds.length = n ∧ ds.all Char.isDigit then
    let v := valueIn 10 ds
    if low ≤ v ∧ v ≤ high then some (v, cs.drop n) else none
  else none

/-- How many days a month has. -/
def daysIn (year month : Nat) : Nat :=
  if month = 2 then
    if year % 4 = 0 ∧ (year % 100 ≠ 0 ∨ year % 400 = 0) then 29 else 28
  else if month = 4 ∨ month = 6 ∨ month = 9 ∨ month = 11 then 30
  else 31

/-- A day, with what follows it. -/
def readDate (cs : List Char) : Option (Date × List Char) := do
  let (year, cs) ← readField 4 0 9999 cs
  let cs ← Json.afterWord? ['-'] cs
  let (month, cs) ← readField 2 1 12 cs
  let cs ← Json.afterWord? ['-'] cs
  let (day, cs) ← readField 2 1 (daysIn year month) cs
  return (⟨year, month, day⟩, cs)

/-- A fraction of a second in billionths, from the point on; zero when there is
    none. -/
def readSecondFraction (cs : List Char) : Option (Nat × List Char) :=
  match cs with
  | '.' :: cs =>
    let (ds, rest) := Json.digits cs
    if ds = [] then none
    else
      let nine := ds.take 9
      some (valueIn 10 nine * Nat.pow 10 (9 - nine.length), rest)
  | cs => some (0, cs)

/-- A time of day, with what follows it. -/
def readTime (cs : List Char) : Option (Time × List Char) := do
  let (hour, cs) ← readField 2 0 23 cs
  let cs ← Json.afterWord? [':'] cs
  let (minute, cs) ← readField 2 0 59 cs
  let cs ← Json.afterWord? [':'] cs
  let (second, cs) ← readField 2 0 60 cs
  let (nanosecond, cs) ← readSecondFraction cs
  return (⟨hour, minute, second, nanosecond⟩, cs)

/-- An offset, if there is one, with what follows it. Nothing when it is out of
    range. -/
def readOffset (cs : List Char) : Option (Option Offset × List Char) :=
  match cs with
  | 'Z' :: rest => some (some .zulu, rest)
  | 'z' :: rest => some (some .zulu, rest)
  | c :: rest =>
    if c = '+' ∨ c = '-' then do
      let (hours, rest) ← readField 2 0 23 rest
      let rest ← Json.afterWord? [':'] rest
      let (minutes, rest) ← readField 2 0 59 rest
      let total : Int := 60 * hours + minutes
      return (some (.minutes (if c = '-' then -total else total)), rest)
    else some (none, cs)
  | [] => some (none, cs)

/-- A moment, with what follows it. What stands behind a day belongs to it only
    if it begins like a time of day. -/
def readMoment (cs : List Char) : Option (Value × List Char) :=
  match readDate cs with
  | some (date, cs) =>
    let alone : Option (Value × List Char) := some (.moment ⟨some date, none, none⟩, cs)
    match cs with
    | c :: rest =>
      if c = 'T' ∨ c = 't' ∨ c = ' ' then
        match readTime rest with
        | some (time, rest) => do
          let (offset, rest) ← readOffset rest
          return (.moment ⟨some date, some time, offset⟩, rest)
        | none => alone
      else alone
    | [] => alone
  | none => (readTime cs).map fun (time, rest) => (.moment ⟨none, some time, none⟩, rest)

/-- A value that holds no other, with what follows it. -/
def readScalar (cs : List Char) : Option (Value × List Char) :=
  match cs with
  | '"' :: _ => (readText cs).map fun (s, rest) => (.string s, rest)
  | '\'' :: _ => (readText cs).map fun (s, rest) => (.string s, rest)
  | 't' :: 'r' :: 'u' :: 'e' :: rest => some (.boolean true, rest)
  | 'f' :: 'a' :: 'l' :: 's' :: 'e' :: rest => some (.boolean false, rest)
  | cs =>
    (readMoment cs).or <| (readNamed cs).or <| (readDecimal cs).or (readInteger cs)

end Stencil.Toml
