import Stencil.Json.Path

/-!
# Reading JSON text

JSON text as a value, or nothing when the text is not JSON (`Json.read?`). The
reader is that of the standard, with these limits and decisions:

* containers may be nested 127 deep (`Json.maxDepth`);
* texts must be sequences of characters: an escape of half a surrogate pair
  alone is refused, as is a control character that is not escaped;
* of several fields of one name the last counts;
* an integer of 64 bits is kept as it is, but `-0` is the number minus zero. Any
  other number becomes a double-precision one, and must not exceed the largest
  of these.

A number that is no integer is read as a significand of at most 64 bits times a
power of ten: digits before the point that do not fit raise the power, digits
after it that do not fit are dropped (`Json.Scientific`). The two are combined
in one operation of floating-point arithmetic as long as the power is one of a
double-precision number, which may differ from the nearest number in the last
place.
-/

namespace Stencil.Json

/-- How deep containers may be nested. -/
def maxDepth : Nat := 127

/-- White space between the tokens of JSON. -/
def isSpace (c : Char) : Bool := c == ' ' || c == '\n' || c == '\t' || c == '\r'

/-- The text from its first character that is no white space. -/
def skipSpace (cs : List Char) : List Char := cs.dropWhile isSpace

/-- What follows `word`, if the text begins with it. -/
def afterWord? : (word cs : List Char) → Option (List Char)
  | [], cs => some cs
  | w :: ws, c :: cs => if c = w then afterWord? ws cs else none
  | _ :: _, [] => none

/-! ### Texts -/

/-- The value of a hexadecimal digit. -/
def hexValue? (c : Char) : Option Nat :=
  if '0' ≤ c ∧ c ≤ '9' then some (c.toNat - '0'.toNat)
  else if 'a' ≤ c ∧ c ≤ 'f' then some (c.toNat - 'a'.toNat + 10)
  else if 'A' ≤ c ∧ c ≤ 'F' then some (c.toNat - 'A'.toNat + 10)
  else none

/-- The number written in exactly `n` hexadecimal digits, `acc` standing for
    those before them, with what follows them. -/
def hexNumber? : (n acc : Nat) → List Char → Option (Nat × List Char)
  | 0, acc, cs => some (acc, cs)
  | _ + 1, _, [] => none
  | n + 1, acc, c :: cs => (hexValue? c).bind fun d => hexNumber? n (16 * acc + d) cs

/-- The character denoted by an escape, read from behind the backslash. Code
    points beyond the first 65536 are written as two escapes. -/
def readEscape : List Char → Option (Char × List Char)
  | '"' :: cs => some ('"', cs)
  | '\\' :: cs => some ('\\', cs)
  | '/' :: cs => some ('/', cs)
  | 'b' :: cs => some (Char.ofNat 8, cs)
  | 'f' :: cs => some (Char.ofNat 12, cs)
  | 'n' :: cs => some ('\n', cs)
  | 'r' :: cs => some ('\r', cs)
  | 't' :: cs => some ('\t', cs)
  | 'u' :: cs => do
    let (high, cs) ← hexNumber? 4 0 cs
    if high < 0xD800 ∨ 0xE000 ≤ high then some (Char.ofNat high, cs)
    else if 0xDC00 ≤ high then none
    else
      let cs ← afterWord? ['\\', 'u'] cs
      let (low, cs) ← hexNumber? 4 0 cs
      if 0xDC00 ≤ low ∧ low < 0xE000 then
        some (Char.ofNat (0x10000 + (high - 0xD800) * 0x400 + (low - 0xDC00)), cs)
      else none
  | _ => none

/-- The characters of a text up to its closing quote, read from behind the
    opening one, with what follows the text. -/
def readCharacters : Nat → List Char → Option (List Char × List Char)
  | 0, _ => none
  | _ + 1, [] => none
  | fuel + 1, c :: cs =>
    if c = '"' then some ([], cs)
    else if c = '\\' then do
      let (e, cs) ← readEscape cs
      let (text, rest) ← readCharacters fuel cs
      return (e :: text, rest)
    else if c.toNat < 32 then none
    else do
      let (text, rest) ← readCharacters fuel cs
      return (c :: text, rest)

/-- A text, read from behind its opening quote, with what follows it. -/
def readString (cs : List Char) : Option (String × List Char) :=
  (readCharacters (cs.length + 1) cs).map fun (text, rest) => (String.ofList text, rest)

/-! ### Numbers -/

/-- A number `significand · 10^exponent` on its way from text to double
    precision. -/
structure Scientific where
  /-- The significand, below `2^64`. -/
  significand : Nat
  /-- The power of ten. -/
  exponent : Int

namespace Scientific

/-- The largest power of ten with a double-precision number of its own. -/
def maxPower : Nat := 308

/-- The double-precision number nearest to `10^n`, for `n ≤ maxPower`. -/
def power (n : Nat) : Float := Float.ofScientific 1 false n

/-- The product of `f` and `10^e`, or nothing when it exceeds all
    double-precision numbers. Powers below the least one are taken in steps,
    `fuel` of them at most. -/
def scale? (f : Float) (e : Int) : Nat → Option Float
  | 0 => some f
  | fuel + 1 =>
    if e.natAbs ≤ maxPower then
      if 0 ≤ e then
        let g := f * power e.natAbs
        if g.isInf then none else some g
      else some (f / power e.natAbs)
    else if f == 0 then some f
    else if 0 ≤ e then none
    else scale? (f / power maxPower) (e + maxPower) fuel

/-- The number in double precision, if it does not exceed its range. -/
def toFloat? (s : Scientific) : Option Float :=
  -- Four steps take every significand to zero.
  scale? s.significand.toUInt64.toFloat s.exponent 8

/-- The number with one digit more, if its significand still fits. -/
def push? (s : Scientific) (digit : Char) : Option Nat :=
  let n := 10 * s.significand + (digit.toNat - '0'.toNat)
  if n < UInt64.size then some n else none

/-- The number with more digits before the point. From the first digit that
    does not fit, on, they only raise the power. -/
def integerDigits (s : Scientific) : List Char → Scientific
  | [] => s
  | d :: ds =>
    match s.push? d with
    | some n => integerDigits ⟨n, s.exponent⟩ ds
    | none => ⟨s.significand, s.exponent + (ds.length + 1)⟩

/-- The number with digits after the point. From the first digit that does not
    fit, on, they are dropped. -/
def fractionDigits (s : Scientific) : List Char → Scientific
  | [] => s
  | d :: ds =>
    match s.push? d with
    | some n => fractionDigits ⟨n, s.exponent - 1⟩ ds
    | none => s

/-- The greatest exponent that is taken at its word. -/
def maxExponent : Nat := Nat.pow 2 31 - 1

/-- The number with an exponent of its own, `negative` telling its sign: nothing
    when it is out of all range. -/
def withExponent? (s : Scientific) (negative : Bool) (digits : List Char) : Option Scientific :=
  let e := (decimalValue 0 digits).getD 0
  if e ≤ maxExponent then
    some ⟨s.significand, if negative then s.exponent - e else s.exponent + e⟩
  else if s.significand ≠ 0 ∧ !negative then none
  else some ⟨0, 0⟩

end Scientific

/-- The digits at the beginning of a text, and what follows them. -/
def digits (cs : List Char) : List Char × List Char := cs.span Char.isDigit

/-- The exponent of a number, if it has one: its sign and its digits, read from
    the letter on. -/
def readExponent : List Char → Option (Option (Bool × List Char) × List Char)
  | c :: cs =>
    if c = 'e' ∨ c = 'E' then
      let (negative, cs) :=
        match cs with
        | '+' :: cs => (false, cs)
        | '-' :: cs => (true, cs)
        | cs => (false, cs)
      let (ds, rest) := digits cs
      if ds = [] then none else some (some (negative, ds), rest)
    else some (none, c :: cs)
  | [] => some (none, [])

/-- The fraction of a number, if it has one: its digits, read from the point
    on. -/
def readFraction : List Char → Option (Option (List Char) × List Char)
  | '.' :: cs =>
    let (ds, rest) := digits cs
    if ds = [] then none else some (some ds, rest)
  | cs => some (none, cs)

/-- The number written with the given digits, if it is in range. -/
def Number.ofDigits? (negative : Bool) (whole : List Char) (fraction : Option (List Char))
    (exponent : Option (Bool × List Char)) : Option Number :=
  let n := (decimalValue 0 whole).getD 0
  let float? : Option Number := do
    let s := Scientific.integerDigits ⟨0, 0⟩ whole
    let s := s.fractionDigits (fraction.getD [])
    let s ←
      match exponent with
      | some (down, ds) => s.withExponent? down ds
      | none => some s
    let x ← s.toFloat?
    return .float (if negative then -x else x)
  match fraction, exponent with
  | none, none =>
    if negative then
      if 0 < n ∧ n ≤ Nat.pow 2 63 then some (.int (-(n : Int))) else float?
    else if n < UInt64.size then some (.int n)
    else float?
  | _, _ => float?

/-- A number, with what follows it. A zero has no digit before it. -/
def readNumber (cs : List Char) : Option (Number × List Char) := do
  let (negative, cs) :=
    match cs with
    | '-' :: cs => (true, cs)
    | cs => (false, cs)
  let (whole, cs) := digits cs
  if whole = [] ∨ (whole.head? = some '0' ∧ whole ≠ ['0']) then none
  else
    let (fraction, cs) ← readFraction cs
    let (exponent, cs) ← readExponent cs
    let n ← Number.ofDigits? negative whole fraction exponent
    return (n, cs)

/-! ### Values -/

/-- The items of an array, read from behind its bracket or a comma with a
    reader of one item, and what follows the array. -/
def readItems (item : List Char → Option (Json × List Char)) :
    Nat → List Char → Option (List Json × List Char)
  | 0, _ => none
  | fuel + 1, cs => do
    let (v, cs) ← item (skipSpace cs)
    match skipSpace cs with
    | ',' :: cs =>
      let (vs, rest) ← readItems item fuel cs
      return (v :: vs, rest)
    | ']' :: rest => return ([v], rest)
    | _ => none

/-- The fields of an object as they are written, read from behind its brace or
    a comma with a reader of one value, and what follows the object. -/
def readFields (item : List Char → Option (Json × List Char)) :
    Nat → List Char → Option (List (String × Json) × List Char)
  | 0, _ => none
  | fuel + 1, cs => do
    let (k, cs) ←
      match skipSpace cs with
      | '"' :: cs => readString cs
      | _ => none
    let (v, cs) ←
      match skipSpace cs with
      | ':' :: cs => item (skipSpace cs)
      | _ => none
    match skipSpace cs with
    | ',' :: cs =>
      let (fs, rest) ← readFields item fuel cs
      return ((k, v) :: fs, rest)
    | '}' :: rest => return ([(k, v)], rest)
    | _ => none

/-- A value that holds no other: a word, a text or a number. -/
def readScalar (cs : List Char) : Option (Json × List Char) :=
  match cs with
  | 'n' :: cs => (afterWord? ['u', 'l', 'l'] cs).map fun rest => (null, rest)
  | 't' :: cs => (afterWord? ['r', 'u', 'e'] cs).map fun rest => (bool true, rest)
  | 'f' :: cs => (afterWord? ['a', 'l', 's', 'e'] cs).map fun rest => (bool false, rest)
  | '"' :: cs => (readString cs).map fun (s, rest) => (string s, rest)
  | cs => (readNumber cs).map fun (n, rest) => (number n, rest)

/-- A value whose containers are nested at most `depth` deep, with what follows
    it. -/
def readValue : (depth : Nat) → List Char → Option (Json × List Char)
  | 0, cs => readScalar cs
  | depth + 1, cs =>
    match cs with
    | '[' :: cs =>
      match skipSpace cs with
      | ']' :: rest => some (array [], rest)
      | _ => (readItems (readValue depth) (cs.length + 1) cs).map fun (vs, rest) =>
          (array vs, rest)
    | '{' :: cs =>
      match skipSpace cs with
      | '}' :: rest => some (object [], rest)
      | _ => (readFields (readValue depth) (cs.length + 1) cs).map fun (fs, rest) =>
          (object (Fields.ofList fs), rest)
    | cs => readScalar cs

/-- The value that a text denotes, white space around it apart. -/
def read? (text : String) : Option Json :=
  match readValue maxDepth (skipSpace text.toList) with
  | some (v, rest) => if skipSpace rest = [] then some v else none
  | none => none

end Stencil.Json
