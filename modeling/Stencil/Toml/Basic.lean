import Stencil.Json.Basic

/-!
# TOML values

The values that a TOML document is made of. A table keeps its entries in the
order of the document. A date, a time, or both, is kept as the text in which it
is shown (`Toml.Moment`).

Seen as JSON, numbers that are not finite are null, and a moment is an object
with a single field, which holds its text (`Toml.Value.toJson`).
-/

namespace Stencil.Toml

/-- A day. -/
structure Date where
  /-- The year. -/
  year : Nat
  /-- The month, from one on. -/
  month : Nat
  /-- The day of the month, from one on. -/
  day : Nat

/-- A time of day. -/
structure Time where
  /-- The hour. -/
  hour : Nat
  /-- The minute. -/
  minute : Nat
  /-- The second, which may be a leap second. -/
  second : Nat
  /-- The billionths of a second. -/
  nanosecond : Nat

/-- How far a clock is ahead of universal time. -/
inductive Offset
  /-- It shows universal time. -/
  | zulu
  /-- It is ahead by some minutes. -/
  | minutes (m : Int)

/-- A day, a time of day, or both, perhaps with an offset. -/
structure Moment where
  /-- The day. -/
  date : Option Date
  /-- The time of day. -/
  time : Option Time
  /-- The offset. -/
  offset : Option Offset

/-- A number in decimal, with zeros in front up to a width. -/
def padded (width n : Nat) : String :=
  let ds := n.repr
  String.ofList (List.replicate (width - ds.length) '0') ++ ds

/-- A day as text. -/
def Date.text (d : Date) : String :=
  padded 4 d.year ++ "-" ++ padded 2 d.month ++ "-" ++ padded 2 d.day

/-- A text without the zeros at its end. -/
def withoutFinalZeros (s : String) : String :=
  String.ofList (s.toList.reverse.dropWhile (· == '0')).reverse

/-- A time of day as text, with a fraction unless it is zero. -/
def Time.text (t : Time) : String :=
  padded 2 t.hour ++ ":" ++ padded 2 t.minute ++ ":" ++ padded 2 t.second ++
    (if t.nanosecond = 0 then "" else "." ++ withoutFinalZeros (padded 9 t.nanosecond))

/-- An offset as text. -/
def Offset.text : Offset → String
  | zulu => "Z"
  | minutes m =>
    (if m < 0 then "-" else "+") ++ padded 2 (m.natAbs / 60) ++ ":" ++ padded 2 (m.natAbs % 60)

/-- A moment as text. -/
def Moment.text (m : Moment) : String :=
  let date := (m.date.map Date.text).getD ""
  let time := (m.time.map Time.text).getD ""
  let offset := (m.offset.map Offset.text).getD ""
  date ++ (if m.date.isSome && m.time.isSome then "T" else "") ++ time ++ offset

/-- A value. -/
inductive Value
  /-- A text. -/
  | string (s : String)
  /-- An integer of 64 bits. -/
  | integer (n : Int)
  /-- A double-precision number. -/
  | float (x : Float)
  /-- A truth value. -/
  | boolean (b : Bool)
  /-- A day, a time, or both. -/
  | moment (m : Moment)
  /-- A list of values. -/
  | array (items : List Value)
  /-- Named values, in the order of the document. -/
  | table (entries : List (String × Value))

instance : Inhabited Value := ⟨.boolean false⟩

/-- The field of the object that stands for a moment in JSON. -/
def momentKey : String := "$__toml_private_datetime"

/-- The entries of a value that has entries. A moment has one. -/
def Value.entries? : Value → Option (List (String × Value))
  | table entries => some entries
  | moment m => some [(momentKey, string m.text)]
  | _ => none

mutual

/-- A value as JSON. -/
def Value.toJson : Value → Json
  | .string s => .string s
  | .integer n => .number (.int n)
  | .float x => if x.isFinite then .number (.float x) else .null
  | .boolean b => .bool b
  | .moment m => .object [(momentKey, .string m.text)]
  | .array items => .array (itemsToJson items)
  | .table entries => .object (Json.Fields.ofList (entriesToJson entries))

/-- Some values as JSON. -/
def itemsToJson : List Value → List Json
  | [] => []
  | v :: vs => v.toJson :: itemsToJson vs

/-- Some entries as JSON, in the order of the document. -/
def entriesToJson : List (String × Value) → List (String × Json)
  | [] => []
  | (k, v) :: es => (k, v.toJson) :: entriesToJson es

end

end Stencil.Toml
