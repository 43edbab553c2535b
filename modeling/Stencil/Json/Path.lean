import Stencil.Json.Basic

/-!
# Paths into JSON values

A path is a text such as `user.name` or `items.0`, split at every point into
segments. A segment is followed as the name of a field where the value reached
so far is an object, and as an index where it is an array; nothing lies below
any other value. An index is decimal, perhaps with a plus sign and with zeros in
front, and fits a machine word of 64 bits.

* `Json.follow_append`: following a path is following its parts in turn.
-/

namespace Stencil

/-- The parts of a text between the characters `sep`. There is one more of them
    than there are separators. -/
def segments (sep : Char) : List Char → List (List Char)
  | [] => [[]]
  | c :: cs =>
    if c = sep then [] :: segments sep cs
    else
      match segments sep cs with
      | [] => [[c]]
      | s :: rest => (c :: s) :: rest

theorem segments_ne_nil (sep : Char) (cs : List Char) : segments sep cs ≠ [] := by
  cases cs with
  | nil => simp [segments]
  | cons c cs =>
    rw [segments]
    split
    · simp
    · split <;> simp

/-- The segments of a path. -/
def pathSegments (path : String) : List String := (segments '.' path.toList).map String.ofList

/-- The first segment of a path, which names a variable. -/
def pathRoot (path : String) : String := String.ofList (path.toList.takeWhile (· ≠ '.'))

/-- The number that decimal digits denote, `acc` standing for those before
    them. -/
def decimalValue (acc : Nat) : List Char → Option Nat
  | [] => some acc
  | c :: cs => if c.isDigit then decimalValue (10 * acc + (c.toNat - '0'.toNat)) cs else none

/-- The index that a segment denotes, if it denotes one. -/
def index? (segment : String) : Option Nat :=
  let digits :=
    match segment.toList with
    | '+' :: cs => cs
    | cs => cs
  if digits = [] then none
  else (decimalValue 0 digits).filter (· < UInt64.size)

namespace Json

/-- The value one segment below a value, if any. -/
def child? (segment : String) : Json → Option Json
  | object fs => Fields.get? segment fs
  | array items => (index? segment).bind (items[·]?)
  | _ => none

/-- The value reached from a value along some segments, if any. -/
def follow (v : Json) : List String → Option Json
  | [] => some v
  | s :: rest => (v.child? s).bind (·.follow rest)

@[simp] theorem follow_nil (v : Json) : v.follow [] = some v := rfl

theorem follow_append (v : Json) (ss ts : List String) :
    v.follow (ss ++ ts) = (v.follow ss).bind (·.follow ts) := by
  induction ss generalizing v with
  | nil => simp
  | cons s ss ih =>
    cases h : v.child? s with
    | none => simp [follow, h]
    | some w => simp [follow, h, ih]

end Json

end Stencil
