/-!
# JSON values

The data that templates are filled with. An object is a list of fields ordered
by their names, by code points, with no name twice; so it has one form only,
whatever the order in which its fields were written. The order is kept by the
operations on fields (`Json.Fields.insert`, `Json.Fields.merge`), which is all
that readers use to build objects.

A number remembers whether it was written as an integer: an integer of 64 bits
is kept exactly, any other number as a double-precision one.

* `get?_insert_self`, `get?_insert_of_ne`: what is found in fields after one
  was put.
-/

namespace Stencil

/-- A JSON number. -/
inductive Json.Number
  /-- An integer of at most 64 bits. -/
  | int (n : Int)
  /-- Any other finite number. -/
  | float (x : Float)

/-- A JSON value. -/
inductive Json
  /-- The null value. -/
  | null
  /-- A truth value. -/
  | bool (b : Bool)
  /-- A number. -/
  | number (n : Json.Number)
  /-- A text. -/
  | string (s : String)
  /-- A list of values. -/
  | array (items : List Json)
  /-- Named values. -/
  | object (fields : List (String × Json))

namespace Json

instance : Inhabited Json := ⟨null⟩

/-- The fields of an object, ordered by name. -/
abbrev Fields := List (String × Json)

/-- An integer as a value. -/
def ofNat (n : Nat) : Json := number (.int n)

/-- Whether a value is a natural number, and which. -/
def nat? : Json → Option Nat
  | number (.int n) => if 0 ≤ n then some n.toNat else none
  | _ => none

/-- Whether a value is a text, and which. -/
def string? : Json → Option String
  | string s => some s
  | _ => none

/-- Whether a value is an object, and its fields. -/
def fields? : Json → Option Fields
  | object fs => some fs
  | _ => none

namespace Fields

/-- The value of the field `k`, if any. -/
def get? (k : String) : Fields → Option Json
  | [] => none
  | (k', v) :: rest => if k' = k then some v else get? k rest

/-- The fields with `v` under `k`, at the place of `k` in the order of names. -/
def insert (k : String) (v : Json) : Fields → Fields
  | [] => [(k, v)]
  | (k', v') :: rest =>
    if k < k' then (k, v) :: (k', v') :: rest
    else if k' = k then (k, v) :: rest
    else (k', v') :: insert k v rest

/-- Whether there is a field `k`. -/
def contains (k : String) (fs : Fields) : Bool := (get? k fs).isSome

/-- The fields `lower` with those of `upper` put on top of them. -/
def merge (lower upper : Fields) : Fields := upper.foldl (fun fs f => insert f.1 f.2 fs) lower

/-- The fields of a list in any order, a later one winning over an earlier one
    of the same name. -/
def ofList (fs : List (String × Json)) : Fields := merge [] fs

@[simp] theorem get?_nil (k : String) : get? k [] = none := rfl

@[simp] theorem get?_insert_self (k : String) (v : Json) (fs : Fields) :
    get? k (insert k v fs) = some v := by
  induction fs with
  | nil => simp [insert, get?]
  | cons f fs ih =>
    rw [insert]
    split
    · simp [get?]
    · split
      · simp [get?]
      · next h => simp [get?, h, ih]

theorem get?_insert_of_ne {k k' : String} (h : k' ≠ k) (v : Json) (fs : Fields) :
    get? k' (insert k v fs) = get? k' fs := by
  induction fs with
  | nil => simp [insert, get?, Ne.symm h]
  | cons f fs ih =>
    rw [insert]
    split
    · simp [get?, Ne.symm h]
    · split
      · next hk => simp [get?, hk, Ne.symm h]
      · simp [get?, ih]

end Fields

end Json

end Stencil
