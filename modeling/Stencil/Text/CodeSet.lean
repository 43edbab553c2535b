/-!
# Sets of characters

A property of Unicode is a set of code points made of long runs. It is written
down by its *turns*: the increasing code points at which membership changes,
starting from outside. A code point belongs to the set when it has passed an
odd number of turns (`CodeSet.contains`).
-/

namespace Stencil.Text

/-- A set of code points, given by the points at which membership changes. -/
structure CodeSet where
  /-- The turns, increasing: in at the first, out at the second, and so on. -/
  turns : List Nat

namespace CodeSet

/-- Whether an odd number of the increasing `turns` has been passed at `n`,
    `inside` telling whether an odd number was passed before them. -/
def passed (n : Nat) (inside : Bool) : List Nat → Bool
  | [] => inside
  | t :: rest => if n < t then inside else passed n (!inside) rest

/-- Whether a character belongs to the set. -/
def contains (s : CodeSet) (c : Char) : Bool := passed c.toNat false s.turns

end CodeSet

end Stencil.Text
