/-!
# Shortest decimals

The shortest decimal that reads back as a given double-precision number
(`Decimal.shortest`). A positive finite number is `m · 2^q`, and the reals that
round to it form an interval around it, reaching half-way to its neighbours; an
end of the interval belongs to it exactly when `m` is even, as halves go to the
even neighbour.

On the grid of the decimals with `k` significant digits, the only candidates
are the two points next to the number: if any point of the grid lies in the
interval, one of these two does. The grids are tried from `k = 1` on, and
seventeen digits always suffice. All comparisons are between natural numbers.

Numbers are then laid out with a point among their digits when it falls near
them, and with an exponent otherwise (`Decimal.layout`).
-/

namespace Stencil

/-- The decimal `digits · 10^exponent`. -/
structure Decimal where
  /-- The significant digits, as a number. -/
  digits : Nat
  /-- The power of ten. -/
  exponent : Int

namespace Decimal

/-- A binary number `mantissa · 2^exponent`, with the quarters of a unit by
    which the interval of the reals rounding to it reaches down: two, or one
    when the neighbour below is only half as far as the one above. -/
structure Binary where
  /-- The mantissa `m`. -/
  mantissa : Nat
  /-- The exponent `q`. -/
  exponent : Int
  /-- How far the interval reaches down, in quarters of a unit. -/
  below : Nat

/-- The magnitude of the double-precision number with the given bits, which is
    assumed finite. -/
def Binary.ofBits (bits : UInt64) : Binary :=
  let fraction : Nat := bits.toNat % Nat.pow 2 52
  let exponent : Nat := bits.toNat / Nat.pow 2 52 % Nat.pow 2 11
  if exponent = 0 then ⟨fraction, -1074, 2⟩
  else
    let below := if fraction = 0 ∧ 1 < exponent then 1 else 2
    ⟨Nat.pow 2 52 + fraction, (exponent : Int) - 1075, below⟩

/-- The fraction `num / den · 10^e` as a quotient of natural numbers. -/
def scaled (num den : Nat) (e : Int) : Nat × Nat :=
  if 0 ≤ e then (num * Nat.pow 10 e.toNat, den) else (num, den * Nat.pow 10 (-e).toNat)

/-- The fraction `n / 4 · 2^q` as a quotient of natural numbers. -/
def quarters (n : Nat) (q : Int) : Nat × Nat :=
  if 2 ≤ q then (n * Nat.pow 2 (q - 2).toNat, 1) else (n, Nat.pow 2 (2 - q).toNat)

/-- The decimal order of a positive fraction: the `e` with
    `10^e ≤ num / den < 10^(e+1)`. -/
def order (num den : Nat) : Int :=
  if den ≤ num then ((Nat.toDigits 10 (num / den)).length : Int) - 1
  else
    -- `⌈den / num⌉` lies above `10^(-e-1)` and not above `10^(-e)`.
    -((Nat.toDigits 10 ((den + num - 1) / num - 1)).length : Int)

/-- Whether the point `d · 10^e` lies in the interval of `b`. -/
def Binary.admits (b : Binary) (d : Nat) (e : Int) : Bool :=
  let (p, r) := scaled d 1 e
  let (lo, s) := quarters (4 * b.mantissa - b.below) b.exponent
  let (hi, _) := quarters (4 * b.mantissa + 2) b.exponent
  if b.mantissa % 2 = 0 then decide (lo * r ≤ p * s) && decide (p * s ≤ hi * r)
  else decide (lo * r < p * s) && decide (p * s < hi * r)

/-- The point next to `b` on the grid of step `10^e` that lies in the interval
    of `b`, if any: of two the nearer one, of two equally near ones the even
    one. -/
def Binary.nearest? (b : Binary) (e : Int) : Option Nat :=
  let (n, s) := quarters (4 * b.mantissa) b.exponent
  let (num, den) := scaled n s (-e)
  let d := num / den
  match b.admits d e, b.admits (d + 1) e with
  | true, false => some d
  | false, true => some (d + 1)
  | false, false => none
  | true, true =>
    let twice := 2 * (num % den)
    if twice < den then some d
    else if den < twice then some (d + 1)
    else some (if d % 2 = 0 then d else d + 1)

/-- The decimal without the zeros at the end of its digits, at most `fuel` of
    them. -/
def strip : Nat → Decimal → Decimal
  | 0, d => d
  | fuel + 1, d =>
    if d.digits ≠ 0 ∧ d.digits % 10 = 0 then strip fuel ⟨d.digits / 10, d.exponent + 1⟩
    else d

/-- The first grid with a hit, from `k` digits on, `tries` grids at most. -/
def Binary.search (b : Binary) (order : Int) (k : Nat) : Nat → Decimal
  | 0 => ⟨0, 0⟩
  | tries + 1 =>
    match b.nearest? (order - k + 1) with
    | some d => strip 20 ⟨d, order - k + 1⟩
    | none => b.search order (k + 1) tries

/-- The shortest decimal that reads back as the magnitude of the number with
    the given bits, which is assumed finite. -/
def shortest (bits : UInt64) : Decimal :=
  let b := Binary.ofBits bits
  if b.mantissa = 0 then ⟨0, 0⟩
  else
    let (num, den) := quarters (4 * b.mantissa) b.exponent
    b.search (order num den) 1 17

/-- The decimal as text: with a point, and at least one digit on both sides of
    it, when the point falls at most sixteen places after the first digit or
    five before it; in scientific notation, with a sign after the letter,
    otherwise. -/
def layout (d : Decimal) : List Char :=
  let ds := Nat.toDigits 10 d.digits
  let n := ds.length
  let point : Int := n + d.exponent
  if d.digits = 0 then ['0', '.', '0']
  else if 0 < point ∧ point ≤ 16 then
    let k := point.toNat
    if n ≤ k then ds ++ List.replicate (k - n) '0' ++ ['.', '0']
    else ds.take k ++ '.' :: ds.drop k
  else if -5 < point ∧ point ≤ 0 then
    '0' :: '.' :: (List.replicate (-point).toNat '0' ++ ds)
  else
    let e := point - 1
    let fraction := if n = 1 then [] else '.' :: ds.drop 1
    ds.take 1 ++ fraction ++ 'e' :: (if e < 0 then '-' else '+') :: Nat.toDigits 10 e.natAbs

/-- A finite number as text. -/
def ofFloat (x : Float) : List Char :=
  let text := layout (shortest x.toBits)
  if x.toBits.toNat / Nat.pow 2 63 = 1 then '-' :: text else text

end Decimal

end Stencil
