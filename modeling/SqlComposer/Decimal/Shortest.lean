import SqlComposer.Text.Basic

/-!
# Shortest decimal text of a floating-point number

The digits of a double are the fewest that still single it out among all doubles, and among those
the ones closest to it. They are found in exact natural-number arithmetic: a finite double is
`m · 2 ^ q`, the reals that round to it form an interval around it, and the first decimal grid with
a point in that interval gives the digits. They are written positionally, without an exponent.
-/

namespace SqlComposer.Decimal

/-- A power with a whole exponent below which it is 1, so that the rational power is
`pow b k / pow b (-k)`. -/
def pow (b : Nat) (k : Int) : Nat :=
  Nat.pow b k.toNat

/-- A positive rational interval around a value, all over one denominator. -/
structure Cell where
  low : Nat
  value : Nat
  high : Nat
  den : Nat
  /-- Whether the two ends belong to the interval. -/
  closed : Bool

/-- The reals that round to `m · 2 ^ q`; `narrow` says that the double below is only half as far
away as the one above. -/
def Cell.of (m : Nat) (q : Int) (narrow : Bool) : Cell :=
  let scale := pow 2 q
  { low := (4 * m - if narrow then 1 else 2) * scale
    value := 4 * m * scale
    high := (4 * m + 2) * scale
    den := 4 * pow 2 (-q)
    closed := m % 2 == 0 }

/-- Whether `d · 10 ^ k` lies in the interval. -/
def Cell.holds (c : Cell) (d : Nat) (k : Int) : Bool :=
  let x := d * pow 10 k * c.den
  let unit := pow 10 (-k)
  if c.closed then c.low * unit ≤ x && x ≤ c.high * unit
  else c.low * unit < x && x < c.high * unit

/-- The point of the grid of multiples of `10 ^ k` that is in the interval and next to the value,
if there is one; of two at the same distance, the larger. -/
def Cell.onGrid (c : Cell) (k : Int) : Option Nat :=
  let num := c.value * pow 10 (-k)
  let den := c.den * pow 10 k
  let d := num / den
  let up := c.holds (d + 1) k
  if c.holds d k then
    if up && den ≤ 2 * (num - d * den) then some (d + 1) else some d
  else if up then some (d + 1)
  else none

/-- The least `p` with the value below `10 ^ p`. Every positive double is above `10 ^ -340`. -/
def Cell.magnitude (c : Cell) : Int :=
  ((Text.ofNat (c.value * pow 10 340 / c.den)).length : Int) - 340

/-- The shortest digits `d` with their exponent `k`, standing for `d · 10 ^ k`. Seventeen digits
always suffice. -/
def Cell.shortest (c : Cell) : Nat × Int :=
  let p := c.magnitude
  ((List.range 17).findSome? fun i =>
    let k := p - (i + 1 : Nat)
    (c.onGrid k).map fun d => (d, k)).getD (0, 0)

/-- The digits of `d · 10 ^ k` in positional notation. -/
def positional (d : Nat) (k : Int) : Text :=
  let all := Text.ofNat d
  let kept := (all.reverse.dropWhile (· == '0')).reverse
  let point := (all.length : Int) + k
  if point ≤ 0 then "0." ++ List.replicate (-point).toNat '0' ++ kept
  else if (kept.length : Int) ≤ point then
    kept ++ List.replicate (point.toNat - kept.length) '0'
  else kept.take point.toNat ++ '.' :: kept.drop point.toNat

/-- The parts of a double: its sign bit, its biased exponent and its fraction. -/
def fields (x : Float) : Nat × Nat × Nat :=
  let bits := x.toBits.toNat
  (bits / pow 2 63, bits / pow 2 52 % pow 2 11, bits % pow 2 52)

/-- Whether a double is a number other than an infinity. -/
def isFinite (x : Float) : Bool :=
  (fields x).2.1 != 2047

/-- The text of a double. -/
def text (x : Float) : Text :=
  let (sign, exponent, fraction) := fields x
  let minus : Text := if sign == 1 then ['-'] else []
  if exponent == 2047 then
    if fraction == 0 then minus ++ "inf" else "NaN"
  else if exponent == 0 && fraction == 0 then minus ++ "0"
  else
    let cell :=
      if exponent == 0 then Cell.of fraction (-1074) false
      else Cell.of (fraction + pow 2 52) (exponent - 1075) (fraction == 0 && exponent != 1)
    let (d, k) := cell.shortest
    minus ++ positional d k

end SqlComposer.Decimal
