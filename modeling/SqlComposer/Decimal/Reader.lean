import SqlComposer.Decimal.Shortest

/-!
# Reading the decimal text of a floating-point number

A decimal text stands for the double that is nearest to it. A text may also be read as a number of
single precision, which is then a double that happens to be exact in single precision.
-/

namespace SqlComposer.Decimal

/-- A decimal number: a sign, its digits as one natural number, and the power of ten they count. -/
structure Number where
  negative : Bool
  digits : Nat
  exponent : Int
deriving DecidableEq

/-- The sign of a number and the text after it. -/
def takeSign : Text → Bool × Text
  | '-' :: rest => (true, rest)
  | '+' :: rest => (false, rest)
  | t => (false, t)

/-- Reads the parts of a decimal text such as `-12.5e-3`. -/
def Number.ofText (t : Text) : Number :=
  let (negative, t) := takeSign t
  let (mantissa, exponent) := (Text.cutFirst (fun c => c == 'e' || c == 'E') t).getD (t, [])
  let (whole, fraction) := (Text.cutFirst (· == '.') mantissa).getD (mantissa, [])
  let (down, places) := takeSign exponent
  let shift : Int := if down then -(Text.toNat places : Int) else Text.toNat places
  { negative, digits := Text.toNat (whole ++ fraction), exponent := shift - fraction.length }

/-- A number that has no digits. -/
def special? (t : Text) : Option Float :=
  if t == "NaN" then some (0.0 / 0.0)
  else if t == "inf" then some (1.0 / 0.0)
  else if t == "-inf" then some (-1.0 / 0.0)
  else none

/-- The double nearest to a decimal text. -/
def read (t : Text) : Float :=
  (special? t).getD <|
    let n := Number.ofText t
    let x := Float.ofScientific n.digits (n.exponent < 0) n.exponent.natAbs
    if n.negative then -x else x

/-- The number of single precision nearest to a decimal text, as a double. -/
def readSingle (t : Text) : Float :=
  (special? t).getD <|
    let n := Number.ofText t
    let x := (Float32.ofScientific n.digits (n.exponent < 0) n.exponent.natAbs).toFloat
    if n.negative then -x else x

end SqlComposer.Decimal
