import SqlComposer.Source
import SqlComposer.Text.Utf8

/-!
# Literals

How a value is written in a column of a given type: numbers bare where the column holds numbers,
truth values as `'1'` and `'0'` where it holds them, binary data in the notation of the dialect, and
everything else as a string.
-/

namespace SqlComposer

namespace Source

/-- A truth value in a boolean column. -/
def truthLiteral (b : Bool) : Text :=
  if b then "'1'" else "'0'"

/-- A truth value: a number in an integer column, and in others a string, empty for false. -/
def boolLiteral (s : Source) (ty : ColumnType) (b : Bool) : Text :=
  if ty = .boolean then truthLiteral b
  else if ty.isInteger then (if b then "1" else "0")
  else s.quoteString (if b then "1" else "")

/-- A number with its digits; `bare` says whether they may stand without quotes. -/
def numberLiteral (s : Source) (ty : ColumnType) (truth bare : Bool) (digits : Text) : Text :=
  if ty = .boolean then truthLiteral truth
  else if ty.isNumeric && bare then digits
  else s.quoteString digits

/-- A text: bare if it is a marker, or a number in a column of numbers; an empty text is NULL in
columns that hold numbers or times. -/
def textLiteral (s : Source) (ty : ColumnType) (t : Text) : Text :=
  if isDeferredMarker t then t
  else if ty = .boolean then truthLiteral (Value.text t).truthy
  else if t.isEmpty && (ty.isNumeric || ty.isTemporal) then "NULL"
  else if ty.isInteger && isIntegerLiteral t then t
  else if ty.isFloat && isFloatLiteral t then t
  else s.quoteString t

/-- The hexadecimal digits of a byte, in upper case. -/
def hexByte (b : UInt8) : Text :=
  [(Nat.digitChar (b.toNat / 16)).toUpper, (Nat.digitChar (b.toNat % 16)).toUpper]

/-- Binary data in the notation of the dialect. No data at all is NULL. -/
def binaryLiteral (d : Dialect) (data : List UInt8) : Text :=
  let hex := data.flatMap hexByte
  if data.isEmpty then "NULL"
  else
    match d with
    | .mySql | .sqlite => "X'" ++ hex ++ "'"
    | .postgreSql => "'\\x" ++ hex ++ "'::bytea"
    | .sqlServer => "0x" ++ hex

/-- Binary data; outside binary columns the text that it encodes. -/
def bytesLiteral (s : Source) (ty : ColumnType) (data : List UInt8) : Text :=
  if ty = .boolean then truthLiteral (!data.isEmpty)
  else if ty = .binary then binaryLiteral s.dialect data
  else s.quoteString (Utf8.decode data)

/-- A point in time, of which a date or time column takes its part. -/
def temporalLiteral (ty : ColumnType) (t : Temporal) : Text :=
  if ty = .boolean then truthLiteral true
  else '\'' :: t.text ty ++ ['\'']

/-- A value as it is written in a column, or by its own type if no column is given. -/
def value (s : Source) (v : Value) (column : Option ColumnType) : Render Text :=
  let ty := column.getD v.inferredType
  match v with
  | .null => pure "NULL"
  | .identifier name => Render.ask name
  | .expression sql => pure sql
  | .bool b => pure (s.boolLiteral ty b)
  | .integer n => pure (s.numberLiteral ty v.truthy true (Text.ofInt n))
  | .natural n => pure (s.numberLiteral ty v.truthy true (Text.ofNat n))
  | .float x => pure (s.numberLiteral ty v.truthy (Decimal.isFinite x) (Decimal.text x))
  | .text t => pure (s.textLiteral ty t)
  | .bytes data => pure (s.bytesLiteral ty data)
  | .temporal t => pure (temporalLiteral ty t)

/-- The values of a list, all by the type of the column or by the one type that they suggest. -/
def values (s : Source) (vs : List Value) (column : Option ColumnType) : Render (List Text) :=
  let ty := column.getD (Value.inferredListType vs)
  Render.each (fun v => s.value v (some ty)) vs

end Source

end SqlComposer
