import SqlComposer.ColumnType
import SqlComposer.Decimal.Shortest

/-!
# Values

What can stand where SQL expects a literal: data of the usual kinds, and two forms that are no
data, a reference to an identifier and a piece of SQL.
-/

namespace SqlComposer

/-- A day of the calendar. -/
structure Date where
  year : Int
  month : Nat
  day : Nat
deriving DecidableEq

/-- A time of day. -/
structure Clock where
  hour : Nat
  minute : Nat
  second : Nat
  nanosecond : Nat := 0
deriving DecidableEq

/-- A point in time; which part of it is written depends on the column. -/
inductive Temporal where
  | date (d : Date)
  | time (t : Clock)
  | datetime (d : Date) (t : Clock)
deriving DecidableEq

/-- A value in an SQL statement. -/
inductive Value where
  | null
  | bool (b : Bool)
  /-- A signed integer of 64 bits. -/
  | integer (n : Int)
  /-- An unsigned integer of 64 bits. -/
  | natural (n : Nat)
  | float (x : Float)
  | text (t : Text)
  | bytes (data : List UInt8)
  | temporal (t : Temporal)
  /-- A reference to an identifier, which is quoted. -/
  | identifier (name : Text)
  /-- A piece of SQL, which is written as it is. -/
  | expression (sql : Text)

/-! ### Deferred keys -/

/-- Stands in a follow-up query for the keys of the records it belongs to. -/
def deferredIdMarker : Text := "\x7b$__cakeID__$\x7d"

/-- Stands in a follow-up query for the foreign key of the record it belongs to. -/
def deferredForeignKeyMarker : Text := "\x7b$__cakeForeignKey__$\x7d"

/-- Whether a text is one of the markers, which are never quoted. -/
def isDeferredMarker (t : Text) : Bool :=
  t == deferredIdMarker || t == deferredForeignKeyMarker

/-! ### Numerals -/

/-- The text without a sign in front. -/
def unsignedPart (t : Text) : Text :=
  match t with
  | c :: cs => if c == '-' || c == '+' then cs else t
  | [] => []

/-- Whether a text is an optional sign and decimal digits without a leading zero. -/
def isIntegerLiteral (t : Text) : Bool :=
  match unsignedPart t with
  | [] => false
  | c :: cs => if c == '0' then cs.isEmpty else c.isDigit && Text.allDigits cs

/-- Whether a text is an integer literal with an optional fraction. -/
def isMantissa (t : Text) : Bool :=
  match Text.cutFirst (· == '.') t with
  | some (whole, fraction) =>
    isIntegerLiteral whole && !fraction.isEmpty && Text.allDigits fraction
  | none => isIntegerLiteral t

/-- Whether a text is an optional sign and decimal digits. -/
def isExponent (t : Text) : Bool :=
  let digits := unsignedPart t
  !digits.isEmpty && Text.allDigits digits

/-- Whether a text is an integer literal with an optional fraction and an optional exponent. -/
def isFloatLiteral (t : Text) : Bool :=
  match Text.cutFirst (fun c => c == 'e' || c == 'E') t with
  | some (mantissa, exponent) => isExponent exponent && isMantissa mantissa
  | none => isMantissa t

namespace Value

/-! ### Inspection -/

def isNull : Value → Bool
  | .null => true
  | _ => false

/-- The text of a text value. -/
def text? : Value → Option Text
  | .text t => some t
  | _ => none

/-- Whether a value counts as true: the empty text and `0` do not, all other texts do. -/
def truthy : Value → Bool
  | .null => false
  | .bool b => b
  | .integer n => n != 0
  | .natural n => n != 0
  | .float x => x != 0
  | .text t => !(t.isEmpty || t == ['0'])
  | .bytes data => !data.isEmpty
  | .temporal _ | .identifier _ | .expression _ => true

/-- The column type that a value suggests. -/
def inferredType : Value → ColumnType
  | .bool _ => .boolean
  | .float _ => .float
  | .integer _ | .natural _ => .integer
  | .bytes _ => .binary
  | .temporal (.date _) => .date
  | .temporal (.time _) => .time
  | .temporal (.datetime _ _) => .datetime
  | .text t => if 255 < t.length then .text else .string
  | .null | .identifier _ | .expression _ => .string

/-- Whether a value is a number with a fraction or an exponent, or a text that writes one. -/
def looksFloat : Value → Bool
  | .float _ => true
  | .text t => !isIntegerLiteral (Text.trim t) && isFloatLiteral (Text.trim t)
  | _ => false

/-- Whether a value is an integer, or a text that writes one. -/
def looksInteger : Value → Bool
  | .integer _ | .natural _ => true
  | .text t => isIntegerLiteral (Text.trim t)
  | _ => false

/-- The column type that a list of values suggests: floating as soon as one is, integer if all are
numbers, and text otherwise. -/
def inferredListType (vs : List Value) : ColumnType :=
  if vs.any looksFloat then .float
  else if !vs.isEmpty && vs.all fun v => v.looksInteger || v.looksFloat then .integer
  else .string

end Value

/-! ### Dates and times -/

/-- Year, month and day with hyphens; the year has at least four digits. -/
def Date.text (d : Date) : Text :=
  let year := Text.padded 4 d.year.natAbs
  let sign : Text := if d.year < 0 then ['-'] else []
  sign ++ year ++ "-" ++ Text.padded 2 d.month ++ "-" ++ Text.padded 2 d.day

/-- Hours, minutes and seconds with colons. -/
def Clock.text (t : Clock) : Text :=
  Text.padded 2 t.hour ++ ":" ++ Text.padded 2 t.minute ++ ":" ++ Text.padded 2 t.second

/-- The text of a point in time in a column: a date column takes the day of it, a time column the
time of day, any other column all there is. -/
def Temporal.text (t : Temporal) (column : ColumnType) : Text :=
  match t with
  | .date d => d.text
  | .time c => c.text
  | .datetime d c =>
    match column with
    | .date => d.text
    | .time => c.text
    | _ => d.text ++ " " ++ c.text

end SqlComposer
