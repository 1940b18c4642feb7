import SqlComposer.Text.Basic
import SqlComposer.Text.Quoted

/-!
# Column types

The logical type of a column, which no dialect owns: it decides how a value is written and which
native type a dialect declares. A set or an enumeration is known by its whole declaration.
-/

namespace SqlComposer

/-- The logical type of a column. -/
inductive ColumnType where
  | integer
  | bigInteger
  | smallInteger
  | tinyInteger
  | float
  | decimal
  | boolean
  | string
  | text
  | uuid
  | date
  | datetime
  | timestamp
  | time
  | binary
  | set (declaration : Text)
  | enum (declaration : Text)
deriving DecidableEq

/-- A text that names no column type. -/
structure UnknownColumnType where
  text : Text
deriving DecidableEq

/-- A text between backticks, as error messages show it. -/
def Text.ticked (t : Text) : Text :=
  '\x60' :: t ++ ['\x60']

def UnknownColumnType.message (e : UnknownColumnType) : Text :=
  "unknown column type " ++ Text.ticked e.text

namespace ColumnType

def isInteger : ColumnType → Bool
  | .integer | .bigInteger | .smallInteger | .tinyInteger => true
  | _ => false

def isFloat : ColumnType → Bool
  | .float | .decimal => true
  | _ => false

def isNumeric (ty : ColumnType) : Bool :=
  ty.isInteger || ty.isFloat

def isTemporal : ColumnType → Bool
  | .date | .datetime | .timestamp | .time => true
  | _ => false

/-- The name of a type; for a set or an enumeration its declaration. -/
def name : ColumnType → Text
  | .integer => "integer"
  | .bigInteger => "biginteger"
  | .smallInteger => "smallinteger"
  | .tinyInteger => "tinyinteger"
  | .float => "float"
  | .decimal => "decimal"
  | .boolean => "boolean"
  | .string => "string"
  | .text => "text"
  | .uuid => "uuid"
  | .date => "date"
  | .datetime => "datetime"
  | .timestamp => "timestamp"
  | .time => "time"
  | .binary => "binary"
  | .set declaration => declaration
  | .enum declaration => declaration

/-- A type as logs show it: a set and an enumeration are told from every other type, with the
declaration between double quotes. -/
def shown : ColumnType → Text
  | .integer => "Integer"
  | .bigInteger => "BigInteger"
  | .smallInteger => "SmallInteger"
  | .tinyInteger => "TinyInteger"
  | .float => "Float"
  | .decimal => "Decimal"
  | .boolean => "Boolean"
  | .string => "String"
  | .text => "Text"
  | .uuid => "Uuid"
  | .date => "Date"
  | .datetime => "Datetime"
  | .timestamp => "Timestamp"
  | .time => "Time"
  | .binary => "Binary"
  | .set declaration => "Set(" ++ Text.shown declaration ++ ")"
  | .enum declaration => "Enum(" ++ Text.shown declaration ++ ")"

/-- The types that a single word names. -/
def simple : List ColumnType :=
  [.integer, .bigInteger, .smallInteger, .tinyInteger, .float, .decimal, .boolean, .string, .text,
   .uuid, .date, .datetime, .timestamp, .time, .binary]

/-- Reads a type by its name in any letter case, with blanks around it or not. -/
def parse (s : Text) : Except UnknownColumnType ColumnType :=
  let s := Text.trim s
  let lower := Text.asciiLower s
  match simple.find? (fun ty => ty.name == lower) with
  | some ty => .ok ty
  | none =>
    if lower == "int" then .ok .integer
    else if List.isPrefixOf "set(" lower && List.isSuffixOf ")" lower then .ok (.set s)
    else if List.isPrefixOf "enum(" lower && List.isSuffixOf ")" lower then .ok (.enum s)
    else .error ⟨s⟩

end ColumnType

end SqlComposer
