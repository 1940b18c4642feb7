import SqlComposer.Schema.Table

/-!
# Tables from a catalog

A database describes its tables in rows, one for each column and one for each column of an index.
Here such rows become the definition of a table, with logical types in place of native ones.
-/

namespace SqlComposer

open CharClass

/-- A logical type with what a native type says besides. -/
structure ParsedType where
  type : ColumnType
  length : Option Text
  unsigned : Bool
deriving DecidableEq

namespace ParsedType

/-- The word that a native type starts with, and what stands between its parentheses, both in lower
case. -/
def parts (native : Text) : Text × Option Text :=
  let lower := Text.asciiLower native
  match Text.cutFirst (· == '(') lower with
  | some (base, rest) =>
    (Text.trim base, (Text.cutLast (· == ')') rest).map fun r => Text.trim r.1)
  | none => ((Text.words lower).head?.getD [], none)

/-- The types of points in time, which lose their precision. -/
def temporalType? (base : Text) : Option ColumnType :=
  [ColumnType.date, .time, .datetime, .timestamp].find? fun ty => ty.name == base

/-- The logical type and the length of a native type. The first rule that fits decides; what fits
none is text. -/
def resolve (base : Text) (length : Option Text) (declaration : Text) :
    ColumnType × Option Text :=
  let has (part : Text) := Text.has part base
  match temporalType? base with
  | some ty => (ty, none)
  | none =>
    if base == "boolean" || base == "bool" then (.boolean, none)
    else if base == "tinyint" && length == some ['1'] then (.boolean, none)
    else if has "bigint" then (.bigInteger, length)
    else if has "tinyint" then (.tinyInteger, length)
    else if has "smallint" then (.smallInteger, length)
    else if has "int" then (.integer, length)
    else if has "char" || base == "tinytext" then (.string, length)
    else if has "text" then (.text, none)
    else if has "blob" || base == "binary" || base == "varbinary" then (.binary, none)
    else if has "float" || has "double" then (.float, length)
    else if has "decimal" || has "numeric" then (.decimal, length)
    else if base == "enum" then (.enum declaration, none)
    else if base == "set" then (.set declaration, none)
    else (.text, none)

/-- Reads a native type such as `int(11) unsigned`. -/
def ofNative (native : Text) : ParsedType :=
  let native := Text.trim native
  let (base, length) := parts native
  let (type, length) := resolve base length (Text.unwords (Text.words native))
  { type, length, unsigned := Text.has "unsigned" (Text.asciiLower native) }

end ParsedType

/-- A row that describes a column. -/
structure ColumnRow where
  field : Text
  nativeType : Text
  /-- `YES` if the column may be NULL. -/
  nullable : Text
  /-- `PRI`, `UNI`, `MUL` or nothing. -/
  key : Text
  default : Option Text := none
  collation : Option Text := none
  comment : Option Text := none

namespace ColumnRow

/-- The part that a column plays in keys. -/
def keyRole (r : ColumnRow) : Option KeyRole :=
  let key := Text.asciiUpper r.key
  if key == "PRI" then some .primary
  else if key == "UNI" then some .unique
  else if key == "MUL" then some .index
  else none

/-- The column that a row describes. The name of its collation starts with its character set. -/
def toColumn (r : ColumnRow) : Column :=
  let parsed := ParsedType.ofNative r.nativeType
  let collate := r.collation.filter fun c => !c.isEmpty
  { type := parsed.type
    length := parsed.length
    nullable := Text.sameLetters r.nullable "YES"
    default := r.default
    key := r.keyRole
    unsigned := parsed.unsigned
    charset := (collate.bind (Text.cutFirst (· == '_'))).map Prod.fst
    collate
    comment := r.comment.filter fun c => !c.isEmpty }

end ColumnRow

/-- A row that describes a column of an index. -/
structure IndexRow where
  index : Text
  column : Text
  nonUnique : Bool := false
  kind : Text := []
  /-- How much of the column is indexed, where that is not all. -/
  length : Option Nat := none
  /-- The place of the column in the index. -/
  place : Nat := 0
deriving DecidableEq

namespace IndexRow

/-- The kind of index that a row names. -/
def indexKind (r : IndexRow) : Option IndexKind :=
  let kind := Text.asciiUpper r.kind
  if kind == "FULLTEXT" then some .fulltext
  else if kind == "SPATIAL" then some .spatial
  else none

/-- The index that rows describe, its columns in the order of their places; the first row decides on
the kind. -/
def toIndex (rows : List IndexRow) : Index :=
  let rows := rows.mergeSort fun a b => a.place ≤ b.place
  { columns := rows.map IndexRow.column
    unique := rows.head?.any fun r => !r.nonUnique
    kind := rows.head?.bind indexKind
    lengths := OrderedMap.ofList (rows.filterMap fun r => r.length.map fun n => (r.column, n)) }

/-- The indexes that rows describe, in the order in which they are first mentioned. -/
def toIndexes (rows : List IndexRow) : OrderedMap Text Index :=
  OrderedMap.ofList <| (rows.map IndexRow.index).eraseDups.map fun name =>
    (name, toIndex (rows.filter fun r => r.index = name))

end IndexRow

/-- The table that rows describe, if it is valid. -/
def Table.ofRows (name : Text) (columns : List ColumnRow) (indexes : List IndexRow) :
    Except SchemaError Table := do
  let table : Table :=
    { name
      columns := OrderedMap.ofList (columns.map fun r => (r.field, r.toColumn))
      indexes := IndexRow.toIndexes indexes }
  table.validate
  pure table

end SqlComposer
