import SqlComposer.Dialect
import SqlComposer.OrderedMap
import SqlComposer.Schema.Column

/-!
# Tables

A table has columns, indexes and parameters; a schema is a row of tables. The primary key can be
declared in two ways, by marks on columns and by an index with a reserved name;
`Table.effectiveIndexes` brings them together, and `Table.validate` refuses tables in which they
disagree.
-/

namespace SqlComposer

/-- The name of the index that is the primary key. -/
def primaryName : Text := "PRIMARY"

/-- Indexes of a special kind. -/
inductive IndexKind where
  | fulltext
  | spatial
deriving DecidableEq

/-- An index. -/
structure Index where
  columns : List Text
  unique : Bool := false
  kind : Option IndexKind := none
  /-- How much of a column is indexed, where that is not all. -/
  lengths : OrderedMap Text Nat := ∅
deriving DecidableEq

/-- Whether two indexes are the same, up to the order in which lengths are given. -/
def Index.agrees (a b : Index) : Bool :=
  a.columns = b.columns && a.unique = b.unique && a.kind = b.kind && a.lengths.agrees b.lengths

/-- Parameters of a whole table. -/
structure TableParameters where
  charset : Option Text := none
  collate : Option Text := none
  engine : Option Text := none
  comment : Option Text := none
deriving DecidableEq

/-- Whether no parameter is set. -/
def TableParameters.isEmpty (p : TableParameters) : Bool :=
  p = {}

/-- A table. -/
structure Table where
  name : Text
  columns : OrderedMap Text Column := ∅
  indexes : OrderedMap Text Index := ∅
  parameters : TableParameters := {}
deriving DecidableEq

/-- The tables of a database, by their names. -/
structure Schema where
  tables : OrderedMap Text Table := ∅
deriving DecidableEq

/-! ### Errors -/

/-- A change that a dialect has no statement for. -/
inductive UnsupportedChange where
  | column
  | primaryKey
deriving DecidableEq

def UnsupportedChange.operation : UnsupportedChange → Text
  | .column => "change a column"
  | .primaryKey => "alter the primary key"

/-- What is wrong with a schema, or with a change to it. -/
inductive SchemaError where
  | emptyTableName
  | emptyColumnName (table : Text)
  | noColumns (table : Text)
  | unknownIndexColumn (table index column : Text)
  | conflictingPrimaryKey (table : Text)
  | unknownTable (table : Text)
  | unsupported (dialect : Dialect) (change : UnsupportedChange) (table : Text)
  /-- A text that describes no schema. -/
  | malformed
deriving DecidableEq

def SchemaError.message : SchemaError → Text
  | .emptyTableName => "table name must not be empty"
  | .emptyColumnName table => "table " ++ Text.ticked table ++ " has a column with an empty name"
  | .noColumns table => "table " ++ Text.ticked table ++ " has no columns"
  | .unknownIndexColumn table index column =>
    "index " ++ Text.ticked index ++ " on table " ++ Text.ticked table ++
      " references unknown column " ++ Text.ticked column
  | .conflictingPrimaryKey table =>
    "table " ++ Text.ticked table ++
      " declares both a PRIMARY index and primary-flagged columns that disagree"
  | .unknownTable table => "unknown table " ++ Text.ticked table
  | .unsupported dialect change table =>
    dialect.name ++ " cannot " ++ change.operation ++ " on table " ++ Text.ticked table
  | .malformed => "malformed schema"

namespace Table

/-! ### Primary key -/

/-- The columns that are marked as primary, in order. -/
def primaryColumns (t : Table) : List Text :=
  (t.columns.filter fun _ c => c.isPrimary).keys

/-- The indexes that are in force: those declared, the primary one always unique, and before them a
primary one from the marked columns if none is declared. -/
def effectiveIndexes (t : Table) : OrderedMap Text Index :=
  let declared := t.indexes.mapValues fun name index =>
    if name = primaryName then { index with unique := true } else index
  if t.indexes.contains primaryName || t.primaryColumns.isEmpty then declared
  else declared.insertAt 0 primaryName { columns := t.primaryColumns, unique := true }

/-! ### Validity -/

/-- The first column of an index that the table does not have. -/
def missingColumn (t : Table) (index : Index) : Option Text :=
  index.columns.find? fun c => !t.columns.contains c

/-- The first index with a column that the table does not have, and that column. -/
def danglingIndex (t : Table) : Option (Text × Text) :=
  t.indexes.entries.findSome? fun e => (t.missingColumn e.2).map fun c => (e.1, c)

/-- Whether columns are marked as primary and a primary index is declared with other ones. -/
def primaryConflict (t : Table) : Bool :=
  match t.indexes.get? primaryName with
  | some index => !t.primaryColumns.isEmpty && t.primaryColumns != index.columns
  | none => false

/-- Accepts tables that can be created. -/
def validate (t : Table) : Except SchemaError Unit :=
  if Text.blank t.name then .error .emptyTableName
  else if t.columns.isEmpty then .error (.noColumns t.name)
  else if t.columns.keys.any Text.blank then .error (.emptyColumnName t.name)
  else
    match t.danglingIndex with
    | some (index, column) => .error (.unknownIndexColumn t.name index column)
    | none =>
      if t.primaryConflict then .error (.conflictingPrimaryKey t.name) else .ok ()

end Table

namespace Schema

/-- The schema of a list of tables. -/
def ofTables (ts : List Table) : Schema :=
  ⟨OrderedMap.ofList (ts.map fun t => (t.name, t))⟩

/-- Accepts schemas of tables that can be created, and otherwise refuses the first that cannot. -/
def validate (s : Schema) : Except SchemaError Unit :=
  s.tables.values.forM Table.validate

end Schema

end SqlComposer
