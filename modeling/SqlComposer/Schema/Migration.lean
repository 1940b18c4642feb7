import SqlComposer.Literal
import SqlComposer.Schema.Diff
import SqlComposer.Statement.Query

/-!
# Statements that change the schema

CREATE TABLE and DROP TABLE for whole schemas, and ALTER TABLE for the difference of two, each in
the form that the dialect has for it.
-/

namespace SqlComposer

/-- A composition that may fail. -/
abbrev Migration := ExceptT SchemaError Render

/-- An outcome that asks nothing. -/
def Migration.of {α : Type} (x : Except SchemaError α) : Migration α :=
  ExceptT.mk (pure x)

/-- Indexes as they are written: items of a table definition, and statements of their own. -/
structure IndexSql where
  items : List Text := []
  statements : List Text := []

/-! ### Automatic keys -/

/-- Whether a column of this type can count itself up. -/
def countsUp (ty : ColumnType) : Bool :=
  ty = .integer || ty = .bigInteger

/-- Whether a column taken by itself is a primary key that counts itself up. -/
def Column.isIntegerPrimary (c : Column) : Bool :=
  c.isPrimary && countsUp c.type

/-- The column that counts itself up: the only one of the primary key, if its type allows. -/
def autoIncrement (primary : Option Index) (lookup : Text → Option Column) : Option Text :=
  match primary.map Index.columns with
  | some [name] =>
    match lookup name with
    | some column => if countsUp column.type then some name else none
    | none => none
  | _ => none

namespace Source

/-! ### Columns -/

/-- Whether the declared length of a column is written. -/
def writesLength (d : Dialect) (ty : ColumnType) : Bool :=
  d = .mySql || ty = .string || ty = .decimal || ty = .float

/-- The type of a column with its length. -/
def columnTypeSql (s : Source) (c : Column) : Text :=
  match s.dialect.nativeType c.type with
  | none => c.type.name
  | some native =>
    let length := (if writesLength s.dialect c.type then c.length else none).or native.length
    let sized :=
      match length with
      | some n => native.name ++ "(" ++ n ++ ")"
      | none => native.name
    if s.dialect = .mySql && c.unsigned && c.type.isNumeric then sized ++ " unsigned" else sized

/-- The default of a column. The current time is no string. -/
def defaultLiteral (s : Source) (c : Column) (default : Text) : Text :=
  let hasTime : Bool := c.type = .timestamp || c.type = .datetime
  if hasTime && Text.sameLetters default "CURRENT_TIMESTAMP" then "CURRENT_TIMESTAMP"
  else s.textLiteral c.type default

/-- A column that counts itself up, behind its name. -/
def autoIncrementSql (s : Source) (c : Column) : Text :=
  let native : Text :=
    match s.dialect with
    | .postgreSql => if c.type = .bigInteger then "bigserial" else "serial"
    | .sqlite => "integer"
    | .mySql | .sqlServer => s.columnTypeSql c
  native ++ " " ++ s.dialect.primaryKeySuffix

/-- The default of a column and whether it may be NULL. An empty default of a number is none. -/
def nullabilitySql (s : Source) (c : Column) : Text :=
  if c.isPrimary then " NOT NULL"
  else
    match c.default.filter fun d => !(d.isEmpty && c.type.isNumeric) with
    | some default =>
      let rest : Text := if c.nullable then [] else " NOT NULL"
      " DEFAULT " ++ s.defaultLiteral c default ++ rest
    | none =>
      if !c.nullable then " NOT NULL"
      else if c.type = .timestamp then " NULL"
      else " DEFAULT NULL"

/-- A part of a definition that only some dialects have, if it is there. -/
def optionalPart (present : Bool) (head : Text) (t : Option Text) : Text :=
  match t with
  | some t => if present then head ++ t else []
  | none => []

/-- A column behind its name. -/
def plainColumnSql (s : Source) (c : Column) : Text :=
  let mySql := s.dialect = .mySql
  s.columnTypeSql c ++ optionalPart mySql " CHARACTER SET " c.charset ++
    optionalPart mySql " COLLATE " c.collate ++ s.nullabilitySql c ++
    optionalPart mySql " COMMENT " (c.comment.map s.quoteString)

/-- The definition of a column. -/
def columnSql (s : Source) (name : Text) (c : Column) (auto : Bool) : Render Text := do
  let quoted ← Render.ask name
  pure (quoted ++ " " ++ (if auto then s.autoIncrementSql c else s.plainColumnSql c))

/-- The definition of a column taken by itself. -/
def buildColumn (s : Source) (name : Text) (c : Column) : Render Text :=
  s.columnSql name c c.isIntegerPrimary

/-! ### Indexes and parameters -/

/-- A column of an index, under MySQL with its indexed length. -/
def indexColumn (s : Source) (index : Index) (column : Text) : Render Text := do
  let quoted ← Render.ask column
  match index.lengths.get? column with
  | some n => pure (if s.dialect = .mySql then quoted ++ "(" ++ Text.ofNat n ++ ")" else quoted)
  | none => pure quoted

/-- What stands in front of KEY in the declaration of an index. -/
def indexKindSql (index : Index) : Text :=
  (if index.unique then "UNIQUE " else [] : Text) ++
    match index.kind with
    | some .fulltext => "FULLTEXT "
    | some .spatial => "SPATIAL "
    | none => []

/-- An index on a table: an item of the definition for the primary key and under MySQL, otherwise a
statement. -/
def indexSql (s : Source) (table : Text) (e : Text × Index) : Render IndexSql := do
  let columns ← Render.each (s.indexColumn e.2) e.2.columns
  let list := "(" ++ Text.join ", " columns ++ ")"
  if e.1 = primaryName then pure { items := ["PRIMARY KEY " ++ list] }
  else do
    let name ← Render.ask e.1
    if s.dialect.hasInlineIndexes then
      pure { items := [indexKindSql e.2 ++ "KEY " ++ name ++ " " ++ list] }
    else
      let unique : Text := if e.2.unique then "UNIQUE " else []
      pure
        { statements :=
            ["CREATE " ++ unique ++ "INDEX " ++ name ++ " ON " ++ table ++ " " ++ list ++ ";"] }

/-- The indexes of a table. -/
def buildIndexes (s : Source) (table : Text) (indexes : OrderedMap Text Index) :
    Render IndexSql := do
  let table ← s.tableName table none none
  let written ← Render.each (s.indexSql table) indexes.entries
  pure ⟨written.flatMap IndexSql.items, written.flatMap IndexSql.statements⟩

/-- The parameters of a table, which only MySQL has. -/
def tableParameters (s : Source) (p : TableParameters) : List Text :=
  if s.dialect = .mySql then
    (p.charset.map ("DEFAULT CHARSET=".toList ++ ·)).toList ++
      (p.collate.map ("COLLATE=".toList ++ ·)).toList ++
      (p.engine.map ("ENGINE=".toList ++ ·)).toList ++
      (p.comment.map fun c => "COMMENT=" ++ s.quoteString c).toList
  else []

/-! ### Whole tables -/

/-- The definition of a table that is valid. Under SQLite a column that counts itself up is declared
as the primary key itself. -/
def tableDefinition (s : Source) (t : Table) : Render Text := do
  let indexes := t.effectiveIndexes
  let auto := autoIncrement (indexes.get? primaryName) t.columns.get?
  let columns ← Render.each (fun e => s.columnSql e.1 e.2 (auto = some e.1)) t.columns.entries
  let written ← s.buildIndexes t.name <|
    if s.dialect = .sqlite && auto.isSome then indexes.erase primaryName else indexes
  let table ← s.tableName t.name none none
  let definition := StatementKind.render .schema
    { table, columns, indexes := written.items, tableParameters := s.tableParameters t.parameters }
  pure (Text.join "\n" (definition :: written.statements))

/-- Creates a table. -/
def createTable (s : Source) (t : Table) : Migration Text := do
  Migration.of t.validate
  s.tableDefinition t

/-- Drops a table. -/
def dropTable (s : Source) (name : Text) : Render Text := do
  let table ← s.tableName name none none
  pure <|
    if s.dialect = .sqlServer then "DROP TABLE " ++ table ++ ";"
    else "DROP TABLE IF EXISTS " ++ table ++ ";"

/-- The tables of a schema, or the one of them that is named. -/
def selectTables (schema : Schema) (table : Option Text) : Except SchemaError (List Table) :=
  match table with
  | none => .ok schema.tables.values
  | some name =>
    match schema.tables.get? name with
    | some t => .ok [t]
    | none => .error (.unknownTable name)

/-- The results of a row of steps, up to the first that fails. -/
def eachTable {α β : Type} (f : α → Migration β) : List α → Migration (List β)
  | [] => pure []
  | a :: as => do
    let b ← f a
    let bs ← eachTable f as
    pure (b :: bs)

/-- Creates the tables of a schema, or one of them. -/
def createSchema (s : Source) (schema : Schema) (table : Option Text) : Migration Text := do
  let tables ← Migration.of (selectTables schema table)
  let statements ← eachTable s.createTable tables
  pure (Text.join "\n\n" statements)

/-- Drops the tables of a schema, or one of them. -/
def dropSchema (s : Source) (schema : Schema) (table : Option Text) : Migration Text := do
  let tables ← Migration.of (selectTables schema table)
  let statements ← Render.each s.dropTable (tables.map Table.name)
  pure (Text.join "\n" statements)

/-! ### Altering a table -/

/-- The definition of a column that is added or changed. If the primary key changes, the new one
decides whether the column counts itself up. -/
def diffColumnSql (s : Source) (d : TableDiff) (name : Text) (c : Column) : Render Text :=
  let auto :=
    match d.addIndexes.get? primaryName with
    | some primary => autoIncrement (some primary) (fun _ => some c) = some name
    | none => c.isIntegerPrimary
  s.columnSql name c auto

/-- A keyword and the quoted name that it applies to. -/
def withName (head : Text) (name : Text) : Render Text := do
  let quoted ← Render.ask name
  pure (head ++ quoted)

/-- An ALTER TABLE statement with an item on each line, none without items. -/
def alterStatement (table : Text) (items : List Text) : Text :=
  "ALTER TABLE " ++ table ++ "\n\t" ++ Text.join ",\n\t" items ++ ";"

/-- A new column under MySQL, with its place. -/
def mySqlAdd (s : Source) (d : TableDiff) (e : Text × AddedColumn) : Render Text := do
  let definition ← s.diffColumnSql d e.1 e.2.column
  match e.2.after with
  | some after => do
    let place ← withName " AFTER " after
    pure ("ADD " ++ definition ++ place)
  | none => pure ("ADD " ++ definition)

/-- A column with a new definition under MySQL. -/
def mySqlChange (s : Source) (d : TableDiff) (e : Text × Column) : Render Text := do
  let quoted ← Render.ask e.1
  let definition ← s.diffColumnSql d e.1 e.2
  pure ("CHANGE " ++ quoted ++ " " ++ definition)

/-- An index that goes under MySQL. -/
def mySqlDropIndex (name : Text) : Render Text :=
  if name = primaryName then pure "DROP PRIMARY KEY" else withName "DROP KEY " name

/-- The changes of a table under MySQL: one statement, if there is anything to say. -/
def alterMySql (s : Source) (name : Text) (d : TableDiff) : Render Text := do
  let added ← Render.each (s.mySqlAdd d) d.add.entries
  let dropped ← Render.each (withName "DROP ") d.drop
  let changed ← Render.each (s.mySqlChange d) d.change.entries
  let droppedIndexes ← Render.each mySqlDropIndex d.dropIndexes
  let addedIndexes ← s.buildIndexes name d.addIndexes
  let parameters := (d.parameters.map s.tableParameters).getD []
  let items := added ++ dropped ++ changed ++ droppedIndexes ++
    addedIndexes.items.map ("ADD ".toList ++ ·) ++ parameters
  if items.isEmpty then pure []
  else do
    let table ← s.tableName name none none
    pure (alterStatement table items)

/-- A column with a new definition under PostgreSQL: its type, whether it may be NULL, its
default. -/
def postgreSqlChange (s : Source) (e : Text × Column) : Render (List Text) := do
  let quoted ← Render.ask e.1
  let head := "ALTER COLUMN " ++ quoted
  let nullable : Text := if e.2.nullable then " DROP NOT NULL" else " SET NOT NULL"
  let default : Text :=
    match e.2.default with
    | some default => " SET DEFAULT " ++ s.defaultLiteral e.2 default
    | none => " DROP DEFAULT"
  pure [head ++ " TYPE " ++ s.columnTypeSql e.2, head ++ nullable, head ++ default]

/-- An index that goes under PostgreSQL: a constraint of the table if it is the primary key. -/
def postgreSqlDropIndex (table name : Text) : Render IndexSql :=
  if name = primaryName then do
    let item ← withName "DROP CONSTRAINT " (table ++ "_pkey")
    pure { items := [item] }
  else do
    let statement ← withName "DROP INDEX " name
    pure { statements := [statement ++ ";"] }

/-- The changes of a table under PostgreSQL: one statement for the table, then one for each
index. -/
def alterPostgreSql (s : Source) (name : Text) (d : TableDiff) : Render Text := do
  let table ← s.tableName name none none
  let added ← Render.each
    (fun (e : Text × AddedColumn) => do
      let definition ← s.diffColumnSql d e.1 e.2.column
      pure ("ADD COLUMN " ++ definition))
    d.add.entries
  let dropped ← Render.each (withName "DROP COLUMN ") d.drop
  let changed ← Render.each s.postgreSqlChange d.change.entries
  let droppedIndexes ← Render.each (postgreSqlDropIndex name) d.dropIndexes
  let addedIndexes ← s.buildIndexes name d.addIndexes
  let items := added ++ dropped ++ changed.flatten ++ droppedIndexes.flatMap IndexSql.items ++
    addedIndexes.items.map ("ADD ".toList ++ ·)
  let statements := if items.isEmpty then [] else [alterStatement table items]
  pure <| Text.join "\n" <|
    statements ++ droppedIndexes.flatMap IndexSql.statements ++ addedIndexes.statements

/-- A column with a new definition under SQL Server. -/
def sqlServerChange (s : Source) (table : Text) (e : Text × Column) : Render Text := do
  let quoted ← Render.ask e.1
  let nullable : Text := if e.2.nullable then "NULL" else "NOT NULL"
  let definition := s.columnTypeSql e.2 ++ " " ++ nullable
  pure ("ALTER TABLE " ++ table ++ " ALTER COLUMN " ++ quoted ++ " " ++ definition ++ ";")

/-- An index that goes under SQL Server: a constraint of the table if it is the primary key. -/
def sqlServerDropIndex (table name index : Text) : Render Text :=
  if index = primaryName then do
    let constraint ← withName " DROP CONSTRAINT " ("PK_" ++ name)
    pure ("ALTER TABLE " ++ table ++ constraint ++ ";")
  else do
    let head ← withName "DROP INDEX " index
    pure (head ++ " ON " ++ table ++ ";")

/-- A column that goes, as a statement of its own. -/
def dropColumn (table column : Text) : Render Text := do
  let head ← withName " DROP COLUMN " column
  pure ("ALTER TABLE " ++ table ++ head ++ ";")

/-- A new column, as a statement of its own. -/
def addColumn (s : Source) (d : TableDiff) (head : Text) (e : Text × AddedColumn) :
    Render Text := do
  let definition ← s.diffColumnSql d e.1 e.2.column
  pure (head ++ definition ++ ";")

/-- The changes of a table under SQL Server, a statement for each. -/
def alterSqlServer (s : Source) (name : Text) (d : TableDiff) : Render Text := do
  let table ← s.tableName name none none
  let added ← Render.each (s.addColumn d ("ALTER TABLE " ++ table ++ " ADD ")) d.add.entries
  let dropped ← Render.each (dropColumn table) d.drop
  let changed ← Render.each (s.sqlServerChange table) d.change.entries
  let droppedIndexes ← Render.each (sqlServerDropIndex table name) d.dropIndexes
  let addedIndexes ← s.buildIndexes name d.addIndexes
  let items := addedIndexes.items.map fun item => "ALTER TABLE " ++ table ++ " ADD " ++ item ++ ";"
  pure <| Text.join "\n" <|
    added ++ dropped ++ changed ++ droppedIndexes ++ items ++ addedIndexes.statements

/-- Why SQLite cannot make the changes of a table, if it cannot. -/
def sqliteRefusal (name : Text) (d : TableDiff) : Option SchemaError :=
  if !d.change.isEmpty then some (.unsupported .sqlite .column name)
  else if (d.dropIndexes ++ d.addIndexes.keys).contains primaryName then
    some (.unsupported .sqlite .primaryKey name)
  else none

/-- The changes of a table that SQLite can make, a statement for each. -/
def alterSqlite (s : Source) (name : Text) (d : TableDiff) : Render Text := do
  let table ← s.tableName name none none
  let added ← Render.each (s.addColumn d ("ALTER TABLE " ++ table ++ " ADD COLUMN ")) d.add.entries
  let dropped ← Render.each (dropColumn table) d.drop
  let droppedIndexes ← Render.each
    (fun index => do
      let head ← withName "DROP INDEX " index
      pure (head ++ ";"))
    d.dropIndexes
  let addedIndexes ← s.buildIndexes name d.addIndexes
  pure (Text.join "\n" (added ++ dropped ++ droppedIndexes ++ addedIndexes.statements))

/-- The changes of a table. -/
def alterTable (s : Source) (name : Text) (d : TableDiff) : Migration Text :=
  match s.dialect with
  | .mySql => liftM (s.alterMySql name d)
  | .postgreSql => liftM (s.alterPostgreSql name d)
  | .sqlServer => liftM (s.alterSqlServer name d)
  | .sqlite =>
    match sqliteRefusal name d with
    | some e => throw e
    | none => liftM (s.alterSqlite name d)

/-- The change of a table; empty if there is nothing to do. -/
def changeTable (s : Source) (e : Text × TableChange) : Migration Text :=
  match e.2 with
  | .create t => s.createTable t
  | .drop _ => liftM (s.dropTable e.1)
  | .alter d => s.alterTable e.1 d

/-- The changes of a schema, or those of one of its tables. -/
def alterSchema (s : Source) (d : SchemaDiff) (table : Option Text) : Migration Text := do
  let changes ← Migration.of <|
    match table with
    | none => .ok d.tables.entries
    | some name =>
      match d.tables.get? name with
      | some change => .ok [(name, change)]
      | none => .error (.unknownTable name)
  let statements ← eachTable s.changeTable changes
  pure (Text.join "\n\n" (statements.filter fun sql => !sql.isEmpty))

end Source

end SqlComposer
