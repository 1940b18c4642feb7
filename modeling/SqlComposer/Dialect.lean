import SqlComposer.ColumnType

/-!
# Dialects

What sets the supported SQL dialects apart: the quotes around identifiers, the clauses that limit
and lock a selection, the native names of column types, and a few whole statements.
-/

namespace SqlComposer

/-- An SQL dialect. -/
inductive Dialect where
  | mySql
  | postgreSql
  | sqlite
  | sqlServer
deriving DecidableEq

/-- The native type of a column, with the length it has when none is declared. -/
structure NativeType where
  name : Text
  length : Option Text
deriving DecidableEq

namespace Dialect

def name : Dialect → Text
  | .mySql => "MySQL"
  | .postgreSql => "PostgreSQL"
  | .sqlite => "SQLite"
  | .sqlServer => "SQLServer"

/-! ### Quotes -/

/-- The character that opens a quoted identifier. -/
def startQuote : Dialect → Char
  | .mySql => '\x60'
  | .postgreSql | .sqlite => '"'
  | .sqlServer => '['

/-- The character that closes a quoted identifier. -/
def endQuote : Dialect → Char
  | .mySql => '\x60'
  | .postgreSql | .sqlite => '"'
  | .sqlServer => ']'

/-- An identifier between the quotes of the dialect. -/
def quote (d : Dialect) (identifier : Text) : Text :=
  d.startQuote :: identifier ++ [d.endQuote]

/-- Whether a text opens with the quote of the dialect. -/
def opensQuoted (d : Dialect) (t : Text) : Bool :=
  t.head? == some d.startQuote

/-! ### Clauses and statements -/

/-- The clause that locks the selected rows, where there is one. -/
def lockHint : Dialect → Option Text
  | .mySql | .postgreSql => some "FOR UPDATE"
  | .sqlite | .sqlServer => none

/-- The clause that limits a selection to `limit` rows after the first `offset`; none for zero
rows. -/
def limit (d : Dialect) (limit offset : Nat) : Option Text :=
  if limit = 0 then none
  else
    some <|
      match d with
      | .mySql | .sqlite =>
        if offset = 0 then "LIMIT " ++ Text.ofNat limit
        else "LIMIT " ++ Text.ofNat offset ++ ", " ++ Text.ofNat limit
      | .postgreSql =>
        if offset = 0 then "LIMIT " ++ Text.ofNat limit
        else "LIMIT " ++ Text.ofNat limit ++ " OFFSET " ++ Text.ofNat offset
      | .sqlServer =>
        "OFFSET " ++ Text.ofNat offset ++ " ROWS FETCH NEXT " ++ Text.ofNat limit ++ " ROWS ONLY"

/-- What follows the type of an integer column that is the whole primary key. -/
def primaryKeySuffix : Dialect → Text
  | .mySql => "NOT NULL AUTO_INCREMENT"
  | .postgreSql => "NOT NULL"
  | .sqlite => "PRIMARY KEY AUTOINCREMENT"
  | .sqlServer => "IDENTITY (1, 1) NOT NULL"

/-- Whether every index may be declared inside the table definition. -/
def hasInlineIndexes (d : Dialect) : Bool :=
  d == .mySql

/-- The statement that empties a table. -/
def truncate (d : Dialect) (table : Text) : Text :=
  match d with
  | .mySql | .sqlServer => "TRUNCATE TABLE " ++ table
  | .postgreSql => "TRUNCATE TABLE " ++ table ++ " RESTART IDENTITY"
  | .sqlite => "DELETE FROM " ++ table

/-! ### Native types -/

/-- The native type of a logical type; sets and enumerations have none and stand for themselves. -/
def nativeType (d : Dialect) (ty : ColumnType) : Option NativeType :=
  match ty with
  | .set _ | .enum _ => none
  | .string =>
    match d with
    | .sqlServer => some ⟨"nvarchar", some "255"⟩
    | _ => some ⟨"varchar", some "255"⟩
  | .text =>
    match d with
    | .sqlServer => some ⟨"nvarchar", some "MAX"⟩
    | _ => some ⟨"text", none⟩
  | .integer =>
    match d with
    | .mySql => some ⟨"int", some "11"⟩
    | .sqlServer => some ⟨"int", none⟩
    | _ => some ⟨"integer", none⟩
  | .bigInteger =>
    match d with
    | .mySql => some ⟨"bigint", some "20"⟩
    | _ => some ⟨"bigint", none⟩
  | .smallInteger =>
    match d with
    | .mySql => some ⟨"smallint", some "6"⟩
    | _ => some ⟨"smallint", none⟩
  | .tinyInteger =>
    match d with
    | .mySql => some ⟨"tinyint", some "4"⟩
    | .postgreSql => some ⟨"smallint", none⟩
    | _ => some ⟨"tinyint", none⟩
  | .float => some ⟨"float", none⟩
  | .decimal => some ⟨"decimal", none⟩
  | .boolean =>
    match d with
    | .mySql => some ⟨"tinyint", some "1"⟩
    | .sqlServer => some ⟨"bit", none⟩
    | _ => some ⟨"boolean", none⟩
  | .binary =>
    match d with
    | .postgreSql => some ⟨"bytea", none⟩
    | .sqlServer => some ⟨"varbinary", some "MAX"⟩
    | _ => some ⟨"blob", none⟩
  | .uuid =>
    match d with
    | .postgreSql => some ⟨"uuid", none⟩
    | .sqlServer => some ⟨"uniqueidentifier", none⟩
    | _ => some ⟨"char", some "36"⟩
  | .datetime =>
    match d with
    | .postgreSql => some ⟨"timestamp", none⟩
    | _ => some ⟨"datetime", none⟩
  | .timestamp =>
    match d with
    | .sqlServer => some ⟨"datetime", none⟩
    | _ => some ⟨"timestamp", none⟩
  | .date =>
    match d with
    | .sqlServer => some ⟨"datetime", none⟩
    | _ => some ⟨"date", none⟩
  | .time =>
    match d with
    | .sqlServer => some ⟨"datetime", none⟩
    | _ => some ⟨"time", none⟩

end Dialect

/-! ### The default dialect -/

/-- The dialect of data sources that name none. While a scope is open it remembers the dialect to
go back to. -/
structure DefaultDialect where
  current : Dialect := .mySql
  outer : Option Dialect := none

namespace DefaultDialect

/-- Another default from here on; also gives the previous one. -/
def set (s : DefaultDialect) (d : Dialect) : Dialect × DefaultDialect :=
  (s.current, { s with current := d })

/-- Closes the open scope, if there is one. -/
def leave (s : DefaultDialect) : DefaultDialect :=
  match s.outer with
  | some d => ⟨d, none⟩
  | none => s

/-- Opens a scope with a default of its own, in place of a scope that is still open. -/
def enter (s : DefaultDialect) (d : Dialect) : DefaultDialect :=
  ⟨d, some s.leave.current⟩

end DefaultDialect

end SqlComposer
