import SqlComposer.Json.Basic
import SqlComposer.Render
import SqlComposer.Identifier
import SqlComposer.Value

/-!
# Data sources

The settings that every composition depends on, and how a string is made safe under them.
-/

namespace SqlComposer

/-- The settings of a data source. -/
structure Source where
  name : Text := "default"
  dialect : Dialect := .mySql
  /-- The schema in which tables are looked up, where the dialect has schemas. -/
  schema : Option Text := none
  /-- What the names of all tables start with. -/
  tablePrefix : Text := []
  /-- Whether answers are remembered. -/
  caching : Bool := true
  /-- What stands between a model's alias and the name of a virtual field. -/
  separator : Text := "__"
  /-- How the inside of a string literal is made safe, if not as the dialect does. -/
  escaper : Option (Text → Text) := none

/-! ### String literals -/

/-- A character inside a string literal. -/
def Dialect.escapeChar (d : Dialect) (c : Char) : Text :=
  match d with
  | .mySql =>
    match c with
    | '\n' => "\\n"
    | '\r' => "\\r"
    | '\t' => "\\t"
    | '\'' => "\\'"
    | '"' => "\\\""
    | '\\' => "\\\\"
    | c =>
      if c.toNat = 0 then "\\0"
      else if c.toNat = 8 then "\\b"
      else if c.toNat = 26 then "\\Z"
      else [c]
  | .postgreSql | .sqlite | .sqlServer => if c == '\'' then "''" else [c]

/-- The inside of a string literal. -/
def Dialect.escape (d : Dialect) (t : Text) : Text :=
  t.flatMap d.escapeChar

namespace Source

/-- The inside of a string literal. -/
def escape (s : Source) (t : Text) : Text :=
  match s.escaper with
  | some f => f t
  | none => s.dialect.escape t

/-- A text as a string literal. -/
def quoteString (s : Source) (t : Text) : Text :=
  '\'' :: s.escape t ++ ['\'']

end Source

end SqlComposer
