import SqlComposer.Statement.Query

/-!
# Statements that change records

INSERT, UPDATE, DELETE and the statement that empties a table. Under MySQL a statement with
conditions names the table by the alias of the model; elsewhere the alias is taken out of the text.
-/

namespace SqlComposer

namespace Source

/-- The values of a row in parentheses, each in the column of its field. -/
def rowValues (s : Source) (m : Model) (row : List (Text × Value)) : Render Text := do
  let values ← Render.each (fun e => s.value e.2 (m.columnType e.1)) row
  pure ("(" ++ Text.join ", " values ++ ")")

/-- Inserts one row. -/
def insert (s : Source) (m : Model) (row : List (Text × Value)) : Render Text := do
  let fields ← Render.each Render.ask (row.map Prod.fst)
  let values ← s.rowValues m row
  let table ← s.fullTableName m
  pure (StatementKind.render .insert { table, fields := Text.join ", " fields, values })

/-- Inserts rows that have the values of the fields in their order. -/
def insertMany (s : Source) (m : Model) (fields : List Text) (rows : List (List Value)) :
    Render Text := do
  let rows ← Render.each (fun row => s.rowValues m (fields.zip row)) rows
  let table ← s.fullTableName m
  let names ← Render.each Render.ask fields
  pure <| StatementKind.render .insert
    { table, fields := Text.join ", " names, values := Text.join ", " rows }

/-- Whether a statement on records that meet a condition uses the alias of the model. -/
def usesAlias (s : Source) (c : Condition) : Bool :=
  s.dialect = .mySql && !c.isEmpty

/-- The alias of a model in quotes, as it qualifies a field. -/
def aliasQualifier (s : Source) (m : Model) : Text :=
  s.dialect.quote m.aliasName ++ "."

/-- The name of a field that is set. -/
def setField (s : Source) (m : Model) (aliased : Bool) (field : Text) : Render Text :=
  if aliased && !field.contains '.' then Render.ask (Field.qualify m.aliasName field)
  else if !aliased && field.contains '.' then
    Render.ask
      (Text.replace (m.aliasName ++ ".") [] (Text.replace (s.aliasQualifier m) [] field))
  else Render.ask field

/-- A field and the value it is set to. -/
def setItem (s : Source) (m : Model) (aliased : Bool) (e : Text × Value) : Render Text := do
  let field ← s.setField m aliased e.1
  let value ← s.value e.2 (m.columnType e.1)
  pure (field ++ " = " ++ value)

/-- The conditions of a statement; without an alias its mentions go. -/
def writeConditions (s : Source) (m : Model) (c : Condition) (aliased : Bool) : Render Text := do
  let sql ← s.conditions c true true (some m)
  pure (if aliased then sql else Text.replace (s.aliasQualifier m) [] sql)

/-- Sets fields of the records that meet a condition. -/
def update (s : Source) (m : Model) (row : List (Text × Value)) (c : Condition) : Render Text := do
  let aliased := s.usesAlias c
  let items ← Render.each (s.setItem m aliased) row
  let table ← s.fullTableName m
  let conditions ← s.writeConditions m c aliased
  pure <| StatementKind.render .update
    { table
      aliasName := if aliased then "AS " ++ s.dialect.quote m.aliasName else []
      fields := Text.join ", " items
      conditions }

/-- Deletes the records that meet a condition. -/
def delete (s : Source) (m : Model) (c : Condition) : Render Text := do
  let aliased := s.usesAlias c
  let target ← if aliased then Render.ask m.aliasName else pure []
  let table ← s.fullTableName m
  let conditions ← s.writeConditions m c aliased
  pure <| StatementKind.render .delete
    { target, table, aliasName := if aliased then "AS " ++ target else [], conditions }

/-- Deletes all records. -/
def truncate (s : Source) (m : Model) : Render Text := do
  let table ← s.fullTableName m
  pure (s.dialect.truncate table)

end Source

end SqlComposer
