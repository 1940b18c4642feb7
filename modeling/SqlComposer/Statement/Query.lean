import SqlComposer.Condition.Compile
import SqlComposer.Selection.Fields
import SqlComposer.Selection.Order
import SqlComposer.Statement.Template

/-!
# Selections

A query describes what is selected from a table; joins bring further tables in. Here are the names
of tables and the SELECT statement.
-/

namespace SqlComposer

/-- A join. A table that is a subquery or in quotes stays as it is. -/
structure Join where
  table : Text
  /-- The kind of join, such as `LEFT`. -/
  kind : Option Text := none
  aliasName : Option Text := none
  conditions : Condition := .empty

/-- What is selected. -/
structure Query where
  conditions : Condition := .empty
  fields : List Text := []
  joins : List Join := []
  order : List Order := []
  limit : Option Nat := none
  offset : Option Nat := none
  page : Option Nat := none
  group : List Text := []
  having : Option Condition := none
  lock : Bool := false
  /-- Further conditions on associated records, by the alias of the association. -/
  associationConditions : OrderedMap Text Condition := ∅

namespace Query

/-- Whether a join has an alias that is taken. -/
def takes (q : Query) (j : Join) : Bool :=
  j.aliasName.isSome && q.joins.any fun i => i.aliasName = j.aliasName

/-- The query with a join more, unless its alias is taken. -/
def addJoin (q : Query) (j : Join) : Query :=
  if q.takes j then q else { q with joins := q.joins ++ [j] }

/-- The first row that is selected, given directly or by a page. -/
def effectiveOffset (q : Query) : Option Nat :=
  firstRow q.offset q.page q.limit

end Query

namespace Source

/-! ### Tables -/

/-- The name of a table with its prefix, in its schema unless the name has a dot. -/
def tableName (s : Source) (table : Text) (tablePrefix schema : Option Text) : Render Text := do
  let table := tablePrefix.getD s.tablePrefix ++ table
  match schema.or s.schema with
  | some schema =>
    if !schema.isEmpty && !table.contains '.' then do
      let schema ← Render.ask schema
      let table ← Render.ask table
      pure (schema ++ "." ++ table)
    else Render.ask table
  | none => Render.ask table

/-- The name of the table of a model. -/
def fullTableName (s : Source) (m : Model) : Render Text :=
  s.tableName m.table m.tablePrefix m.schema

/-! ### Clauses -/

/-- A limit with a blank in front, empty if there is none. -/
def limit (s : Source) (limit offset : Option Nat) : Text :=
  match limit.bind fun n => s.dialect.limit n (offset.getD 0) with
  | some sql => ' ' :: sql
  | none => []

/-- The lock of the selected rows with a blank in front, empty if there is none. -/
def lockingHint (s : Source) (lock : Bool) : Text :=
  match s.dialect.lockHint with
  | some hint => if lock then ' ' :: hint else []
  | none => []

/-- A join. Only a cross join has no conditions. -/
def join (s : Source) (j : Join) : Render Text := do
  let table ←
    if j.table.head? == some '(' || s.dialect.opensQuoted j.table then pure j.table
    else s.tableName j.table none none
  let label ←
    match j.aliasName with
    | some label => do
      let name ← Render.ask label
      pure ("AS " ++ name)
    | none => pure []
  let kind := Text.trim (j.kind.getD [])
  let condition ←
    if !Text.sameLetters kind "CROSS" && !j.conditions.isEmpty then do
      let on ← s.conditions j.conditions true false none
      pure ("ON (" ++ Text.trim on ++ ")")
    else pure []
  let head := [kind].filter fun t => !t.isEmpty
  let tail := [label, condition].filter fun t => !t.isEmpty
  pure (Text.unwords (head ++ ["JOIN".toList, table] ++ tail))

/-! ### The statement -/

/-- A selection from a table under an alias; of all fields if it names none. -/
def select (s : Source) (q : Query) (table label : Text) (model : Option Model) : Render Text := do
  let joins ← Render.each s.join q.joins
  let label ← Render.ask label
  let conditions ← s.conditions q.conditions true true model
  let having ← s.having q.having true model
  let order ← s.order q.order "ASC" model
  pure <| StatementKind.render .select
    { fields := if q.fields.isEmpty then ['*'] else Text.join ", " q.fields
      table
      aliasName := "AS " ++ label
      joins := Text.unwords joins
      conditions
      group := s.group q.group model
      having
      order
      limit := s.limit q.limit q.effectiveOffset
      lock := s.lockingHint q.lock }

/-- A selection from the table of a model under its alias. -/
def selectModel (s : Source) (m : Model) (q : Query) : Render Text := do
  let table ← s.fullTableName m
  s.select q table m.aliasName (some m)

end Source

end SqlComposer
