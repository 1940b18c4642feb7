import SqlComposer.Text.Basic

/-!
# Statement templates

A statement is a row of keywords and slots. Each slot is filled by a clause; an empty clause leaves
no trace.
-/

namespace SqlComposer

/-- The slots of the templates. -/
inductive Slot where
  | fields
  | table
  | aliasName
  | target
  | joins
  | conditions
  | group
  | having
  | order
  | limit
  | lock
  | values
deriving DecidableEq

/-- The clauses of a statement, each rendered already. -/
structure Clauses where
  fields : Text := []
  table : Text := []
  /-- The alias of the table, with `AS` in front. -/
  aliasName : Text := []
  /-- The alias of the rows that are deleted. -/
  target : Text := []
  joins : Text := []
  conditions : Text := []
  group : Text := []
  having : Text := []
  order : Text := []
  limit : Text := []
  lock : Text := []
  /-- Rows of values, each in parentheses. -/
  values : Text := []
  columns : List Text := []
  indexes : List Text := []
  tableParameters : List Text := []

/-- The kinds of statement. -/
inductive StatementKind where
  | select
  | insert
  | update
  | delete
  | schema
deriving DecidableEq

/-- A place in a template. -/
inductive TemplatePart where
  | keyword (word : Text)
  | slot (s : Slot)
  /-- A slot between parentheses, which are written even if it is empty. -/
  | enclosed (s : Slot)

namespace Slot

def name : Slot → Text
  | .fields => "fields"
  | .table => "table"
  | .aliasName => "alias"
  | .target => "target"
  | .joins => "joins"
  | .conditions => "conditions"
  | .group => "group"
  | .having => "having"
  | .order => "order"
  | .limit => "limit"
  | .lock => "lock"
  | .values => "values"

/-- All slots. -/
def all : List Slot :=
  [.fields, .table, .aliasName, .target, .joins, .conditions, .group, .having, .order, .limit, .lock,
   .values]

/-- The name of a slot between braces. -/
def mention (s : Slot) : Text :=
  '\x7b' :: s.name ++ ['\x7d']

end Slot

namespace Clauses

/-- The clause that fills a slot. -/
def clause (c : Clauses) : Slot → Text
  | .fields => c.fields
  | .table => c.table
  | .aliasName => c.aliasName
  | .target => c.target
  | .joins => c.joins
  | .conditions => c.conditions
  | .group => c.group
  | .having => c.having
  | .order => c.order
  | .limit => c.limit
  | .lock => c.lock
  | .values => c.values

/-- What a slot is filled with. -/
def filling (c : Clauses) (s : Slot) : Text :=
  Text.trim (c.clause s)

/-- A text with the mentions of slots filled in, one slot after the other. -/
def fillMentions (c : Clauses) (t : Text) : Text :=
  Slot.all.foldl (fun t s => Text.replace s.mention (c.filling s) t) t

/-- A place of a template as it is written. -/
def fill (c : Clauses) : TemplatePart → Text
  | .keyword word => word
  | .slot s => c.filling s
  | .enclosed s => c.fillMentions ("(" ++ s.mention ++ ")")

/-- A template with its slots filled in. -/
def render (c : Clauses) (template : List TemplatePart) : Text :=
  Text.unwords ((template.map c.fill).filter fun t => !t.isEmpty)

/-- The items that are not blank, trimmed. -/
def present (items : List Text) : List Text :=
  (items.map Text.trim).filter fun t => !t.isEmpty

/-- The definition of a table, with an item on each line. -/
def renderTable (c : Clauses) : Text :=
  let parameters := present c.tableParameters
  "CREATE TABLE " ++ Text.trim c.table ++ " (\n\t" ++
    Text.join ",\n\t" (present (c.columns ++ c.indexes)) ++ "\n)" ++
    (if parameters.isEmpty then [] else ' ' :: Text.unwords parameters) ++ ";"

end Clauses

namespace StatementKind

def selectTemplate : List TemplatePart :=
  [.keyword "SELECT", .slot .fields, .keyword "FROM", .slot .table, .slot .aliasName, .slot .joins,
   .slot .conditions, .slot .group, .slot .having, .slot .order, .slot .limit, .slot .lock]

def insertTemplate : List TemplatePart :=
  [.keyword "INSERT", .keyword "INTO", .slot .table, .enclosed .fields, .keyword "VALUES",
   .slot .values]

def updateTemplate : List TemplatePart :=
  [.keyword "UPDATE", .slot .table, .slot .aliasName, .slot .joins, .keyword "SET", .slot .fields,
   .slot .conditions]

def deleteTemplate : List TemplatePart :=
  [.keyword "DELETE", .slot .target, .keyword "FROM", .slot .table, .slot .aliasName, .slot .joins,
   .slot .conditions]

/-- A statement with its clauses. -/
def render (kind : StatementKind) (c : Clauses) : Text :=
  match kind with
  | .select => c.render selectTemplate
  | .insert => c.render insertTemplate
  | .update => c.render updateTemplate
  | .delete => c.render deleteTemplate
  | .schema => c.renderTable

end StatementKind

end SqlComposer
