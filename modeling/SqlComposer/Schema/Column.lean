import SqlComposer.ColumnType

/-!
# Columns

The definition of a column in a table.
-/

namespace SqlComposer

/-- The part that a column plays in the keys of its table. -/
inductive KeyRole where
  | primary
  | unique
  | index
deriving DecidableEq

/-- The definition of a column. -/
structure Column where
  type : ColumnType
  /-- The length, as it stands between parentheses. -/
  length : Option Text := none
  nullable : Bool := true
  default : Option Text := none
  key : Option KeyRole := none
  unsigned : Bool := false
  charset : Option Text := none
  collate : Option Text := none
  comment : Option Text := none
deriving DecidableEq

namespace Column

/-- The column as the primary key, or a part of it. -/
def asPrimary (c : Column) : Column :=
  { c with nullable := false, key := some .primary }

def isPrimary (c : Column) : Bool :=
  c.key = some .primary

/-- Whether two definitions differ in more than the key, whose changes are changes of indexes. -/
def differs (a b : Column) : Bool :=
  { a with key := none } ≠ { b with key := none }

end Column

end SqlComposer
