import SqlComposer.Schema.Table

/-!
# Differences of schemas

What has to change to get from one schema to another: tables to create and to drop, and for tables
in both, columns, indexes and parameters. `compare` finds a difference and `apply` carries it out.
-/

namespace SqlComposer

/-- A new column, and the column that it comes after; at the front if there is none. -/
structure AddedColumn where
  column : Column
  after : Option Text
deriving DecidableEq

/-- The changes of a table. Among the indexes the primary one comes first. -/
structure TableDiff where
  add : OrderedMap Text AddedColumn := ∅
  drop : List Text := []
  /-- Columns with a new definition. -/
  change : OrderedMap Text Column := ∅
  addIndexes : OrderedMap Text Index := ∅
  dropIndexes : List Text := []
  /-- All parameters, if one of them changes. -/
  parameters : Option TableParameters := none
deriving DecidableEq

/-- What happens to a table. -/
inductive TableChange where
  | create (t : Table)
  | drop (t : Table)
  | alter (d : TableDiff)
deriving DecidableEq

/-- The changes of a schema, by the names of tables. -/
structure SchemaDiff where
  tables : OrderedMap Text TableChange := ∅
deriving DecidableEq

/-! ### Finding differences -/

/-- The key in front of a key. -/
def predecessor (keys : List Text) (key : Text) : Option Text :=
  match keys with
  | a :: b :: rest => if b = key then some a else predecessor (b :: rest) key
  | _ => none

/-- The names of a list with the primary one in front. -/
def primaryFirst (names : List Text) : List Text :=
  names.filter (· = primaryName) ++ names.filter (· ≠ primaryName)

/-- Whether a map has an index under a name that is the same as the given one. -/
def hasSameIndex (indexes : OrderedMap Text Index) (name : Text) (index : Index) : Bool :=
  (indexes.get? name).any fun i => i.agrees index

namespace Table

/-- The new columns of a version of a table. -/
def addedColumns (old new : Table) : OrderedMap Text AddedColumn :=
  new.columns.filterMap fun name column =>
    if old.columns.contains name then none
    else some ⟨column, predecessor new.columns.keys name⟩

/-- The columns of a version of a table that have a new definition. -/
def changedColumns (old new : Table) : OrderedMap Text Column :=
  new.columns.filterMap fun name column =>
    match old.columns.get? name with
    | some before => if before.differs column then some column else none
    | none => none

/-- What has to change to get from a table to a new version of it. -/
def compare (old new : Table) : TableDiff :=
  let before := old.effectiveIndexes
  let after := new.effectiveIndexes
  let gone := before.filter fun name index => !hasSameIndex after name index
  { add := addedColumns old new
    drop := old.columns.keys.filter fun name => !new.columns.contains name
    change := changedColumns old new
    addIndexes := (after.filter fun name index => !hasSameIndex before name index).front primaryName
    dropIndexes := primaryFirst gone.keys
    parameters := if old.parameters = new.parameters then none else some new.parameters }

end Table

/-- Whether nothing changes. -/
def TableDiff.isEmpty (d : TableDiff) : Bool :=
  d.add.isEmpty && d.drop.isEmpty && d.change.isEmpty && d.addIndexes.isEmpty &&
    d.dropIndexes.isEmpty && d.parameters.isNone

/-- Whether nothing changes. -/
def SchemaDiff.isEmpty (d : SchemaDiff) : Bool :=
  d.tables.isEmpty

/-- What has to change to get from a schema to a new version of it. -/
def Schema.compare (old new : Schema) : SchemaDiff :=
  let kept := new.tables.filterMap fun name table =>
    match old.tables.get? name with
    | none => some (.create table)
    | some before =>
      let diff := before.compare table
      if diff.isEmpty then none else some (.alter diff)
  let gone := old.tables.filter fun name _ => !new.tables.contains name
  ⟨kept.insertAll (gone.entries.map fun e => (e.1, .drop e.2))⟩

/-! ### Carrying differences out -/

namespace TableDiff

/-- The columns after the changes: some dropped, some redefined, and some put in after others. -/
def applyColumns (d : TableDiff) (columns : OrderedMap Text Column) : OrderedMap Text Column :=
  let kept := d.drop.foldl OrderedMap.erase columns
  let changed := d.change.entries.foldl (fun cs e => cs.modify e.1 fun _ => e.2) kept
  d.add.entries.foldl (fun cs e => cs.insertAt (place cs e.2.after) e.1 e.2.column) changed
where
  /-- The place after a column; the end if there is no such column, the front if none is named. -/
  place (cs : OrderedMap Text Column) : Option Text → Nat
    | none => 0
    | some after =>
      match cs.indexOf? after with
      | some i => i + 1
      | none => cs.size

/-- A column that is no longer marked as primary. -/
def unmark (c : Column) : Column :=
  if c.isPrimary then { c with key := none } else c

/-- The table without an index; without the primary one no column is marked either. -/
def dropIndex (t : Table) (name : Text) : Table :=
  { t with
    indexes := t.indexes.erase name
    columns := if name = primaryName then t.columns.mapValues fun _ c => unmark c else t.columns }

/-- The table with an index. A primary one marks its columns, and is kept as an index only if the
marks cannot say all of it. -/
def addIndex (t : Table) (name : Text) (index : Index) : Table :=
  if name = primaryName then
    { t with
      columns := t.columns.mapValues fun column c =>
        if index.columns.contains column then { c with key := some .primary } else unmark c
      indexes :=
        if index.kind.isNone && index.lengths.isEmpty then t.indexes
        else t.indexes.insert name index }
  else { t with indexes := t.indexes.insert name index }

/-- The table after the changes. -/
def apply (d : TableDiff) (t : Table) : Table :=
  let t := { t with columns := d.applyColumns t.columns }
  let t := d.dropIndexes.foldl dropIndex t
  let t := d.addIndexes.entries.foldl (fun t e => addIndex t e.1 e.2) t
  { t with parameters := d.parameters.getD t.parameters }

end TableDiff

/-- The schema after the change of one table, which has to be there unless it is created. -/
def TableChange.apply (name : Text) (change : TableChange) (s : Schema) :
    Except SchemaError Schema :=
  match change with
  | .create table => .ok ⟨s.tables.insert name table⟩
  | .drop _ =>
    if s.tables.contains name then .ok ⟨s.tables.erase name⟩ else .error (.unknownTable name)
  | .alter diff =>
    if s.tables.contains name then .ok ⟨s.tables.modify name diff.apply⟩
    else .error (.unknownTable name)

/-- The schema after the changes. -/
def SchemaDiff.apply (d : SchemaDiff) (s : Schema) : Except SchemaError Schema :=
  d.tables.entries.foldlM (fun s e => e.2.apply e.1 s) s

end SqlComposer
