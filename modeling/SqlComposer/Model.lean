import SqlComposer.Condition.Basic
import SqlComposer.Schema.Column
import SqlComposer.Inflection
import SqlComposer.Render

/-!
# Models

A model describes how records are stored: the table and its columns, virtual fields, which are
expressions over the columns, and associations with other models. What is not said follows from
naming conventions.
-/

namespace SqlComposer

/-- An item of an ORDER BY clause. -/
inductive Order where
  /-- A field or several with commas between them, with a direction behind it or not. -/
  | field (key : Text)
  /-- A field with its direction. -/
  | directed (key direction : Text)
  /-- A piece of SQL, which is written as it is. -/
  | expression (sql : Text)
deriving DecidableEq

/-- The kinds of association. -/
inductive AssociationKind where
  | belongsTo
  | hasOne
  | hasMany
  /-- Records on both sides belong to each other, by way of a table between them. -/
  | manyToMany
deriving DecidableEq

/-- Whether the associated records come by a join of the main selection. -/
def AssociationKind.isJoinable : AssociationKind → Bool
  | .belongsTo | .hasOne => true
  | .hasMany | .manyToMany => false

/-- The fields of associated records that are selected. -/
inductive FieldSelection where
  | all
  | nothing
  | only (fields : List Text)
deriving DecidableEq

/-- An association of a model. -/
structure Association where
  kind : AssociationKind
  aliasName : Text
  /-- The name of the associated model. -/
  target : Text := aliasName
  foreignKey : Option Text := none
  /-- The column of the table in between that refers to the associated model. -/
  targetKey : Option Text := none
  conditions : Condition := .empty
  fields : FieldSelection := .all
  order : List Order := []
  limit : Option Nat := none
  offset : Option Nat := none
  page : Option Nat := none
  joinType : Option Text := none
  joinTable : Option Text := none
  /-- The alias of the table in between. -/
  through : Option Text := none
  /-- Takes the place of the follow-up query. -/
  finderQuery : Option Text := none

/-- A model. -/
structure Model where
  name : Text
  aliasName : Text := name
  table : Text := Inflection.tableName name
  /-- Takes the place of the table prefix of the data source. -/
  tablePrefix : Option Text := none
  /-- Takes the place of the schema of the data source. -/
  schema : Option Text := none
  primaryKey : Text := "id"
  columns : OrderedMap Text Column := ∅
  virtualFields : OrderedMap Text Text := ∅
  associations : List Association := []

/-- The column that refers to a model, by convention. -/
def conventionalKey (model : Text) : Text :=
  Text.snakeCase model ++ "_id"

/-- Whether one text comes before another, character by character. -/
def Text.before (a b : Text) : Bool :=
  match a, b with
  | [], b => !b.isEmpty
  | _, [] => false
  | c :: cs, d :: ds => if c = d then Text.before cs ds else c.toNat < d.toNat

/-- The first row of a page, unless an offset is given. -/
def firstRow (offset page limit : Option Nat) : Option Nat :=
  match offset with
  | some n => some n
  | none =>
    match page, limit with
    | some page, some limit => if 1 < page then some ((page - 1) * limit) else none
    | _, _ => none

namespace Association

/-- The foreign key: in the owner's table for `belongsTo`, otherwise pointing at the owner. -/
def resolvedForeignKey (a : Association) (owner : Model) : Text :=
  match a.foreignKey with
  | some key => key
  | none =>
    match a.kind with
    | .belongsTo => conventionalKey a.target
    | _ => conventionalKey owner.name

/-- The column of the table in between that refers to the associated model. -/
def resolvedTargetKey (a : Association) : Text :=
  a.targetKey.getD (conventionalKey a.target)

/-- The table in between: by convention both tables in alphabetical order. -/
def resolvedJoinTable (a : Association) (owner link : Model) : Text :=
  match a.joinTable with
  | some table => table
  | none =>
    if Text.before link.table owner.table then link.table ++ "_" ++ owner.table
    else owner.table ++ "_" ++ link.table

end Association

namespace Model

/-- Adds a column by its type; the one that has the name of the primary key becomes it. -/
def addTyped (m : Model) (name : Text) (type : ColumnType) : Model :=
  let column : Column := { type }
  let column := if name = m.primaryKey then column.asPrimary else column
  { m with columns := m.columns.insert name column }

/-! ### Looking up fields -/

/-- The name of a field without the alias `own`; none if it is qualified by another alias. -/
def localNameOf (own field : Text) : Option Text :=
  match Text.cutFirst (· == '.') (Text.trim field) with
  | some (label, name) => if label = own then some name else none
  | none => some (Text.trim field)

/-- The expression of a virtual field of the model with the alias `own`. -/
def virtualFieldOf (own : Text) (virtualFields : OrderedMap Text Text) (field : Text) :
    Option Text :=
  (localNameOf own field).bind virtualFields.get?

/-- The expression of a virtual field, which may be qualified by the alias of the model. -/
def virtualField (m : Model) (field : Text) : Option Text :=
  virtualFieldOf m.aliasName m.virtualFields field

def isVirtualField (m : Model) (field : Text) : Bool :=
  (m.virtualField field).isSome

/-- The type of a column, which may be qualified by the alias of the model. -/
def columnType (m : Model) (field : Text) : Option ColumnType :=
  ((localNameOf m.aliasName field).bind m.columns.get?).map Column.type

def hasKind (m : Model) (kind : AssociationKind) : Bool :=
  m.associations.any fun a => a.kind = kind

/-- The request for fields of the model under an alias. -/
def fieldRequest (m : Model) (label : Option Text) (requested : List Text) (quoting : Bool) :
    FieldRequest where
  aliasName := label.getD m.aliasName
  modelName := m.name
  modelAlias := m.aliasName
  table := m.table
  columns := m.columns.keys
  virtualFields := m.virtualFields
  requested := requested
  quoting := quoting

end Model

/-- The models that associations can refer to, by their names. -/
abbrev Models := OrderedMap Text Model

/-- The models of a list; of two with one name, the last. -/
def Models.ofList (ms : List Model) : Models :=
  OrderedMap.ofList (ms.map fun m => (m.name, m))

end SqlComposer
