import SqlComposer.Statement.Query

/-!
# Associated records

Records that belong to others are selected along with them. Where there is at most one of them for
each record, they are joined to the main selection; where there are many, they come by a follow-up
query, in which a marker stands for the keys of the records that the main selection finds.
-/

namespace SqlComposer

/-- Why an association cannot be planned. -/
inductive AssociationError where
  | unknownModel (label model : Text)
  | missingForeignKey (label : Text)
deriving DecidableEq

def AssociationError.message : AssociationError → Text
  | .unknownModel label model =>
    "association " ++ Text.ticked label ++ " refers to unknown model " ++ Text.ticked model
  | .missingForeignKey label =>
    "association " ++ Text.ticked label ++ " declares an empty foreign key"

/-- A composition that may fail. -/
abbrev Planning := ExceptT AssociationError Render

/-- What an association adds to a selection. -/
inductive AssociationQuery where
  /-- The main query with the associated records joined. -/
  | joined (q : Query)
  /-- A query of its own. -/
  | standalone (sql : Text)

/-- A follow-up query. -/
structure FollowUp where
  aliasName : Text
  kind : AssociationKind
  sql : Text

/-- The queries that read the records of a model and those associated with them. -/
structure ReadPlan where
  sql : Text
  followUps : List FollowUp

/-! ### Constraints -/

namespace Association

/-- The foreign key, unless it is blank. -/
def usableForeignKey (a : Association) (owner : Model) : Except AssociationError Text :=
  let key := a.resolvedForeignKey owner
  if Text.blank key then .error (.missingForeignKey a.aliasName) else .ok key

/-- The condition that ties associated records to their owner: by a column of the owner, or in a
query of its own by a marker. -/
def constraint (a : Association) (owner link : Model) (joinAlias : Text) (standalone : Bool) :
    Except AssociationError Condition := do
  let key ← a.usableForeignKey owner
  let ids := Operand.compare (.many [.text deferredIdMarker])
  pure <|
    match a.kind with
    | .hasOne =>
      Condition.single (Field.qualify a.aliasName key) <|
        if standalone then .text deferredIdMarker
        else .identifier (Field.qualify owner.aliasName owner.primaryKey)
    | .belongsTo =>
      if standalone then
        Condition.single (Field.qualify a.aliasName link.primaryKey) (.text deferredForeignKeyMarker)
      else
        Condition.single (Field.qualify owner.aliasName key)
          (.identifier (Field.qualify a.aliasName link.primaryKey))
    | .hasMany => Condition.entry (Field.qualify a.aliasName key) ids
    | .manyToMany =>
      .entries
        [(Field.qualify joinAlias key, ids),
         (Field.qualify joinAlias a.resolvedTargetKey,
          .compare (.one (.identifier (Field.qualify a.aliasName link.primaryKey))))]

/-- The fields of associated records that are selected; without a choice, all. -/
def requestedFields (a : Association) : List Text :=
  match a.fields with
  | .only fields => fields
  | _ => []

/-- The association as it takes part in a query: if the query chooses its fields, one that chooses
none contributes none. -/
def narrow (a : Association) (choosing : Bool) : Association :=
  if choosing && a.fields = .all then { a with fields := .nothing } else a

end Association

namespace Condition

mutual

/-- The condition without pieces of SQL that mention a field of an owner that is not selected
from. -/
def withoutOwner (owner : Text) : Condition → Condition
  | .raw sql => if Text.has (owner ++ ".") sql then empty else .raw sql
  | .all cs => .all (withoutOwnerEach owner cs)
  | .bool b => .bool b
  | .entries es => .entries es

/-- The conditions without pieces that mention the owner, as far as anything is left of them. -/
def withoutOwnerEach (owner : Text) : List Condition → List Condition
  | [] => []
  | c :: cs =>
    let c := withoutOwner owner c
    if c.isEmpty then withoutOwnerEach owner cs else c :: withoutOwnerEach owner cs

end

end Condition

namespace Source

/-! ### Main selection -/

/-- The fields of the main selection: those asked for, and the primary key if follow-up queries
need it. -/
def mainFields (s : Source) (m : Model) (q : Query) : Render (List Text) :=
  if q.fields.isEmpty then s.fields m none [] true
  else do
    let fields ← s.fields m none q.fields true
    if m.hasKind .hasMany || m.hasKind .manyToMany then do
      let key ← Render.ask (Field.qualify m.aliasName m.primaryKey)
      pure (if fields.contains key then fields else fields ++ [key])
    else pure fields

/-! ### One association -/

/-- The fields that an association selects of the associated model. -/
def associationFields (s : Source) (link : Model) (a : Association) : Render (List Text) :=
  match a.fields with
  | .nothing => pure []
  | _ => s.fields link (some a.aliasName) a.requestedFields true

/-- A follow-up query on an associated model. -/
def standalone (s : Source) (link : Model) (a : Association) (conditions : Condition)
    (fields : List Text) (joins : List Join) : Render Text := do
  let table ← s.fullTableName link
  let q : Query :=
    { conditions, fields, joins, order := a.order, limit := a.limit
      offset := firstRow a.offset a.page a.limit }
  s.select q table a.aliasName (some link)

/-- What an association of which each record has at most one adds to a query. -/
def planOne (s : Source) (owner link : Model) (a : Association) (q : Query) (extra : Condition)
    (standalone : Bool) : Planning AssociationQuery := do
  let tie ← ExceptT.mk (pure (a.constraint owner link a.aliasName standalone))
  let conditions := Condition.merge [tie, a.conditions, extra]
  if standalone then do
    let conditions :=
      if owner.name = link.name then conditions else conditions.withoutOwner owner.aliasName
    let fields ← s.associationFields link a
    let sql ← s.standalone link a conditions fields []
    pure (.standalone sql)
  else do
    let table ← s.fullTableName link
    let join : Join :=
      { kind := some (a.joinType.getD "LEFT"), table, aliasName := some a.aliasName, conditions }
    if q.takes join then pure (.joined q)
    else do
      let fields ← s.associationFields link a
      let q := q.addJoin join
      pure (.joined { q with fields := q.fields ++ fields, order := q.order ++ a.order })

/-- The follow-up query for an association of which a record has many. -/
def planMany (s : Source) (owner link : Model) (a : Association) (extra : Condition) :
    Planning AssociationQuery := do
  let key ← ExceptT.mk (pure (a.usableForeignKey owner))
  let fields ← s.fields link (some a.aliasName) a.requestedFields true
  let keyField ← Render.ask (Field.qualify a.aliasName key)
  let fields := if fields.contains keyField then fields else fields ++ [keyField]
  let tie ← ExceptT.mk (pure (a.constraint owner link a.aliasName true))
  let sql ← s.standalone link a (Condition.merge [tie, a.conditions, extra]) fields []
  pure (.standalone sql)

/-- The follow-up query for an association by way of a table in between. -/
def planManyToMany (s : Source) (owner link : Model) (a : Association) (extra : Condition) :
    Planning AssociationQuery := do
  let table := a.resolvedJoinTable owner link
  let joinAlias := a.through.getD (owner.tablePrefix.getD s.tablePrefix ++ table)
  let fields ← s.associationFields link a
  let through ←
    match a.through with
    | some through => do
      let name ← Render.ask (Field.qualify through ['*'])
      pure [name]
    | none => pure []
  let tie ← ExceptT.mk (pure (a.constraint owner link joinAlias true))
  let join : Join := { table, aliasName := a.through, conditions := tie }
  let sql ← s.standalone link a (Condition.merge [a.conditions, extra]) (fields ++ through) [join]
  pure (.standalone sql)

/-- What an association adds to a query: a join if it can be one and no query of its own is asked
for. -/
def planAssociation (s : Source) (owner link : Model) (a : Association) (q : Query)
    (standalone : Bool) : Planning AssociationQuery :=
  match standalone, a.finderQuery with
  | true, some sql => pure (.standalone sql)
  | _, _ =>
    let extra := (q.associationConditions.get? a.aliasName).getD .empty
    match a.kind with
    | .belongsTo | .hasOne => s.planOne owner link a q extra standalone
    | .hasMany => s.planMany owner link a extra
    | .manyToMany => s.planManyToMany owner link a extra

/-! ### All associations -/

/-- Adds associations to a query one after another, and collects the follow-up queries. -/
def planAssociations (s : Source) (m : Model) (models : Models) (choosing : Bool) (q : Query)
    (followUps : List FollowUp) : List Association → Planning (Query × List FollowUp)
  | [] => pure (q, followUps)
  | a :: rest =>
    match models.get? a.target with
    | none => throw (.unknownModel a.aliasName a.target)
    | some link =>
      if a.kind.isJoinable then do
        let planned ← s.planAssociation m link (a.narrow choosing) q false
        match planned with
        | .joined q => s.planAssociations m models choosing q followUps rest
        | .standalone _ => s.planAssociations m models choosing q followUps rest
      else do
        let planned ← s.planAssociation m link a q true
        match planned with
        | .standalone sql =>
          s.planAssociations m models choosing q (followUps ++ [⟨a.aliasName, a.kind, sql⟩]) rest
        | .joined _ => s.planAssociations m models choosing q followUps rest

/-- The queries that read the records of a model with all its associations. Joins of the caller
come after those of associations. -/
def read (s : Source) (m : Model) (models : Models) (q : Query) : Planning ReadPlan := do
  let fields ← s.mainFields m q
  let (planned, followUps) ←
    s.planAssociations m models (!q.fields.isEmpty) { q with fields, joins := [] } [] m.associations
  let sql ← s.selectModel m (q.joins.foldl Query.addJoin planned)
  pure ⟨sql, followUps⟩

/-! ### Filling in keys -/

/-- A follow-up query with the keys of the records found; there is none to run without them. -/
def fillIds (s : Source) (sql : Text) (ids : List Value) : Render (Option Text) :=
  if ids.isEmpty then pure none
  else do
    let written ← s.values ids none
    let list := Text.join ", " written
    let filled := Text.replace deferredIdMarker list sql
    pure <| some <|
      if 1 < ids.length then Text.replace ("= (" ++ list) ("IN (" ++ list) filled else filled

/-- A follow-up query with the foreign key of the record found. -/
def fillForeignKey (s : Source) (sql : Text) (v : Value) : Render Text := do
  let written ← s.value v none
  pure (Text.replace deferredForeignKeyMarker written sql)

end Source

end SqlComposer
