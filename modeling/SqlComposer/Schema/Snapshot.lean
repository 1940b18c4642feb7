import SqlComposer.Json.Reader
import SqlComposer.Schema.Table

/-!
# Schemas as JSON

A snapshot of a schema is a JSON text. What has its default is left out when it is written, and may
be left out when it is read. Members that mean nothing are ignored, but a member that is needed and
missing, a member given twice, or one of the wrong form spoils the whole text. In place of an object
with fixed members there may be an array of their values, in the order in which they are written.
-/

namespace SqlComposer

namespace Json

/-! ### Reading parts -/

/-- The values of fixed members, each if it is there. -/
def fixedMembers? (names : List Text) : Json → Option (List (Option Json))
  | .object members =>
    names.mapM fun name =>
      match members.filter fun m => m.1 = name with
      | [] => some none
      | [m] => some (some m.2)
      | _ => none
  | .array items =>
    if items.length ≤ names.length then
      some (items.map some ++ List.replicate (names.length - items.length) none)
    else none
  | _ => none

def text? : Json → Option Text
  | .string t => some t
  | _ => none

def bool? : Json → Option Bool
  | .bool b => some b
  | _ => none

/-- A text, or none for null. -/
def optionalText? : Json → Option (Option Text)
  | .null => some none
  | .string t => some (some t)
  | _ => none

/-- A natural number below 2 ^ 32. -/
def word? : Json → Option Nat
  | .number digits =>
    if Text.allDigits digits && Text.toNat digits < UInt32.size then some (Text.toNat digits) else none
  | _ => none

/-- A text, or a list of texts. -/
def texts? : Json → Option (List Text)
  | .string t => some [t]
  | .array items => items.mapM text?
  | _ => none

/-- A map from texts. -/
def map? {α : Type} (value? : Json → Option α) : Json → Option (OrderedMap Text α)
  | .object members =>
    (members.mapM fun m => (value? m.2).map fun v => (m.1, v)).map OrderedMap.ofList
  | _ => none

/-- The name of a case: a text, or an object with that one member and null. -/
def case? : Json → Option Text
  | .string t => some t
  | .object [(name, .null)] => some name
  | _ => none

/-- A case by its name, or none for null. -/
def optionalCase? {α : Type} (cases : List (Text × α)) : Json → Option (Option α)
  | .null => some none
  | j => (j.case?.bind fun name => cases.lookup name).map some

/-- A member that may be missing. -/
def orElse {α : Type} (value? : Json → Option α) (default : α) : Option Json → Option α
  | some j => value? j
  | none => some default

/-- A member that has to be there. -/
def required {α : Type} (value? : Json → Option α) (j : Option Json) : Option α :=
  j.bind value?

end Json

namespace KeyRole

def name : KeyRole → Text
  | .primary => "primary"
  | .unique => "unique"
  | .index => "index"

/-- The parts with their names. -/
def named : List (Text × KeyRole) :=
  [.primary, .unique, .index].map fun r => (r.name, r)

end KeyRole

namespace IndexKind

def name : IndexKind → Text
  | .fulltext => "fulltext"
  | .spatial => "spatial"

/-- The kinds with their names. -/
def named : List (Text × IndexKind) :=
  [.fulltext, .spatial].map fun k => (k.name, k)

end IndexKind

/-! ### Reading -/

/-- A column type by its name. -/
def ColumnType.ofJson? (j : Json) : Option ColumnType :=
  j.text?.bind fun t => (ColumnType.parse t).toOption

/-- A column. -/
def Column.ofJson? (j : Json) : Option Column := do
  let names : List Text :=
    ["type", "length", "null", "default", "key", "unsigned", "charset", "collate", "comment"]
  match ← j.fixedMembers? names with
  | [type, length, nullable, default, key, unsigned, charset, collate, comment] =>
    some
      { type := ← Json.required ColumnType.ofJson? type
        length := ← Json.orElse Json.optionalText? none length
        nullable := ← Json.orElse Json.bool? true nullable
        default := ← Json.orElse Json.optionalText? none default
        key := ← Json.orElse (Json.optionalCase? KeyRole.named) none key
        unsigned := ← Json.orElse Json.bool? false unsigned
        charset := ← Json.orElse Json.optionalText? none charset
        collate := ← Json.orElse Json.optionalText? none collate
        comment := ← Json.orElse Json.optionalText? none comment }
  | _ => none

/-- An index. -/
def Index.ofJson? (j : Json) : Option Index := do
  match ← j.fixedMembers? ["column", "unique", "type", "length"] with
  | [columns, unique, kind, lengths] =>
    some
      { columns := ← Json.required Json.texts? columns
        unique := ← Json.orElse Json.bool? false unique
        kind := ← Json.orElse (Json.optionalCase? IndexKind.named) none kind
        lengths := ← Json.orElse (Json.map? Json.word?) ∅ lengths }
  | _ => none

/-- Parameters of a table. -/
def TableParameters.ofJson? (j : Json) : Option TableParameters := do
  match ← j.fixedMembers? ["charset", "collate", "engine", "comment"] with
  | [charset, collate, engine, comment] =>
    some
      { charset := ← Json.orElse Json.optionalText? none charset
        collate := ← Json.orElse Json.optionalText? none collate
        engine := ← Json.orElse Json.optionalText? none engine
        comment := ← Json.orElse Json.optionalText? none comment }
  | _ => none

/-- A table. -/
def Table.ofJson? (j : Json) : Option Table := do
  match ← j.fixedMembers? ["name", "columns", "indexes", "parameters"] with
  | [name, columns, indexes, parameters] =>
    some
      { name := ← Json.required Json.text? name
        columns := ← Json.required (Json.map? Column.ofJson?) columns
        indexes := ← Json.orElse (Json.map? Index.ofJson?) ∅ indexes
        parameters := ← Json.orElse TableParameters.ofJson? {} parameters }
  | _ => none

/-- A schema. -/
def Schema.ofJson? (j : Json) : Option Schema := do
  match ← j.fixedMembers? ["tables"] with
  | [tables] => some ⟨← Json.required (Json.map? Table.ofJson?) tables⟩
  | _ => none

/-- The schema of a JSON text, if it is valid. A table without a name takes the one under which it
is listed. -/
def Schema.read (text : Text) : Except SchemaError Schema :=
  match (Json.read? text).bind Schema.ofJson? with
  | none => .error .malformed
  | some schema => do
    let named : Schema := ⟨schema.tables.mapValues fun name t =>
      if t.name.isEmpty then { t with name } else t⟩
    named.validate
    pure named

/-! ### Writing -/

/-- A member, if there is a value for it. -/
def Json.member? (name : Text) (value : Option Json) : List (Text × Json) :=
  (value.map fun v => (name, v)).toList

/-- A member that is a text, if there is one. -/
def Json.textMember? (name : Text) (t : Option Text) : List (Text × Json) :=
  Json.member? name (t.map .string)

/-- A map from texts. -/
def OrderedMap.toJson {α : Type} (value : α → Json) (m : OrderedMap Text α) : Json :=
  .object (m.mapValues fun _ v => value v).entries

/-- A column. -/
def Column.toJson (c : Column) : Json :=
  .object <|
    [("type".toList, .string c.type.name)] ++ Json.textMember? "length" c.length ++
      (if c.nullable then [] else [("null".toList, .bool false)]) ++
      Json.textMember? "default" c.default ++
      Json.textMember? "key" (c.key.map KeyRole.name) ++
      (if c.unsigned then [("unsigned".toList, .bool true)] else []) ++
      Json.textMember? "charset" c.charset ++ Json.textMember? "collate" c.collate ++
      Json.textMember? "comment" c.comment

/-- An index. -/
def Index.toJson (i : Index) : Json :=
  .object <|
    [("column".toList, Json.strings i.columns)] ++
      (if i.unique then [("unique".toList, .bool true)] else []) ++
      Json.textMember? "type" (i.kind.map IndexKind.name) ++
      (if i.lengths.isEmpty then [] else [("length".toList, i.lengths.toJson Json.nat)])

/-- Parameters of a table. -/
def TableParameters.toJson (p : TableParameters) : Json :=
  .object <|
    Json.textMember? "charset" p.charset ++ Json.textMember? "collate" p.collate ++
      Json.textMember? "engine" p.engine ++ Json.textMember? "comment" p.comment

/-- A table. -/
def Table.toJson (t : Table) : Json :=
  .object <|
    [("name".toList, .string t.name), ("columns".toList, t.columns.toJson Column.toJson)] ++
      (if t.indexes.isEmpty then [] else [("indexes".toList, t.indexes.toJson Index.toJson)]) ++
      (if t.parameters.isEmpty then [] else [("parameters".toList, t.parameters.toJson)])

/-- A schema. -/
def Schema.toJson (s : Schema) : Json :=
  .object [("tables".toList, s.tables.toJson Table.toJson)]

end SqlComposer
