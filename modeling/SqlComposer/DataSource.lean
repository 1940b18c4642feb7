import SqlComposer.Memo
import SqlComposer.Selection.Fields

/-!
# Answering from memory

A data source answers the questions of a composition, and remembers the answers. A question is
described by the settings that its answer depends on, its kind and its arguments; the description
gives the key under which the answer is kept. While an answer is worked out further questions may
come up, and their answers are remembered first.
-/

namespace SqlComposer

/-! ### Questions -/

namespace Source

/-- What tells the questions of one source from those of another. -/
def identity (s : Source) : Json :=
  .object
    [("source".toList, .string s.name), ("schema".toList, Json.optional s.schema),
     ("flavor".toList, .string s.dialect.name),
     ("quotes".toList, Json.strings [[s.dialect.startQuote], [s.dialect.endQuote]])]

/-- The description of a question. -/
def describe (s : Source) (method : Text) (arguments : Json) : Text :=
  Json.print (.array [s.identity, .string method, arguments])

/-! ### Answers without memory -/

/-- A select list, with names quoted on the spot. -/
def fieldList (s : Source) (r : FieldRequest) : List Text :=
  (r.compose s).eval s.dialect.quoteName fun _ => []

/-- The result of a composition. -/
def eval {α : Type} (s : Source) (p : Render α) : α :=
  p.eval s.dialect.quoteName s.fieldList

end Source

/-- The arguments of a question for a select list. -/
def FieldRequest.toJson (r : FieldRequest) : Json :=
  .array
    [.string r.aliasName, .string r.modelName, .string r.modelAlias, .string r.table,
     Json.strings r.columns, .object (r.virtualFields.mapValues fun _ sql => .string sql).entries,
     Json.strings r.requested, .bool r.quoting]

/-! ### Answers with memory -/

/-- An answer that is looked up, or else worked out and kept. -/
def Source.remember (s : Source) (method : Text) (arguments : Json)
    (compute : StateM Memo Answer) : StateM Memo Answer := do
  let memo ← get
  if memo.enabled then
    let key := memo.hash (s.describe method arguments)
    match memo.get? method key with
    | some a => pure a
    | none => do
      let a ← compute
      modify fun memo => memo.put method key a
      pure a
  else compute

/-- A name in quotes. -/
def Source.answerName (s : Source) (t : Text) : StateM Memo Text := do
  let a ← s.remember "name" (.string t) <|
    match _h : Identifier.form s.dialect t with
    | .known text => pure (.text text)
    | .distinct rest => do
      let rest ← s.answerName rest
      pure (.text ("DISTINCT " ++ rest))
    | .aliased expr label => do
      let expr ← s.answerName expr
      let label ← s.answerName label
      pure (.text (expr ++ " AS " ++ label))
  pure a.toText
termination_by t.length
decreasing_by
  · exact Identifier.length_of_form_eq_distinct (by assumption)
  · exact (Identifier.length_of_form_eq_aliased (by assumption)).1
  · exact (Identifier.length_of_form_eq_aliased (by assumption)).2

/-- A select list. -/
def Source.answerFields (s : Source) (r : FieldRequest) : StateM Memo (List Text) := do
  let a ← s.remember "fields" r.toJson do
    let fields ← (r.compose s).run s.answerName fun _ => pure []
    pure (.list fields)
  pure a.toList

/-! ### Data sources -/

/-- Settings with a memory. -/
structure DataSource where
  source : Source
  memo : Memo

namespace DataSource

/-- A data source that remembers nothing yet. -/
def ofSource (source : Source) : DataSource :=
  ⟨source, { enabled := source.caching }⟩

/-- The result of a composition, and the data source after it. -/
def run {α : Type} (ds : DataSource) (p : Source → Render α) : α × DataSource :=
  let r := (p ds.source).run ds.source.answerName ds.source.answerFields |>.run ds.memo
  (r.1, { ds with memo := r.2 })

/-- Another dialect from here on; also gives the previous one. -/
def setDialect (ds : DataSource) (d : Dialect) : Dialect × DataSource :=
  (ds.source.dialect, { ds with source := { ds.source with dialect := d } })

/-- Another schema from here on; also gives the previous one. -/
def setSchema (ds : DataSource) (schema : Option Text) : Option Text × DataSource :=
  (ds.source.schema, { ds with source := { ds.source with schema } })

/-- Switches the memory on or off. -/
def setCaching (ds : DataSource) (caching : Bool) : DataSource :=
  ⟨{ ds.source with caching }, { ds.memo with enabled := caching }⟩

/-- Forgets all answers. -/
def flush (ds : DataSource) : DataSource :=
  { ds with memo := ds.memo.flush }

/-- The data source with another memory, which is on or off as the settings say. -/
def withMemo (ds : DataSource) (memo : Memo) : DataSource :=
  { ds with memo := { memo with enabled := ds.source.caching } }

end DataSource

end SqlComposer
