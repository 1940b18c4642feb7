import SqlComposer.Proofs.Attempt
import SqlComposer.Proofs.PrimaryKey
import SqlComposer.Schema.Migration

/-!
# Migrations change by change

The difference of two versions of a table is a row of changes. Each is written on its own: as items
of one statement that alters the table, or as statements behind it. Which is which depends on the
dialect, and so does the order of the whole, but within the items and within the statements the
changes keep their order.
-/

namespace SqlComposer

/-! ### Changes one by one -/

/-- One of the changes of a table. -/
inductive TableStep where
  | addColumn (name : Text) (column : AddedColumn)
  | dropColumn (name : Text)
  | changeColumn (name : Text) (column : Column)
  | dropIndex (name : Text)
  | addIndex (name : Text) (index : Index)
  | setParameters (parameters : TableParameters)
deriving DecidableEq

namespace TableStep

/-- Whether a change is written in the statement that alters the table, and not in statements of its
own. -/
def isItem (dialect : Dialect) : TableStep → Bool
  | .dropIndex name | .addIndex name _ =>
    dialect = .mySql || dialect = .postgreSql && name = primaryName
  | _ => dialect = .mySql || dialect = .postgreSql

/-- Whether a change is one of columns or indexes, and not of parameters. -/
def isStructural : TableStep → Bool
  | .setParameters _ => false
  | _ => true

/-- The name of the index that goes. -/
def dropped? : TableStep → Option Text
  | .dropIndex name => some name
  | _ => none

/-- The name of the index that is new. -/
def added? : TableStep → Option Text
  | .addIndex name _ => some name
  | _ => none

end TableStep

namespace TableDiff

/-- The changes one by one. -/
def steps (d : TableDiff) : List TableStep :=
  d.add.entries.map (fun e => .addColumn e.1 e.2) ++ d.drop.map .dropColumn ++
    d.change.entries.map (fun e => .changeColumn e.1 e.2) ++ d.dropIndexes.map .dropIndex ++
    d.addIndexes.entries.map (fun e => .addIndex e.1 e.2) ++
    d.parameters.toList.map .setParameters

/-- The changes in the statement that alters the table. -/
def items (dialect : Dialect) (d : TableDiff) : List TableStep :=
  d.steps.filter (·.isItem dialect)

/-- The changes in statements of their own. -/
def statements (dialect : Dialect) (d : TableDiff) : List TableStep :=
  d.steps.filter (!·.isItem dialect)

/-- The changes in the order in which they are written. -/
def script (dialect : Dialect) (d : TableDiff) : List TableStep :=
  d.items dialect ++ d.statements dialect

end TableDiff

namespace Source

variable (s : Source) (name : Text) (d : TableDiff)

/-- The name of a table in the statements that alter it. -/
def alteredName : Text :=
  s.eval (s.tableName name none none)

/-- What stands in front of the definition of a new column. -/
def addLead : Text :=
  match s.dialect with
  | .mySql => "ADD "
  | .postgreSql => "ADD COLUMN "
  | .sqlServer => "ALTER TABLE " ++ s.alteredName name ++ " ADD "
  | .sqlite => "ALTER TABLE " ++ s.alteredName name ++ " ADD COLUMN "

/-- What stands behind the definition of a new column. -/
def addTrail (a : AddedColumn) : Text :=
  match s.dialect with
  | .mySql => (a.after.map fun after => " AFTER " ++ s.dialect.quoteName after).getD []
  | .postgreSql => []
  | .sqlServer | .sqlite => ";"

/-- The texts that a change is written as. -/
def stepTexts : TableStep → List Text
  | .addColumn column a =>
    [s.addLead name ++ s.eval (s.diffColumnSql d column a.column) ++ s.addTrail a]
  | .dropColumn column =>
    match s.dialect with
    | .mySql => [s.eval (withName "DROP " column)]
    | .postgreSql => [s.eval (withName "DROP COLUMN " column)]
    | .sqlServer | .sqlite => [s.eval (Source.dropColumn (s.alteredName name) column)]
  | .changeColumn column c =>
    match s.dialect with
    | .mySql => [s.eval (s.mySqlChange d (column, c))]
    | .postgreSql => s.eval (s.postgreSqlChange (column, c))
    | .sqlServer => [s.eval (s.sqlServerChange (s.alteredName name) (column, c))]
    | .sqlite => []
  | .dropIndex index =>
    match s.dialect with
    | .mySql => [s.eval (mySqlDropIndex index)]
    | .postgreSql =>
      let written := s.eval (postgreSqlDropIndex name index)
      written.items ++ written.statements
    | .sqlServer => [s.eval (sqlServerDropIndex (s.alteredName name) name index)]
    | .sqlite => [s.eval (withName "DROP INDEX " index) ++ ";"]
  | .addIndex index i =>
    let written := s.eval (s.indexSql (s.alteredName name) (index, i))
    match s.dialect with
    | .mySql | .postgreSql => written.items.map ("ADD ".toList ++ ·) ++ written.statements
    | .sqlServer =>
      written.items.map (fun item => "ALTER TABLE " ++ s.alteredName name ++ " ADD " ++ item ++ ";")
        ++ written.statements
    | .sqlite => written.statements
  | .setParameters p => s.tableParameters p

/-- What a change is about, in the words of its texts. -/
def stepSubject : TableStep → Text
  | .addColumn column _ | .dropColumn column | .changeColumn column _ => s.dialect.quoteName column
  | .dropIndex index =>
    if index = primaryName then
      match s.dialect with
      | .postgreSql => s.dialect.quoteName (name ++ "_pkey")
      | .sqlServer => s.dialect.quoteName ("PK_" ++ name)
      | .mySql | .sqlite => "PRIMARY KEY"
    else s.dialect.quoteName index
  | .addIndex index _ => if index = primaryName then "PRIMARY KEY" else s.dialect.quoteName index
  | .setParameters _ => []

/-- The statements that alter a table: one with the items, if there are any, then the others. -/
def scriptText : Text :=
  let items := (d.items s.dialect).flatMap (s.stepTexts name d)
  let statements := (d.statements s.dialect).flatMap (s.stepTexts name d)
  Text.join "\n"
    ((if items.isEmpty then [] else [alterStatement (s.alteredName name) items]) ++ statements)

end Source

/-! ### The primary key in front -/

@[simp] theorem primaryFirst_primaryFirst (names : List Text) :
    primaryFirst (primaryFirst names) = primaryFirst names := by
  simp [primaryFirst, List.filter_append, List.filter_filter]

theorem nodup_primaryFirst {names : List Text} (h : names.Nodup) : (primaryFirst names).Nodup := by
  have hp : (primaryFirst names).Perm names := by
    simpa [primaryFirst] using List.filter_append_perm (· = primaryName) names
  exact hp.nodup_iff.2 h

/-- With the primary key in front it is nowhere else. -/
theorem ne_primaryName_of_mem_tail {names : List Text} (hn : names.Nodup)
    (h : primaryFirst names = names) : ∀ name ∈ names.tail, name ≠ primaryName := by
  cases names with
  | nil => simp
  | cons first rest =>
    rintro name hr rfl
    rw [List.nodup_cons] at hn
    have hf : first ≠ primaryName := fun he => hn.1 (he ▸ hr)
    rw [primaryFirst, List.filter_cons_of_neg (by simpa using hf)] at h
    cases hp : rest.filter (· = primaryName) with
    | nil => exact List.filter_eq_nil_iff.1 hp _ hr (by simp)
    | cons p ps =>
      rw [hp, List.cons_append] at h
      have hm : p ∈ rest.filter (· = primaryName) := hp ▸ List.mem_cons_self
      have : p = primaryName := by simpa using (List.mem_filter.1 hm).2
      exact hf ((List.cons.inj h).1 ▸ this)

theorem OrderedMap.keys_front {β : Type} (m : OrderedMap Text β) :
    (m.front primaryName).keys = primaryFirst m.keys := by
  have heq : m.keys.filter (· = primaryName) =
      List.replicate (m.keys.count primaryName) primaryName := List.filter_eq _
  unfold OrderedMap.front
  split
  · next v hv =>
    have hm : primaryName ∈ m.keys := mem_keys_iff_get?.2 ⟨v, hv⟩
    rw [keys_insertAt, primaryFirst, heq, List.count_eq_one_of_mem m.nodup_keys hm]
    rfl
  · next hv =>
    have hm : primaryName ∉ m.keys := get?_eq_none_iff.1 hv
    rw [primaryFirst, heq, List.count_eq_zero_of_not_mem hm, List.replicate_zero, List.nil_append,
      eq_comm, List.filter_eq_self]
    intro n hn
    simpa using fun he : n = primaryName => hm (he ▸ hn)

/-- Whether the primary key comes before the other indexes. -/
structure TableDiff.PrimaryFirst (d : TableDiff) : Prop where
  dropped : primaryFirst d.dropIndexes = d.dropIndexes
  added : primaryFirst d.addIndexes.keys = d.addIndexes.keys

/-! ### The text of a script -/

theorem TableDiff.flatMap_steps {β : Type} (d : TableDiff) (f : TableStep → List β) :
    d.steps.flatMap f =
      d.add.entries.flatMap (fun e => f (.addColumn e.1 e.2)) ++
        d.drop.flatMap (fun n => f (.dropColumn n)) ++
        d.change.entries.flatMap (fun e => f (.changeColumn e.1 e.2)) ++
        d.dropIndexes.flatMap (fun n => f (.dropIndex n)) ++
        d.addIndexes.entries.flatMap (fun e => f (.addIndex e.1 e.2)) ++
        d.parameters.toList.flatMap (fun p => f (.setParameters p)) := by
  simp only [steps, List.flatMap_append, List.flatMap_map]

theorem flatMap_nil {α β : Type} (as : List α) : (as.flatMap fun _ => ([] : List β)) = [] := by
  simp

theorem flatMap_filter {α β : Type} (p : α → Bool) (f : α → List β) (as : List α) :
    (as.filter p).flatMap f = as.flatMap fun a => if p a then f a else [] := by
  induction as with
  | nil => rfl
  | cons a as ih =>
    rw [List.filter_cons, List.flatMap_cons]
    split
    · rw [List.flatMap_cons, ih]
    · rw [ih, List.nil_append]

namespace Source

variable {s : Source} {name : Text} {d : TableDiff}

/-- The columns of an index between parentheses. -/
def indexColumnsSql (s : Source) (i : Index) : Text :=
  "(" ++ Text.join ", " (i.columns.map fun c => s.eval (s.indexColumn i c)) ++ ")"

theorem eval_indexSql (table : Text) (e : Text × Index) :
    s.eval (s.indexSql table e) =
      if e.1 = primaryName then { items := ["PRIMARY KEY " ++ s.indexColumnsSql e.2] }
      else if s.dialect.hasInlineIndexes then
        { items :=
            [indexKindSql e.2 ++ "KEY " ++ s.dialect.quoteName e.1 ++ " " ++ s.indexColumnsSql e.2] }
      else
        { statements :=
            ["CREATE " ++ (if e.2.unique then "UNIQUE " else [] : Text) ++ "INDEX " ++
              s.dialect.quoteName e.1 ++ " ON " ++ table ++ " " ++ s.indexColumnsSql e.2 ++ ";"] } := by
  simp only [indexSql, eval_bind, eval_each]
  split
  · rfl
  · simp only [eval_bind, eval_ask]
    split <;> rfl

theorem eval_buildIndexes (m : OrderedMap Text Index) :
    s.eval (s.buildIndexes name m) =
      ⟨m.entries.flatMap fun e => (s.eval (s.indexSql (s.alteredName name) e)).items,
        m.entries.flatMap fun e => (s.eval (s.indexSql (s.alteredName name) e)).statements⟩ := by
  simp only [buildIndexes, eval_bind, eval_each, eval_pure, alteredName, List.flatMap_map]

theorem statements_of_mySql (hs : s.dialect = .mySql) (table : Text) (e : Text × Index) :
    (s.eval (s.indexSql table e)).statements = [] := by
  rw [eval_indexSql]
  split
  · rfl
  · rw [hs]
    rfl

theorem eval_mySqlAdd (hs : s.dialect = .mySql) (e : Text × AddedColumn) :
    s.eval (s.mySqlAdd d e) =
      s.addLead name ++ s.eval (s.diffColumnSql d e.1 e.2.column) ++ s.addTrail e.2 := by
  simp only [mySqlAdd, addLead, addTrail, eval_bind, hs]
  cases e.2.after with
  | none => exact (List.append_nil _).symm
  | some after => simp only [eval_bind, eval_pure, withName, eval_ask, hs]; rfl

theorem eval_addColumn (head : Text) (e : Text × AddedColumn) :
    s.eval (s.addColumn d head e) = head ++ s.eval (s.diffColumnSql d e.1 e.2.column) ++ ";" := by
  simp only [addColumn, eval_bind, eval_pure]

theorem eval_alterMySql (hs : s.dialect = .mySql) :
    s.eval (s.alterMySql name d) = s.scriptText name d := by
  -- MySQL takes every step as an item of one statement.
  have hi : ∀ step : TableStep, step.isItem s.dialect = true := by
    intro step
    cases step <;> simp [TableStep.isItem, hs]
  have hp : d.parameters.toList.flatMap s.tableParameters =
      (d.parameters.map s.tableParameters).getD [] := by
    cases d.parameters <;> simp
  have hitems : d.steps.flatMap (s.stepTexts name d) =
      d.add.entries.map (fun e => s.eval (s.mySqlAdd d e)) ++
        d.drop.map (fun n => s.eval (withName "DROP " n)) ++
        d.change.entries.map (fun e => s.eval (s.mySqlChange d e)) ++
        d.dropIndexes.map (fun n => s.eval (mySqlDropIndex n)) ++
        (s.eval (s.buildIndexes name d.addIndexes)).items.map ("ADD ".toList ++ ·) ++
        (d.parameters.map s.tableParameters).getD [] := by
    simp only [TableDiff.flatMap_steps, stepTexts, ← eval_mySqlAdd hs, hs, ← List.map_eq_flatMap,
      statements_of_mySql hs, List.append_nil, eval_buildIndexes, List.map_flatMap, hp]
  simp only [scriptText, TableDiff.items, TableDiff.statements, hi, List.filter_true, Bool.not_true, List.filter_false, List.flatMap_nil,
    List.append_nil, hitems]
  simp only [alterMySql, eval_bind, eval_each]
  split
  · rfl
  · simp only [eval_bind, eval_pure, alteredName, Text.join_singleton]

/-- Only the primary key is an item where indexes cannot be declared inside a table. -/
theorem items_of_ne (hs : s.dialect ≠ .mySql) {e : Text × Index} (he : e.1 ≠ primaryName)
    (table : Text) : (s.eval (s.indexSql table e)).items = [] := by
  have hi : s.dialect.hasInlineIndexes = false := by simp [Dialect.hasInlineIndexes, hs]
  rw [eval_indexSql, if_neg he, hi]
  rfl

theorem statements_of_eq {e : Text × Index} (he : e.1 = primaryName) (table : Text) :
    (s.eval (s.indexSql table e)).statements = [] := by
  rw [eval_indexSql, if_pos he]

theorem eval_postgreSqlDropIndex (table name : Text) :
    s.eval (postgreSqlDropIndex table name) =
      if name = primaryName then
        { items := ["DROP CONSTRAINT " ++ s.dialect.quoteName (table ++ "_pkey")] }
      else { statements := ["DROP INDEX " ++ s.dialect.quoteName name ++ ";"] } := by
  unfold postgreSqlDropIndex
  split <;> rfl

/-- Where a change is written as items or as statements, depending on which it is, each part of the
script has its share of it. -/
theorem ite_items_statements {b : Bool} {items statements : List Text}
    (hs : b = true → statements = []) (hi : b = false → items = []) :
    (if b then items ++ statements else []) = items ∧
      (if !b then items ++ statements else []) = statements := by
  cases b with
  | true => simp [hs rfl]
  | false => simp [hi rfl]

theorem eval_alterPostgreSql (hs : s.dialect = .postgreSql) :
    s.eval (s.alterPostgreSql name d) = s.scriptText name d := by
  have hn : s.dialect ≠ .mySql := by simp [hs]
  have hdrop (n : Text) := @ite_items_statements (n = primaryName)
    (s.eval (postgreSqlDropIndex name n)).items (s.eval (postgreSqlDropIndex name n)).statements
    (fun h => by rw [eval_postgreSqlDropIndex, if_pos (by simpa using h)])
    (fun h => by rw [eval_postgreSqlDropIndex, if_neg (by simpa using h)])
  have hadd (e : Text × Index) := @ite_items_statements (e.1 = primaryName)
    ((s.eval (s.indexSql (s.alteredName name) e)).items.map ("ADD ".toList ++ ·))
    (s.eval (s.indexSql (s.alteredName name) e)).statements
    (fun h => statements_of_eq (by simpa using h) _)
    (fun h => by rw [items_of_ne hn (by simpa using h), List.map_nil])
  have hp : ∀ p, s.tableParameters p = [] := by simp [tableParameters, hn]
  simp only [decide_eq_true_eq, Bool.not_eq_true', decide_eq_false_iff_not] at hdrop hadd
  simp only [scriptText, TableDiff.items, TableDiff.statements, flatMap_filter, TableDiff.flatMap_steps, TableStep.isItem, stepTexts, hs,
    reduceCtorEq, decide_false, decide_true, Bool.false_or, Bool.true_and, Bool.or_true,
    if_true, if_false, hdrop, hadd, hp, decide_eq_true_eq, Bool.not_eq_true',
    decide_eq_false_iff_not]
  simp only [alterPostgreSql, eval_bind, eval_each, eval_pure, eval_buildIndexes, flatMap_nil,
    ← List.map_eq_flatMap, ← List.flatMap_def, List.flatMap_map, List.map_flatMap, List.append_nil,
    List.nil_append, List.append_assoc, alteredName, addLead, addTrail, hs]

theorem scriptText_of_statements (hi : ∀ step : TableStep, step.isItem s.dialect = false) :
    s.scriptText name d = Text.join "\n" (d.steps.flatMap (s.stepTexts name d)) := by
  simp only [scriptText, TableDiff.items, TableDiff.statements, hi, List.filter_false, List.flatMap_nil, Bool.not_false, List.filter_true]
  rfl

/-- With the primary key in front, the items of indexes come before the statements. -/
theorem flatMap_indexes (hs : s.dialect ≠ .mySql) (table : Text) (g : Text → Text)
    {es : List (Text × Index)} (he : ∀ e ∈ es.tail, e.1 ≠ primaryName) :
    (es.flatMap fun e => (s.eval (s.indexSql table e)).items.map g ++
        (s.eval (s.indexSql table e)).statements) =
      (es.flatMap fun e => (s.eval (s.indexSql table e)).items.map g) ++
        es.flatMap fun e => (s.eval (s.indexSql table e)).statements := by
  cases es with
  | nil => rfl
  | cons e es =>
    have hnil : ∀ e ∈ es, (s.eval (s.indexSql table e)).items = [] :=
      fun e h => items_of_ne hs (he e h) table
    have hrest : (es.flatMap fun e => (s.eval (s.indexSql table e)).items.map g) = [] := by
      simp only [List.flatMap_eq_nil_iff, List.map_eq_nil_iff]
      exact hnil
    have hboth : (es.flatMap fun e => (s.eval (s.indexSql table e)).items.map g ++
        (s.eval (s.indexSql table e)).statements) =
          es.flatMap fun e => (s.eval (s.indexSql table e)).statements :=
      List.flatMap_congr fun e h => by rw [hnil e h, List.map_nil, List.nil_append]
    simp only [List.flatMap_cons, hrest, hboth, List.append_nil, List.append_assoc]

theorem eval_alterSqlServer (hs : s.dialect = .sqlServer) (hd : d.PrimaryFirst) :
    s.eval (s.alterSqlServer name d) = s.scriptText name d := by
  have hn : s.dialect ≠ .mySql := by simp [hs]
  have hi : ∀ step : TableStep, step.isItem s.dialect = false := by
    intro step
    cases step <;> simp [TableStep.isItem, hs]
  have hp : ∀ p, s.tableParameters p = [] := by simp [tableParameters, hn]
  rw [scriptText_of_statements hi]
  have hadd : ∀ e ∈ d.addIndexes.entries.tail, e.1 ≠ primaryName := fun e he =>
    ne_primaryName_of_mem_tail d.addIndexes.nodup_keys hd.added _ (by
      rw [OrderedMap.keys, ← List.map_tail]
      exact List.mem_map_of_mem he)
  simp only [TableDiff.flatMap_steps, stepTexts, hs, hp, flatMap_nil, flatMap_indexes hn _ _ hadd]
  simp only [alterSqlServer, eval_bind, eval_each, eval_pure, eval_buildIndexes, List.map_flatMap,
    eval_addColumn, ← List.map_eq_flatMap, List.append_nil, List.append_assoc, alteredName, addLead,
    addTrail, hs]

theorem eval_alterSqlite (hs : s.dialect = .sqlite) :
    s.eval (s.alterSqlite name d) = s.scriptText name d := by
  have hn : s.dialect ≠ .mySql := by simp [hs]
  have hi : ∀ step : TableStep, step.isItem s.dialect = false := by
    intro step
    cases step <;> simp [TableStep.isItem, hs]
  have hp : ∀ p, s.tableParameters p = [] := by simp [tableParameters, hn]
  rw [scriptText_of_statements hi]
  simp only [TableDiff.flatMap_steps, stepTexts, hs, hp, flatMap_nil]
  simp only [alterSqlite, eval_bind, eval_each, eval_pure, eval_buildIndexes,
    eval_addColumn, ← List.map_eq_flatMap, List.append_nil, List.append_assoc, alteredName, addLead,
    addTrail, hs]

/-- Why the changes of a table cannot be made, if they cannot. -/
def refusal (s : Source) (name : Text) (d : TableDiff) : Option SchemaError :=
  if s.dialect = .sqlite then sqliteRefusal name d else none

/-- The changes of a table come out as the script, if they can be made. -/
theorem eval_alterTable (hd : d.PrimaryFirst) :
    s.eval (s.alterTable name d).run =
      match s.refusal name d with
      | some e => .error e
      | none => .ok (s.scriptText name d) := by
  unfold alterTable refusal
  cases hs : s.dialect with
  | mySql => simp only [reduceCtorEq, if_false, eval_attempt_liftM, eval_alterMySql hs]
  | postgreSql => simp only [reduceCtorEq, if_false, eval_attempt_liftM, eval_alterPostgreSql hs]
  | sqlServer => simp only [reduceCtorEq, if_false, eval_attempt_liftM, eval_alterSqlServer hs hd]
  | sqlite =>
    simp only [if_true]
    cases sqliteRefusal name d with
    | none => simp only [eval_attempt_liftM, eval_alterSqlite hs]
    | some e => rfl

/-! ### What the texts of a change say -/

theorem eval_withName (head n : Text) : s.eval (withName head n) = head ++ s.dialect.quoteName n := rfl

theorem eval_columnSql (n : Text) (c : Column) (auto : Bool) :
    s.eval (s.columnSql n c auto) =
      s.dialect.quoteName n ++ " " ++ (if auto then s.autoIncrementSql c else s.plainColumnSql c) :=
  rfl

theorem isInfix_diffColumnSql (d : TableDiff) (n : Text) (c : Column) :
    s.dialect.quoteName n <:+: s.eval (s.diffColumnSql d n c) := by
  rw [diffColumnSql, eval_columnSql, List.append_assoc]
  exact (List.prefix_append _ _).isInfix

theorem isInfix_left {q a : Text} (h : q <:+: a) (b : Text) : q <:+: a ++ b :=
  h.trans (List.prefix_append a b).isInfix

theorem isInfix_right {q b : Text} (h : q <:+: b) (a : Text) : q <:+: a ++ b :=
  h.trans (List.suffix_append a b).isInfix

/-- What SQLite does not refuse leaves the columns and the primary key as they are. -/
theorem of_refusal_eq_none (hr : s.refusal name d = none) (hs : s.dialect = .sqlite) :
    d.change.entries = [] ∧ primaryName ∉ d.dropIndexes ∧ primaryName ∉ d.addIndexes.keys := by
  rw [refusal, if_pos hs, sqliteRefusal] at hr
  split at hr
  · cases hr
  · next hc =>
    split at hr
    · cases hr
    · next hp =>
      simp only [Bool.not_eq_true, Bool.not_eq_false', OrderedMap.isEmpty, List.isEmpty_iff] at hc
      rw [List.contains_iff_mem, List.mem_append, not_or] at hp
      exact ⟨hc, hp⟩

/-- Whether there are texts, and all of them mention something. -/
def Mentions (subject : Text) (texts : List Text) : Prop :=
  texts ≠ [] ∧ ∀ t ∈ texts, subject <:+: t

theorem mentions_singleton {q t : Text} (h : q <:+: t) : Mentions q [t] :=
  ⟨List.cons_ne_nil _ _, fun _ ht => List.mem_singleton.1 ht ▸ h⟩

theorem eval_postgreSqlChange (e : Text × Column) :
    ∃ type nullable default : Text, s.eval (s.postgreSqlChange e) =
      [("ALTER COLUMN " ++ s.dialect.quoteName e.1) ++ " TYPE " ++ type,
        ("ALTER COLUMN " ++ s.dialect.quoteName e.1) ++ nullable,
        ("ALTER COLUMN " ++ s.dialect.quoteName e.1) ++ default] :=
  ⟨_, _, _, rfl⟩

theorem mentions_dropColumn (n : Text) :
    Mentions (s.dialect.quoteName n) (s.stepTexts name d (.dropColumn n)) := by
  have hq (head : Text) : s.dialect.quoteName n <:+: s.eval (withName head n) :=
    isInfix_right List.infix_rfl head
  have ht : s.dialect.quoteName n <:+: s.eval (dropColumn (s.alteredName name) n) :=
    isInfix_left (isInfix_right (hq _) _) _
  unfold stepTexts
  dsimp only
  split
  · exact mentions_singleton (hq _)
  · exact mentions_singleton (hq _)
  · exact mentions_singleton ht
  · exact mentions_singleton ht

theorem mentions_changeColumn (hs : s.dialect ≠ .sqlite) (n : Text) (c : Column) :
    Mentions (s.dialect.quoteName n) (s.stepTexts name d (.changeColumn n c)) := by
  have hq (head : Text) : s.dialect.quoteName n <:+: head ++ s.dialect.quoteName n :=
    isInfix_right List.infix_rfl head
  unfold stepTexts
  dsimp only
  split
  · exact mentions_singleton (isInfix_right (isInfix_diffColumnSql d n c) _)
  · obtain ⟨type, nullable, default, he⟩ := eval_postgreSqlChange (s := s) (n, c)
    rw [he]
    refine ⟨List.cons_ne_nil _ _, fun t ht => ?_⟩
    simp only [List.mem_cons, List.not_mem_nil, or_false] at ht
    rcases ht with rfl | rfl | rfl
    · exact isInfix_left (isInfix_left (hq _) _) _
    · exact isInfix_left (hq _) _
    · exact isInfix_left (hq _) _
  · exact mentions_singleton (isInfix_left (isInfix_left (isInfix_left (hq _) _) _) _)
  · next h => exact absurd h hs

theorem mentions_dropIndex {n : Text} (hs : s.dialect = .sqlite → n ≠ primaryName) :
    Mentions (s.stepSubject name (.dropIndex n)) (s.stepTexts name d (.dropIndex n)) := by
  have hq (head q : Text) : q <:+: head ++ q := isInfix_right List.infix_rfl head
  unfold stepTexts stepSubject
  dsimp only
  cases hd : s.dialect with
  | mySql =>
    simp only [mySqlDropIndex]
    split
    · exact mentions_singleton (hq "DROP " _)
    · rw [eval_withName, hd]
      exact mentions_singleton (hq _ _)
  | postgreSql =>
    simp only [eval_postgreSqlDropIndex, hd]
    split
    · exact mentions_singleton (hq _ _)
    · exact mentions_singleton (isInfix_left (hq _ _) _)
  | sqlServer =>
    simp only [sqlServerDropIndex]
    split
    · simp only [eval_bind, eval_withName, eval_pure, hd]
      exact mentions_singleton (isInfix_left (isInfix_right (hq _ _) _) _)
    · simp only [eval_bind, eval_withName, eval_pure, hd]
      exact mentions_singleton (isInfix_left (isInfix_left (isInfix_left (hq _ _) _) _) _)
  | sqlite =>
    rw [if_neg (hs hd), eval_withName, hd]
    exact mentions_singleton (isInfix_left (hq _ _) _)

/-- A new index is one text, an item or a statement. -/
theorem exists_eval_indexSql (table : Text) (e : Text × Index) :
    ∃ t, (if e.1 = primaryName then "PRIMARY KEY".toList else s.dialect.quoteName e.1) <:+: t ∧
      (s.eval (s.indexSql table e) = { items := [t] } ∧ (e.1 = primaryName ∨ s.dialect = .mySql) ∨
        s.eval (s.indexSql table e) = { statements := [t] }) := by
  rw [eval_indexSql]
  split
  · next he =>
    exact ⟨_, ⟨[], ' ' :: s.indexColumnsSql e.2, rfl⟩, .inl ⟨rfl, .inl he⟩⟩
  · have hq (head : Text) : s.dialect.quoteName e.1 <:+: head ++ s.dialect.quoteName e.1 :=
      isInfix_right List.infix_rfl head
    split
    · next hi =>
      exact ⟨_, isInfix_left (isInfix_left (hq _) _) _,
        .inl ⟨rfl, .inr (by simpa [Dialect.hasInlineIndexes] using hi)⟩⟩
    · refine ⟨_, ?_, .inr rfl⟩
      exact isInfix_left (isInfix_left (isInfix_left (isInfix_left (isInfix_left (hq _) _) _) _) _) _

theorem mentions_addIndex {n : Text} (hs : s.dialect = .sqlite → n ≠ primaryName) (i : Index) :
    Mentions (s.stepSubject name (.addIndex n i)) (s.stepTexts name d (.addIndex n i)) := by
  have hsubject : s.stepSubject name (.addIndex n i) =
      if n = primaryName then "PRIMARY KEY".toList else s.dialect.quoteName n := rfl
  rw [hsubject]
  obtain ⟨t, ht, he⟩ := exists_eval_indexSql (s := s) (s.alteredName name) (n, i)
  dsimp only at ht he
  generalize (if n = primaryName then "PRIMARY KEY".toList else s.dialect.quoteName n) = q at ht ⊢
  unfold stepTexts
  -- The index is an item of the table or a statement of its own.
  rcases he with ⟨he, hi⟩ | he
  · simp only [he, List.map_cons, List.map_nil, List.append_nil]
    split
    · exact mentions_singleton (isInfix_right ht _)
    · exact mentions_singleton (isInfix_right ht _)
    · exact mentions_singleton (isInfix_left (isInfix_right ht _) _)
    · next hd =>
      rcases hi with hi | hi
      · exact absurd hi (hs hd)
      · rw [hd] at hi
        cases hi
  · simp only [he, List.map_nil, List.nil_append]
    split <;> exact mentions_singleton ht

/-- A change of columns or indexes that can be made is written, and its texts say what it is
about. -/
theorem mentions_step (hr : s.refusal name d = none) {step : TableStep} (h : step ∈ d.steps)
    (hs : step.isStructural = true) :
    Mentions (s.stepSubject name step) (s.stepTexts name d step) := by
  cases step with
  | addColumn n a =>
    exact mentions_singleton (isInfix_left (isInfix_right (isInfix_diffColumnSql d n _) _) _)
  | dropColumn n => exact mentions_dropColumn n
  | changeColumn n c =>
    refine mentions_changeColumn (fun hd => ?_) n c
    have hc := (of_refusal_eq_none hr hd).1
    simp [TableDiff.steps, hc] at h
  | dropIndex n =>
    refine mentions_dropIndex fun hd he => (of_refusal_eq_none hr hd).2.1 ?_
    simpa [TableDiff.steps, he] using h
  | addIndex n i =>
    refine mentions_addIndex (fun hd he => (of_refusal_eq_none hr hd).2.2 ?_) i
    have hm : (n, i) ∈ d.addIndexes.entries := by simpa [TableDiff.steps] using h
    exact he ▸ List.mem_map_of_mem hm
  | setParameters p => cases hs

end Source

/-! ### The order of a script -/

namespace TableDiff

variable {d : TableDiff} {dialect : Dialect}

theorem script_perm_steps (dialect : Dialect) (d : TableDiff) : (d.script dialect).Perm d.steps :=
  List.filter_append_perm _ _

/-- Two changes stay in order if the second is an item only together with the first. -/
theorem pair_sublist_script {a b : TableStep} (h : [a, b].Sublist d.steps)
    (hi : b.isItem dialect = true → a.isItem dialect = true) :
    [a, b].Sublist (d.script dialect) := by
  have hfst := h.filter (·.isItem dialect)
  have hsnd := h.filter (!·.isItem dialect)
  rw [script, items, statements]
  cases ha : a.isItem dialect with
  | true =>
    cases hb : b.isItem dialect with
    | true =>
      simp only [List.filter_cons, ha, hb, if_true, List.filter_nil] at hfst
      exact hfst.trans (List.sublist_append_left _ _)
    | false =>
      simp only [List.filter_cons, ha, hb, Bool.not_true, Bool.not_false, Bool.false_eq_true,
        if_true, if_false, List.filter_nil] at hfst hsnd
      exact hfst.append hsnd
  | false =>
    have hb : b.isItem dialect = false := by
      rw [← Bool.not_eq_true]
      exact fun hb => Bool.false_ne_true (ha.symm.trans (hi hb))
    simp only [List.filter_cons, ha, hb, Bool.not_false, if_true, List.filter_nil] at hsnd
    exact hsnd.trans (List.sublist_append_right _ _)

theorem pair_sublist_append {α : Type} {a b : α} {as bs : List α} (ha : a ∈ as) (hb : b ∈ bs) :
    [a, b].Sublist (as ++ bs) :=
  (List.singleton_sublist.2 ha).append (List.singleton_sublist.2 hb)

/-- All changes but those of parameters stand before the new indexes. -/
theorem addIndex_sublist_steps {a : TableStep} {n : Text} {i : Index}
    (ha : a ∈ d.add.entries.map (fun e => TableStep.addColumn e.1 e.2) ++ d.drop.map .dropColumn ++
      d.change.entries.map (fun e => .changeColumn e.1 e.2) ++ d.dropIndexes.map .dropIndex)
    (hi : (n, i) ∈ d.addIndexes.entries) : [a, .addIndex n i].Sublist d.steps :=
  (pair_sublist_append ha (List.mem_map_of_mem (f := fun e => TableStep.addIndex e.1 e.2) hi)).trans
    (List.sublist_append_left _ _)

theorem addColumn_addIndex_sublist_script {n : Text} {c : AddedColumn} (hc : (n, c) ∈ d.add.entries)
    {m : Text} {i : Index} (hi : (m, i) ∈ d.addIndexes.entries) (dialect : Dialect) :
    [.addColumn n c, .addIndex m i].Sublist (d.script dialect) := by
  refine pair_sublist_script (addIndex_sublist_steps ?_ hi) fun h => ?_
  · simp [hc]
  · simp only [TableStep.isItem, Bool.or_eq_true, Bool.and_eq_true] at h ⊢
    exact h.imp_right And.left

theorem dropIndex_addIndex_sublist_script {n : Text} (hn : n ∈ d.dropIndexes) {i : Index}
    (hi : (n, i) ∈ d.addIndexes.entries) (dialect : Dialect) :
    [.dropIndex n, .addIndex n i].Sublist (d.script dialect) :=
  pair_sublist_script (addIndex_sublist_steps (by simp [hn]) hi) fun h => h

/-- Names with the primary one in front are the items among them and then the others. -/
theorem filter_isItem_append {names : List Text} (hd : primaryFirst names = names)
    (dialect : Dialect) :
    names.filter (fun n => (TableStep.dropIndex n).isItem dialect) ++
      names.filter (fun n => !(TableStep.dropIndex n).isItem dialect) = names := by
  cases dialect with
  | postgreSql => simpa [TableStep.isItem, primaryFirst] using hd
  | _ => simp [TableStep.isItem]

theorem dropped_script (hd : d.PrimaryFirst) (dialect : Dialect) :
    (d.script dialect).filterMap TableStep.dropped? = d.dropIndexes := by
  have hp (p : TableStep → Bool) : (d.steps.filter p).filterMap TableStep.dropped? =
      d.dropIndexes.filter fun n => p (.dropIndex n) := by
    simp [steps, Function.comp_def, TableStep.dropped?, List.filter_map]
  rw [script, items, statements, List.filterMap_append, hp, hp, filter_isItem_append hd.dropped]

theorem added_script (hd : d.PrimaryFirst) (dialect : Dialect) :
    (d.script dialect).filterMap TableStep.added? = d.addIndexes.keys := by
  have hp (p : Text → Bool) (q : TableStep → Bool) (hq : ∀ n i, q (.addIndex n i) = p n) :
      (d.steps.filter q).filterMap TableStep.added? = d.addIndexes.keys.filter p := by
    simp [steps, Function.comp_def, TableStep.added?, hq, OrderedMap.keys, List.filter_map]
  rw [script, items, statements, List.filterMap_append,
    hp (fun n => (TableStep.dropIndex n).isItem dialect) _ fun _ _ => rfl,
    hp (fun n => !(TableStep.dropIndex n).isItem dialect) _ fun _ _ => rfl,
    filter_isItem_append hd.added]

end TableDiff

namespace Table

variable (old new : Table)

/-- Whether two versions of a table have different indexes under a name, or one of them has none. -/
def indexDiffers (name : Text) : Bool :=
  !sameIndex (old.effectiveIndexes.get? name) (new.effectiveIndexes.get? name)

theorem primaryFirst_compare : (old.compare new).PrimaryFirst where
  dropped := primaryFirst_primaryFirst _
  added := by rw [compare, OrderedMap.keys_front, primaryFirst_primaryFirst]

theorem nodup_steps_compare : (old.compare new).steps.Nodup := by
  have hmap {α : Type} {f : Text × α → TableStep} (m : OrderedMap Text α)
      (hf : Function.Injective f) : (m.entries.map f).Nodup := m.nodup_entries.map hf
  have hadd := hmap (f := fun e => .addColumn e.1 e.2) (old.compare new).add
    fun _ _ h => Prod.ext (TableStep.addColumn.inj h).1 (TableStep.addColumn.inj h).2
  have hdrop : ((old.compare new).drop.map TableStep.dropColumn).Nodup :=
    (old.columns.nodup_keys.filter _).map fun _ _ h => by cases h; rfl
  have hchange := hmap (f := fun e => .changeColumn e.1 e.2) (old.compare new).change
    fun _ _ h => Prod.ext (TableStep.changeColumn.inj h).1 (TableStep.changeColumn.inj h).2
  have hgone : ((old.compare new).dropIndexes.map TableStep.dropIndex).Nodup :=
    (nodup_primaryFirst (OrderedMap.nodup_keys _)).map fun _ _ h => by cases h; rfl
  have hnew := hmap (f := fun e => .addIndex e.1 e.2) (old.compare new).addIndexes
    fun _ _ h => Prod.ext (TableStep.addIndex.inj h).1 (TableStep.addIndex.inj h).2
  have hparameters : ((old.compare new).parameters.toList.map TableStep.setParameters).Nodup := by
    cases (old.compare new).parameters <;> simp
  unfold TableDiff.steps
  simp only [List.nodup_append, hadd, hdrop, hchange, hgone, hnew, hparameters, true_and, List.mem_append, List.mem_map]
  grind

theorem keys_filter {β : Type} (m : OrderedMap Text β) {p : Text → β → Bool} {q : Text → Bool}
    (h : ∀ n i, m.get? n = some i → p n i = q n) : (m.filter p).keys = m.keys.filter q := by
  simp only [OrderedMap.keys, OrderedMap.filter, List.filter_map]
  congr 1
  exact List.filter_congr fun e he => h e.1 e.2 (OrderedMap.get?_eq_some_iff.2 he)

/-- The primary key in front of those names that satisfy a condition. -/
theorem primaryFirst_filter {names : List Text} (hn : names.Nodup) (q : Text → Bool) :
    primaryFirst (names.filter q) =
      (if names.contains primaryName && q primaryName then [primaryName] else []) ++
        (names.filter (· ≠ primaryName)).filter q := by
  have heq : (names.filter q).filter (· = primaryName) =
      List.replicate ((names.filter q).count primaryName) primaryName := List.filter_eq _
  rw [primaryFirst, heq, List.filter_filter, List.filter_filter]
  congr 1
  · split
    · next h =>
      rw [List.count_eq_one_of_mem (hn.filter _) (by simpa using h)]
      rfl
    · next h =>
      rw [List.count_eq_zero_of_not_mem (by simpa using h)]
      rfl
  · exact List.filter_congr fun n _ => Bool.and_comm _ _

/-- Apart from the primary key the indexes in force are those declared. -/
theorem filter_keys_effectiveIndexes (t : Table) :
    t.effectiveIndexes.keys.filter (· ≠ primaryName) = t.indexes.keys.filter (· ≠ primaryName) := by
  unfold effectiveIndexes
  dsimp only
  split
  · rw [OrderedMap.keys_mapValues]
  · rw [OrderedMap.filter_keys_insertAt _ _ _ (by simp), OrderedMap.keys_mapValues]

theorem contains_keys_effectiveIndexes (t : Table) :
    t.effectiveIndexes.keys.contains primaryName = t.primaryKey.isSome := by
  rw [primaryKey, OrderedMap.isSome_get?, Bool.eq_iff_iff, OrderedMap.contains_iff,
    List.contains_iff_mem]

theorem dropIndexes_compare :
    (old.compare new).dropIndexes =
      (if old.primaryKey.isSome && old.indexDiffers new primaryName then [primaryName] else []) ++
        (old.indexes.keys.filter (· ≠ primaryName)).filter (old.indexDiffers new) := by
  have hd : (old.compare new).dropIndexes =
      primaryFirst (old.effectiveIndexes.keys.filter (old.indexDiffers new)) := by
    refine congrArg primaryFirst (keys_filter _ fun n i hi => ?_)
    rw [hasSameIndex_eq, indexDiffers, hi, sameIndex_comm]
  rw [hd, primaryFirst_filter (OrderedMap.nodup_keys _), contains_keys_effectiveIndexes,
    filter_keys_effectiveIndexes]

theorem keys_addIndexes_compare :
    (old.compare new).addIndexes.keys =
      (if new.primaryKey.isSome && old.indexDiffers new primaryName then [primaryName] else []) ++
        (new.indexes.keys.filter (· ≠ primaryName)).filter (old.indexDiffers new) := by
  have hd : (old.compare new).addIndexes.keys =
      primaryFirst (new.effectiveIndexes.keys.filter (old.indexDiffers new)) := by
    rw [compare, OrderedMap.keys_front]
    refine congrArg primaryFirst (keys_filter _ fun n i hi => ?_)
    rw [hasSameIndex_eq, indexDiffers, hi]
  rw [hd, primaryFirst_filter (OrderedMap.nodup_keys _), contains_keys_effectiveIndexes,
    filter_keys_effectiveIndexes]

end Table

/-- A table that is altered has two versions. -/
theorem Schema.exists_of_get?_compare_alter {old new : Schema} {name : Text} {d : TableDiff}
    (h : (old.compare new).tables.get? name = some (.alter d)) :
    ∃ before after, old.tables.get? name = some before ∧ new.tables.get? name = some after ∧
      d = before.compare after := by
  rw [get?_compare] at h
  cases hb : old.tables.get? name with
  | none =>
    cases ha : new.tables.get? name <;> rw [hb, ha] at h <;> cases h
  | some before =>
    cases ha : new.tables.get? name with
    | none => rw [hb, ha] at h; cases h
    | some after =>
      rw [hb, ha] at h
      simp only [Option.ite_none_left_eq_some, Option.some.injEq, TableChange.alter.injEq] at h
      exact ⟨before, after, rfl, rfl, h.2.symm⟩

/-! ### Migrations of schemas -/

namespace Source

variable {s : Source} {D : SchemaDiff} {table : Option Text} {name sql : Text} {d : TableDiff}

/-- A row of steps fails only if one of them fails. -/
theorem exists_eachTable_iff {α β : Type} {f : α → Migration β} {as : List α} :
    (∃ bs, s.eval (eachTable f as).run = .ok bs) ↔ ∀ a ∈ as, ∃ b, s.eval (f a).run = .ok b := by
  induction as with
  | nil => exact ⟨fun _ _ h => absurd h List.not_mem_nil, fun _ => ⟨[], rfl⟩⟩
  | cons a as ih =>
    rw [List.forall_mem_cons, ← ih]
    constructor
    · rintro ⟨bs, h⟩
      obtain ⟨b, hb, h⟩ := exists_of_eval_bind h
      obtain ⟨rest, hrest, -⟩ := exists_of_eval_bind h
      exact ⟨⟨b, hb⟩, rest, hrest⟩
    · rintro ⟨⟨b, hb⟩, rest, hrest⟩
      refine ⟨b :: rest, ?_⟩
      rw [eachTable, eval_attempt_bind hb, eval_attempt_bind hrest]
      rfl

/-- What one of the steps gives is among the results. -/
theorem exists_of_mem_eachTable {α β : Type} {f : α → Migration β} {a : α} {as : List α}
    {bs : List β} (ha : a ∈ as) (h : s.eval (eachTable f as).run = .ok bs) :
    ∃ front b back, bs = front ++ b :: back ∧ s.eval (f a).run = .ok b := by
  induction as generalizing bs with
  | nil => cases ha
  | cons a' as ih =>
    obtain ⟨b, hb, h⟩ := exists_of_eval_bind h
    obtain ⟨rest, hrest, h⟩ := exists_of_eval_bind h
    obtain rfl : b :: rest = bs := Except.ok.inj h
    rcases List.mem_cons.1 ha with rfl | ha
    · exact ⟨[], b, rest, rfl, hb⟩
    · obtain ⟨front, b', back, rfl, hb'⟩ := ih ha hrest
      exact ⟨b :: front, b', back, rfl, hb'⟩

theorem eval_alterTable_eq_ok (hd : d.PrimaryFirst) (h : s.eval (s.alterTable name d).run = .ok sql) :
    s.refusal name d = none ∧ sql = s.scriptText name d := by
  rw [eval_alterTable hd] at h
  cases hr : s.refusal name d with
  | some e =>
    rw [hr] at h
    cases h
  | none =>
    rw [hr] at h
    exact ⟨rfl, (Except.ok.inj h).symm⟩

/-- A migration goes through the changes of tables, a table of which it is asked for being one of
them. -/
theorem exists_alterSchema_eq {change : TableChange} (hc : D.tables.get? name = some change)
    (ht : table = none ∨ table = some name) :
    ∃ changes, (name, change) ∈ changes ∧ (∀ c ∈ changes, c ∈ D.tables.entries) ∧
      s.alterSchema D table = (do
        let statements ← eachTable s.changeTable changes
        pure (Text.join "\n\n" (statements.filter fun sql => !sql.isEmpty))) := by
  have hm := OrderedMap.get?_eq_some_iff.1 hc
  rcases ht with rfl | rfl
  · exact ⟨_, hm, fun _ h => h, rfl⟩
  · refine ⟨[(name, change)], List.mem_singleton_self _, by simpa using hm, ?_⟩
    simp only [alterSchema, hc]
    rfl

/-- The statements of a table that is altered are in the text of a migration. -/
theorem scriptText_of_alterSchema (hd : d.PrimaryFirst)
    (hc : D.tables.get? name = some (.alter d)) (ht : table = none ∨ table = some name)
    (h : s.eval (s.alterSchema D table).run = .ok sql) :
    s.refusal name d = none ∧ ∃ front back : List Text,
      sql = Text.join "\n\n" ((front ++ s.scriptText name d :: back).filter (!·.isEmpty)) := by
  obtain ⟨changes, hm, -, he⟩ := exists_alterSchema_eq (s := s) hc ht
  rw [he] at h
  obtain ⟨texts, htexts, h⟩ := exists_of_eval_bind h
  obtain ⟨front, text, back, rfl, htext⟩ := exists_of_mem_eachTable hm htexts
  obtain ⟨hr, rfl⟩ := eval_alterTable_eq_ok hd htext
  exact ⟨hr, front, back, (Except.ok.inj h).symm⟩

/-- Whether the statements of a change can be written. -/
def Possible (s : Source) (name : Text) : TableChange → Prop
  | .create t => t.validate = .ok ()
  | .drop _ => True
  | .alter d => d.PrimaryFirst ∧ s.refusal name d = none

theorem exists_changeTable {change : TableChange} (h : s.Possible name change) :
    ∃ sql, s.eval (s.changeTable (name, change)).run = .ok sql := by
  cases change with
  | create t =>
    refine ⟨s.eval (s.tableDefinition t), ?_⟩
    have hv : s.eval (Migration.of t.validate).run = .ok () := h
    exact (eval_attempt_bind hv _).trans (eval_attempt_liftM _)
  | drop t => exact ⟨_, eval_attempt_liftM _⟩
  | alter d =>
    refine ⟨s.scriptText name d, ?_⟩
    have he : s.eval (s.changeTable (name, .alter d)).run = _ := eval_alterTable h.1
    rwa [h.2] at he

/-- A migration has a text if each of its changes has. -/
theorem exists_alterSchema {change : TableChange} (hc : D.tables.get? name = some change)
    (ht : table = none ∨ table = some name)
    (h : ∀ n change, D.tables.get? n = some change → s.Possible n change) :
    ∃ sql, s.eval (s.alterSchema D table).run = .ok sql := by
  obtain ⟨changes, -, hall, he⟩ := exists_alterSchema_eq (s := s) hc ht
  obtain ⟨texts, htexts⟩ := (exists_eachTable_iff (s := s) (f := s.changeTable)).2 fun c hc =>
    exists_changeTable (h c.1 c.2 (OrderedMap.get?_eq_some_iff.2 (hall c hc)))
  rw [he, eval_attempt_bind htexts]
  exact ⟨_, rfl⟩

end Source

end SqlComposer
