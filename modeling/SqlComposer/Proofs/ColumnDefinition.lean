import SqlComposer.Proofs.MigrationScript

/-!
# Definitions of columns

A column is defined when its table is created, and again when it is added or changed later. Both
write it the same way once they agree on whether it counts itself up. For a new column they always
do. For a changed one they need not: without a new primary key a migration goes by the mark of the
column, while the whole key of the new version decides when the table is created.
-/

namespace SqlComposer

/-! ### Columns that count themselves up -/

theorem autoIncrement_eq_some_iff {primary : Option Index} {lookup : Text → Option Column}
    {name : Text} {c : Column} (hc : lookup name = some c) :
    autoIncrement primary lookup = some name ↔
      primary.map Index.columns = some [name] ∧ countsUp c.type = true := by
  unfold autoIncrement
  split
  · next n h =>
    rw [h]
    by_cases hn : n = name
    · subst hn
      simp [hc]
    · have hne : ¬some [n] = some [name] := by simp [hn]
      cases lookup n <;> simp [hn]
  · next h =>
    constructor
    · intro he
      cases he
    · rintro ⟨he, -⟩
      exact absurd he (h name)

namespace Table

/-- The column of a table that counts itself up. -/
def autoColumn (t : Table) : Option Text :=
  autoIncrement t.primaryKey t.columns.get?

end Table

namespace TableDiff

/-- Whether a column that is added or changed counts itself up in a migration. -/
def isAuto (d : TableDiff) (name : Text) (c : Column) : Bool :=
  match d.addIndexes.get? primaryName with
  | some primary => autoIncrement (some primary) (fun _ => some c) = some name
  | none => c.isIntegerPrimary

end TableDiff

namespace Table

variable {old new : Table} {n : Text} {c : Column}

/-- A migration and the creation of the new version agree on whether a column counts itself up if
the migration brings the new key, if the type does not allow it anyway, or if the mark tells the
only column of the key from the others. -/
theorem isAuto_compare_iff (hc : new.columns.get? n = some c) :
    (old.compare new).isAuto n c = decide (new.autoColumn = some n) ↔
      (old.compare new).addIndexes.contains primaryName = true ∨ countsUp c.type = false ∨
        (c.isPrimary = true ↔ new.primaryKey.map Index.columns = some [n]) := by
  have hcreated : autoIncrement new.primaryKey new.columns.get? = some n ↔ _ :=
    autoIncrement_eq_some_iff hc
  rw [autoColumn, Bool.eq_iff_iff, decide_eq_true_eq, hcreated, TableDiff.isAuto,
    ← OrderedMap.isSome_get?]
  cases hk : (old.compare new).addIndexes.get? primaryName with
  | some key =>
    have hkey : new.primaryKey = some key := by
      rw [get?_addIndexes_compare, Option.filter_eq_some_iff] at hk
      exact hk.1
    have haltered : autoIncrement (some key) (fun _ => some c) = some n ↔ _ :=
      autoIncrement_eq_some_iff rfl
    simp only [decide_eq_true_eq, haltered, hkey, Option.isSome_some, true_or]
  | none =>
    simp only [Column.isIntegerPrimary, Bool.and_eq_true, Option.isSome_none, Bool.false_eq_true,
      false_or]
    cases countsUp c.type <;> simp

/-- A new column of a key that stays as it is does not exist. -/
theorem isAuto_compare_of_added (hold : old.Valid) (hnew : new.Valid)
    (hc : new.columns.get? n = some c) (ho : old.columns.get? n = none) :
    (old.compare new).isAuto n c = decide (new.autoColumn = some n) := by
  rw [isAuto_compare_iff hc, or_iff_not_imp_left, ← OrderedMap.isSome_get?]
  intro hk
  rw [Bool.not_eq_true, Option.isSome_eq_false_iff, Option.isNone_iff_eq_none, get?_addIndexes_compare] at hk
  have hmark : new.marks n = c.isPrimary := by rw [marks, hc]; rfl
  refine .inr ?_
  cases hkey : new.primaryKey with
  | none =>
    rw [← hmark, marks_of_no_primaryKey hkey]
    simp
  | some key =>
    have hsame : sameIndex old.primaryKey (some key) = true := by
      rw [show new.effectiveIndexes.get? primaryName = some key from hkey] at hk
      simpa [primaryKey] using hk
    -- The columns of a key that stays are columns of the old version.
    have hno : key.columns.contains n = false := by
      cases hb : old.primaryKey with
      | none =>
        rw [hb] at hsame
        cases hsame
      | some before =>
        rw [hb] at hsame
        rw [← (Index.agrees_iff.1 hsame).1]
        exact contains_eq_false_of_primaryKey hold hb ho
    rw [← hmark, marks_of_primaryKey hnew hkey, hno]
    simp only [Bool.false_and, Bool.false_eq_true, false_iff, Option.map_some, Option.some.injEq]
    intro he
    simp [he] at hno

end Table

namespace Source

variable {s : Source} {old new : Table} {name n : Text} {c : Column}

/-- The definition of a column where its table is created. -/
def createdColumn (s : Source) (t : Table) (name : Text) (c : Column) : Text :=
  s.eval (s.columnSql name c (t.autoColumn = some name))

/-- The definition of a column where its table is altered. -/
def alteredColumn (s : Source) (d : TableDiff) (name : Text) (c : Column) : Text :=
  s.eval (s.diffColumnSql d name c)

theorem alteredColumn_eq (d : TableDiff) (name : Text) (c : Column) :
    s.alteredColumn d name c = s.eval (s.columnSql name c (d.isAuto name c)) := by
  unfold alteredColumn diffColumnSql TableDiff.isAuto
  cases d.addIndexes.get? primaryName <;> rfl

/-- A valid table is created. -/
theorem eval_createTable_of_valid {t : Table} (ht : t.validate = .ok ()) :
    s.eval (s.createTable t).run = .ok (s.eval (s.tableDefinition t)) := by
  have hv : s.eval (Migration.of t.validate).run = .ok () := ht
  exact (eval_attempt_bind hv _).trans (eval_attempt_liftM _)

/-- The definitions of a table that is created. -/
theorem eval_createTable {t : Table} (ht : t.validate = .ok ()) :
    ∃ (table : Text) (indexes parameters statements : List Text),
      s.eval (s.createTable t).run = .ok (Text.join "\n"
        (StatementKind.render .schema
          { table
            columns := t.columns.entries.map fun e => s.createdColumn t e.1 e.2
            indexes
            tableParameters := parameters } :: statements)) := by
  rw [eval_createTable_of_valid ht]
  simp only [tableDefinition, eval_bind, eval_each, eval_pure]
  exact ⟨_, _, _, _, rfl⟩

/-! ### The two forms of a definition -/

/-- Texts that begin in different ways are different. -/
theorem append_ne_append {a b : Text} (hab : ¬a <+: b) (hba : ¬b <+: a) (x y : Text) :
    a ++ x ≠ b ++ y := by
  intro h
  rcases List.prefix_or_prefix_of_prefix (h ▸ List.prefix_append a x) (List.prefix_append b y)
    with hp | hp
  · exact hab hp
  · exact hba hp

/-- What stands behind the type of a column that counts itself up under MySQL. -/
def automatic : Text :=
  " NOT NULL AUTO_INCREMENT"

theorem append_ne_automatic {a : Text} (h : ¬a <+: automatic) (h' : ¬automatic <+: a) (x : Text) :
    a ++ x ≠ automatic := by
  simpa using append_ne_append h h' x []

theorem nullabilitySql_ne_automatic (c : Column) (comment : Option Text) :
    s.nullabilitySql c ++ optionalPart true " COMMENT " comment ≠ automatic := by
  have hnot : " NOT NULL" ++ optionalPart true " COMMENT " comment ≠ automatic := by
    cases comment with
    | none => decide +kernel
    | some comment =>
      rw [optionalPart, if_pos rfl, ← List.append_assoc]
      exact append_ne_automatic (by decide +kernel) (by decide +kernel) _
  unfold nullabilitySql
  split
  · exact hnot
  · split
    · rw [List.append_assoc, List.append_assoc]
      exact append_ne_automatic (by decide +kernel) (by decide +kernel) _
    · split
      · exact hnot
      · split
        · exact append_ne_automatic (by decide +kernel) (by decide +kernel) _
        · exact append_ne_automatic (by decide +kernel) (by decide +kernel) _

/-- Under MySQL a column that counts itself up is not written like one that does not. -/
theorem autoIncrementSql_ne_plainColumnSql (hs : s.dialect = .mySql) (c : Column) :
    s.autoIncrementSql c ≠ s.plainColumnSql c := by
  have hsuffix : " ".toList ++ Dialect.mySql.primaryKeySuffix = automatic := by decide +kernel
  have hauto : s.autoIncrementSql c = s.columnTypeSql c ++ automatic := by
    unfold autoIncrementSql
    rw [hs, List.append_assoc, hsuffix]
  rw [hauto, plainColumnSql]
  simp only [hs, decide_true, List.append_assoc, ne_eq, List.append_cancel_left_eq]
  cases c.charset with
  | some charset =>
    rw [optionalPart, if_pos rfl, List.append_assoc]
    exact (append_ne_automatic (by decide +kernel) (by decide +kernel) _).symm
  | none =>
    cases c.collate with
    | some collate =>
      rw [optionalPart, optionalPart, if_pos rfl, List.nil_append, List.append_assoc]
      exact (append_ne_automatic (by decide +kernel) (by decide +kernel) _).symm
    | none => exact (nullabilitySql_ne_automatic c _).symm

theorem eval_columnSql_eq_iff (hs : s.dialect = .mySql) (n : Text) (c : Column) (a b : Bool) :
    s.eval (s.columnSql n c a) = s.eval (s.columnSql n c b) ↔ a = b := by
  refine ⟨fun h => ?_, fun h => h ▸ rfl⟩
  rw [eval_columnSql, eval_columnSql, List.append_cancel_left_eq] at h
  have hne := autoIncrementSql_ne_plainColumnSql hs c
  cases a <;> cases b
  · rfl
  · exact absurd h.symm hne
  · exact absurd h hne
  · rfl

/-! ### Creating and altering -/

/-- A migration and the creation of the new version define columns alike: always for new columns,
and under MySQL for a changed one exactly if the migration brings the new key, or the type of the
column does not count itself up, or the mark of the column says whether it is the whole key. -/
theorem alteredColumn_eq_createdColumn (s : Source) (name : Text)
    (hold : old.validate = .ok ()) (hnew : new.validate = .ok ()) :
    (∃ (table : Text) (indexes parameters statements : List Text),
      s.eval (s.createTable new).run = .ok (Text.join "\n"
        (StatementKind.render .schema
          { table
            columns := new.columns.entries.map fun e => s.createdColumn new e.1 e.2
            indexes
            tableParameters := parameters } :: statements))) ∧
      (∀ n a, (old.compare new).add.get? n = some a →
        new.columns.get? n = some a.column ∧
          s.stepTexts name (old.compare new) (.addColumn n a) =
            [s.addLead name ++ s.createdColumn new n a.column ++ s.addTrail a]) ∧
      (s.dialect = .mySql → ∀ n c, (old.compare new).change.get? n = some c →
        new.columns.get? n = some c ∧
          s.stepTexts name (old.compare new) (.changeColumn n c) =
            ["CHANGE " ++ s.dialect.quoteName n ++ " " ++
              s.alteredColumn (old.compare new) n c] ∧
          (s.alteredColumn (old.compare new) n c = s.createdColumn new n c ↔
            (old.compare new).addIndexes.contains primaryName = true ∨ countsUp c.type = false ∨
              (c.isPrimary = true ↔ new.primaryKey.map Index.columns = some [n]))) := by
  refine ⟨eval_createTable hnew, fun n a ha => ?_, fun hs n c hc => ?_⟩
  · rw [Table.get?_add_compare] at ha
    obtain ⟨c, hc, ha⟩ := Option.bind_eq_some_iff.1 ha
    split at ha
    · cases ha
    · next ho =>
      cases ha
      have ho : old.columns.get? n = none :=
        OrderedMap.contains_eq_false_iff.1 (Bool.not_eq_true _ ▸ ho)
      have hauto := Table.isAuto_compare_of_added (Table.validate_eq_ok_iff.1 hold)
        (Table.validate_eq_ok_iff.1 hnew) hc ho
      have hdef : s.alteredColumn (old.compare new) n c = s.createdColumn new n c := by
        rw [alteredColumn_eq, hauto, createdColumn]
      exact ⟨hc, by rw [← hdef]; rfl⟩
  · rw [Table.get?_change_compare] at hc
    obtain ⟨c', hn, hc⟩ := Option.bind_eq_some_iff.1 hc
    obtain ⟨before, -, hc⟩ := Option.bind_eq_some_iff.1 hc
    split at hc
    · cases hc
      refine ⟨hn, ?_, ?_⟩
      · simp only [stepTexts, hs, mySqlChange, eval_bind, eval_ask, eval_pure]
        rfl
      · rw [alteredColumn_eq, createdColumn, eval_columnSql_eq_iff hs, Table.isAuto_compare_iff hn]
    · cases hc

/-- A key of one column that is widened keeps counting itself up. -/
theorem alteredColumn_eq_createdColumn_single :
    let old := Table.single .integer (some .primary) []
    let new := Table.single .bigInteger (some .primary) []
    let c : Column := { type := .bigInteger, key := some .primary }
    let s : Source := {}
    old.validate = .ok () ∧ new.validate = .ok () ∧
      (old.compare new).change.get? ['a'] = some c ∧
      s.alteredColumn (old.compare new) ['a'] c = s.createdColumn new ['a'] c := by
  intro old new c s
  have hold : old.validate = .ok () := by decide
  have hnew : new.validate = .ok () := by decide
  have hc : (old.compare new).change.get? ['a'] = some c := by decide
  obtain ⟨-, -, hchange⟩ := alteredColumn_eq_createdColumn s ['t'] hold hnew
  exact ⟨hold, hnew, hc, (hchange rfl _ _ hc).2.2.2 (.inr (.inr (by decide)))⟩

/-- A table whose key consists of two integer columns, the first of the type that is given. -/
def composite (type : ColumnType) : Table where
  name := ['t']
  columns := .ofList
    [(['a'], { type, key := some .primary }), (['b'], { type := .integer, key := some .primary })]

/-- A column of a key of two that is widened begins to count itself up, which it does not where the
table is created. -/
theorem composite_key_counts_up :
    let old := composite .integer
    let new := composite .bigInteger
    let c : Column := { type := .bigInteger, key := some .primary }
    let s : Source := {}
    old.validate = .ok () ∧ new.validate = .ok () ∧
      (old.compare new).change.get? ['a'] = some c ∧
      s.alteredColumn (old.compare new) ['a'] c =
        s.dialect.quoteName ['a'] ++ " bigint(20) NOT NULL AUTO_INCREMENT".toList ∧
      s.createdColumn new ['a'] c =
        s.dialect.quoteName ['a'] ++ " bigint(20) NOT NULL".toList ∧
      s.alteredColumn (old.compare new) ['a'] c ≠ s.createdColumn new ['a'] c := by
  intro old new c s
  have haltered : s.alteredColumn (old.compare new) ['a'] c =
      s.dialect.quoteName ['a'] ++ " bigint(20) NOT NULL AUTO_INCREMENT".toList := by
    have hauto : (old.compare new).isAuto ['a'] c = true := by decide
    rw [alteredColumn_eq, hauto, eval_columnSql, if_pos rfl, List.append_assoc]
    exact congrArg (s.dialect.quoteName ['a'] ++ ·) (by decide +kernel)
  have hcreated : s.createdColumn new ['a'] c =
      s.dialect.quoteName ['a'] ++ " bigint(20) NOT NULL".toList := by
    have hauto : decide (new.autoColumn = some ['a']) = false := by decide
    rw [createdColumn, hauto, eval_columnSql, if_neg Bool.false_ne_true, List.append_assoc]
    exact congrArg (s.dialect.quoteName ['a'] ++ ·) (by decide +kernel)
  refine ⟨by decide, by decide, by decide, haltered, hcreated, ?_⟩
  rw [haltered, hcreated, ne_eq, List.append_cancel_left_eq]
  decide +kernel

end Source

end SqlComposer
