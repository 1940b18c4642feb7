import SqlComposer.Proofs.TableDefinition
import SqlComposer.Proofs.ValueLiterals

/-!
# Columns that may not be NULL

Where a table is created, a column may not be NULL if it says so, and also if it is marked as
primary or counts itself up. Where the column is changed later, only what it says counts. The two
differ on a column of the key that does not say it.
-/

namespace SqlComposer

/-- Whether the definition of a column says that it may not be NULL. -/
def RefusesNull (definition : Text) : Prop :=
  " NOT NULL".toList <:+ definition

instance (definition : Text) : Decidable (RefusesNull definition) :=
  inferInstanceAs (Decidable (_ <:+ _))

namespace RefusesNull

theorem append (a : Text) : RefusesNull (a ++ " NOT NULL") :=
  List.suffix_append a _

/-- What stands in front of an ending as long does not matter. -/
theorem append_iff {t : Text} (ht : 9 ≤ t.length) (a : Text) :
    RefusesNull (a ++ t) ↔ RefusesNull t := by
  constructor
  · intro h
    exact List.suffix_of_suffix_length_le h (List.suffix_append a t) ht
  · intro h
    exact h.trans (List.suffix_append a t)

/-- A definition that ends in something else does not say it. -/
theorem not_append {t : Text} {c : Char} (ht : t.getLast? = some c) (hc : c ≠ 'L') (a : Text) :
    ¬RefusesNull (a ++ t) := by
  rintro ⟨b, hb⟩
  have hlast := congrArg List.getLast? hb
  rw [List.getLast?_append, List.getLast?_append, ht] at hlast
  exact hc (Option.some.inj hlast).symm

end RefusesNull

/-! ### How literals end -/

namespace Numeral

variable {t : Text}

theorem not_mem_of_allDigits (h : Text.allDigits t = true) : 'L' ∉ t := by
  intro hm
  exact absurd (List.all_eq_true.1 h _ hm) (by decide)

theorem not_mem_of_sign (h : Sign t) : 'L' ∉ t := by
  cases h <;> simp

/-- Of letters a number has only the one of its exponent. -/
theorem not_mem (h : Numeral t) : 'L' ∉ t := by
  obtain ⟨mantissa, exponent, ⟨sign, whole, fraction, hs, hw, hf, rfl⟩, he, rfl⟩ := h
  have hwhole : 'L' ∉ whole := by
    cases hw with
    | zero => simp
    | digits hc hd => exact not_mem_of_allDigits hd
  have hfraction : 'L' ∉ fraction := by
    cases hf with
    | none => simp
    | digits hn hd => simpa using not_mem_of_allDigits hd
  have hexponent : 'L' ∉ exponent := by
    cases he with
    | none => simp
    | digits he hs hn hd =>
      rcases he with rfl | rfl <;> simp [not_mem_of_sign hs, not_mem_of_allDigits hd]
  simp [not_mem_of_sign hs, hwhole, hfraction, hexponent]

theorem ne_nil (h : Numeral t) : t ≠ [] := by
  obtain ⟨mantissa, exponent, ⟨sign, whole, fraction, -, hw, -, rfl⟩, -, rfl⟩ := h
  have hwhole : whole ≠ [] := by cases hw <;> exact List.cons_ne_nil _ _
  simp [hwhole]

end Numeral

/-- A column that is changed is one of the new version. -/
theorem Table.get?_of_get?_change_compare {old new : Table} {n : Text} {c : Column}
    (hc : (old.compare new).change.get? n = some c) : new.columns.get? n = some c := by
  rw [Table.get?_change_compare] at hc
  obtain ⟨c', hn, hc⟩ := Option.bind_eq_some_iff.1 hc
  obtain ⟨before, -, hc⟩ := Option.bind_eq_some_iff.1 hc
  split at hc
  · cases hc
    exact hn
  · cases hc

namespace Source

variable {s : Source} {t : Table} {n name : Text} {c : Column}

theorem exists_getLast? {a : Text} (ha : a ≠ []) (hL : 'L' ∉ a) :
    ∃ c, a.getLast? = some c ∧ c ≠ 'L' := by
  refine ⟨a.getLast ha, List.getLast?_eq_getLast_of_ne_nil ha, ?_⟩
  intro h
  exact hL (h ▸ List.getLast_mem ha)

/-- The literal of a text is NULL or ends in something else than a word. -/
theorem getLast?_textLiteral (ty : ColumnType) (d : Text) :
    s.textLiteral ty d = "NULL" ∨ ∃ c, (s.textLiteral ty d).getLast? = some c ∧ c ≠ 'L' := by
  unfold textLiteral
  split_ifs with hm _ _ hi hf
  · rw [isDeferredMarker, Bool.or_eq_true, beq_iff_eq, beq_iff_eq] at hm
    rcases hm with rfl | rfl
    · exact .inr ⟨'\x7d', by decide +kernel, by decide⟩
    · exact .inr ⟨'\x7d', by decide +kernel, by decide⟩
  · exact .inr ⟨'\'', by cases (Value.text d).truthy <;> rfl, by decide⟩
  · exact .inl rfl
  · have hn := Numeral.numeral_of_isIntegerLiteral (Bool.and_eq_true_iff.1 hi).2
    exact .inr (exists_getLast? hn.ne_nil hn.not_mem)
  · have hn := Numeral.numeral_of_isFloatLiteral (Bool.and_eq_true_iff.1 hf).2
    exact .inr (exists_getLast? hn.ne_nil hn.not_mem)
  · exact .inr ⟨'\'', List.getLast?_concat, by decide⟩

/-- No default says that a column may not be NULL. -/
theorem not_refusesNull_default (a : Text) (d : Text) :
    ¬RefusesNull (a ++ (" DEFAULT " ++ s.defaultLiteral c d)) := by
  unfold defaultLiteral
  dsimp only
  split
  · rw [RefusesNull.append_iff (by decide)]
    decide +kernel
  · rcases getLast?_textLiteral (s := s) c.type d with h | ⟨e, he, hL⟩
    · rw [h, RefusesNull.append_iff (by decide)]
      decide +kernel
    · rw [← List.append_assoc]
      exact RefusesNull.not_append he hL _

/-! ### Creating a column -/

/-- A column for points in time has a native type without a length. -/
theorem columnTypeSql_of_timestamp (hs : s.dialect = .postgreSql ∨ s.dialect = .sqlServer)
    (hc : c.type = .timestamp) :
    s.columnTypeSql c = "timestamp" ∨ s.columnTypeSql c = "datetime" := by
  rcases hs with hs | hs
  · left
    simp [columnTypeSql, hs, hc, Dialect.nativeType, writesLength]
  · right
    simp [columnTypeSql, hs, hc, Dialect.nativeType, writesLength]

/-- A column that does not count itself up may not be NULL if it is marked as primary or says so. -/
theorem refusesNull_plainColumnSql_iff (hs : s.dialect = .postgreSql ∨ s.dialect = .sqlServer)
    (c : Column) (a : Text) :
    RefusesNull (a ++ s.plainColumnSql c) ↔ c.isPrimary = true ∨ c.nullable = false := by
  have hm : s.dialect ≠ .mySql := by rcases hs with hs | hs <;> simp [hs]
  rw [plainColumnSql_of_ne hm, nullabilitySql, ← List.append_assoc]
  cases hp : c.isPrimary with
  | true => exact iff_of_true (RefusesNull.append _) (.inl rfl)
  | false =>
    rw [if_neg Bool.false_ne_true, or_iff_right Bool.false_ne_true]
    split
    · next d _ =>
      cases hn : c.nullable with
      | true =>
        have hdefault := not_refusesNull_default (s := s) (c := c) (a ++ s.columnTypeSql c) d
        simpa using hdefault
      | false =>
        rw [if_neg Bool.false_ne_true, ← List.append_assoc]
        exact iff_of_true (RefusesNull.append _) rfl
    · cases hn : c.nullable with
      | false => exact iff_of_true (RefusesNull.append _) rfl
      | true =>
        refine iff_of_false ?_ Bool.noConfusion
        rw [if_neg (by decide)]
        split
        · next hty =>
          -- here the ending is too short, and the type in front of it has to be looked at
          rw [List.append_assoc]
          rcases columnTypeSql_of_timestamp hs hty with h | h <;>
            rw [h, RefusesNull.append_iff (by decide)] <;> decide +kernel
        · rw [RefusesNull.append_iff (by decide)]
          decide +kernel

/-- Where its table is created, a column may not be NULL if it is marked as primary, counts itself
up or says so. -/
theorem refusesNull_createdColumn_iff (hs : s.dialect = .postgreSql ∨ s.dialect = .sqlServer)
    (t : Table) (n : Text) (c : Column) :
    RefusesNull (s.createdColumn t n c) ↔
      c.isPrimary = true ∨ t.autoColumn = some n ∨ c.nullable = false := by
  rw [createdColumn, eval_columnSql]
  by_cases ha : t.autoColumn = some n
  · rw [decide_eq_true ha, if_pos rfl, autoIncrementSql, ← List.append_assoc, ← List.append_assoc]
    refine iff_of_true ?_ (.inr (.inl ha))
    have hsuffix : RefusesNull (" " ++ s.dialect.primaryKeySuffix) := by
      rcases hs with hs | hs <;> rw [hs] <;> decide +kernel
    rw [List.append_assoc]
    exact hsuffix.trans (List.suffix_append _ _)
  · rw [decide_eq_false ha, if_neg Bool.false_ne_true, refusesNull_plainColumnSql_iff hs]
    simp [ha]

/-! ### Changing a column -/

/-- A text that changes a column under PostgreSQL. -/
def alterClause (s : Source) (n clause : Text) : Text :=
  "ALTER COLUMN " ++ s.dialect.quoteName n ++ clause

/-- Whether a column may be NULL, as a change says it under PostgreSQL. -/
def nullClause (c : Column) : Text :=
  if c.nullable then " DROP NOT NULL" else " SET NOT NULL"

theorem set_eq_nullClause_iff : " SET NOT NULL".toList = nullClause c ↔ c.nullable = false := by
  unfold nullClause
  cases c.nullable <;> decide +kernel

theorem drop_eq_nullClause_iff : " DROP NOT NULL".toList = nullClause c ↔ c.nullable = true := by
  unfold nullClause
  cases c.nullable <;> decide +kernel

/-- The default of a column, as a change says it under PostgreSQL. -/
def defaultClause (s : Source) (c : Column) : Text :=
  match c.default with
  | some default => " SET DEFAULT " ++ s.defaultLiteral c default
  | none => " DROP DEFAULT"

/-- The statement that makes a column refuse NULL under SQL Server, together with its type. -/
def alterNotNull (s : Source) (table n : Text) (c : Column) : Text :=
  "ALTER TABLE " ++ s.alteredName table ++ " ALTER COLUMN " ++ s.dialect.quoteName n ++ " " ++
    s.columnTypeSql c ++ " NOT NULL;"

theorem eval_postgreSqlChange_eq (n : Text) (c : Column) :
    s.eval (s.postgreSqlChange (n, c)) =
      [s.alterClause n (" TYPE " ++ s.columnTypeSql c), s.alterClause n (nullClause c),
        s.alterClause n (s.defaultClause c)] := by
  have htype : s.alterClause n (" TYPE " ++ s.columnTypeSql c) =
      "ALTER COLUMN " ++ s.dialect.quoteName n ++ " TYPE " ++ s.columnTypeSql c :=
    (List.append_assoc ..).symm
  rw [htype]
  rfl

theorem alterClause_inj {n a b : Text} : s.alterClause n a = s.alterClause n b ↔ a = b :=
  List.append_right_inj _

/-- Under PostgreSQL a change says in one of two ways whether a column may be NULL, and goes by what
the column says. -/
theorem mem_stepTexts_postgreSql (hs : s.dialect = .postgreSql) (d : TableDiff) (n : Text)
    (c : Column) {clause : Text} (hclause : clause = " SET NOT NULL" ∨ clause = " DROP NOT NULL") :
    s.alterClause n clause ∈ s.stepTexts name d (.changeColumn n c) ↔
      clause = nullClause c := by
  -- The clauses for the type and the default begin otherwise.
  have hother (head : Text) (hp : ¬head <+: " SET NOT NULL") (hp' : ¬head <+: " DROP NOT NULL")
      (hn : ¬" SET NOT NULL".toList <+: head) (hn' : ¬" DROP NOT NULL".toList <+: head)
      (rest : Text) : clause ≠ head ++ rest := by
    intro h
    rcases hclause with rfl | rfl
    · exact append_ne_append hn hp [] rest (by rw [List.append_nil, h])
    · exact append_ne_append hn' hp' [] rest (by rw [List.append_nil, h])
  have htype : clause ≠ " TYPE " ++ s.columnTypeSql c :=
    hother _ (by decide +kernel) (by decide +kernel) (by decide +kernel) (by decide +kernel) _
  have hdefault : clause ≠ s.defaultClause c := by
    unfold defaultClause
    cases c.default with
    | some default =>
      exact hother _ (by decide +kernel) (by decide +kernel) (by decide +kernel)
        (by decide +kernel) _
    | none =>
      have hdrop : ∀ clause : Text, clause = " SET NOT NULL" ∨ clause = " DROP NOT NULL" →
          clause ≠ " DROP DEFAULT" := by
        rintro clause (rfl | rfl) <;> decide +kernel
      exact hdrop clause hclause
  have htexts : s.stepTexts name d (.changeColumn n c) = s.eval (s.postgreSqlChange (n, c)) := by
    unfold stepTexts
    rw [hs]
  rw [htexts, eval_postgreSqlChange_eq, List.mem_cons, List.mem_cons, List.mem_singleton,
    alterClause_inj, alterClause_inj, alterClause_inj, or_iff_right htype, or_iff_left hdefault]

/-- Under SQL Server a change goes by what the column says. -/
theorem stepTexts_sqlServer (hs : s.dialect = .sqlServer) (d : TableDiff) (n : Text) (c : Column) :
    s.stepTexts name d (.changeColumn n c) = [s.alterNotNull name n c] ↔ c.nullable = false := by
  have htexts : s.stepTexts name d (.changeColumn n c) =
      [s.eval (s.sqlServerChange (s.alteredName name) (n, c))] := by
    unfold stepTexts
    rw [hs]
  have hchange : s.eval (s.sqlServerChange (s.alteredName name) (n, c)) =
      "ALTER TABLE " ++ s.alteredName name ++ " ALTER COLUMN " ++ s.dialect.quoteName n ++ " " ++
        s.columnTypeSql c ++ (if c.nullable then " NULL;" else " NOT NULL;" : Text) := by
    have hend : " ".toList ++ ((if c.nullable then "NULL" else "NOT NULL" : Text) ++ ";") =
        (if c.nullable then " NULL;" else " NOT NULL;" : Text) := by
      cases c.nullable <;> decide +kernel
    rw [sqlServerChange, eval_bind, eval_ask, eval_pure]
    simp only [List.append_assoc, hend]
  unfold alterNotNull
  rw [htexts, hchange, List.singleton_inj, List.append_cancel_left_eq]
  cases c.nullable with
  | true =>
    rw [if_pos rfl]
    exact iff_of_false (by decide +kernel) Bool.noConfusion
  | false =>
    rw [if_neg Bool.false_ne_true]
    exact iff_of_true rfl rfl

/-! ### Creating and changing -/

/-- Under PostgreSQL and SQL Server a migration and the creation of the new version agree on whether
a changed column may be NULL, unless the column is marked as primary or counts itself up and does
not say that it may not be NULL. -/
theorem changeColumn_refusesNull_iff (s : Source) (name : Text) {old new : Table}
    (hnew : new.validate = .ok ()) (hs : s.dialect = .postgreSql ∨ s.dialect = .sqlServer) :
    (∃ (table : Text) (indexes parameters statements : List Text),
      s.eval (s.createTable new).run = .ok (Text.join "\n"
        (StatementKind.render .schema
          { table
            columns := new.columns.entries.map fun e => s.createdColumn new e.1 e.2
            indexes
            tableParameters := parameters } :: statements))) ∧
      s.eval (s.alterTable name (old.compare new)).run =
        .ok (s.scriptText name (old.compare new)) ∧
      ∀ n c, (old.compare new).change.get? n = some c →
        new.columns.get? n = some c ∧
          .changeColumn n c ∈ (old.compare new).script s.dialect ∧
          (s.dialect = .postgreSql →
            let texts := s.stepTexts name (old.compare new) (.changeColumn n c)
            (s.alterClause n " SET NOT NULL" ∈ texts ↔ s.alterClause n " DROP NOT NULL" ∉ texts) ∧
              ((s.alterClause n " SET NOT NULL" ∈ texts ↔ RefusesNull (s.createdColumn new n c)) ↔
                (c.nullable = true → c.isPrimary = false ∧ new.autoColumn ≠ some n))) ∧
          (s.dialect = .sqlServer →
            let texts := s.stepTexts name (old.compare new) (.changeColumn n c)
            (texts = [s.alterNotNull name n c] ↔ RefusesNull (s.createdColumn new n c)) ↔
              (c.nullable = true → c.isPrimary = false ∧ new.autoColumn ≠ some n)) := by
  have hagree (n : Text) (c : Column) :
      (c.nullable = false ↔ RefusesNull (s.createdColumn new n c)) ↔
        (c.nullable = true → c.isPrimary = false ∧ new.autoColumn ≠ some n) := by
    rw [refusesNull_createdColumn_iff hs]
    cases c.nullable <;> simp
  refine ⟨eval_createTable hnew, ?_, fun n c hc => ⟨?_, ?_, fun hp => ?_, fun hm => ?_⟩⟩
  · rw [eval_alterTable (Table.primaryFirst_compare old new), refusal]
    rcases hs with hs | hs <;> simp [hs]
  · exact Table.get?_of_get?_change_compare hc
  · rw [((old.compare new).script_perm_steps s.dialect).mem_iff]
    have hm : (n, c) ∈ (old.compare new).change.entries := OrderedMap.get?_eq_some_iff.1 hc
    simp [TableDiff.steps, hm]
  · dsimp only
    rw [mem_stepTexts_postgreSql hp _ n c (.inl rfl), mem_stepTexts_postgreSql hp _ n c (.inr rfl),
      set_eq_nullClause_iff, drop_eq_nullClause_iff, hagree, Bool.not_eq_true]
    exact ⟨Iff.rfl, Iff.rfl⟩
  · dsimp only
    rw [stepTexts_sqlServer hm, hagree]

/-- A column outside the key stays one that may be NULL. -/
theorem changeColumn_refusesNull_iff_single :
    let new := Table.single .bigInteger none []
    let d := (Table.single .integer none []).compare new
    let c : Column := { type := .bigInteger }
    let s : Source := { dialect := .postgreSql }
    new.validate = .ok () ∧ d.change.get? ['a'] = some c ∧
      (s.alterClause ['a'] " SET NOT NULL" ∈ s.stepTexts ['t'] d (.changeColumn ['a'] c) ↔
        RefusesNull (s.createdColumn new ['a'] c)) := by
  intro new d c s
  have hnew : new.validate = .ok () := by decide
  have hc : d.change.get? ['a'] = some c := by decide
  obtain ⟨-, -, hchange⟩ := changeColumn_refusesNull_iff s ['t'] hnew (.inl rfl)
  exact ⟨hnew, hc, ((hchange _ _ hc).2.2.1 rfl).2.2 fun _ => by decide⟩

/-- The column of a key that is widened is made to allow NULL, which it does not where the table is
created. -/
theorem key_column_allows_null :
    let old := Table.single .integer (some .primary) []
    let new := Table.single .bigInteger (some .primary) []
    let c : Column := { type := .bigInteger, key := some .primary }
    let step : TableStep := .changeColumn ['a'] c
    let postgreSql : Source := { dialect := .postgreSql }
    let sqlServer : Source := { dialect := .sqlServer }
    old.validate = .ok () ∧ new.validate = .ok () ∧
      (old.compare new).change.get? ['a'] = some c ∧
      postgreSql.alterClause ['a'] " DROP NOT NULL" ∈
        postgreSql.stepTexts ['t'] (old.compare new) step ∧
      postgreSql.alterClause ['a'] " SET NOT NULL" ∉
        postgreSql.stepTexts ['t'] (old.compare new) step ∧
      RefusesNull (postgreSql.createdColumn new ['a'] c) ∧
      sqlServer.stepTexts ['t'] (old.compare new) step ≠ [sqlServer.alterNotNull ['t'] ['a'] c] ∧
      RefusesNull (sqlServer.createdColumn new ['a'] c) := by
  intro old new c step postgreSql sqlServer
  have hcreated (s : Source) (hs : s.dialect = .postgreSql ∨ s.dialect = .sqlServer) :
      RefusesNull (s.createdColumn new ['a'] c) :=
    (refusesNull_createdColumn_iff hs new ['a'] c).2 (.inl rfl)
  refine ⟨by decide, by decide, by decide, ?_, ?_, hcreated _ (.inl rfl), ?_, hcreated _ (.inr rfl)⟩
  · exact (mem_stepTexts_postgreSql rfl _ _ c (.inr rfl)).2 (drop_eq_nullClause_iff.2 rfl)
  · rw [mem_stepTexts_postgreSql rfl _ _ c (.inl rfl), set_eq_nullClause_iff]
    exact Bool.noConfusion
  · rw [ne_eq, stepTexts_sqlServer rfl]
    exact Bool.noConfusion

end Source

end SqlComposer
