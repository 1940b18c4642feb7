import SqlComposer.Proofs.ColumnDefinition
import SqlComposer.Proofs.Trim

/-!
# Definitions of tables

A table that is created has its primary key in one place. Under SQLite a column that is the whole
key and counts itself up declares the key; otherwise the key is an item of its own, which lists the
columns in the order of the key. Each of the other indexes comes once, as an item where the dialect
allows that and otherwise as a statement behind the definition.
-/

namespace SqlComposer

namespace OrderedMap

variable {α β γ : Type} [DecidableEq α]

/-- What is made of one key only is made of its value. -/
theorem flatMap_entries_of_key (m : OrderedMap α β) (k : α) (f : β → List γ) :
    (m.entries.flatMap fun e => if e.1 = k then f e.2 else []) = (m.get? k).toList.flatMap f := by
  obtain ⟨es, hes⟩ := m
  change es.flatMap _ = (es.lookup k).toList.flatMap f
  induction es with
  | nil => rfl
  | cons e es ih =>
    obtain ⟨hk, hes⟩ := List.nodup_cons.1 hes
    rw [List.flatMap_cons]
    by_cases he : e.1 = k
    · have hrest : (es.flatMap fun e => if e.1 = k then f e.2 else []) = [] := by
        rw [List.flatMap_eq_nil_iff]
        intro e' he'
        have hne : e'.1 ≠ k := fun h => hk (List.mem_map.2 ⟨e', he', h.trans he.symm⟩)
        exact if_neg hne
      rw [if_pos he, hrest, List.lookup_cons, beq_iff_eq.2 he.symm]
      simp
    · have hb : (k == e.1) = false := beq_eq_false_iff_ne.2 fun h => he h.symm
      rw [if_neg he, List.nil_append, ih hes, List.lookup_cons, hb]

end OrderedMap

namespace Text

variable {a b : Char}

theorem tight_of_ends (ha : CharClass.isBlank a = false) (hb : CharClass.isBlank b = false)
    (m : Text) : Tight (a :: m ++ [b]) where
  head := ⟨a, rfl, ha⟩
  last := ⟨b, List.getLast?_concat, hb⟩

end Text

namespace Table

variable {t : Table} {name : Text} {c : Column}

/-! ### The key of a table -/

/-- Whether a column counts itself up: it is the whole key, and its type allows it. -/
def CountsUp (t : Table) (name : Text) (c : Column) : Prop :=
  t.primaryKey.map Index.columns = some [name] ∧ countsUp c.type = true

instance : Decidable (t.CountsUp name c) :=
  inferInstanceAs (Decidable (_ ∧ _))

theorem autoColumn_eq_some_iff (hc : t.columns.get? name = some c) :
    t.autoColumn = some name ↔ t.CountsUp name c :=
  autoIncrement_eq_some_iff hc

/-- The column that counts itself up is one of the table. -/
theorem exists_of_autoColumn (h : t.autoColumn.isSome = true) :
    ∃ name c, t.columns.get? name = some c ∧ t.CountsUp name c := by
  obtain ⟨name, hname⟩ := Option.isSome_iff_exists.1 h
  have hmem : ∃ c, t.columns.get? name = some c := by
    unfold autoColumn autoIncrement at hname
    split at hname
    · next n hn =>
      split at hname
      · next c hc =>
        split at hname
        · cases hname
          exact ⟨c, hc⟩
        · cases hname
      · cases hname
    · cases hname
  obtain ⟨c, hc⟩ := hmem
  exact ⟨name, c, hc, (autoColumn_eq_some_iff hc).1 hname⟩

/-- The indexes in force besides the primary key. -/
def otherIndexes (t : Table) : List (Text × Index) :=
  t.effectiveIndexes.entries.filter fun e => e.1 ≠ primaryName

end Table

namespace Source

variable {s : Source} {t : Table} {c : Column}

/-! ### The two forms of a definition, in any dialect -/

/-- What stands behind the type of a column begins in one of three ways. -/
theorem nullabilitySql_cases (s : Source) (c : Column) :
    s.nullabilitySql c = " NOT NULL" ∨ (∃ rest : Text, s.nullabilitySql c = " DEFAULT " ++ rest) ∨
      c.type = .timestamp ∧ s.nullabilitySql c = " NULL" := by
  unfold nullabilitySql
  split
  · exact .inl rfl
  · split
    · exact .inr (.inl ⟨_, List.append_assoc ..⟩)
    · split
      · exact .inl rfl
      · split
        · next h => exact .inr (.inr ⟨h, rfl⟩)
        · exact .inr (.inl ⟨"NULL", rfl⟩)

theorem nullabilitySql_head (s : Source) (c : Column) :
    ∃ rest : Text,
      s.nullabilitySql c = [' ', 'N'] ++ rest ∨ s.nullabilitySql c = [' ', 'D'] ++ rest := by
  rcases nullabilitySql_cases s c with h | ⟨rest, h⟩ | ⟨-, h⟩ <;> rw [h]
  · exact ⟨"OT NULL", .inl rfl⟩
  · exact ⟨"EFAULT " ++ rest, .inr rfl⟩
  · exact ⟨"ULL", .inl rfl⟩

theorem plainColumnSql_of_ne (hs : s.dialect ≠ .mySql) (c : Column) :
    s.plainColumnSql c = s.columnTypeSql c ++ s.nullabilitySql c := by
  have hnone (head : Text) (t : Option Text) :
      optionalPart (decide (s.dialect = .mySql)) head t = [] := by
    cases t <;> simp [optionalPart, hs]
  simp only [plainColumnSql, hnone, List.append_nil]

theorem prefix_columnTypeSql {native : NativeType}
    (hc : s.dialect.nativeType c.type = some native) : native.name <+: s.columnTypeSql c := by
  unfold columnTypeSql
  rw [hc]
  dsimp only
  cases (if writesLength s.dialect c.type then c.length else none).or native.length with
  | none =>
    dsimp only
    split
    · exact List.prefix_append _ _
    · exact List.prefix_rfl
  | some n =>
    have hsized : native.name <+: native.name ++ "(" ++ n ++ ")" := by
      rw [List.append_assoc, List.append_assoc]
      exact List.prefix_append _ _
    dsimp only
    split
    · exact hsized.trans (List.prefix_append _ _)
    · exact hsized

/-- A definition begins with the native type. -/
theorem ne_plainColumnSql_of_native {native : NativeType} {a : Text}
    (hc : s.dialect.nativeType c.type = some native) (ha : ¬native.name <+: a) :
    a ≠ s.plainColumnSql c := by
  rintro rfl
  refine ha ((prefix_columnTypeSql hc).trans ?_)
  simp only [plainColumnSql, List.append_assoc]
  exact List.prefix_append _ _

/-- Under PostgreSQL the type of a column is that of a counter only if it is declared so. -/
theorem counter_ne_plainColumnSql (hs : s.dialect = .postgreSql) (hc : c.type.name ≠ "serial") :
    "serial NOT NULL".toList ≠ s.plainColumnSql c := by
  cases hn : s.dialect.nativeType c.type with
  | some native =>
    refine ne_plainColumnSql_of_native hn ?_
    rw [hs] at hn
    cases hty : c.type <;> rw [hty] at hn <;> cases hn <;> decide +kernel
  | none =>
    have htype : s.columnTypeSql c = c.type.name := by
      unfold columnTypeSql
      rw [hn]
    rw [plainColumnSql_of_ne (by simp [hs]), htype]
    intro h
    rcases nullabilitySql_cases s c with hnull | ⟨rest, hnull⟩ | ⟨hty, -⟩
    · rw [hnull] at h
      exact hc (List.append_cancel_right h.symm)
    · have hd : ¬[' ', 'D'] <:+: "serial NOT NULL".toList := by decide +kernel
      rw [h, hnull] at hd
      exact hd ⟨c.type.name, "EFAULT " ++ rest, by simp⟩
    · rw [hty, hs] at hn
      cases hn

/-- Under SQLite only a column that counts itself up declares the key. -/
theorem automaticKey_ne_plainColumnSql (hs : s.dialect = .sqlite) (c : Column) :
    "integer PRIMARY KEY AUTOINCREMENT".toList ≠ s.plainColumnSql c := by
  have hn : ¬[' ', 'N'] <:+: "integer PRIMARY KEY AUTOINCREMENT".toList := by decide +kernel
  have hd : ¬[' ', 'D'] <:+: "integer PRIMARY KEY AUTOINCREMENT".toList := by decide +kernel
  rw [plainColumnSql_of_ne (by simp [hs])]
  intro h
  obtain ⟨rest, hr | hr⟩ := nullabilitySql_head s c
  · exact hn ⟨s.columnTypeSql c, rest, by rw [h, hr, List.append_assoc]⟩
  · exact hd ⟨s.columnTypeSql c, rest, by rw [h, hr, List.append_assoc]⟩

/-- The form of a column that counts itself up is not the other one, unless a set or an enumeration
is declared as a counter under PostgreSQL. -/
theorem forms_ne (hc : s.dialect = .postgreSql → c.type.name ≠ "serial") :
    s.autoIncrementSql c ≠ s.plainColumnSql c := by
  cases hs : s.dialect with
  | mySql => exact autoIncrementSql_ne_plainColumnSql hs c
  | postgreSql =>
    unfold autoIncrementSql
    rw [hs]
    dsimp only
    split
    · next hty =>
      have hn : s.dialect.nativeType c.type = some ⟨"bigint", none⟩ := by
        rw [hs, hty]
        rfl
      exact ne_plainColumnSql_of_native hn (by decide +kernel)
    · exact counter_ne_plainColumnSql hs (hc hs)
  | sqlite =>
    have hauto : s.autoIncrementSql c = "integer PRIMARY KEY AUTOINCREMENT" := by
      unfold autoIncrementSql
      rw [hs]
      rfl
    rw [hauto]
    exact automaticKey_ne_plainColumnSql hs c
  | sqlServer =>
    have hauto : s.autoIncrementSql c =
        s.columnTypeSql c ++ " IDENTITY (1, 1) NOT NULL".toList := by
      unfold autoIncrementSql
      rw [hs, List.append_assoc]
      rfl
    rw [hauto, plainColumnSql_of_ne (by simp [hs]), ne_eq, List.append_cancel_left_eq]
    obtain ⟨rest, hr | hr⟩ := nullabilitySql_head s c <;> rw [hr] <;> simp

/-! ### Indexes as they are declared -/

/-- How much of a column is indexed, which only MySQL says. -/
def lengthSql (s : Source) (i : Index) (name : Text) : Text :=
  match i.lengths.get? name with
  | some n => if s.dialect = .mySql then "(" ++ Text.ofNat n ++ ")" else []
  | none => []

/-- The columns of an index in its order. -/
def columnList (s : Source) (i : Index) : Text :=
  "(" ++ Text.join ", " (i.columns.map fun c => s.dialect.quoteName c ++ s.lengthSql i c) ++ ")"

theorem eval_indexColumn (i : Index) (name : Text) :
    s.eval (s.indexColumn i name) = s.dialect.quoteName name ++ s.lengthSql i name := by
  unfold indexColumn lengthSql
  rw [eval_bind, eval_ask]
  cases i.lengths.get? name with
  | none => exact (List.append_nil _).symm
  | some n =>
    change (if s.dialect = .mySql then s.dialect.quoteName name ++ "(" ++ Text.ofNat n ++ ")"
      else s.dialect.quoteName name) = _
    split <;> simp_all

theorem indexColumnsSql_eq (s : Source) (i : Index) : s.indexColumnsSql i = s.columnList i := by
  simp only [indexColumnsSql, eval_indexColumn]
  rfl

/-- The primary key as an item of a table definition. -/
def keyItem (s : Source) (i : Index) : Text :=
  "PRIMARY KEY " ++ s.columnList i

/-- An index as an item of a table definition. -/
def inlineIndex (s : Source) (e : Text × Index) : Text :=
  indexKindSql e.2 ++ "KEY " ++ s.dialect.quoteName e.1 ++ " " ++ s.columnList e.2

/-- An index as a statement of its own. -/
def indexStatement (s : Source) (table : Text) (e : Text × Index) : Text :=
  "CREATE " ++ (if e.2.unique then "UNIQUE " else [] : Text) ++ "INDEX " ++
    s.dialect.quoteName e.1 ++ " ON " ++ table ++ " " ++ s.columnList e.2 ++ ";"

/-- Whether an item of a table definition declares the primary key. -/
def isKeyItem (item : Text) : Bool :=
  List.isPrefixOf "PRIMARY KEY " item

theorem isKeyItem_keyItem (s : Source) (i : Index) : isKeyItem (s.keyItem i) = true :=
  List.isPrefixOf_iff_prefix.2 (List.prefix_append _ _)

theorem isKeyItem_inlineIndex (s : Source) (e : Text × Index) :
    isKeyItem (s.inlineIndex e) = false := by
  unfold inlineIndex indexKindSql
  cases e.2.unique <;> rcases e.2.kind with _ | _ | _ <;> rfl

theorem exists_columnList (s : Source) (i : Index) : ∃ m, s.columnList i = m ++ [')'] :=
  ⟨_, rfl⟩

theorem tight_keyItem (s : Source) (i : Index) : (s.keyItem i).Tight := by
  obtain ⟨m, hm⟩ := exists_columnList s i
  have h : s.keyItem i = 'P' :: ("RIMARY KEY " ++ m) ++ [')'] := by
    unfold keyItem
    rewrite [hm]
    simp
  rw [h]
  exact Text.tight_of_ends rfl rfl _

theorem exists_indexKindSql (i : Index) :
    ∃ a m, indexKindSql i ++ "KEY ".toList = a :: m ∧ CharClass.isBlank a = false := by
  unfold indexKindSql
  cases i.unique with
  | true => exact ⟨'U', _, rfl, rfl⟩
  | false =>
    rcases i.kind with _ | _ | _
    · exact ⟨'K', _, rfl, rfl⟩
    · exact ⟨'F', _, rfl, rfl⟩
    · exact ⟨'S', _, rfl, rfl⟩

theorem tight_inlineIndex (s : Source) (e : Text × Index) : (s.inlineIndex e).Tight := by
  obtain ⟨a, k, hk, ha⟩ := exists_indexKindSql e.2
  obtain ⟨m, hm⟩ := exists_columnList s e.2
  have h : s.inlineIndex e = a :: (k ++ s.dialect.quoteName e.1 ++ " " ++ m) ++ [')'] := by
    rw [inlineIndex, hk, hm]
    simp
  rw [h]
  exact Text.tight_of_ends ha rfl _

/-! ### Items and statements -/

section Indexes

variable (s) (table : Text) (m : OrderedMap Text Index)

/-- The items and the statements of an index. -/
theorem eval_indexSql_eq (e : Text × Index) :
    s.eval (s.indexSql table e) =
      if e.1 = primaryName then ⟨[s.keyItem e.2], []⟩
      else if s.dialect = .mySql then ⟨[s.inlineIndex e], []⟩
      else ⟨[], [s.indexStatement table e]⟩ := by
  rw [eval_indexSql, indexColumnsSql_eq]
  unfold Dialect.hasInlineIndexes
  simp only [beq_iff_eq]
  rfl

/-- The items of indexes. -/
def indexItems : List Text :=
  m.entries.flatMap fun e => (s.eval (s.indexSql table e)).items

/-- The statements of indexes. -/
def indexStatements : List Text :=
  m.entries.flatMap fun e => (s.eval (s.indexSql table e)).statements

/-- The primary key is one item, if it is among the indexes. -/
theorem filter_isKeyItem_indexItems :
    (s.indexItems table m).filter isKeyItem = (m.get? primaryName).toList.map s.keyItem := by
  have hone (e : Text × Index) : (s.eval (s.indexSql table e)).items.filter isKeyItem =
      if e.1 = primaryName then [s.keyItem e.2] else [] := by
    rw [eval_indexSql_eq]
    split
    · simp [isKeyItem_keyItem]
    · split
      · simp [isKeyItem_inlineIndex]
      · rfl
  rw [indexItems, List.filter_flatMap]
  simp only [hone]
  exact (m.flatMap_entries_of_key primaryName fun i => [s.keyItem i]).trans
    List.map_eq_flatMap.symm

/-- The other indexes are items in their order, where the dialect allows that. -/
theorem filter_not_isKeyItem_indexItems :
    ((s.indexItems table m).filter fun item => !isKeyItem item) =
      if s.dialect = .mySql then
        (m.entries.filter fun e => e.1 ≠ primaryName).map s.inlineIndex
      else [] := by
  have hone (e : Text × Index) :
      ((s.eval (s.indexSql table e)).items.filter fun item => !isKeyItem item) =
        if e.1 ≠ primaryName then
          (if s.dialect = .mySql then [s.inlineIndex e] else []) else [] := by
    rw [eval_indexSql_eq, ite_not]
    split
    · simp [isKeyItem_keyItem]
    · split
      · simp [isKeyItem_inlineIndex]
      · rfl
  rw [indexItems, List.filter_flatMap]
  simp only [hone]
  split
  · rw [List.map_eq_flatMap, flatMap_filter]
    simp only [decide_eq_true_eq]
  · simp

/-- Elsewhere they are statements in their order. -/
theorem indexStatements_eq :
    s.indexStatements table m =
      if s.dialect = .mySql then []
      else (m.entries.filter fun e => e.1 ≠ primaryName).map (s.indexStatement table) := by
  have hone (e : Text × Index) :
      (s.eval (s.indexSql table e)).statements =
        if e.1 ≠ primaryName then
          (if s.dialect = .mySql then [] else [s.indexStatement table e]) else [] := by
    rw [eval_indexSql_eq, ite_not]
    split
    · rfl
    · split <;> rfl
  rw [indexStatements]
  simp only [hone]
  split
  · simp
  · rw [List.map_eq_flatMap, flatMap_filter]
    simp only [decide_eq_true_eq]

theorem tight_of_mem_indexItems {item : Text} (h : item ∈ s.indexItems table m) : item.Tight := by
  obtain ⟨e, -, he⟩ := List.mem_flatMap.1 h
  rw [eval_indexSql_eq] at he
  split at he
  · exact List.mem_singleton.1 he ▸ tight_keyItem s e.2
  · split at he
    · exact List.mem_singleton.1 he ▸ tight_inlineIndex s e
    · cases he

end Indexes

/-! ### One place for the key -/

/-- The indexes that are written apart from the columns. -/
def writtenIndexes (s : Source) (t : Table) : OrderedMap Text Index :=
  if s.dialect = .sqlite && t.autoColumn.isSome then t.effectiveIndexes.erase primaryName
  else t.effectiveIndexes

theorem filter_entries_writtenIndexes (s : Source) (t : Table) :
    ((s.writtenIndexes t).entries.filter fun e => e.1 ≠ primaryName) = t.otherIndexes := by
  unfold writtenIndexes
  split
  · have he : (t.effectiveIndexes.erase primaryName).entries = t.otherIndexes :=
      List.filter_congr fun e _ => by rw [Bool.eq_iff_iff]; simp
    rw [he, Table.otherIndexes, List.filter_filter]
    simp
  · rfl

/-- Whether the key of a table is declared by the column that is it. -/
def KeyOnColumn (s : Source) (t : Table) : Prop :=
  s.dialect = .sqlite ∧ ∃ name c, t.columns.get? name = some c ∧ t.CountsUp name c

theorem keyOnColumn_iff :
    (decide (s.dialect = .sqlite) && t.autoColumn.isSome) = true ↔ s.KeyOnColumn t := by
  rw [Bool.and_eq_true, decide_eq_true_eq]
  refine and_congr_right fun _ => ⟨Table.exists_of_autoColumn, ?_⟩
  rintro ⟨name, c, hc, h⟩
  rw [(Table.autoColumn_eq_some_iff hc).2 h]
  rfl

theorem get?_writtenIndexes_of_keyOnColumn (h : s.KeyOnColumn t) :
    (s.writtenIndexes t).get? primaryName = none := by
  rw [writtenIndexes, if_pos (keyOnColumn_iff.2 h), OrderedMap.get?_erase, if_pos rfl]

theorem get?_writtenIndexes_of_not (h : ¬s.KeyOnColumn t) :
    (s.writtenIndexes t).get? primaryName = t.primaryKey := by
  rw [writtenIndexes, if_neg fun hk => h (keyOnColumn_iff.1 hk)]
  rfl

/-- The parts of the statements that create a table: its columns and other items, and the statements
behind the definition. The primary key is in one place, and the definition of a column says exactly
of those that count themselves up that they do: its two forms differ, unless a set or an enumeration
is declared by the word for a counter. -/
structure Declares (s : Source) (t : Table) (columns items statements : List Text) : Prop where
  definitions : columns = t.columns.entries.map fun e =>
    s.dialect.quoteName e.1 ++ " " ++
      if t.CountsUp e.1 e.2 then s.autoIncrementSql e.2 else s.plainColumnSql e.2
  forms : ∀ e ∈ t.columns.entries, (s.dialect = .postgreSql → e.2.type.name ≠ "serial") →
    s.autoIncrementSql e.2 ≠ s.plainColumnSql e.2
  keyless : t.primaryKey = none →
    items.filter isKeyItem = [] ∧ ∀ e ∈ t.columns.entries, ¬t.CountsUp e.1 e.2
  onColumn : s.KeyOnColumn t →
    items.filter isKeyItem = [] ∧
      ∀ c, s.autoIncrementSql c = "integer PRIMARY KEY AUTOINCREMENT"
  asItem : ∀ key, t.primaryKey = some key → ¬s.KeyOnColumn t →
    items.filter isKeyItem = ["PRIMARY KEY " ++ s.columnList key]
  inline : (items.filter fun item => !isKeyItem item) =
    if s.dialect = .mySql then t.otherIndexes.map s.inlineIndex else []
  separate : statements =
    if s.dialect = .mySql then [] else t.otherIndexes.map (s.indexStatement (s.alteredName t.name))
  written : Clauses.present (columns ++ items) = columns.map Text.trim ++ items

theorem eval_tableDefinition (s : Source) (t : Table) :
    s.eval (s.tableDefinition t) = Text.join "\n"
      (StatementKind.render .schema
        { table := s.alteredName t.name
          columns := t.columns.entries.map fun e => s.createdColumn t e.1 e.2
          indexes := s.indexItems (s.alteredName t.name) (s.writtenIndexes t)
          tableParameters := s.tableParameters t.parameters } ::
        s.indexStatements (s.alteredName t.name) (s.writtenIndexes t)) := by
  simp only [tableDefinition, eval_bind, eval_each, eval_pure, eval_buildIndexes]
  rfl

theorem createdColumn_eq {e : Text × Column} (he : e ∈ t.columns.entries) :
    s.createdColumn t e.1 e.2 = s.dialect.quoteName e.1 ++ " " ++
      if t.CountsUp e.1 e.2 then s.autoIncrementSql e.2 else s.plainColumnSql e.2 := by
  have hauto := Table.autoColumn_eq_some_iff (OrderedMap.get?_eq_some_iff.2 he)
  rw [createdColumn, eval_columnSql]
  simp only [decide_eq_true_eq, hauto]

/-- A definition contains a letter in any case. -/
theorem blank_createdColumn (s : Source) (t : Table) (name : Text) (c : Column) :
    Text.blank (s.createdColumn t name c) = false := by
  rw [createdColumn, eval_columnSql]
  split
  · have hn : 'N' ∈ s.dialect.primaryKeySuffix := by cases s.dialect <;> decide +kernel
    exact Text.blank_eq_false (List.mem_append_right _ (List.mem_append_right _ hn)) rfl
  · obtain ⟨rest, hr | hr⟩ := nullabilitySql_head s c
    · exact Text.blank_eq_false (a := 'N') (by simp [plainColumnSql, hr]) rfl
    · exact Text.blank_eq_false (a := 'D') (by simp [plainColumnSql, hr]) rfl

theorem present_append {columns items : List Text} (hc : ∀ c ∈ columns, Text.blank c = false)
    (hi : ∀ i ∈ items, i.Tight) :
    Clauses.present (columns ++ items) = columns.map Text.trim ++ items := by
  have htrim : items.map Text.trim = items :=
    (List.map_congr_left (g := id) fun i h => (hi i h).trim).trans (List.map_id items)
  rw [Clauses.present, List.map_append, htrim, List.filter_eq_self]
  intro item h
  rcases List.mem_append.1 h with h | h
  · obtain ⟨c, hm, rfl⟩ := List.mem_map.1 h
    rw [Text.isEmpty_trim, hc c hm]
    rfl
  · simpa using (hi item h).ne_nil List.infix_rfl

end Source

end SqlComposer
