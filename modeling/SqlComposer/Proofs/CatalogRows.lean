import SqlComposer.Proofs.PrimaryKey
import SqlComposer.Schema.Catalog

/-!
# Tables from consistent rows

Rows of a catalog are consistent if the rows of indexes name columns of the table and the columns
that are marked as primary are those of the primary key. Such rows describe a table whose key has
the columns in the order of their places. It is refused if that order is not the one in which the
columns stand in the table, and no other consistent rows are refused.
-/

namespace SqlComposer

namespace OrderedMap

variable {α β : Type} [DecidableEq α]

/-! ### Maps of lists -/

theorem entries_insertAll_of_nodup (m : OrderedMap α β) {es : List (α × β)}
    (h : (m.keys ++ es.map Prod.fst).Nodup) : (m.insertAll es).entries = m.entries ++ es := by
  induction es generalizing m with
  | nil => exact (List.append_nil _).symm
  | cons e es ih =>
    obtain ⟨k, v⟩ := e
    have hk : k ∉ m.keys := fun hm =>
      (List.nodup_append.1 h).2.2 k hm k (List.mem_cons_self ..) rfl
    have hi : m.insert k v = m.push k v hk := by rw [insert, dif_neg hk]
    have hkeys : (m.push k v hk).keys = m.keys ++ [k] := by simp [push, keys]
    have ht := ih (m.push k v hk) (by rw [hkeys]; simpa using h)
    rw [insertAll, List.foldl_cons, hi, ← insertAll, ht]
    simp [push]

/-- A list with distinct keys is the list of entries of its map. -/
theorem entries_ofList_of_nodup {es : List (α × β)} (h : (es.map Prod.fst).Nodup) :
    (ofList es).entries = es :=
  entries_insertAll_of_nodup empty h

theorem get?_insertAll_map (m : OrderedMap α β) (f : α → β) (ks : List α) (k : α) :
    (m.insertAll (ks.map fun j => (j, f j))).get? k = if k ∈ ks then some (f k) else m.get? k := by
  induction ks generalizing m with
  | nil => simp [insertAll]
  | cons j ks ih =>
    rw [List.map_cons, insertAll, List.foldl_cons, ← insertAll, ih, get?_insert]
    by_cases hj : k = j
    · subst hj
      simp
    · simp [hj]

/-- The map that has the value of a function under each of some keys. -/
theorem get?_ofList_map (f : α → β) (ks : List α) (k : α) :
    (ofList (ks.map fun j => (j, f j))).get? k = if k ∈ ks then some (f k) else none :=
  get?_insertAll_map empty f ks k

end OrderedMap

/-! ### Rows of indexes -/

namespace IndexRow

/-- The rows of one index, in the order of their places. -/
def sortedRows (rows : List IndexRow) (name : Text) : List IndexRow :=
  (rows.filter fun r => r.index = name).mergeSort fun a b => a.place ≤ b.place

theorem sortedRows_perm (rows : List IndexRow) (name : Text) :
    (sortedRows rows name).Perm (rows.filter fun r => r.index = name) :=
  List.mergeSort_perm _ _

theorem mem_sortedRows {rows : List IndexRow} {name : Text} {r : IndexRow} :
    r ∈ sortedRows rows name ↔ r ∈ rows ∧ r.index = name := by
  rw [(sortedRows_perm rows name).mem_iff, List.mem_filter, decide_eq_true_eq]

/-- Rows of one index with different places are sorted strictly. -/
theorem pairwise_sortedRows {rows : List IndexRow}
    (h : rows.Pairwise fun r r' => r.index = r'.index → r.place ≠ r'.place) (name : Text) :
    (sortedRows rows name).Pairwise (·.place < ·.place) := by
  have hle : (sortedRows rows name).Pairwise fun r r' => decide (r.place ≤ r'.place) = true :=
    List.pairwise_mergeSort
      (fun a b c => by simpa using Nat.le_trans)
      (fun a b => by simpa using Nat.le_total a.place b.place) _
  have hne : (sortedRows rows name).Pairwise fun r r' => r.index = r'.index → r.place ≠ r'.place :=
    ((sortedRows_perm rows name).pairwise_iff fun hr he => (hr he.symm).symm).2
      (h.sublist List.filter_sublist)
  refine (hle.and hne).imp_of_mem fun ha hb hab => ?_
  have hi := (mem_sortedRows.1 ha).2.trans (mem_sortedRows.1 hb).2.symm
  exact Nat.lt_of_le_of_ne (of_decide_eq_true hab.1) (hab.2 hi)

/-- The index of a name is that of its rows, if there are any. -/
theorem get?_toIndexes (rows : List IndexRow) (name : Text) :
    (toIndexes rows).get? name =
      if sortedRows rows name = [] then none
      else some (toIndex (rows.filter fun r => r.index = name)) := by
  have hm : name ∈ (rows.map IndexRow.index).eraseDups ↔ sortedRows rows name ≠ [] := by
    simp only [List.mem_eraseDups, List.mem_map, ne_eq, List.eq_nil_iff_forall_not_mem,
      mem_sortedRows, not_forall, Classical.not_not]
  rw [toIndexes, OrderedMap.get?_ofList_map]
  split_ifs <;> simp_all

theorem columns_toIndex (rows : List IndexRow) (name : Text) :
    (toIndex (rows.filter fun r => r.index = name)).columns =
      (sortedRows rows name).map IndexRow.column :=
  rfl

end IndexRow

/-! ### Tables -/

namespace Table

/-- The table that rows describe, valid or not. -/
def described (name : Text) (columns : List ColumnRow) (indexes : List IndexRow) : Table where
  name := name
  columns := OrderedMap.ofList (columns.map fun r => (r.field, r.toColumn))
  indexes := IndexRow.toIndexes indexes

/-- Whether rows describe one table: its columns have names of their own, the rows of indexes have
places of their own and name columns, and the columns marked as primary are those of the primary
key. -/
structure ConsistentRows (name : Text) (columns : List ColumnRow) (indexes : List IndexRow) :
    Prop where
  name : Text.blank name = false
  nonempty : columns ≠ []
  fields : (columns.map ColumnRow.field).Nodup
  named : ∀ c ∈ columns, Text.blank c.field = false
  places : indexes.Pairwise fun r r' => r.index = r'.index → r.place ≠ r'.place
  known : ∀ r ∈ indexes, ∃ c ∈ columns, c.field = r.column
  marked : ∀ c ∈ columns, c.keyRole = some .primary →
    ∃ r ∈ indexes, r.index = primaryName ∧ r.column = c.field
  keyed : ∀ r ∈ indexes, r.index = primaryName →
    ∃ c ∈ columns, c.field = r.column ∧ c.keyRole = some .primary

variable {name : Text} {columns : List ColumnRow} {indexes : List IndexRow}

theorem ofRows_eq (name : Text) (columns : List ColumnRow) (indexes : List IndexRow) :
    ofRows name columns indexes =
      (described name columns indexes).validate.map fun _ => described name columns indexes := by
  unfold ofRows
  simp only [← described.eq_def]
  cases (described name columns indexes).validate <;> rfl

/-- A table that is right but for its key is refused for a conflict, if there is one. -/
theorem validate_eq_ite {t : Table} (hn : Text.blank t.name = false)
    (hc : t.columns.isEmpty = false)
    (hnames : ∀ name ∈ t.columns.keys, Text.blank name = false) (hi : t.danglingIndex = none) :
    t.validate = if t.primaryConflict then .error (.conflictingPrimaryKey t.name) else .ok () := by
  have hb : t.columns.keys.any Text.blank = false := by simpa using hnames
  simp only [validate, hn, hc, hb, hi, Bool.false_eq_true, if_false]

namespace ConsistentRows

theorem entries_columns (h : ConsistentRows name columns indexes) :
    (described name columns indexes).columns.entries =
      columns.map fun r => (r.field, r.toColumn) := by
  refine OrderedMap.entries_ofList_of_nodup ?_
  rw [List.map_map]
  exact h.fields

theorem keys_columns (h : ConsistentRows name columns indexes) :
    (described name columns indexes).columns.keys = columns.map ColumnRow.field := by
  rw [OrderedMap.keys, h.entries_columns, List.map_map]
  rfl

theorem marks_field (h : ConsistentRows name columns indexes) {c : ColumnRow} (hc : c ∈ columns) :
    (described name columns indexes).marks c.field = c.toColumn.isPrimary := by
  have hg : (described name columns indexes).columns.get? c.field = some c.toColumn := by
    rw [OrderedMap.get?_eq_some_iff, h.entries_columns]
    exact List.mem_map_of_mem hc
  rw [marks, hg]
  rfl

theorem isPrimary_iff (h : ConsistentRows name columns indexes) {c : ColumnRow} (hc : c ∈ columns) :
    c.toColumn.isPrimary = true ↔
      c.field ∈ (IndexRow.sortedRows indexes primaryName).map IndexRow.column := by
  rw [Column.isPrimary, decide_eq_true_eq, List.mem_map]
  simp only [IndexRow.mem_sortedRows, and_assoc]
  constructor
  · exact h.marked c hc
  · rintro ⟨r, hr, hp, hf⟩
    obtain ⟨c', hc', hf', hk⟩ := h.keyed r hr hp
    have heq : c' = c := List.inj_on_of_nodup_map h.fields hc' hc (hf'.trans hf)
    exact heq ▸ hk

/-- The marked columns are those of the key, in the order of the table. -/
theorem primaryColumns_described (h : ConsistentRows name columns indexes) :
    (described name columns indexes).primaryColumns =
      (columns.map ColumnRow.field).filter
        ((IndexRow.sortedRows indexes primaryName).map IndexRow.column).contains := by
  rw [primaryColumns_eq, h.keys_columns]
  refine List.filter_congr fun n hn => ?_
  obtain ⟨c, hc, rfl⟩ := List.mem_map.1 hn
  rw [h.marks_field hc, Bool.eq_iff_iff, h.isPrimary_iff hc, List.contains_iff_mem]

/-- The marks agree with the key exactly if it has its columns in the order of the table. -/
theorem primaryColumns_eq_iff (h : ConsistentRows name columns indexes) :
    (described name columns indexes).primaryColumns =
        (IndexRow.sortedRows indexes primaryName).map IndexRow.column ↔
      ((IndexRow.sortedRows indexes primaryName).map IndexRow.column).Sublist
        (columns.map ColumnRow.field) := by
  rw [h.primaryColumns_described]
  constructor
  · intro he
    rw [← he]
    exact List.filter_sublist
  · intro hs
    exact filter_contains_of_sublist hs h.fields

theorem primaryColumns_eq_nil_iff (h : ConsistentRows name columns indexes) :
    (described name columns indexes).primaryColumns = [] ↔
      IndexRow.sortedRows indexes primaryName = [] := by
  rw [h.primaryColumns_described, List.filter_eq_nil_iff]
  constructor
  · intro hn
    by_contra hk
    obtain ⟨r, hr⟩ := List.exists_mem_of_ne_nil _ hk
    obtain ⟨c, hc, hf⟩ := h.known r (IndexRow.mem_sortedRows.1 hr).1
    refine hn r.column (List.mem_map.2 ⟨c, hc, hf⟩) ?_
    exact List.contains_iff_mem.2 (List.mem_map_of_mem hr)
  · intro hk
    simp [hk]

/-- The key and the marks are in conflict exactly if the key has its columns in another order than
the table. -/
theorem primaryConflict_described (h : ConsistentRows name columns indexes) :
    (described name columns indexes).primaryConflict = false ↔
      ((IndexRow.sortedRows indexes primaryName).map IndexRow.column).Sublist
        (columns.map ColumnRow.field) := by
  rw [← h.primaryColumns_eq_iff, primaryConflict_eq_false_iff, described, IndexRow.get?_toIndexes]
  split_ifs with hk
  · have hnil := h.primaryColumns_eq_nil_iff.2 hk
    exact iff_of_true (by simp) (by rw [← described.eq_def, hnil, hk]; rfl)
  · have hne : ¬_ = [] := fun hn => hk (h.primaryColumns_eq_nil_iff.1 hn)
    simp only [Option.some.injEq, forall_eq', IndexRow.columns_toIndex, ← described.eq_def, hne,
      false_or]

theorem danglingIndex_described (h : ConsistentRows name columns indexes) :
    (described name columns indexes).danglingIndex = none := by
  rw [danglingIndex_eq_none_iff]
  intro n i hi column hc
  rw [described, IndexRow.get?_toIndexes] at hi
  split_ifs at hi
  cases hi
  rw [IndexRow.columns_toIndex] at hc
  obtain ⟨r, hr, rfl⟩ := List.mem_map.1 hc
  obtain ⟨c, hm, hf⟩ := h.known r (IndexRow.mem_sortedRows.1 hr).1
  rw [h.keys_columns]
  exact List.mem_map.2 ⟨c, hm, hf⟩

theorem validate_described (h : ConsistentRows name columns indexes) :
    (described name columns indexes).validate =
      if (described name columns indexes).primaryConflict then .error (.conflictingPrimaryKey name)
      else .ok () := by
  refine validate_eq_ite h.name ?_ ?_ h.danglingIndex_described
  · rw [OrderedMap.isEmpty, h.entries_columns, List.isEmpty_map]
    exact Bool.not_eq_true _ ▸ fun he => h.nonempty (List.isEmpty_iff.1 he)
  · intro n hn
    rw [h.keys_columns] at hn
    obtain ⟨c, hc, rfl⟩ := List.mem_map.1 hn
    exact h.named c hc

/-- The primary key has the columns of its rows in the order of their places. -/
theorem primaryKey_described (h : ConsistentRows name columns indexes) :
    (described name columns indexes).primaryKey.map Index.columns =
      if IndexRow.sortedRows indexes primaryName = [] then none
      else some ((IndexRow.sortedRows indexes primaryName).map IndexRow.column) := by
  have hg := IndexRow.get?_toIndexes indexes primaryName
  split_ifs at hg ⊢ with hk
  · rw [primaryKey_of_undeclared hg, if_pos (h.primaryColumns_eq_nil_iff.2 hk)]
    rfl
  · rw [primaryKey_of_declared hg, Option.map_some, IndexRow.columns_toIndex]

end ConsistentRows

/-- Consistent rows describe a valid table exactly if the rows of the primary key, in the order of
their places, name columns in the order of the table; the key then has its columns in that order.
Otherwise the key is said to be in conflict with the marks. -/
theorem ofRows_of_consistentRows (h : ConsistentRows name columns indexes) :
    ∃ key : List IndexRow, key.Perm (indexes.filter fun r => r.index = primaryName) ∧
      key.Pairwise (·.place < ·.place) ∧
      ((key.map IndexRow.column).Sublist (columns.map ColumnRow.field) →
        ∃ t, ofRows name columns indexes = .ok t ∧
          (t.effectiveIndexes.get? primaryName).map Index.columns =
            if key = [] then none else some (key.map IndexRow.column)) ∧
      (¬(key.map IndexRow.column).Sublist (columns.map ColumnRow.field) →
        ofRows name columns indexes = .error (.conflictingPrimaryKey name)) := by
  refine ⟨IndexRow.sortedRows indexes primaryName, IndexRow.sortedRows_perm _ _,
    IndexRow.pairwise_sortedRows h.places _, fun hs => ?_, fun hs => ?_⟩
  · have hc := h.primaryConflict_described.2 hs
    refine ⟨described name columns indexes, ?_, h.primaryKey_described⟩
    rw [ofRows_eq, h.validate_described, hc]
    rfl
  · rw [← h.primaryConflict_described, Bool.not_eq_false] at hs
    rw [ofRows_eq, h.validate_described, hs]
    rfl

/-- A row of an integer column that is part of the primary key. -/
def keyColumn (field : Text) : ColumnRow :=
  { field, nativeType := "int(11)", nullable := "NO", key := "PRI" }

/-- A row of the primary key. -/
def keyRow (column : Text) (place : Nat) : IndexRow :=
  { index := primaryName, column, place }

/-- A key of the first and the third column, of which the later row comes first. -/
theorem ofRows_of_consistentRows_composite :
    let columns :=
      [keyColumn "a", { field := "b", nativeType := "text", nullable := "YES", key := "MUL" },
        keyColumn "c"]
    let indexes :=
      [keyRow "c" 2, { index := "by_b", column := "b", length := some 10, place := 1 },
        keyRow "a" 1]
    ConsistentRows "t" columns indexes ∧
      ∃ t, ofRows "t" columns indexes = .ok t ∧
        (t.effectiveIndexes.get? primaryName).map Index.columns = some [['a'], ['c']] := by
  intro columns indexes
  have h : ConsistentRows "t" columns indexes :=
    ⟨by decide, by decide, by decide, by decide, by decide, by decide, by decide, by decide⟩
  obtain ⟨key, hp, hs, hok, -⟩ := ofRows_of_consistentRows h
  have hsorted : [keyRow "a" 1, keyRow "c" 2].Pairwise (·.place < ·.place) := by decide
  have hk : key = [keyRow "a" 1, keyRow "c" 2] :=
    (hp.trans (List.Perm.swap _ _ [])).eq_of_pairwise
      (fun _ _ _ _ hab hba => absurd hab (Nat.lt_asymm hba)) hs hsorted
  subst hk
  exact ⟨h, hok (by decide)⟩

/-- A key of two columns in the other order is refused, although its rows are consistent. -/
theorem key_in_other_order_refused :
    let columns := [keyColumn "a", keyColumn "b"]
    let indexes := [keyRow "b" 1, keyRow "a" 2]
    ConsistentRows "t" columns indexes ∧
      ofRows "t" columns indexes = .error (.conflictingPrimaryKey "t") := by
  intro columns indexes
  have h : ConsistentRows "t" columns indexes :=
    ⟨by decide, by decide, by decide, by decide, by decide, by decide, by decide, by decide⟩
  have hk : IndexRow.sortedRows indexes primaryName = indexes :=
    List.mergeSort_of_pairwise (by decide)
  have hc : (described "t" columns indexes).primaryConflict = true := by
    rw [← Bool.not_eq_false, h.primaryConflict_described, hk]
    decide
  refine ⟨h, ?_⟩
  rw [ofRows_eq, h.validate_described, hc]
  rfl

end Table

end SqlComposer
