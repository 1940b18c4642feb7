import SqlComposer.Proofs.OrderedMap
import SqlComposer.Schema.Table

/-!
# Indexes and keys of a table

When two indexes are the same, what the primary key of a table is, and what it means that a table
is valid.
-/

namespace SqlComposer

/-! ### The same index -/

theorem Index.agrees_iff {i j : Index} :
    i.agrees j = true ↔ i.columns = j.columns ∧ i.unique = j.unique ∧ i.kind = j.kind ∧
      ∀ c, i.lengths.get? c = j.lengths.get? c := by
  simp only [Index.agrees, Bool.and_eq_true, decide_eq_true_eq, OrderedMap.agrees_iff, and_assoc]

theorem Index.agrees_refl (i : Index) : i.agrees i = true :=
  Index.agrees_iff.2 ⟨rfl, rfl, rfl, fun _ => rfl⟩

theorem Index.agrees_symm {i j : Index} (h : i.agrees j = true) : j.agrees i = true := by
  obtain ⟨hc, hu, hk, hl⟩ := Index.agrees_iff.1 h
  exact Index.agrees_iff.2 ⟨hc.symm, hu.symm, hk.symm, fun c => (hl c).symm⟩

theorem Index.agrees_trans {i j k : Index} (hij : i.agrees j = true) (hjk : j.agrees k = true) :
    i.agrees k = true := by
  obtain ⟨hc, hu, hk, hl⟩ := Index.agrees_iff.1 hij
  obtain ⟨hc', hu', hk', hl'⟩ := Index.agrees_iff.1 hjk
  exact Index.agrees_iff.2 ⟨hc.trans hc', hu.trans hu', hk.trans hk', fun c => (hl c).trans (hl' c)⟩

/-- Whether two tables have the same index in a place, or both none. -/
def sameIndex : Option Index → Option Index → Bool
  | some i, some j => i.agrees j
  | none, none => true
  | _, _ => false

@[simp] theorem sameIndex_refl (i : Option Index) : sameIndex i i = true := by
  cases i with
  | none => rfl
  | some i => exact i.agrees_refl

theorem sameIndex_comm (i j : Option Index) : sameIndex i j = sameIndex j i := by
  cases i with
  | none => cases j <;> rfl
  | some i =>
    cases j with
    | none => rfl
    | some j => exact Bool.eq_iff_iff.2 ⟨Index.agrees_symm, Index.agrees_symm⟩

theorem sameIndex_trans {i j k : Option Index} (hij : sameIndex i j = true)
    (hjk : sameIndex j k = true) : sameIndex i k = true := by
  cases i with
  | none =>
    cases j with
    | none => exact hjk
    | some j => cases hij
  | some i =>
    cases j with
    | none => cases hij
    | some j =>
      cases k with
      | none => cases hjk
      | some k => exact Index.agrees_trans hij hjk

/-! ### Indexes in force -/

namespace Table

theorem get?_effectiveIndexes_of_ne (t : Table) {name : Text} (h : name ≠ primaryName) :
    t.effectiveIndexes.get? name = t.indexes.get? name := by
  have hd : (t.indexes.mapValues fun name index =>
      if name = primaryName then { index with unique := true } else index).get? name
        = t.indexes.get? name := by
    rw [OrderedMap.get?_mapValues]
    simp [h]
  unfold effectiveIndexes
  dsimp only
  split
  · exact hd
  · rw [OrderedMap.get?_insertAt, if_neg h, hd]

/-- The primary key in force: the index of that name, and otherwise the marked columns. -/
theorem get?_effectiveIndexes_primary (t : Table) :
    t.effectiveIndexes.get? primaryName =
      match t.indexes.get? primaryName with
      | some i => some { i with unique := true }
      | none =>
        if t.primaryColumns.isEmpty then none
        else some { columns := t.primaryColumns, unique := true } := by
  unfold effectiveIndexes
  dsimp only
  cases h : t.indexes.get? primaryName with
  | some i =>
    have hc : t.indexes.contains primaryName = true := by
      rw [← OrderedMap.isSome_get?, h]
      rfl
    simp [hc, OrderedMap.get?_mapValues, h]
  | none =>
    have hc := OrderedMap.contains_eq_false_iff.2 h
    rw [hc, Bool.false_or]
    split
    · simp [OrderedMap.get?_mapValues, h]
    · rw [OrderedMap.get?_insertAt, if_pos rfl]

/-! ### Marks -/

/-- Whether a column is marked as primary. -/
def marks (t : Table) (name : Text) : Bool :=
  (t.columns.get? name).any Column.isPrimary

theorem primaryColumns_eq (t : Table) : t.primaryColumns = t.columns.keys.filter t.marks := by
  have h : ∀ e ∈ t.columns.entries, t.marks e.1 = e.2.isPrimary := by
    rintro ⟨name, c⟩ he
    rw [marks, OrderedMap.get?_eq_some_iff.2 he]
    rfl
  simp only [primaryColumns, OrderedMap.keys, OrderedMap.filter, List.filter_map]
  congr 1
  exact List.filter_congr fun e he => (h e he).symm

theorem mem_keys_of_marks {t : Table} {name : Text} (h : t.marks name = true) :
    name ∈ t.columns.keys := by
  rw [OrderedMap.mem_keys_iff_get?]
  cases hc : t.columns.get? name with
  | none => simp [marks, hc] at h
  | some c => exact ⟨c, rfl⟩

theorem mem_primaryColumns {t : Table} {name : Text} :
    name ∈ t.primaryColumns ↔ t.marks name = true := by
  rw [primaryColumns_eq, List.mem_filter]
  exact ⟨And.right, fun h => ⟨mem_keys_of_marks h, h⟩⟩

/-! ### Validity -/

/-- What it takes for a table to be created. -/
structure Valid (t : Table) : Prop where
  name : Text.blank t.name = false
  columns : ∃ name, name ∈ t.columns.keys
  columnNames : ∀ name ∈ t.columns.keys, Text.blank name = false
  indexColumns : ∀ name i, t.indexes.get? name = some i → ∀ c ∈ i.columns, c ∈ t.columns.keys
  marks : ∀ i, t.indexes.get? primaryName = some i →
    t.primaryColumns = [] ∨ t.primaryColumns = i.columns

theorem danglingIndex_eq_none_iff {t : Table} :
    t.danglingIndex = none ↔
      ∀ name i, t.indexes.get? name = some i → ∀ c ∈ i.columns, c ∈ t.columns.keys := by
  simp only [danglingIndex, List.findSome?_eq_none_iff, Option.map_eq_none_iff, missingColumn,
    List.find?_eq_none, Bool.not_eq_true', Bool.not_eq_false, OrderedMap.contains_iff, Prod.forall,
    OrderedMap.get?_eq_some_iff]

theorem primaryConflict_eq_false_iff {t : Table} :
    t.primaryConflict = false ↔
      ∀ i, t.indexes.get? primaryName = some i →
        t.primaryColumns = [] ∨ t.primaryColumns = i.columns := by
  unfold primaryConflict
  cases t.indexes.get? primaryName with
  | none => simp
  | some i => cases hp : t.primaryColumns <;> simp

theorem validate_eq_ok_iff {t : Table} : t.validate = .ok () ↔ t.Valid := by
  have hc : t.columns.isEmpty = false ↔ ∃ name, name ∈ t.columns.keys := by
    rw [← Bool.not_eq_true, OrderedMap.isEmpty_iff, not_forall]
    simp only [OrderedMap.get?_eq_none_iff, Classical.not_not]
  have hn : t.columns.keys.any Text.blank = false ↔
      ∀ name ∈ t.columns.keys, Text.blank name = false := by
    simp
  constructor
  · intro h
    -- Each check that is passed gives one of the properties.
    unfold validate at h
    split at h
    · cases h
    · next h1 =>
      split at h
      · cases h
      · next h2 =>
        split at h
        · cases h
        · next h3 =>
          split at h
          · cases h
          · next h4 =>
            split at h
            · cases h
            · next h5 =>
              rw [Bool.not_eq_true] at h1 h2 h3 h5
              exact ⟨h1, hc.1 h2, hn.1 h3, danglingIndex_eq_none_iff.1 h4,
                primaryConflict_eq_false_iff.1 h5⟩
  · rintro ⟨h1, h2, h3, h4, h5⟩
    simp [validate, h1, hc.2 h2, hn.2 h3, danglingIndex_eq_none_iff.2 h4,
      primaryConflict_eq_false_iff.2 h5]

end Table

end SqlComposer
