import SqlComposer.Proofs.TableDiff

/-!
# Carrying out the difference of two schemas

The difference of two schemas can always be carried out on the first one, and leads to the second
one: the same tables, with the same columns, secondary indexes and parameters. The primary key has a
module of its own.
-/

namespace SqlComposer

/-! ### One table -/

namespace TableDiff

@[simp] theorem differs_unmark (c d : Column) : (unmark c).differs d = c.differs d := by
  unfold unmark
  split <;> rfl

@[simp] theorem differs_markFor (i : Index) (name : Text) (c d : Column) :
    (markFor i name c).differs d = c.differs d := by
  unfold markFor
  split
  · rfl
  · exact differs_unmark c d

/-- Nothing happens to a table without changes. -/
theorem apply_of_isEmpty {d : TableDiff} (h : d.isEmpty = true) (t : Table) : d.apply t = t := by
  simp only [isEmpty, OrderedMap.isEmpty, Bool.and_eq_true, List.isEmpty_iff,
    Option.isNone_iff_eq_none] at h
  obtain ⟨⟨⟨⟨⟨hadd, hdrop⟩, hchange⟩, haddIndexes⟩, hdropIndexes⟩, hparameters⟩ := h
  simp [apply, applyColumns, hadd, hdrop, hchange, haddIndexes, hdropIndexes, hparameters]

end TableDiff

/-- Whether a table is what another one asks for, up to the primary key and the order of columns. -/
structure Table.Reaches (result target : Table) : Prop where
  columns : ∀ name, name ∈ result.columns.keys ↔ name ∈ target.columns.keys
  definitions : ∀ name c d, result.columns.get? name = some c →
    target.columns.get? name = some d → c.differs d = false
  indexes : ∀ name, name ≠ primaryName →
    sameIndex (result.indexes.get? name) (target.indexes.get? name) = true
  parameters : result.parameters = target.parameters

namespace Table

variable (old new : Table)

theorem differs_apply_compare {name : Text} {c d : Column}
    (hc : ((old.compare new).apply old).columns.get? name = some c)
    (hd : new.columns.get? name = some d) : c.differs d = false := by
  have hr := get?_applyColumns_compare old new name
  rw [hd, Option.map_some] at hr
  rw [TableDiff.columns_apply] at hc
  cases ha : (old.compare new).addIndexes.get? primaryName with
  | some i =>
    rw [ha, Option.elim_some, OrderedMap.get?_mapValues, hr] at hc
    cases hc
    simp [Column.differs_renew]
  | none =>
    rw [ha, Option.elim_none] at hc
    split at hc
    · rw [OrderedMap.get?_mapValues, hr] at hc
      cases hc
      simp [Column.differs_renew]
    · rw [hr] at hc
      cases hc
      exact Column.differs_renew _ _

theorem sameIndex_apply_compare {name : Text} (h : name ≠ primaryName) :
    sameIndex (((old.compare new).apply old).indexes.get? name) (new.indexes.get? name) = true := by
  have ho := old.get?_effectiveIndexes_of_ne h
  have hn := new.get?_effectiveIndexes_of_ne h
  rw [TableDiff.get?_indexes_apply]
  dsimp only
  cases hs : sameIndex (old.effectiveIndexes.get? name) (new.effectiveIndexes.get? name) with
  | true =>
    rw [get?_addIndexes_compare_of_same hs, Option.elim_none,
      if_neg (not_mem_dropIndexes_compare hs), ← ho, ← hn, hs]
  | false =>
    rw [get?_addIndexes_compare_of_not_same hs, get?_kept_of_not_same hs (by rw [ho]; exact id), hn]
    cases new.indexes.get? name with
    | none => rfl
    | some i => simp [h]

theorem reaches_apply_compare : ((old.compare new).apply old).Reaches new where
  columns name := by
    rw [TableDiff.keys_columns_apply]
    exact mem_keys_applyColumns_compare old new name
  definitions _ _ _ := differs_apply_compare old new
  indexes _ := sameIndex_apply_compare old new
  parameters := by
    rw [TableDiff.parameters_apply]
    by_cases h : old.parameters = new.parameters <;> simp [compare, h]

end Table

/-! ### All tables -/

namespace TableChange

/-- What becomes of a table, if there is one, by a change. -/
def result : TableChange → Option Table → Option Table
  | .create t, _ => some t
  | .drop _, _ => none
  | .alter d, before => before.map d.apply

/-- Whether a change can be carried out on a schema. -/
def Applies (name : Text) (s : Schema) : TableChange → Prop
  | .create _ => True
  | .drop _ => name ∈ s.tables.keys
  | .alter _ => name ∈ s.tables.keys

/-- Other tables do not matter to a change. -/
theorem Applies.congr {name : Text} {change : TableChange} {s s' : Schema}
    (h : change.Applies name s) (hg : s'.tables.get? name = s.tables.get? name) :
    change.Applies name s' := by
  have hiff : name ∈ s'.tables.keys ↔ name ∈ s.tables.keys := by
    rw [OrderedMap.mem_keys_iff_get?, OrderedMap.mem_keys_iff_get?, hg]
  cases change with
  | create t => trivial
  | drop t => exact hiff.2 h
  | alter d => exact hiff.2 h

theorem apply_of_applies {name : Text} {change : TableChange} {s : Schema}
    (h : change.Applies name s) :
    ∃ out, change.apply name s = .ok out ∧
      ∀ n, out.tables.get? n =
        if n = name then change.result (s.tables.get? n) else s.tables.get? n := by
  cases change with
  | create t => exact ⟨_, rfl, fun n => OrderedMap.get?_insert _ _ _ _⟩
  | drop t =>
    refine ⟨_, if_pos (OrderedMap.contains_iff.2 h), fun n => OrderedMap.get?_erase _ _ _⟩
  | alter d =>
    refine ⟨_, if_pos (OrderedMap.contains_iff.2 h), fun n => OrderedMap.get?_modify _ _ _ _⟩

end TableChange

/-- A row of changes of different tables can be carried out if each of them can, and then each table
is what its own change makes of it. -/
theorem foldlM_apply {es : List (Text × TableChange)} (hes : (es.map Prod.fst).Nodup) (s : Schema)
    (h : ∀ e ∈ es, e.2.Applies e.1 s) :
    ∃ out, es.foldlM (fun s e => e.2.apply e.1 s) s = Except.ok (ε := SchemaError) out ∧
      ∀ n, (∀ c, (n, c) ∈ es → out.tables.get? n = c.result (s.tables.get? n)) ∧
        (n ∉ es.map Prod.fst → out.tables.get? n = s.tables.get? n) := by
  induction es generalizing s with
  | nil => exact ⟨s, rfl, by simp⟩
  | cons e es ih =>
    obtain ⟨name, change⟩ := e
    simp only [List.map_cons, List.nodup_cons] at hes
    obtain ⟨mid, hmid, hget⟩ := TableChange.apply_of_applies (h (name, change) (by simp))
    have hother : ∀ n, n ≠ name → mid.tables.get? n = s.tables.get? n := by
      intro n hn
      rw [hget, if_neg hn]
    -- The first change touches its own table only, so the others still apply behind it.
    have hmids : ∀ e ∈ es, e.2.Applies e.1 mid := by
      rintro ⟨n, c⟩ he
      have hn : n ≠ name := by
        rintro rfl
        exact hes.1 (List.mem_map_of_mem (f := Prod.fst) he)
      exact (h (n, c) (List.mem_cons_of_mem _ he)).congr (hother n hn)
    obtain ⟨out, hout, hall⟩ := ih hes.2 mid hmids
    refine ⟨out, ?_, fun n => ?_⟩
    · rw [List.foldlM_cons, hmid]
      exact hout
    · by_cases hn : n = name
      · subst hn
        have hmid : mid.tables.get? n = change.result (s.tables.get? n) := by simp [hget]
        refine ⟨fun c hc => ?_, fun hm => absurd List.mem_cons_self hm⟩
        rcases List.mem_cons.1 hc with hc | hc
        · cases hc
          rw [(hall n).2 hes.1, hmid]
        · exact absurd (List.mem_map_of_mem (f := Prod.fst) hc) hes.1
      · rw [← hother n hn]
        refine ⟨fun c hc => (hall n).1 c ?_, fun hm => (hall n).2 fun h => hm (.tail _ h)⟩
        rcases List.mem_cons.1 hc with hc | hc
        · exact absurd (congrArg Prod.fst hc) hn
        · exact hc

namespace Schema

variable (old new : Schema)

/-- What comparing says about one table. -/
theorem get?_compare (name : Text) :
    (old.compare new).tables.get? name =
      match old.tables.get? name, new.tables.get? name with
      | none, none => none
      | none, some after => some (.create after)
      | some before, none => some (.drop before)
      | some before, some after =>
        if (before.compare after).isEmpty then none else some (.alter (before.compare after)) := by
  have hc : (old.compare new).tables =
      (new.tables.filterMap _).insertAll
        ((old.tables.filter fun name _ => !new.tables.contains name).mapValues
          fun _ t => TableChange.drop t).entries := rfl
  rw [hc, OrderedMap.get?_insertAll, OrderedMap.get?_mapValues, OrderedMap.get?_filter,
    OrderedMap.get?_filterMap, ← OrderedMap.isSome_get?]
  cases old.tables.get? name with
  | none => cases new.tables.get? name <;> rfl
  | some before => cases new.tables.get? name <;> simp

theorem applies_of_mem_compare {e : Text × TableChange} (he : e ∈ (old.compare new).tables.entries) :
    e.2.Applies e.1 old := by
  obtain ⟨name, change⟩ := e
  rw [← OrderedMap.get?_eq_some_iff, get?_compare] at he
  cases change with
  | create t => trivial
  | drop t =>
    rw [TableChange.Applies, OrderedMap.mem_keys_iff_get?]
    cases ho : old.tables.get? name with
    | some before => exact ⟨before, rfl⟩
    | none => cases hn : new.tables.get? name <;> simp [ho, hn] at he
  | alter d =>
    rw [TableChange.Applies, OrderedMap.mem_keys_iff_get?]
    cases ho : old.tables.get? name with
    | some before => exact ⟨before, rfl⟩
    | none => cases hn : new.tables.get? name <;> simp [ho, hn] at he

/-- The difference of two schemas can be carried out on the first, table by table. -/
theorem apply_compare :
    ∃ out, (old.compare new).apply old = .ok out ∧
      ∀ name, out.tables.get? name = (new.tables.get? name).map fun after =>
        (old.tables.get? name).elim after fun before => (before.compare after).apply before := by
  obtain ⟨out, hout, hget⟩ := foldlM_apply (old.compare new).tables.distinct old
    fun e => applies_of_mem_compare old new
  refine ⟨out, hout, fun name => ?_⟩
  have hchanged : ∀ c, (old.compare new).tables.get? name = some c →
      out.tables.get? name = c.result (old.tables.get? name) :=
    fun c hc => (hget name).1 c (OrderedMap.get?_eq_some_iff.1 hc)
  have hsame : (old.compare new).tables.get? name = none →
      out.tables.get? name = old.tables.get? name :=
    fun h => (hget name).2 (OrderedMap.get?_eq_none_iff.1 h)
  rw [get?_compare] at hchanged hsame
  cases ho : old.tables.get? name with
  | none =>
    rw [ho] at hchanged hsame
    cases hn : new.tables.get? name with
    | none => exact hsame (by rw [hn])
    | some after => exact hchanged (.create after) (by rw [hn])
  | some before =>
    rw [ho] at hchanged hsame
    cases hn : new.tables.get? name with
    | none => exact hchanged (.drop before) (by rw [hn])
    | some after =>
      by_cases h : (before.compare after).isEmpty = true
      · simpa [TableDiff.apply_of_isEmpty h] using hsame (by simp [hn, h])
      · exact hchanged (.alter (before.compare after)) (by simp [hn, h])

/-- Carrying out the difference of two schemas leads from the first to the second: the same tables,
the created ones as they are and the kept ones with the columns, secondary indexes and parameters
of their new versions, and with the new order of columns where the old one does not contradict it. -/
theorem apply_compare_reaches :
    ∃ out, (old.compare new).apply old = .ok out ∧
      (∀ name, name ∈ out.tables.keys ↔ name ∈ new.tables.keys) ∧
      (∀ name t, (old.compare new).tables.get? name = some (.create t) →
        out.tables.get? name = some t ∧ new.tables.get? name = some t) ∧
      (∀ name, old.tables.get? name = none → out.tables.get? name = new.tables.get? name) ∧
      ∀ name before after, old.tables.get? name = some before →
        new.tables.get? name = some after →
        ∃ t, out.tables.get? name = some t ∧ t.Reaches after ∧
          (before.KeepsOrder after → t.columns.keys = after.columns.keys) := by
  obtain ⟨out, hout, hget⟩ := apply_compare old new
  refine ⟨out, hout, fun name => ?_, fun name t hc => ?_, fun name ho => ?_, ?_⟩
  · rw [OrderedMap.mem_keys_iff_get?, OrderedMap.mem_keys_iff_get?, hget]
    cases new.tables.get? name <;> simp
  · rw [get?_compare] at hc
    cases ho : old.tables.get? name with
    | none =>
      cases hn : new.tables.get? name with
      | none => simp [ho, hn] at hc
      | some after =>
        simp only [ho, hn, Option.some.injEq, TableChange.create.injEq] at hc
        simp [hget, ho, hn, hc]
    | some before =>
      cases hn : new.tables.get? name with
      | none => simp [ho, hn] at hc
      | some after => simp [ho, hn] at hc
  · rw [hget, ho]
    cases new.tables.get? name <;> rfl
  · intro name before after ho hn
    refine ⟨(before.compare after).apply before, by simp [hget, ho, hn],
      Table.reaches_apply_compare before after, fun h => ?_⟩
    rw [TableDiff.keys_columns_apply, Table.keys_applyColumns_compare before after h]

end Schema

end SqlComposer
