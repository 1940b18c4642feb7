import SqlComposer.Proofs.Table
import SqlComposer.Schema.Diff

/-!
# What a difference does to a table

The columns, marks and indexes of a table after a difference, each read off the difference for one
name at a time; and the difference that `Table.compare` finds, read off the two tables in the same
way. Columns that are put in land behind their predecessors, so that the new order comes out
whenever the old one does not contradict it (`keys_applyColumns_compare`).
-/

namespace SqlComposer

/-! ### Indexes and marks after a difference -/

namespace TableDiff

/-- Whether the marks of columns can say all that there is to an index: its kind is no special one
and it takes its columns whole. -/
def isPlainKey (i : Index) : Bool :=
  i.kind.isNone && i.lengths.isEmpty

/-- A column under a new primary key. -/
def markFor (i : Index) (name : Text) (c : Column) : Column :=
  if i.columns.contains name then { c with key := some .primary } else unmark c

@[simp] theorem isPrimary_unmark (c : Column) : (unmark c).isPrimary = false := by
  unfold unmark
  split
  · rfl
  · next h => simpa using h

@[simp] theorem unmark_unmark (c : Column) : unmark (unmark c) = unmark c := by
  rw [unmark, isPrimary_unmark]
  rfl

@[simp] theorem markFor_unmark (i : Index) (name : Text) (c : Column) :
    markFor i name (unmark c) = markFor i name c := by
  unfold markFor
  split
  · unfold unmark
    split <;> rfl
  · exact unmark_unmark c

theorem isPrimary_markFor (i : Index) (name : Text) (c : Column) :
    (markFor i name c).isPrimary = i.columns.contains name := by
  unfold markFor
  split
  · next h => rw [h]; rfl
  · next h => simpa using h

theorem indexes_foldl_dropIndex (names : List Text) (t : Table) :
    (names.foldl dropIndex t).indexes = names.foldl OrderedMap.erase t.indexes := by
  induction names generalizing t with
  | nil => rfl
  | cons name names ih => rw [List.foldl_cons, ih, List.foldl_cons]; rfl

theorem columns_foldl_dropIndex (names : List Text) (t : Table) :
    (names.foldl dropIndex t).columns =
      if primaryName ∈ names then t.columns.mapValues fun _ c => unmark c else t.columns := by
  induction names generalizing t with
  | nil => simp
  | cons name names ih =>
    rw [List.foldl_cons, ih]
    by_cases hn : name = primaryName
    · simp [dropIndex, hn, OrderedMap.mapValues]
    · simp [dropIndex, hn, Ne.symm hn]

theorem frame_foldl_dropIndex (names : List Text) (t : Table) :
    (names.foldl dropIndex t).name = t.name ∧
      (names.foldl dropIndex t).parameters = t.parameters := by
  induction names generalizing t with
  | nil => exact ⟨rfl, rfl⟩
  | cons name names ih => exact ih (dropIndex t name)

theorem frame_foldl_addIndex (es : List (Text × Index)) (t : Table) :
    (es.foldl (fun t e => addIndex t e.1 e.2) t).name = t.name ∧
      (es.foldl (fun t e => addIndex t e.1 e.2) t).parameters = t.parameters := by
  induction es generalizing t with
  | nil => exact ⟨rfl, rfl⟩
  | cons e es ih =>
    have hf : (addIndex t e.1 e.2).name = t.name ∧
        (addIndex t e.1 e.2).parameters = t.parameters := by
      unfold addIndex
      split <;> exact ⟨rfl, rfl⟩
    rw [← hf.1, ← hf.2]
    exact ih (addIndex t e.1 e.2)

theorem columns_foldl_addIndex (m : OrderedMap Text Index) (t : Table) :
    (m.entries.foldl (fun t e => addIndex t e.1 e.2) t).columns =
      (m.get? primaryName).elim t.columns fun i => t.columns.mapValues (markFor i) := by
  apply OrderedMap.foldl_entries_view m (fun (t : Table) e => addIndex t e.1 e.2) (fun t => t.columns) primaryName
    fun i cs => cs.mapValues (markFor i)
  · intro t i
    rfl
  · intro t e he
    simp [addIndex, he]

/-- The index that a table has under a name after indexes were added. -/
theorem get?_indexes_foldl_addIndex (m : OrderedMap Text Index) (t : Table) (name : Text) :
    (m.entries.foldl (fun t e => addIndex t e.1 e.2) t).indexes.get? name =
      (m.get? name).elim (t.indexes.get? name) fun i =>
        if name = primaryName ∧ isPlainKey i then t.indexes.get? name else some i := by
  apply OrderedMap.foldl_entries_view m (fun (t : Table) e => addIndex t e.1 e.2) (fun t => t.indexes.get? name) name
    fun i before => if name = primaryName ∧ isPlainKey i then before else some i
  · intro t i
    by_cases hn : name = primaryName
    · by_cases hp : isPlainKey i = true
      · simp [addIndex, hn, hp, show (i.kind.isNone && i.lengths.isEmpty) = true from hp]
      · simp [addIndex, hn, hp, show ¬(i.kind.isNone && i.lengths.isEmpty) = true from hp,
          OrderedMap.get?_insert]
    · simp [addIndex, hn, OrderedMap.get?_insert]
  · intro t e he
    unfold addIndex
    split
    · dsimp only
      split
      · rfl
      · rw [OrderedMap.get?_insert, if_neg (Ne.symm he)]
    · rw [OrderedMap.get?_insert, if_neg (Ne.symm he)]

/-- The columns after a difference: those after its changes of columns, and marked anew if the
primary key changes. -/
theorem columns_apply (d : TableDiff) (t : Table) :
    (d.apply t).columns =
      (d.addIndexes.get? primaryName).elim
        (if primaryName ∈ d.dropIndexes then
          (d.applyColumns t.columns).mapValues fun _ c => unmark c
        else d.applyColumns t.columns)
        fun i => (d.applyColumns t.columns).mapValues (markFor i) := by
  simp only [apply, columns_foldl_addIndex, columns_foldl_dropIndex]
  cases d.addIndexes.get? primaryName with
  | none => rfl
  | some i =>
    simp only [Option.elim_some]
    split
    · simp [OrderedMap.mapValues]
    · rfl

@[simp] theorem name_apply (d : TableDiff) (t : Table) : (d.apply t).name = t.name := by
  simp only [apply, (frame_foldl_addIndex _ _).1, (frame_foldl_dropIndex _ _).1]

@[simp] theorem parameters_apply (d : TableDiff) (t : Table) :
    (d.apply t).parameters = d.parameters.getD t.parameters := by
  simp only [apply, (frame_foldl_addIndex _ _).2, (frame_foldl_dropIndex _ _).2]

theorem get?_indexes_apply (d : TableDiff) (t : Table) (name : Text) :
    (d.apply t).indexes.get? name =
      let kept := if name ∈ d.dropIndexes then none else t.indexes.get? name
      (d.addIndexes.get? name).elim kept fun i =>
        if name = primaryName ∧ isPlainKey i then kept else some i := by
  simp only [apply, get?_indexes_foldl_addIndex, indexes_foldl_dropIndex,
    OrderedMap.get?_foldl_erase]
  by_cases h : name ∈ d.dropIndexes <;> simp only [h, if_true, if_false]

@[simp] theorem keys_columns_apply (d : TableDiff) (t : Table) :
    (d.apply t).columns.keys = (d.applyColumns t.columns).keys := by
  rw [columns_apply]
  cases d.addIndexes.get? primaryName with
  | none => rw [Option.elim_none]; split <;> simp
  | some i => simp

/-! ### Columns after a difference -/

theorem get?_applyColumns (d : TableDiff) (cs : OrderedMap Text Column) (name : Text) :
    (d.applyColumns cs).get? name =
      (d.add.get? name).elim
        (if name ∈ d.drop then none
        else (cs.get? name).map fun c => (d.change.get? name).getD c)
        fun a => some a.column := by
  have hadd := fun s => OrderedMap.foldl_entries_view d.add
    (fun (cs : OrderedMap Text Column) e =>
      cs.insertAt (applyColumns.place cs e.2.after) e.1 e.2.column)
    (fun cs => cs.get? name) name (fun a _ => some a.column)
    (by simp [OrderedMap.get?_insertAt])
    (fun cs e he => by rw [OrderedMap.get?_insertAt, if_neg (Ne.symm he)]) s
  have hchange := fun s => OrderedMap.foldl_entries_view d.change
    (fun (cs : OrderedMap Text Column) e => cs.modify e.1 fun _ => e.2)
    (fun cs => cs.get? name) name (fun new before => before.map fun _ => new)
    (by simp [OrderedMap.get?_modify])
    (fun cs e he => by rw [OrderedMap.get?_modify, if_neg (Ne.symm he)]) s
  simp only [applyColumns, hadd, hchange, OrderedMap.get?_foldl_erase]
  congr 1
  by_cases hd : name ∈ d.drop
  · cases d.change.get? name <;> simp [hd]
  · cases d.change.get? name <;> simp [hd]

theorem keys_foldl_modify (es : List (Text × Column)) (cs : OrderedMap Text Column) :
    (es.foldl (fun cs e => cs.modify e.1 fun _ => e.2) cs).keys = cs.keys := by
  induction es generalizing cs with
  | nil => rfl
  | cons e es ih => rw [List.foldl_cons, ih, OrderedMap.keys_modify]

end TableDiff

/-! ### What comparing finds -/

theorem hasSameIndex_eq (indexes : OrderedMap Text Index) (name : Text) (i : Index) :
    hasSameIndex indexes name i = sameIndex (indexes.get? name) (some i) := by
  unfold hasSameIndex
  cases indexes.get? name <;> rfl

/-- The definition of a column after it was brought up to a new one: the old one stays if it only
plays another part in the keys. -/
def Column.renew (old : Option Column) (new : Column) : Column :=
  match old with
  | some c => if c.differs new then new else c
  | none => new

theorem Column.differs_self (c : Column) : c.differs c = false := by
  simp [Column.differs]

theorem Column.differs_renew (old : Option Column) (new : Column) :
    (Column.renew old new).differs new = false := by
  unfold Column.renew
  split
  · split
    · exact new.differs_self
    · next h => simpa using h
  · exact new.differs_self

namespace Table

variable (old new : Table)

theorem mem_drop_compare (name : Text) :
    name ∈ (old.compare new).drop ↔ name ∈ old.columns.keys ∧ name ∉ new.columns.keys := by
  simp [compare, ← OrderedMap.contains_iff]

theorem get?_add_compare (name : Text) :
    (old.compare new).add.get? name =
      (new.columns.get? name).bind fun c =>
        if old.columns.contains name then none
        else some ⟨c, predecessor new.columns.keys name⟩ :=
  OrderedMap.get?_filterMap _ _ _

theorem get?_change_compare (name : Text) :
    (old.compare new).change.get? name =
      (new.columns.get? name).bind fun c =>
        (old.columns.get? name).bind fun before => if before.differs c then some c else none := by
  rw [compare, changedColumns, OrderedMap.get?_filterMap]
  cases old.columns.get? name <;> rfl

/-- After a difference was carried out, the columns are those of the new version, each with its new
definition unless that says the same. -/
theorem get?_applyColumns_compare (name : Text) :
    ((old.compare new).applyColumns old.columns).get? name =
      (new.columns.get? name).map (Column.renew (old.columns.get? name)) := by
  rw [TableDiff.get?_applyColumns, get?_add_compare, get?_change_compare]
  have hd := mem_drop_compare old new name
  rw [OrderedMap.mem_keys_iff_get?, ← OrderedMap.get?_eq_none_iff] at hd
  have hc := OrderedMap.isSome_get? old.columns name
  cases hn : new.columns.get? name with
  | none => cases ho : old.columns.get? name <;> simp_all
  | some c =>
    cases ho : old.columns.get? name with
    | none => simp_all [Column.renew]
    | some before =>
      rw [ho] at hc
      by_cases hb : before.differs c = true <;> simp_all [Column.renew]

theorem mem_keys_applyColumns_compare (name : Text) :
    name ∈ ((old.compare new).applyColumns old.columns).keys ↔ name ∈ new.columns.keys := by
  rw [OrderedMap.mem_keys_iff_get?, OrderedMap.mem_keys_iff_get?, get?_applyColumns_compare]
  cases new.columns.get? name <;> simp

/-! ### The order of columns -/

theorem predecessor_first {b : Text} {back : List Text} (h : b ∉ back) (a : Text) :
    predecessor (a :: back) b = none := by
  induction back generalizing a with
  | nil => rfl
  | cons c back ih =>
    simp only [List.mem_cons, not_or] at h
    rw [predecessor, if_neg (Ne.symm h.1), ih h.2]

theorem predecessor_append (front : List Text) {a b : Text} (back : List Text)
    (h : b ∉ front ++ [a]) : predecessor (front ++ a :: b :: back) b = some a := by
  induction front with
  | nil => simp [predecessor]
  | cons c front ih =>
    have hf : b ∉ front ++ [a] := fun hm => h (List.mem_cons_of_mem _ hm)
    cases front with
    | nil =>
      have hab : a ≠ b := by rintro rfl; simp at h
      simp [predecessor, hab]
    | cons d front =>
      have hdb : d ≠ b := by rintro rfl; simp at h
      rw [← ih hf]
      simp [predecessor, hdb]

/-- A column goes behind the one before it in a row of names, if the columns in front of it are
there already. -/
theorem place_predecessor {cs : OrderedMap Text Column} {front rest later : List Text} {k : Text}
    (hd : (front ++ k :: later).Nodup) (hcs : cs.keys = front ++ rest) :
    TableDiff.applyColumns.place cs (predecessor (front ++ k :: later) k) = front.length := by
  rcases List.eq_nil_or_concat front with rfl | ⟨front, a, rfl⟩
  · have hk : k ∉ later := (List.nodup_cons.1 hd).1
    rw [List.nil_append, predecessor_first hk]
    rfl
  · rw [List.concat_eq_append] at hd hcs ⊢
    have hk : k ∉ front ++ [a] := fun hm => (List.nodup_append.1 hd).2.2 k hm k (by simp) rfl
    have hkeys : cs.keys = front ++ a :: rest := by rw [hcs]; simp
    have hi := OrderedMap.indexOf?_eq_some hkeys
    rw [List.append_assoc, List.singleton_append, predecessor_append front later hk]
    simp [TableDiff.applyColumns.place, hi]

/-- The loop that puts new columns in. While it goes through the new columns, those that it has
passed stand in front in their new order, and the old ones that it has still to pass follow. -/
theorem keys_foldl_insertAt {old new : Table} (passed todo : List (Text × Column))
    (hnew : new.columns.entries = passed ++ todo) {cs : OrderedMap Text Column}
    (hcs : cs.keys = passed.map Prod.fst ++ (todo.map Prod.fst).filter old.columns.contains) :
    ((todo.filterMap fun e =>
        (if old.columns.contains e.1 then none
          else some (AddedColumn.mk e.2 (predecessor new.columns.keys e.1))).map
            fun a => (e.1, a)).foldl
      (fun cs e => cs.insertAt (TableDiff.applyColumns.place cs e.2.after) e.1 e.2.column) cs).keys
        = new.columns.keys := by
  induction todo generalizing passed cs with
  | nil => simp [OrderedMap.keys, hnew] at hcs ⊢; exact hcs
  | cons e todo ih =>
    obtain ⟨k, c⟩ := e
    have hnew' : new.columns.entries = (passed ++ [(k, c)]) ++ todo := by simp [hnew]
    have hkeys : new.columns.keys = passed.map Prod.fst ++ k :: todo.map Prod.fst := by
      simp [OrderedMap.keys, hnew]
    have hd : (passed.map Prod.fst ++ k :: todo.map Prod.fst).Nodup :=
      hkeys ▸ new.columns.nodup_keys
    by_cases ho : old.columns.contains k = true
    · -- An old column is passed over: it stands where the new order wants it.
      have hcs' : cs.keys = (passed ++ [(k, c)]).map Prod.fst ++
          (todo.map Prod.fst).filter old.columns.contains := by
        simpa [ho] using hcs
      simpa [ho] using ih _ hnew' hcs'
    · have hcs' : cs.keys = passed.map Prod.fst ++
          (todo.map Prod.fst).filter old.columns.contains := by
        simpa [ho] using hcs
      have hk : k ∉ cs.keys := by
        rw [hcs', List.mem_append, not_or]
        rw [List.nodup_append, List.nodup_cons] at hd
        exact ⟨fun hm => hd.2.2 k hm k (by simp) rfl, fun hm => hd.2.1.1 (List.mem_filter.1 hm).1⟩
      have hp := place_predecessor hd hcs'
      rw [← hkeys] at hp
      have hi := OrderedMap.keys_insertAt_of_not_mem hcs' hk c
      rw [← hp] at hi
      simpa [ho] using ih _ hnew' (by simpa using hi)

/-- Whether the columns that two versions of a table share stand in the same order in both. -/
def KeepsOrder : Prop :=
  old.columns.keys.filter new.columns.contains = new.columns.keys.filter old.columns.contains

/-- Carrying out a difference gives the new order of columns, if the shared ones were in it. -/
theorem keys_applyColumns_compare (h : old.KeepsOrder new) :
    ((old.compare new).applyColumns old.columns).keys = new.columns.keys := by
  unfold TableDiff.applyColumns
  dsimp only
  apply keys_foldl_insertAt [] new.columns.entries rfl
  rw [TableDiff.keys_foldl_modify, OrderedMap.keys_foldl_erase, List.map_nil, List.nil_append]
  refine Eq.trans ?_ h
  apply List.filter_congr
  intro k hk
  rw [Bool.eq_iff_iff, OrderedMap.contains_iff]
  simp [mem_drop_compare, hk]

/-- The columns that two versions share keep their order, whatever is dropped or put in. -/
theorem filter_keys_applyColumns_compare {p : Text → Bool}
    (hp : ∀ name, p name = true → name ∈ old.columns.keys ∧ name ∈ new.columns.keys) :
    ((old.compare new).applyColumns old.columns).keys.filter p = old.columns.keys.filter p := by
  have hadd : ∀ (es : List (Text × AddedColumn)) (cs : OrderedMap Text Column),
      (∀ e ∈ es, p e.1 = false) →
      (es.foldl (fun cs e => cs.insertAt (TableDiff.applyColumns.place cs e.2.after) e.1 e.2.column)
        cs).keys.filter p = cs.keys.filter p := by
    intro es
    induction es with
    | nil => intro cs _; rfl
    | cons e es ih =>
      intro cs hes
      rw [List.foldl_cons, ih _ fun e he => hes e (List.mem_cons_of_mem _ he)]
      exact OrderedMap.filter_keys_insertAt _ _ _ (hes e List.mem_cons_self)
  unfold TableDiff.applyColumns
  dsimp only
  rw [hadd, TableDiff.keys_foldl_modify, OrderedMap.keys_foldl_erase, List.filter_filter]
  · apply List.filter_congr
    intro name _
    have hd := mem_drop_compare old new name
    cases h : p name with
    | false => simp
    | true => simp [hd, (hp name h).2]
  · rintro ⟨name, a⟩ he
    rw [← OrderedMap.get?_eq_some_iff, get?_add_compare] at he
    by_contra h
    have ho := (hp name (by simpa using h)).1
    rw [OrderedMap.contains_iff.2 ho] at he
    cases new.columns.get? name <;> simp at he

theorem mem_dropIndexes_compare (name : Text) :
    name ∈ (old.compare new).dropIndexes ↔
      ∃ i, old.effectiveIndexes.get? name = some i ∧
        sameIndex (new.effectiveIndexes.get? name) (some i) = false := by
  have hp : ∀ names : List Text, name ∈ primaryFirst names ↔ name ∈ names := by
    intro names
    by_cases h : name = primaryName <;> simp [primaryFirst, h]
  simp only [compare, hp, OrderedMap.mem_keys_iff_get?, OrderedMap.get?_filter,
    Option.filter_eq_some_iff, hasSameIndex_eq, Bool.not_eq_true']

theorem get?_addIndexes_compare (name : Text) :
    (old.compare new).addIndexes.get? name =
      (new.effectiveIndexes.get? name).filter fun i =>
        !sameIndex (old.effectiveIndexes.get? name) (some i) := by
  simp only [compare, OrderedMap.get?_front, OrderedMap.get?_filter, hasSameIndex_eq]

/-! ### Indexes that are the same and indexes that are not -/

variable {old new} {name : Text}

theorem not_mem_dropIndexes_compare
    (h : sameIndex (old.effectiveIndexes.get? name) (new.effectiveIndexes.get? name) = true) :
    name ∉ (old.compare new).dropIndexes := by
  rw [mem_dropIndexes_compare]
  rintro ⟨i, hi, hs⟩
  rw [hi, sameIndex_comm, hs] at h
  exact Bool.noConfusion h

theorem get?_addIndexes_compare_eq_ite :
    (old.compare new).addIndexes.get? name =
      if sameIndex (old.effectiveIndexes.get? name) (new.effectiveIndexes.get? name) then none
      else new.effectiveIndexes.get? name := by
  rw [get?_addIndexes_compare]
  cases new.effectiveIndexes.get? name with
  | none => simp
  | some i => cases hs : sameIndex (old.effectiveIndexes.get? name) (some i) <;> simp [hs]

theorem get?_addIndexes_compare_of_same
    (h : sameIndex (old.effectiveIndexes.get? name) (new.effectiveIndexes.get? name) = true) :
    (old.compare new).addIndexes.get? name = none := by
  rw [get?_addIndexes_compare_eq_ite, if_pos h]

theorem get?_addIndexes_compare_of_not_same
    (h : sameIndex (old.effectiveIndexes.get? name) (new.effectiveIndexes.get? name) = false) :
    (old.compare new).addIndexes.get? name = new.effectiveIndexes.get? name := by
  rw [get?_addIndexes_compare_eq_ite, if_neg (by simp [h])]

/-- An index that is not the same is gone, whatever comes in its place. -/
theorem get?_kept_of_not_same
    (h : sameIndex (old.effectiveIndexes.get? name) (new.effectiveIndexes.get? name) = false)
    (ho : old.effectiveIndexes.get? name = none → old.indexes.get? name = none) :
    (if name ∈ (old.compare new).dropIndexes then none else old.indexes.get? name) = none := by
  split
  · rfl
  · next hd =>
    apply ho
    rw [Option.eq_none_iff_forall_ne_some]
    intro i hi
    refine hd ((mem_dropIndexes_compare old new name).2 ⟨i, hi, ?_⟩)
    rwa [sameIndex_comm, ← hi]

end Table

end SqlComposer
