import SqlComposer.Proofs.SchemaDiff

/-!
# The primary key under a difference

A primary key is declared by marks on columns or by an index, and a difference rewrites both. The
marks can only name the columns of a key in the order in which they stand in the table, so a key in
another order is not carried over; neither is a key whose declaration moves between marks and index
while some, but not all, of its columns are redefined. `carriesKey_iff` says that these are the only
ways in which the key of the new version can be lost.
-/

namespace SqlComposer

/-! ### Parts of a row of names -/

section Parts

variable {α : Type} [BEq α] [LawfulBEq α]

theorem filter_contains_of_sublist {xs ps : List α} (h : ps.Sublist xs) (hd : xs.Nodup) :
    xs.filter ps.contains = ps := by
  induction h with
  | slnil => rfl
  | @cons ps xs x h ih =>
    rw [List.nodup_cons] at hd
    have hx : x ∉ ps := fun hm => hd.1 (h.subset hm)
    rw [List.filter_cons_of_neg (by simpa using hx), ih hd.2]
  | @cons_cons ps xs x h ih =>
    rw [List.nodup_cons] at hd
    have hc : xs.filter (x :: ps).contains = xs.filter ps.contains := by
      apply List.filter_congr
      intro y hy
      have hyx : y ≠ x := fun e => hd.1 (e ▸ hy)
      simp [hyx]
    rw [List.filter_cons_of_pos (by simp), hc, ih hd.2]

/-- A choice among the parts `ps` of a row takes all of them exactly if it refuses none and they
stand in the row in their order. -/
theorem filter_eq_parts_iff {xs ps : List α} (hd : xs.Nodup) (p : α → Bool) :
    xs.filter (fun x => ps.contains x && p x) = ps ↔ (∀ x ∈ ps, p x = true) ∧ ps.Sublist xs := by
  constructor
  · intro h
    refine ⟨fun x hx => ?_, h ▸ List.filter_sublist⟩
    rw [← h, List.mem_filter, Bool.and_eq_true] at hx
    exact hx.2.2
  · rintro ⟨hp, hs⟩
    refine Eq.trans (List.filter_congr fun x _ => ?_) (filter_contains_of_sublist hs hd)
    cases hx : ps.contains x with
    | false => rfl
    | true => exact hp x (List.contains_iff_mem.1 hx)

theorem filter_eq_nil_parts_iff {xs ps : List α} (hs : ps ⊆ xs) (p : α → Bool) :
    xs.filter (fun x => ps.contains x && p x) = [] ↔ ∀ x ∈ ps, p x = false := by
  simp only [List.filter_eq_nil_iff, Bool.and_eq_true, List.contains_iff_mem, not_and,
    Bool.not_eq_true]
  exact ⟨fun h x hx => h x (hs hx) hx, fun h x _ hx => h x hx⟩

end Parts

namespace Table

/-- The primary key in force. -/
def primaryKey (t : Table) : Option Index :=
  t.effectiveIndexes.get? primaryName

/-- Whether some column is marked as primary. -/
def marked (t : Table) : Bool :=
  !t.primaryColumns.isEmpty

/-! ### Keys of valid tables -/

section Valid

variable {t : Table} {key : Index}

theorem primaryKey_of_declared {i : Index} (h : t.indexes.get? primaryName = some i) :
    t.primaryKey = some { i with unique := true } := by
  rw [primaryKey, get?_effectiveIndexes_primary, h]

theorem primaryKey_of_undeclared (h : t.indexes.get? primaryName = none) :
    t.primaryKey =
      if t.primaryColumns = [] then none else some { columns := t.primaryColumns, unique := true } := by
  rw [primaryKey, get?_effectiveIndexes_primary, h]
  cases t.primaryColumns <;> rfl

/-- A key in force is the index that declares it, taken as unique, or else the marked columns. -/
theorem primaryKey_eq_some (h : t.primaryKey = some key) :
    (∃ i, t.indexes.get? primaryName = some i ∧ key = { i with unique := true }) ∨
      t.indexes.get? primaryName = none ∧ t.primaryColumns ≠ [] ∧
        key = { columns := t.primaryColumns, unique := true } := by
  cases hi : t.indexes.get? primaryName with
  | some i =>
    rw [primaryKey_of_declared hi] at h
    exact .inl ⟨i, rfl, (Option.some.inj h).symm⟩
  | none =>
    rw [primaryKey_of_undeclared hi] at h
    split at h
    · cases h
    · next hne => exact .inr ⟨rfl, hne, (Option.some.inj h).symm⟩

theorem primaryKey_eq_none_iff :
    t.primaryKey = none ↔ t.indexes.get? primaryName = none ∧ t.primaryColumns = [] := by
  cases hi : t.indexes.get? primaryName with
  | some i => simp [primaryKey_of_declared hi]
  | none => simp [primaryKey_of_undeclared hi]

theorem unique_of_primaryKey (h : t.primaryKey = some key) : key.unique = true := by
  obtain ⟨i, -, rfl⟩ | ⟨-, -, rfl⟩ := primaryKey_eq_some h <;> rfl

/-- The marks of a valid table are those of its key, or none. -/
theorem primaryColumns_of_primaryKey (ht : t.Valid) (h : t.primaryKey = some key) :
    t.primaryColumns = [] ∨ t.primaryColumns = key.columns := by
  obtain ⟨i, hi, rfl⟩ | ⟨-, -, rfl⟩ := primaryKey_eq_some h
  · exact ht.marks i hi
  · exact .inr rfl

theorem marks_of_primaryKey (ht : t.Valid) (h : t.primaryKey = some key) (name : Text) :
    t.marks name = (key.columns.contains name && t.marked) := by
  rw [Bool.eq_iff_iff, ← mem_primaryColumns, Bool.and_eq_true, List.contains_iff_mem]
  rcases primaryColumns_of_primaryKey ht h with he | he
  · simp [marked, he]
  · rw [← he, marked]
    cases t.primaryColumns <;> simp

theorem marks_of_no_primaryKey (h : t.primaryKey = none) (name : Text) : t.marks name = false := by
  rw [← Bool.not_eq_true, ← mem_primaryColumns, (primaryKey_eq_none_iff.1 h).2]
  exact List.not_mem_nil

theorem mem_keys_of_primaryKey (ht : t.Valid) (h : t.primaryKey = some key) {c : Text}
    (hc : c ∈ key.columns) : c ∈ t.columns.keys := by
  obtain ⟨i, hi, rfl⟩ | ⟨-, -, rfl⟩ := primaryKey_eq_some h
  · exact ht.indexColumns _ i hi c hc
  · exact mem_keys_of_marks (mem_primaryColumns.1 hc)

theorem contains_eq_false_of_primaryKey (ht : t.Valid) (h : t.primaryKey = some key) {name : Text}
    (hn : t.columns.get? name = none) : key.columns.contains name = false := by
  rw [← Bool.not_eq_true, List.contains_iff_mem]
  intro hc
  obtain ⟨c, hc⟩ := OrderedMap.mem_keys_iff_get?.1 (mem_keys_of_primaryKey ht h hc)
  rw [hn] at hc
  cases hc

/-- A marked key has its columns in the order of the table. -/
theorem sublist_keys_of_marked (ht : t.Valid) (h : t.primaryKey = some key)
    (hm : t.marked = true) : key.columns.Sublist t.columns.keys := by
  rcases primaryColumns_of_primaryKey ht h with he | he
  · simp [marked, he] at hm
  · rw [← he, primaryColumns_eq]
    exact List.filter_sublist

end Valid

/-! ### Marks after a difference -/

section Upgrade

variable (old new : Table)

/-- Whether a column has a new definition. -/
def redefined (name : Text) : Bool :=
  match old.columns.get? name, new.columns.get? name with
  | some c, some d => c.differs d
  | _, _ => false

/-- The columns of a table after it was brought up to a new version, in their order. -/
def columnsAfter : List Text :=
  ((old.compare new).applyColumns old.columns).keys

variable {old new} {key : Index}

theorem primaryColumns_apply_compare {p : Text → Bool}
    (h : ∀ name ∈ columnsAfter old new, ((old.compare new).apply old).marks name = p name) :
    ((old.compare new).apply old).primaryColumns = (columnsAfter old new).filter p := by
  rw [primaryColumns_eq, TableDiff.keys_columns_apply]
  exact List.filter_congr h

/-- While the key stays the same, a redefined column takes its new mark and any other one keeps its
old mark. -/
theorem primaryColumns_of_same (hold : old.Valid) (hnew : new.Valid)
    {before : Index} (hb : old.primaryKey = some before) (hk : new.primaryKey = some key)
    (hs : before.agrees key = true) :
    ((old.compare new).apply old).primaryColumns =
      (columnsAfter old new).filter fun name =>
        key.columns.contains name && if redefined old new name then new.marked else old.marked := by
  apply primaryColumns_apply_compare
  intro name _
  have hs' : sameIndex (old.effectiveIndexes.get? primaryName)
      (new.effectiveIndexes.get? primaryName) = true := by
    rw [show old.effectiveIndexes.get? primaryName = _ from hb,
      show new.effectiveIndexes.get? primaryName = _ from hk]
    exact hs
  have hcols := (Index.agrees_iff.1 hs).1
  have hm := marks_of_primaryKey hold hb name
  have hm' := marks_of_primaryKey hnew hk name
  rw [hcols] at hm
  rw [marks, TableDiff.columns_apply, get?_addIndexes_compare_of_same hs', Option.elim_none,
    if_neg (not_mem_dropIndexes_compare hs'), get?_applyColumns_compare]
  unfold marks at hm hm'
  cases hn : new.columns.get? name with
  | none =>
    rw [contains_eq_false_of_primaryKey hnew hk hn]
    rfl
  | some d =>
    rw [hn] at hm'
    cases ho : old.columns.get? name with
    | none =>
      -- A new column is none of the key, whose columns the old version has.
      have hc := contains_eq_false_of_primaryKey hold hb ho
      rw [hcols] at hc
      rw [hc] at hm' ⊢
      simpa [Column.renew] using hm'
    | some c =>
      rw [ho] at hm
      by_cases hd : c.differs d = true
      · simpa [redefined, ho, hn, hd, Column.renew] using hm'
      · simpa [redefined, ho, hn, hd, Column.renew] using hm

/-- A new key marks its columns and no others. -/
theorem primaryColumns_of_changed (hk : new.primaryKey = some key)
    (hs : sameIndex old.primaryKey (some key) = false) :
    ((old.compare new).apply old).primaryColumns =
      (columnsAfter old new).filter key.columns.contains := by
  apply primaryColumns_apply_compare
  intro name hname
  have ha : (old.compare new).addIndexes.get? primaryName = some key := by
    rw [get?_addIndexes_compare_of_not_same, ← hk]
    · rfl
    · rw [← hk] at hs
      exact hs
  obtain ⟨c, hc⟩ := OrderedMap.mem_keys_iff_get?.1 hname
  rw [marks, TableDiff.columns_apply, ha, Option.elim_some, OrderedMap.get?_mapValues, hc]
  exact TableDiff.isPrimary_markFor key name c

/-- Without a new key no mark is left. -/
theorem primaryColumns_of_none (hk : new.primaryKey = none) :
    ((old.compare new).apply old).primaryColumns = [] := by
  have ha : (old.compare new).addIndexes.get? primaryName = none := by
    rw [get?_addIndexes_compare, show new.effectiveIndexes.get? primaryName = none from hk]
    rfl
  have hp : ∀ name ∈ columnsAfter old new,
      ((old.compare new).apply old).marks name = false := by
    intro name hname
    rw [marks, TableDiff.columns_apply, ha, Option.elim_none]
    split
    · rw [OrderedMap.get?_mapValues]
      cases ((old.compare new).applyColumns old.columns).get? name <;> simp
    · next hd =>
      -- No key is dropped, so the old version had none either.
      have hb : old.primaryKey = none := by
        rw [Option.eq_none_iff_forall_ne_some]
        intro i hi
        refine hd ((mem_dropIndexes_compare old new primaryName).2 ⟨i, hi, ?_⟩)
        rw [show new.effectiveIndexes.get? primaryName = none from hk]
        rfl
      have hm := marks_of_no_primaryKey hb name
      have hm' := marks_of_no_primaryKey hk name
      rw [get?_applyColumns_compare]
      unfold marks at hm hm'
      cases hn : new.columns.get? name with
      | none => rfl
      | some d =>
        rw [hn] at hm'
        cases ho : old.columns.get? name with
        | none => simpa [Column.renew] using hm'
        | some c =>
          rw [ho] at hm
          by_cases hd : c.differs d = true
          · simpa [Column.renew, hd] using hm'
          · simpa [Column.renew, hd] using hm
  rw [primaryColumns_apply_compare hp]
  simp

/-! ### The declared key after a difference -/

theorem get?_primary_of_same (hs : sameIndex old.primaryKey new.primaryKey = true) :
    ((old.compare new).apply old).indexes.get? primaryName = old.indexes.get? primaryName := by
  rw [TableDiff.get?_indexes_apply]
  dsimp only
  rw [get?_addIndexes_compare_of_same hs, Option.elim_none, if_neg (not_mem_dropIndexes_compare hs)]

theorem get?_primary_of_changed (hs : sameIndex old.primaryKey new.primaryKey = false) :
    ((old.compare new).apply old).indexes.get? primaryName =
      new.primaryKey.filter fun key => !TableDiff.isPlainKey key := by
  have ho : old.effectiveIndexes.get? primaryName = none → old.indexes.get? primaryName = none :=
    fun h => (primaryKey_eq_none_iff.1 h).1
  rw [TableDiff.get?_indexes_apply]
  dsimp only
  rw [get?_addIndexes_compare_of_not_same hs, get?_kept_of_not_same hs ho]
  show new.primaryKey.elim none _ = _
  cases new.primaryKey with
  | none => rfl
  | some key => by_cases hp : TableDiff.isPlainKey key = true <;> simp [Option.filter, hp]

/-- Every index of the table after a difference has its columns in it, so that only its marks can
make it invalid. -/
theorem valid_apply_compare_iff (hold : old.Valid) (hnew : new.Valid) :
    ((old.compare new).apply old).Valid ↔
      ∀ i, ((old.compare new).apply old).indexes.get? primaryName = some i →
        ((old.compare new).apply old).primaryColumns = [] ∨
          ((old.compare new).apply old).primaryColumns = i.columns := by
  refine ⟨Valid.marks, fun hmarks => ?_⟩
  have hr := reaches_apply_compare old new
  refine ⟨?_, ?_, ?_, ?_, hmarks⟩
  · rw [TableDiff.name_apply]
    exact hold.name
  · obtain ⟨name, h⟩ := hnew.columns
    exact ⟨name, (hr.columns name).2 h⟩
  · intro name h
    exact hnew.columnNames name ((hr.columns name).1 h)
  · intro name i hi c hc
    rw [hr.columns]
    by_cases hn : name = primaryName
    · subst hn
      cases hs : sameIndex old.primaryKey new.primaryKey with
      | true =>
        rw [get?_primary_of_same hs] at hi
        rw [primaryKey_of_declared hi] at hs
        cases hk : new.primaryKey with
        | none => rw [hk] at hs; cases hs
        | some key =>
          rw [hk] at hs
          exact mem_keys_of_primaryKey hnew hk ((Index.agrees_iff.1 hs).1 ▸ hc)
      | false =>
        rw [get?_primary_of_changed hs, Option.filter_eq_some_iff] at hi
        exact mem_keys_of_primaryKey hnew hi.1 hc
    · have hs := hr.indexes name hn
      rw [hi] at hs
      cases hj : new.indexes.get? name with
      | none => rw [hj] at hs; cases hs
      | some j =>
        rw [hj] at hs
        exact hnew.indexColumns name j hj c ((Index.agrees_iff.1 hs).1 ▸ hc)

/-! ### Keys that are carried over -/

variable (old new)

/-- Whether the marks that a difference leaves agree with a key that does not change. They do if it
was and is declared in the same way, or none of its columns is redefined; or if all of them are, the
old index stays, and new marks come in the order of the key. -/
def KeepsMarks (key : Index) : Prop :=
  old.marked = new.marked ∨
    (∀ c ∈ key.columns, redefined old new c = false) ∨
    (∀ c ∈ key.columns, redefined old new c = true) ∧ old.indexes.contains primaryName = true ∧
      (new.marked = true → key.columns.Sublist (columnsAfter old new))

theorem nodup_columnsAfter : (columnsAfter old new).Nodup :=
  OrderedMap.nodup_keys _

variable {old new} {before : Index}

theorem subset_columnsAfter (hnew : new.Valid) (hk : new.primaryKey = some key) :
    key.columns ⊆ columnsAfter old new :=
  fun _ hc => (mem_keys_applyColumns_compare old new _).2 (mem_keys_of_primaryKey hnew hk hc)

/-- A key that was marked and stays has its columns in the order of the table. -/
theorem sublist_columnsAfter (hold : old.Valid) (hnew : new.Valid)
    (hb : old.primaryKey = some before) (hk : new.primaryKey = some key)
    (hs : before.agrees key = true) (hm : old.marked = true) :
    key.columns.Sublist (columnsAfter old new) := by
  have hcols := (Index.agrees_iff.1 hs).1
  have hsub := sublist_keys_of_marked hold hb hm
  rw [hcols] at hsub
  have hf : (columnsAfter old new).filter key.columns.contains = key.columns := by
    refine Eq.trans (filter_keys_applyColumns_compare old new fun name hname => ?_)
      (filter_contains_of_sublist hsub old.columns.nodup_keys)
    have hc := List.contains_iff_mem.1 hname
    exact ⟨hsub.subset hc, mem_keys_of_primaryKey hnew hk hc⟩
  rw [← hf]
  exact List.filter_sublist

/-- Marks alone stand for a key exactly if they are its columns, and there are any. -/
theorem sameIndex_of_undeclared {t : Table} (hi : t.indexes.get? primaryName = none)
    (hk : ({ columns := key.columns, unique := true } : Index).agrees key = true) :
    sameIndex t.primaryKey (some key) = true ↔
      t.primaryColumns ≠ [] ∧ t.primaryColumns = key.columns := by
  rw [primaryKey_of_undeclared hi]
  split
  · next h => simp [h, sameIndex]
  · next h =>
    refine ⟨fun hs => ⟨h, (Index.agrees_iff.1 hs).1⟩, fun hs => ?_⟩
    rw [hs.2]
    exact hk

/-- A column of a key that stays is marked afterwards if the version that its definition comes from
has marks; these are all of the key if that holds of each column. -/
theorem primaryColumns_eq_iff_of_same (hold : old.Valid) (hnew : new.Valid)
    (hb : old.primaryKey = some before) (hk : new.primaryKey = some key)
    (hs : before.agrees key = true) :
    ((old.compare new).apply old).primaryColumns = key.columns ↔
      (∀ c ∈ key.columns, (if redefined old new c then new.marked else old.marked) = true) ∧
        key.columns.Sublist (columnsAfter old new) := by
  rw [primaryColumns_of_same hold hnew hb hk hs]
  exact filter_eq_parts_iff (nodup_columnsAfter old new) _

theorem primaryColumns_eq_nil_iff_of_same (hold : old.Valid) (hnew : new.Valid)
    (hb : old.primaryKey = some before) (hk : new.primaryKey = some key)
    (hs : before.agrees key = true) :
    ((old.compare new).apply old).primaryColumns = [] ↔
      ∀ c ∈ key.columns, (if redefined old new c then new.marked else old.marked) = false := by
  rw [primaryColumns_of_same hold hnew hb hk hs]
  exact filter_eq_nil_parts_iff (subset_columnsAfter hnew hk) _

/-- The primary key in force and the validity of a table after a difference, when the key stays. -/
theorem carries_iff_of_same (hold : old.Valid) (hnew : new.Valid)
    (hb : old.primaryKey = some before) (hk : new.primaryKey = some key)
    (hs : before.agrees key = true) :
    (sameIndex ((old.compare new).apply old).primaryKey (some key) = true ∧
      ((old.compare new).apply old).Valid) ↔ KeepsMarks old new key := by
  have hsame : sameIndex old.primaryKey new.primaryKey = true := by
    rw [hb, hk]
    exact hs
  have hcols := (Index.agrees_iff.1 hs).1
  have hprimary := get?_primary_of_same hsame
  have hall := primaryColumns_eq_iff_of_same hold hnew hb hk hs
  have hnone := primaryColumns_eq_nil_iff_of_same hold hnew hb hk hs
  have hsub := sublist_columnsAfter hold hnew hb hk hs
  rw [valid_apply_compare_iff hold hnew, hprimary]
  obtain ⟨i, hi, hbefore⟩ | ⟨hi, hp, rfl⟩ := primaryKey_eq_some hb
  · -- The index stays, so the key is in force, and the marks left are all of its columns or none.
    have hkey := primaryKey_of_declared (hprimary.trans hi)
    rw [← hbefore] at hkey
    have hicols : i.columns = key.columns := by rw [← hcols, hbefore]
    have hdeclared : old.indexes.contains primaryName = true := by
      rw [← OrderedMap.isSome_get?, hi]
      rfl
    rw [hkey, hi]
    simp only [sameIndex, hs, true_and, Option.some.injEq, forall_eq', hicols, hall, hnone,
      KeepsMarks, hdeclared]
    cases hA : old.marked with
    | false => cases hB : new.marked <;> simp
    | true =>
      cases hB : new.marked with
      | false => simp [hsub hA, or_comm]
      | true => simp [hsub hA]
  · -- The marks are all that declares the key, so each of its columns has to keep its mark.
    have hA : old.marked = true := by simpa [marked] using hp
    have hplain : ({ columns := key.columns, unique := true } : Index).agrees key = true :=
      hcols ▸ hs
    have hdeclared : old.indexes.contains primaryName = false :=
      OrderedMap.contains_eq_false_iff.2 hi
    have hne : ((old.compare new).apply old).primaryColumns = key.columns →
        ((old.compare new).apply old).primaryColumns ≠ [] :=
      fun h => by rw [h, ← hcols]; exact hp
    rw [hi, sameIndex_of_undeclared (hprimary.trans hi) hplain, and_iff_right_of_imp hne, hall]
    simp only [KeepsMarks, hdeclared, hA, hsub hA]
    cases hB : new.marked <;> simp

/-- Whether a difference carries the primary key of the new version over. A key that changes has to
have its columns in the order of the table, and at least one unless it is kept as an index. -/
def CarriesKey (old new : Table) : Prop :=
  ∀ key, new.primaryKey = some key →
    if sameIndex old.primaryKey (some key) then KeepsMarks old new key
    else key.columns.Sublist (columnsAfter old new) ∧
      (key.columns = [] → TableDiff.isPlainKey key = false)

/-- The primary key in force and the validity of a table after a difference, when the key changes. -/
theorem carries_iff_of_changed (hold : old.Valid) (hnew : new.Valid)
    (hk : new.primaryKey = some key) (hs : sameIndex old.primaryKey (some key) = false) :
    (sameIndex ((old.compare new).apply old).primaryKey (some key) = true ∧
      ((old.compare new).apply old).Valid) ↔
      key.columns.Sublist (columnsAfter old new) ∧
        (key.columns = [] → TableDiff.isPlainKey key = false) := by
  have hF := primaryColumns_of_changed hk hs
  have hall : ((old.compare new).apply old).primaryColumns = key.columns ↔
      key.columns.Sublist (columnsAfter old new) := by
    rw [hF]
    exact ⟨fun h => h ▸ List.filter_sublist,
      fun h => filter_contains_of_sublist h (nodup_columnsAfter old new)⟩
  have hnil : ((old.compare new).apply old).primaryColumns = [] → key.columns = [] := by
    rw [hF, List.filter_eq_nil_iff]
    intro h
    rw [List.eq_nil_iff_forall_not_mem]
    exact fun c hc => h c (subset_columnsAfter hnew hk hc) (List.contains_iff_mem.2 hc)
  have hs' : sameIndex old.primaryKey new.primaryKey = false := by
    rw [hk]
    exact hs
  have hi := get?_primary_of_changed hs'
  rw [hk] at hi
  rw [valid_apply_compare_iff hold hnew]
  -- A plain key is declared by marks alone, any other one is kept as an index as well.
  cases hp : TableDiff.isPlainKey key with
  | true =>
    have hi : ((old.compare new).apply old).indexes.get? primaryName = none := by
      simp [hi, Option.filter, hp]
    have hplain : ({ columns := key.columns, unique := true } : Index).agrees key = true := by
      simp only [TableDiff.isPlainKey, Bool.and_eq_true, Option.isNone_iff_eq_none,
        OrderedMap.isEmpty_iff] at hp
      rw [Index.agrees_iff, unique_of_primaryKey hk, hp.1]
      exact ⟨rfl, rfl, rfl, fun c => (hp.2 c).symm⟩
    rw [sameIndex_of_undeclared hi hplain, hi, ← hall]
    constructor
    · rintro ⟨⟨hne, he⟩, -⟩
      exact ⟨he, fun h => absurd (he.trans h) hne⟩
    · rintro ⟨he, hne⟩
      refine ⟨⟨fun h => ?_, he⟩, by simp⟩
      exact Bool.noConfusion (hne (he.symm.trans h))
  | false =>
    have hi : ((old.compare new).apply old).indexes.get? primaryName = some key := by
      simp [hi, Option.filter, hp]
    have hkey : ((old.compare new).apply old).primaryKey = some key := by
      have hu := unique_of_primaryKey hk
      rw [primaryKey_of_declared hi]
      cases key
      cases hu
      rfl
    rw [hkey, hi, ← hall]
    simp only [sameIndex_refl, true_and, Option.some.injEq, forall_eq', implies_true, and_true]
    exact ⟨fun h => h.elim (fun hn => hn.trans (hnil hn).symm) id, .inr⟩

/-- After a difference was carried out between valid tables, the table has the primary key of its
new version and is valid exactly if the key is one that is carried over. -/
theorem carriesKey_iff (hold : old.validate = .ok ()) (hnew : new.validate = .ok ()) :
    (sameIndex ((old.compare new).apply old).primaryKey new.primaryKey = true ∧
      ((old.compare new).apply old).validate = .ok ()) ↔ CarriesKey old new := by
  rw [validate_eq_ok_iff] at hold hnew ⊢
  unfold CarriesKey
  cases hk : new.primaryKey with
  | none =>
    have hi : ((old.compare new).apply old).indexes.get? primaryName = none := by
      cases hs : sameIndex old.primaryKey new.primaryKey with
      | true =>
        rw [hk] at hs
        rw [get?_primary_of_same (by rw [hk]; exact hs)]
        cases hb : old.primaryKey with
        | none => exact (primaryKey_eq_none_iff.1 hb).1
        | some before =>
          rw [hb] at hs
          cases hs
      | false =>
        rw [get?_primary_of_changed hs, hk]
        rfl
    rw [primaryKey_of_undeclared hi, if_pos (primaryColumns_of_none hk),
      valid_apply_compare_iff hold hnew, hi]
    simp
  | some key =>
    simp only [Option.some.injEq, forall_eq']
    cases hs : sameIndex old.primaryKey (some key) with
    | true =>
      cases hb : old.primaryKey with
      | none => rw [hb] at hs; cases hs
      | some before =>
        rw [hb] at hs
        exact carries_iff_of_same hold hnew hb hk hs
    | false => exact carries_iff_of_changed hold hnew hk hs

end Upgrade

/-! ### Keys that are lost -/

/-- A table with two columns, and the indexes that are given. -/
def pair (indexes : List (Text × Index)) : Table where
  name := ['t']
  columns := .ofList [(['a'], { type := .integer }), (['b'], { type := .integer })]
  indexes := .ofList indexes

/-- The key that takes the columns of `pair` in the other order. -/
def backwards : Text × Index :=
  (primaryName, { columns := [['b'], ['a']] })

theorem carriesKey_iff_pair :
    (pair []).validate = .ok () ∧ (pair [backwards]).validate = .ok () ∧
      ((sameIndex (((pair []).compare (pair [backwards])).apply (pair [])).primaryKey
          (pair [backwards]).primaryKey = true ∧
        (((pair []).compare (pair [backwards])).apply (pair [])).validate = .ok ()) ↔
        CarriesKey (pair []) (pair [backwards])) :=
  ⟨by decide, by decide, carriesKey_iff (by decide) (by decide)⟩

/-- The marks give the columns of the key in the order of the table. -/
theorem key_order_lost :
    (pair []).validate = .ok () ∧ (pair [backwards]).validate = .ok () ∧
      sameIndex (((pair []).compare (pair [backwards])).apply (pair [])).primaryKey
        (pair [backwards]).primaryKey = false := by
  decide

/-- A table whose only column is its key, by a mark or by an index. -/
def single (type : ColumnType) (key : Option KeyRole) (indexes : List (Text × Index)) : Table where
  name := ['t']
  columns := .ofList [(['a'], { type, key })]
  indexes := .ofList indexes

/-- A column that is redefined brings its new mark, which is none if the new key is an index; the
index is not stored, since the key stays the same. -/
theorem key_declaration_lost :
    let old := single .integer (some .primary) []
    let new := single .bigInteger none [(primaryName, { columns := [['a']] })]
    old.validate = .ok () ∧ new.validate = .ok () ∧
      new.primaryKey ≠ none ∧ ((old.compare new).apply old).primaryKey = none := by
  decide

end Table

end SqlComposer
