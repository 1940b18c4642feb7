import Mathlib.Algebra.BigOperators.Group.List.Lemmas
import Mathlib.Algebra.GroupWithZero.Nat
import Mathlib.Data.List.Induction
import SqlComposer.Proofs.CatalogRows

/-!
# Indexes from rows in any order

A database may list the rows of its indexes in any order, those of one index between those of
another and later columns before earlier ones. What the rows say does not depend on it, as long as
the rows of one index have places of their own: each index has the columns of its rows in the order
of their places, and no row is lost or counted twice.
-/

namespace SqlComposer

/-! ### Lists without repetitions -/

/-- Counting the items of a list name by name counts each of them once. -/
theorem sum_count_eraseDups {α : Type} [BEq α] [LawfulBEq α] (l : List α) :
    (l.eraseDups.map fun a => l.count a).sum = l.length := by
  classical
  obtain rfl := lawful_beq_subsingleton ‹BEq α› instBEqOfDecidableEq
  have hp : l.eraseDups.Perm l.dedup := by
    rw [List.perm_ext_iff_of_nodup (nodup_eraseDups l) l.nodup_dedup]
    intro a
    rw [List.mem_eraseDups, List.mem_dedup]
  rw [(hp.map _).sum_nat, l.sum_map_count_dedup_eq_length]

/-- A map that is written to once more. -/
theorem OrderedMap.ofList_append_singleton {α β : Type} [DecidableEq α] (es : List (α × β))
    (e : α × β) : ofList (es ++ [e]) = (ofList es).insert e.1 e.2 := by
  simp [ofList, insertAll]

namespace IndexRow

variable {rows rows' key : List IndexRow} {name column : Text} {i : Index} {n : Nat}

/-- Whether the rows of each index have places of their own. -/
def DistinctPlaces (rows : List IndexRow) : Prop :=
  rows.Pairwise fun r r' => r.index = r'.index → r.place ≠ r'.place

instance (rows : List IndexRow) : Decidable (DistinctPlaces rows) :=
  inferInstanceAs (Decidable (rows.Pairwise _))

theorem DistinctPlaces.perm (h : DistinctPlaces rows) (hp : rows'.Perm rows) :
    DistinctPlaces rows' := by
  refine (hp.pairwise_iff ?_).2 h
  intro r r' hr he
  exact (hr he.symm).symm

/-! ### The row of a column that counts -/

/-- Whether a row says how much of a column is indexed, and no row of a later place does. -/
def SaysLength (rows : List IndexRow) (column : Text) (n : Nat) : Prop :=
  ∃ r ∈ rows, r.column = column ∧ r.length = some n ∧
    ∀ r' ∈ rows, r'.column = column → r'.length.isSome → r'.place ≤ r.place

/-- The lengths that rows give, one after another. -/
def givenLengths (rows : List IndexRow) : List (Text × Nat) :=
  rows.filterMap fun r => r.length.map fun n => (r.column, n)

/-- A row of another column, or one that gives no length, leaves the length of a column as it is. -/
theorem saysLength_append_of_silent {r : IndexRow} (hr : r.column = column → r.length = none) :
    SaysLength (rows ++ [r]) column n ↔ SaysLength rows column n := by
  unfold SaysLength
  simp only [List.mem_append, List.mem_singleton]
  constructor
  · rintro ⟨q, hq | rfl, hc, hn, hmax⟩
    · exact ⟨q, hq, hc, hn, fun q' hq' => hmax q' (.inl hq')⟩
    · rw [hr hc] at hn
      cases hn
  · rintro ⟨q, hq, hc, hn, hmax⟩
    refine ⟨q, .inl hq, hc, hn, ?_⟩
    rintro q' (hq' | rfl) hc' hs
    · exact hmax q' hq' hc' hs
    · rw [hr hc'] at hs
      cases hs

/-- Of rows in the order of their places the last one counts. -/
theorem saysLength_append_of_some {r : IndexRow} {m : Nat} (hr : r.length = some m)
    (hlast : ∀ q ∈ rows, q.place < r.place) :
    SaysLength (rows ++ [r]) r.column n ↔ m = n := by
  unfold SaysLength
  simp only [List.mem_append, List.mem_singleton]
  constructor
  · rintro ⟨q, hq | rfl, -, hn, hmax⟩
    · have hle := hmax r (.inr rfl) rfl (by rw [hr]; rfl)
      exact absurd (hlast q hq) (Nat.not_lt.2 hle)
    · rw [hr] at hn
      exact Option.some.inj hn
  · rintro rfl
    refine ⟨r, .inr rfl, rfl, hr, ?_⟩
    rintro q (hq | rfl) - -
    · exact Nat.le_of_lt (hlast q hq)
    · exact Nat.le_refl _

/-- The length of a column is that of the row with the last place among those that give one. -/
theorem get?_givenLengths (h : key.Pairwise (·.place < ·.place)) :
    (OrderedMap.ofList (givenLengths key)).get? column = some n ↔ SaysLength key column n := by
  -- A later row overrides an earlier one, so rows are taken off the end.
  induction key using List.reverseRecOn with
  | nil =>
    constructor
    · intro hn
      cases hn
    · rintro ⟨r, hr, -⟩
      cases hr
  | append_singleton key r ih =>
    rw [List.pairwise_append] at h
    obtain ⟨hkey, -, hlast⟩ := h
    have hlast : ∀ q ∈ key, q.place < r.place := fun q hq =>
      hlast q hq r (List.mem_singleton_self r)
    cases hr : r.length with
    | none =>
      have hgiven : givenLengths (key ++ [r]) = givenLengths key := by simp [givenLengths, hr]
      rw [hgiven, saysLength_append_of_silent fun _ => hr, ih hkey]
    | some m =>
      have hgiven : givenLengths (key ++ [r]) = givenLengths key ++ [(r.column, m)] := by
        simp [givenLengths, hr]
      rw [hgiven, OrderedMap.ofList_append_singleton, OrderedMap.get?_insert]
      by_cases hc : column = r.column
      · subst hc
        rw [if_pos rfl, saysLength_append_of_some hr hlast, Option.some.injEq]
      · rw [if_neg hc, saysLength_append_of_silent fun he => absurd he.symm hc, ih hkey]

/-! ### One index -/

/-- Whether an index is what rows say: it has their columns, the first row decides whether it is
unique and of which kind, and for each column the last row that gives a length decides on it. -/
structure Describe (rows : List IndexRow) (i : Index) : Prop where
  columns : i.columns = rows.map IndexRow.column
  lowest : ∃ r ∈ rows, (∀ r' ∈ rows, r.place ≤ r'.place) ∧ i.unique = !r.nonUnique ∧
    i.kind = r.indexKind
  lengths : ∀ column n, i.lengths.get? column = some n ↔ SaysLength rows column n

/-- Rows with different places are sorted in one way only. -/
theorem sortedRows_eq_of_perm (h : DistinctPlaces rows) (hp : rows'.Perm rows) (name : Text) :
    sortedRows rows' name = sortedRows rows name := by
  have hperm : (sortedRows rows' name).Perm (sortedRows rows name) :=
    ((sortedRows_perm rows' name).trans (hp.filter _)).trans (sortedRows_perm rows name).symm
  refine hperm.eq_of_pairwise ?_ (pairwise_sortedRows (h.perm hp) name) (pairwise_sortedRows h name)
  intro r r' _ _ hlt hgt
  exact absurd hgt (Nat.lt_asymm hlt)

theorem toIndex_eq (rows : List IndexRow) (name : Text) :
    toIndex (rows.filter fun r => r.index = name) =
      { columns := (sortedRows rows name).map IndexRow.column
        unique := (sortedRows rows name).head?.any fun r => !r.nonUnique
        kind := (sortedRows rows name).head?.bind indexKind
        lengths := OrderedMap.ofList (givenLengths (sortedRows rows name)) } :=
  rfl

/-- Rows in the order of their places describe the index that has them. -/
theorem describe_sortedRows (h : DistinctPlaces rows) (hi : (toIndexes rows).get? name = some i) :
    Describe (sortedRows rows name) i := by
  have hs := pairwise_sortedRows h name
  rw [get?_toIndexes, Option.ite_none_left_eq_some, toIndex_eq] at hi
  obtain ⟨hne, hi⟩ := hi
  obtain rfl := Option.some.inj hi
  obtain ⟨first, rest, hkey⟩ := List.exists_cons_of_ne_nil hne
  constructor
  case columns => rfl
  case lowest =>
    rw [hkey] at hs ⊢
    refine ⟨first, List.mem_cons_self, ?_, rfl, rfl⟩
    intro r hr
    rcases List.mem_cons.1 hr with rfl | hr
    · exact Nat.le_refl _
    · exact Nat.le_of_lt ((List.pairwise_cons.1 hs).1 r hr)
  case lengths =>
    intro column n
    exact get?_givenLengths hs

/-! ### All indexes -/

theorem keys_toIndexes (rows : List IndexRow) :
    (toIndexes rows).keys = (rows.map IndexRow.index).eraseDups := by
  rw [toIndexes, OrderedMap.keys, OrderedMap.entries_ofList_of_nodup]
  · simp [Function.comp_def]
  · simpa [Function.comp_def] using nodup_eraseDups (rows.map IndexRow.index)

/-- Every row gives one column to one index. -/
theorem sum_length_columns (rows : List IndexRow) :
    ((toIndexes rows).values.map fun i => i.columns.length).sum = rows.length := by
  have hentries : (toIndexes rows).entries = (rows.map IndexRow.index).eraseDups.map fun name =>
      (name, toIndex (rows.filter fun r => r.index = name)) := by
    apply OrderedMap.entries_ofList_of_nodup
    simpa [Function.comp_def] using nodup_eraseDups (rows.map IndexRow.index)
  have hlength (name : Text) : (toIndex (rows.filter fun r => r.index = name)).columns.length =
      (rows.map IndexRow.index).count name := by
    rw [columns_toIndex, List.length_map, (sortedRows_perm rows name).length_eq,
      ← List.countP_eq_length_filter, List.count, List.countP_map]
    exact List.countP_congr fun r _ => by simp
  rw [OrderedMap.values, hentries, List.map_map, List.map_map]
  simp only [Function.comp_def, hlength]
  rw [sum_count_eraseDups, List.length_map]

/-- Rows give the same indexes in whatever order they come, if the rows of each index have places of
their own. There is an index for each name, every row is one of its columns, and it is what its
rows say in the order of their places. -/
theorem toIndexes_of_distinctPlaces (h : DistinctPlaces rows) :
    (∀ rows', rows'.Perm rows → ∀ name, (toIndexes rows').get? name = (toIndexes rows).get? name) ∧
      (∀ name, name ∈ (toIndexes rows).keys ↔ ∃ r ∈ rows, r.index = name) ∧
      ((toIndexes rows).values.map fun i => i.columns.length).sum = rows.length ∧
      ∀ name i, (toIndexes rows).get? name = some i →
        ∃ key : List IndexRow, key.Perm (rows.filter fun r => r.index = name) ∧
          key.Pairwise (·.place < ·.place) ∧ Describe key i := by
  refine ⟨?_, ?_, sum_length_columns rows, ?_⟩
  · intro rows' hp name
    rw [get?_toIndexes, get?_toIndexes, toIndex_eq, toIndex_eq, sortedRows_eq_of_perm h hp]
  · intro name
    rw [keys_toIndexes, List.mem_eraseDups, List.mem_map]
  · intro name i hi
    exact ⟨sortedRows rows name, sortedRows_perm rows name, pairwise_sortedRows h name,
      describe_sortedRows h hi⟩

/-- Rows of two indexes between each other, the later column of one of them first. -/
theorem toIndexes_of_distinctPlaces_mixed :
    let email : IndexRow :=
      { index := "by_name", column := "email", nonUnique := true, length := some 10, place := 2 }
    let id : IndexRow := { index := primaryName, column := "id", place := 1 }
    let name : IndexRow := { index := "by_name", column := "name", nonUnique := true, place := 1 }
    DistinctPlaces [email, id, name] ∧
      (∀ n, (toIndexes [name, email, id]).get? n = (toIndexes [email, id, name]).get? n) ∧
      ∃ i, (toIndexes [email, id, name]).get? "by_name" = some i ∧
        i.columns = ["name".toList, "email".toList] ∧ i.unique = false ∧
        i.lengths.get? "email" = some 10 := by
  intro email id name
  have h : DistinctPlaces [email, id, name] := by decide
  obtain ⟨hperm, hkeys, -, hindex⟩ := toIndexes_of_distinctPlaces h
  have hmem : "by_name".toList ∈ (toIndexes [email, id, name]).keys :=
    (hkeys _).2 ⟨email, List.mem_cons_self, rfl⟩
  obtain ⟨i, hi⟩ := OrderedMap.mem_keys_iff_get?.1 hmem
  obtain ⟨key, hp, hs, hd⟩ := hindex _ i hi
  have hsorted : [name, email].Pairwise (·.place < ·.place) := by decide
  have hk : key = [name, email] :=
    (hp.trans (List.Perm.swap _ _ [])).eq_of_pairwise
      (fun _ _ _ _ hab hba => absurd hab (Nat.lt_asymm hba)) hs hsorted
  subst hk
  obtain ⟨r, hr, hlow, hu, -⟩ := hd.lowest
  refine ⟨h, hperm _ (by decide), i, hi, hd.columns, ?_, ?_⟩
  · rw [hu]
    rcases List.mem_cons.1 hr with rfl | hr
    · rfl
    · rw [List.mem_singleton.1 hr]
      rfl
  · rw [hd.lengths]
    exact ⟨email, by simp, rfl, rfl, by decide⟩

end IndexRow

end SqlComposer
