import SqlComposer.OrderedMap

/-!
# Laws of ordered maps

What each operation does to the two views of a map, the value under a key and the row of keys. A
pair is an entry of a map exactly if the map has that value under that key (`get?_eq_some_iff`),
because keys are distinct; the laws of the operations follow from it.
-/

namespace SqlComposer.OrderedMap

variable {α β γ : Type}

theorem ext_entries {m n : OrderedMap α β} (h : m.entries = n.entries) : m = n := by
  cases m
  cases n
  simpa using h

@[simp] theorem entries_empty : (∅ : OrderedMap α β).entries = [] := rfl

@[simp] theorem keys_empty : (∅ : OrderedMap α β).keys = [] := rfl

@[simp] theorem keys_mapValues (f : α → β → γ) (m : OrderedMap α β) :
    (m.mapValues f).keys = m.keys := by
  simp [keys, mapValues]

theorem mem_keys_iff {m : OrderedMap α β} {k : α} : k ∈ m.keys ↔ ∃ v, (k, v) ∈ m.entries := by
  simp [keys]

theorem nodup_keys (m : OrderedMap α β) : m.keys.Nodup :=
  m.distinct

variable [DecidableEq α]

/-! ### The value under a key -/

theorem lookup_eq_some_iff_of_nodup {es : List (α × β)} (h : (es.map Prod.fst).Nodup) {k : α}
    {v : β} : es.lookup k = some v ↔ (k, v) ∈ es := by
  induction es with
  | nil => simp
  | cons e es ih =>
    obtain ⟨j, w⟩ := e
    simp only [List.map_cons, List.nodup_cons] at h
    by_cases hj : k = j
    · subst hj
      have hk : (k, v) ∉ es := fun hm => h.1 (List.mem_map_of_mem (f := Prod.fst) hm)
      simp [hk, eq_comm]
    · have hb : (k == j) = false := by simpa using hj
      simp [List.lookup_cons, hb, hj, ih h.2]

theorem get?_eq_some_iff {m : OrderedMap α β} {k : α} {v : β} :
    m.get? k = some v ↔ (k, v) ∈ m.entries :=
  lookup_eq_some_iff_of_nodup m.distinct

theorem get?_eq_none_iff {m : OrderedMap α β} {k : α} : m.get? k = none ↔ k ∉ m.keys := by
  rw [Option.eq_none_iff_forall_ne_some, mem_keys_iff]
  simp only [ne_eq, get?_eq_some_iff, not_exists]

theorem contains_iff {m : OrderedMap α β} {k : α} : m.contains k = true ↔ k ∈ m.keys := by
  simp [contains]

theorem isSome_get? (m : OrderedMap α β) (k : α) : (m.get? k).isSome = m.contains k := by
  rw [Bool.eq_iff_iff, contains_iff, Option.isSome_iff_ne_none, ne_eq, get?_eq_none_iff,
    Classical.not_not]

/-- Two maps with the same keys in the same order and the same values under them are equal. -/
theorem ext {m n : OrderedMap α β} (hk : m.keys = n.keys) (hv : ∀ k, m.get? k = n.get? k) :
    m = n := by
  apply ext_entries
  have hl : m.entries.length = n.entries.length := by
    simpa [keys] using congrArg List.length hk
  apply List.ext_getElem hl
  intro i hm hn
  have hf : m.entries[i].1 = n.entries[i].1 := by
    have := congrArg (fun ks => ks[i]?) hk
    simpa [keys, hm, hn] using this
  have h1 : m.get? m.entries[i].1 = some m.entries[i].2 :=
    get?_eq_some_iff.2 (List.getElem_mem hm)
  have h2 : n.get? n.entries[i].1 = some n.entries[i].2 :=
    get?_eq_some_iff.2 (List.getElem_mem hn)
  rw [hv, hf, h2] at h1
  exact Prod.ext hf (Option.some.inj h1).symm

/-! ### Operations on all entries -/

@[simp] theorem get?_empty (k : α) : (∅ : OrderedMap α β).get? k = none := rfl

theorem get?_mapValues (f : α → β → γ) (m : OrderedMap α β) (k : α) :
    (m.mapValues f).get? k = (m.get? k).map (f k) := by
  apply Option.ext
  intro v
  simp only [get?_eq_some_iff, Option.map_eq_some_iff, mapValues, List.mem_map, Prod.mk.injEq,
    Prod.exists]
  constructor
  · rintro ⟨j, w, hm, rfl, rfl⟩
    exact ⟨w, hm, rfl⟩
  · rintro ⟨w, hm, rfl⟩
    exact ⟨k, w, hm, rfl, rfl⟩

theorem get?_filter (p : α → β → Bool) (m : OrderedMap α β) (k : α) :
    (m.filter p).get? k = (m.get? k).filter (p k) := by
  apply Option.ext
  intro v
  simp [get?_eq_some_iff, Option.filter_eq_some_iff, filter]

theorem get?_filterMap (f : α → β → Option γ) (m : OrderedMap α β) (k : α) :
    (m.filterMap f).get? k = (m.get? k).bind (f k) := by
  apply Option.ext
  intro v
  simp only [get?_eq_some_iff, Option.bind_eq_some_iff, filterMap, List.mem_filterMap,
    Option.map_eq_some_iff, Prod.mk.injEq, Prod.exists]
  constructor
  · rintro ⟨j, w, hm, u, hu, rfl, rfl⟩
    exact ⟨w, hm, hu⟩
  · rintro ⟨w, hm, hu⟩
    exact ⟨k, w, hm, v, hu, rfl, rfl⟩

/-! ### Operations on one entry -/

theorem get?_erase (m : OrderedMap α β) (k j : α) :
    (m.erase k).get? j = if j = k then none else m.get? j := by
  rw [erase, get?_filter]
  split
  · next h => cases m.get? j <;> simp [Option.filter, h]
  · next h => cases m.get? j <;> simp [Option.filter, h]

theorem get?_modify (m : OrderedMap α β) (k j : α) (f : β → β) :
    (m.modify k f).get? j = if j = k then (m.get? j).map f else m.get? j := by
  rw [modify, get?_mapValues]
  split
  · rfl
  · cases m.get? j <;> rfl

@[simp] theorem keys_modify (m : OrderedMap α β) (k : α) (f : β → β) :
    (m.modify k f).keys = m.keys :=
  keys_mapValues _ m

theorem get?_push (m : OrderedMap α β) (k j : α) (v : β) (h : k ∉ m.keys) :
    (m.push k v h).get? j = if j = k then some v else m.get? j := by
  apply Option.ext
  intro w
  rw [get?_eq_some_iff]
  simp only [push, List.mem_append, List.mem_singleton, Prod.mk.injEq]
  split
  · next hj =>
    subst hj
    have hm : (j, w) ∉ m.entries := fun hm => h (mem_keys_iff.2 ⟨w, hm⟩)
    simp [hm, eq_comm]
  · next hj => simp [hj, get?_eq_some_iff]

theorem get?_insert (m : OrderedMap α β) (k j : α) (v : β) :
    (m.insert k v).get? j = if j = k then some v else m.get? j := by
  unfold insert
  split
  · next hk =>
    rw [get?_modify]
    split
    · next hj =>
      subst hj
      obtain ⟨w, hw⟩ := mem_keys_iff.1 hk
      simp [get?_eq_some_iff.2 hw]
    · rfl
  · next hk => exact get?_push m k j v hk

/-- A key that is present keeps its place, a new one goes to the end. -/
theorem keys_insert (m : OrderedMap α β) (k : α) (v : β) :
    (m.insert k v).keys = if k ∈ m.keys then m.keys else m.keys ++ [k] := by
  unfold insert
  split
  · next hk => simp
  · next hk => simp [push, keys]

theorem keys_erase (m : OrderedMap α β) (k : α) : (m.erase k).keys = m.keys.filter (· ≠ k) := by
  simp only [keys, erase, filter, List.filter_map]
  congr 1
  apply List.filter_congr
  intro e _
  by_cases h : e.1 = k <;> simp [h]

theorem get?_insertAt (m : OrderedMap α β) (i : Nat) (k j : α) (v : β) :
    (m.insertAt i k v).get? j = if j = k then some v else m.get? j := by
  apply Option.ext
  intro w
  rw [get?_eq_some_iff]
  have he : ∀ e, e ∈ (m.insertAt i k v).entries ↔ e = (k, v) ∨ e ∈ (m.erase k).entries := by
    intro e
    have h := List.take_append_drop i (m.erase k).entries
    conv => rhs; rw [← h]
    simp only [insertAt, List.mem_append, List.mem_cons]
    constructor
    · rintro (h | h | h)
      · exact .inr (.inl h)
      · exact .inl h
      · exact .inr (.inr h)
    · rintro (h | h | h)
      · exact .inr (.inl h)
      · exact .inl h
      · exact .inr (.inr h)
  rw [he, ← get?_eq_some_iff, get?_erase]
  split
  · next hj => simp [hj, eq_comm]
  · next hj => simp [hj]

/-- The new entry stands in its place among the other keys. -/
theorem keys_insertAt (m : OrderedMap α β) (i : Nat) (k : α) (v : β) :
    (m.insertAt i k v).keys
      = (m.keys.filter (· ≠ k)).take i ++ k :: (m.keys.filter (· ≠ k)).drop i := by
  rw [← keys_erase]
  simp [keys, insertAt, List.map_take, List.map_drop]

end SqlComposer.OrderedMap
