import Mathlib.Data.List.Nodup
import Mathlib.Data.List.Perm.Subperm
import SqlComposer.OrderedMap.Lemmas

/-!
# Ordered maps in loops

A loop over the entries of a map meets each key once. So what it does to one key can be read off
the step for that key alone (`foldl_entries_view`), whatever the other steps do elsewhere.
-/

namespace SqlComposer

/-- A list without its repetitions has none. -/
theorem nodup_eraseDups {α : Type} [BEq α] [LawfulBEq α] (l : List α) : l.eraseDups.Nodup := by
  induction hl : l.length using Nat.strongRecOn generalizing l with
  | ind k ih =>
    cases l with
    | nil => simp
    | cons a l =>
      rw [List.eraseDups_cons, List.nodup_cons]
      have hle := List.length_filter_le (fun b => !b == a) l
      rw [List.length_cons] at hl
      exact ⟨by simp, ih _ (by omega) _ rfl⟩

namespace OrderedMap

variable {α β γ σ : Type}

theorem nodup_entries (m : OrderedMap α β) : m.entries.Nodup :=
  List.Nodup.of_map _ m.distinct

variable [DecidableEq α]

/-! ### Loops over entries -/

theorem foldl_view_of_nodup {es : List (α × β)} (hes : (es.map Prod.fst).Nodup)
    (step : σ → α × β → σ) (view : σ → γ) (k : α) (hit : β → γ → γ)
    (hhit : ∀ s v, view (step s (k, v)) = hit v (view s))
    (hmiss : ∀ s e, e.1 ≠ k → view (step s e) = view s) (s : σ) :
    view (es.foldl step s) = (es.lookup k).elim (view s) fun v => hit v (view s) := by
  induction es generalizing s with
  | nil => rfl
  | cons e es ih =>
    obtain ⟨j, v⟩ := e
    simp only [List.map_cons, List.nodup_cons] at hes
    rw [List.foldl_cons, ih hes.2]
    by_cases hj : k = j
    · subst hj
      have hk : es.lookup k = none := by
        rw [List.lookup_eq_none_iff]
        intro e he
        simpa using fun h : k = e.1 => hes.1 (h ▸ List.mem_map_of_mem he)
      simp [hk, hhit]
    · have hb : (k == j) = false := by simpa using hj
      rw [List.lookup_cons, hb, hmiss s (j, v) (Ne.symm hj)]

/-- A loop over the entries of a map, seen at one key: the step for that key, if it has an entry,
and nothing else. -/
theorem foldl_entries_view (m : OrderedMap α β) (step : σ → α × β → σ) (view : σ → γ) (k : α)
    (hit : β → γ → γ) (hhit : ∀ s v, view (step s (k, v)) = hit v (view s))
    (hmiss : ∀ s e, e.1 ≠ k → view (step s e) = view s) (s : σ) :
    view (m.entries.foldl step s) = (m.get? k).elim (view s) fun v => hit v (view s) :=
  foldl_view_of_nodup m.distinct step view k hit hhit hmiss s

theorem get?_foldl_erase (ks : List α) (m : OrderedMap α β) (j : α) :
    (ks.foldl erase m).get? j = if j ∈ ks then none else m.get? j := by
  induction ks generalizing m with
  | nil => simp
  | cons k ks ih =>
    rw [List.foldl_cons, ih, get?_erase]
    by_cases hj : j = k <;> simp [hj]

theorem keys_foldl_erase (ks : List α) (m : OrderedMap α β) :
    (ks.foldl erase m).keys = m.keys.filter (· ∉ ks) := by
  induction ks generalizing m with
  | nil => simp
  | cons k ks ih =>
    rw [List.foldl_cons, ih, keys_erase, List.filter_filter]
    apply List.filter_congr
    intro j _
    by_cases hj : j = k <;> simp [hj]

/-- Writing the entries of a map over another one. -/
theorem get?_insertAll (m n : OrderedMap α β) (k : α) :
    (m.insertAll n.entries).get? k = (n.get? k).or (m.get? k) := by
  have h := foldl_entries_view n (fun m e => m.insert e.1 e.2) (fun s => s.get? k) k
    (fun v _ => some v) (by simp [get?_insert])
    (fun s e he => by rw [get?_insert, if_neg (Ne.symm he)]) m
  rw [insertAll, h]
  cases n.get? k <;> rfl

/-! ### Membership -/

theorem mem_keys_iff_get? {m : OrderedMap α β} {k : α} : k ∈ m.keys ↔ ∃ v, m.get? k = some v := by
  simp only [mem_keys_iff, get?_eq_some_iff]

theorem contains_eq_false_iff {m : OrderedMap α β} {k : α} :
    m.contains k = false ↔ m.get? k = none := by
  rw [← isSome_get?, Option.isSome_eq_false_iff, Option.isNone_iff_eq_none]

theorem isEmpty_iff {m : OrderedMap α β} : m.isEmpty = true ↔ ∀ k, m.get? k = none := by
  simp only [get?_eq_none_iff, isEmpty, List.isEmpty_iff, keys]
  constructor
  · intro h
    simp [h]
  · intro h
    rw [← List.map_eq_nil_iff (f := Prod.fst)]
    exact List.eq_nil_iff_forall_not_mem.2 h

@[simp] theorem get?_front (m : OrderedMap α β) (k j : α) : (m.front k).get? j = m.get? j := by
  unfold front
  split
  · next v hv =>
    rw [get?_insertAt]
    split
    · next hj => rw [hj, hv]
    · rfl
  · rfl

/-! ### Places -/

theorem indexOf?_eq_some {m : OrderedMap α β} {front back : List α} {k : α}
    (h : m.keys = front ++ k :: back) : m.indexOf? k = some front.length := by
  have hd := m.nodup_keys
  rw [h, List.nodup_append] at hd
  rw [indexOf?, h, List.idxOf?_eq_some_iff]
  refine ⟨by simp, by simp, fun j hj he => ?_⟩
  rw [List.getElem_append_left hj] at he
  exact hd.2.2 _ (List.getElem_mem hj) k (by simp) he

theorem keys_insertAt_of_not_mem {m : OrderedMap α β} {front back : List α} {k : α}
    (h : m.keys = front ++ back) (hk : k ∉ m.keys) (v : β) :
    (m.insertAt front.length k v).keys = front ++ k :: back := by
  have hf : m.keys.filter (· ≠ k) = m.keys := by
    rw [List.filter_eq_self]
    intro j hj
    simpa using fun e : j = k => hk (e ▸ hj)
  rw [keys_insertAt, hf, h, List.take_left, List.drop_left]

theorem filter_keys_insertAt {p : α → Bool} (m : OrderedMap α β) (i : Nat) {k : α} (v : β)
    (hk : p k = false) : (m.insertAt i k v).keys.filter p = m.keys.filter p := by
  have hne : ∀ j, (p j && decide (j ≠ k)) = p j := by
    intro j
    by_cases hj : j = k <;> simp [hj, hk]
  rw [keys_insertAt, List.filter_append, List.filter_cons, if_neg (by simp [hk]),
    ← List.filter_append, List.take_append_drop, List.filter_filter]
  simp only [hne]

/-! ### Agreement up to order -/

section Agrees

variable [DecidableEq β]

/-- Two maps agree exactly if they have the same value under every key. -/
theorem agrees_iff {m n : OrderedMap α β} : m.agrees n = true ↔ ∀ k, m.get? k = n.get? k := by
  simp only [agrees, size, Bool.and_eq_true, beq_iff_eq, List.all_eq_true, decide_eq_true_eq]
  constructor
  · rintro ⟨hlen, hsub⟩
    have hsub : m.entries ⊆ n.entries := fun e he => get?_eq_some_iff.1 (hsub e he)
    have hperm : m.entries.Perm n.entries :=
      (List.subperm_of_subset m.nodup_entries hsub).perm_of_length_le (Nat.le_of_eq hlen.symm)
    intro k
    apply Option.ext
    intro v
    rw [get?_eq_some_iff, get?_eq_some_iff, hperm.mem_iff]
  · intro h
    have hmem : ∀ e, e ∈ m.entries ↔ e ∈ n.entries := by
      rintro ⟨k, v⟩
      rw [← get?_eq_some_iff, ← get?_eq_some_iff, h]
    refine ⟨?_, fun e he => get?_eq_some_iff.2 ((hmem e).1 he)⟩
    exact ((List.perm_ext_iff_of_nodup m.nodup_entries n.nodup_entries).2 hmem).length_eq

end Agrees

end OrderedMap

end SqlComposer
