/-!
# Maps in order of insertion

A finite map that remembers in which order its keys came. Writing to a key that is present keeps
its place; a new key goes to the end, or to a given place. The keys are distinct by construction,
so the list of entries is all there is to see of a map.
-/

namespace SqlComposer

/-- A finite map with its entries in order. -/
structure OrderedMap (α β : Type) where
  entries : List (α × β)
  distinct : (entries.map Prod.fst).Nodup
deriving DecidableEq

namespace OrderedMap

variable {α β γ : Type}

/-- The keys in order. -/
def keys (m : OrderedMap α β) : List α :=
  m.entries.map Prod.fst

/-- The values in the order of their keys. -/
def values (m : OrderedMap α β) : List β :=
  m.entries.map Prod.snd

/-- The map without entries. -/
def empty : OrderedMap α β :=
  ⟨[], by simp⟩

instance : EmptyCollection (OrderedMap α β) := ⟨empty⟩

instance : Inhabited (OrderedMap α β) := ⟨empty⟩

def isEmpty (m : OrderedMap α β) : Bool :=
  m.entries.isEmpty

def size (m : OrderedMap α β) : Nat :=
  m.entries.length

/-- The map with every value changed by a function of its key. -/
def mapValues (f : α → β → γ) (m : OrderedMap α β) : OrderedMap α γ :=
  ⟨m.entries.map fun e => (e.1, f e.1 e.2), by
    simpa [List.map_map, Function.comp_def] using m.distinct⟩

/-- The entries that satisfy a condition. -/
def filter (p : α → β → Bool) (m : OrderedMap α β) : OrderedMap α β :=
  ⟨m.entries.filter fun e => p e.1 e.2,
    m.distinct.sublist (List.filter_sublist.map Prod.fst)⟩

theorem filterMap_sublist (f : α → β → Option γ) (es : List (α × β)) :
    ((es.filterMap fun e => (f e.1 e.2).map fun v => (e.1, v)).map Prod.fst).Sublist
      (es.map Prod.fst) := by
  induction es with
  | nil => simp
  | cons e es ih =>
    cases h : f e.1 e.2 with
    | none => simpa [List.filterMap_cons, h] using ih.cons e.1
    | some v => simpa [List.filterMap_cons, h] using ih

/-- The entries to which a function gives a new value. -/
def filterMap (f : α → β → Option γ) (m : OrderedMap α β) : OrderedMap α γ :=
  ⟨m.entries.filterMap fun e => (f e.1 e.2).map fun v => (e.1, v),
    m.distinct.sublist (filterMap_sublist f m.entries)⟩

variable [DecidableEq α]

/-- The value under a key. -/
def get? (m : OrderedMap α β) (k : α) : Option β :=
  m.entries.lookup k

def contains (m : OrderedMap α β) (k : α) : Bool :=
  m.keys.contains k

/-- The place of a key. -/
def indexOf? (m : OrderedMap α β) (k : α) : Option Nat :=
  m.keys.idxOf? k

/-- The map without a key; the other entries keep their order. -/
def erase (m : OrderedMap α β) (k : α) : OrderedMap α β :=
  m.filter fun j _ => j != k

theorem not_mem_keys_erase (m : OrderedMap α β) (k : α) : k ∉ (m.erase k).keys := by
  simp [erase, filter, keys]

/-- The map with a value changed, if its key is present. -/
def modify (m : OrderedMap α β) (k : α) (f : β → β) : OrderedMap α β :=
  m.mapValues fun j v => if j = k then f v else v

/-- The map with a new last entry. -/
def push (m : OrderedMap α β) (k : α) (v : β) (h : k ∉ m.keys) : OrderedMap α β :=
  ⟨m.entries ++ [(k, v)], by
    have hm := m.distinct
    simp only [keys] at h
    simp only [List.map_append, List.map_cons, List.map_nil, List.nodup_append]
    exact ⟨hm, by simp, by rintro a ha b hb rfl; simp at hb; exact h (hb ▸ ha)⟩⟩

/-- The map with a value under a key, in the place the key has or else at the end. -/
def insert (m : OrderedMap α β) (k : α) (v : β) : OrderedMap α β :=
  if h : k ∈ m.keys then m.modify k fun _ => v
  else m.push k v h

/-- The map with an entry moved or added so that it is in the given place. -/
def insertAt (m : OrderedMap α β) (i : Nat) (k : α) (v : β) : OrderedMap α β :=
  let rest := m.erase k
  ⟨rest.entries.take i ++ (k, v) :: rest.entries.drop i, by
    have hm := rest.distinct
    have hk := m.not_mem_keys_erase k
    rw [show (m.erase k).keys = (rest.entries.take i ++ rest.entries.drop i).map Prod.fst by
      simp [rest, keys]] at hk
    rw [show rest.entries = rest.entries.take i ++ rest.entries.drop i by simp] at hm
    simp only [List.map_append, List.map_cons, List.nodup_append, List.nodup_cons] at hm hk ⊢
    simp only [List.mem_append, not_or] at hk
    refine ⟨hm.1, ⟨hk.2, hm.2.1⟩, ?_⟩
    intro a ha b hb
    rcases List.mem_cons.1 hb with rfl | hb
    · exact fun e => hk.1 (e ▸ ha)
    · exact hm.2.2 a ha b hb⟩

/-- The map with the entry of a key moved to the front. -/
def front (m : OrderedMap α β) (k : α) : OrderedMap α β :=
  match m.get? k with
  | some v => m.insertAt 0 k v
  | none => m

/-- The map with entries written to it one after another. -/
def insertAll (m : OrderedMap α β) (entries : List (α × β)) : OrderedMap α β :=
  entries.foldl (fun m e => m.insert e.1 e.2) m

/-- The map of a list of entries; of entries with one key, the first gives the place and the last
the value. -/
def ofList (entries : List (α × β)) : OrderedMap α β :=
  insertAll empty entries

/-- Whether two maps have the same values under the same keys, in whatever order. -/
def agrees [DecidableEq β] (a b : OrderedMap α β) : Bool :=
  a.size == b.size && a.entries.all fun e => b.get? e.1 = some e.2

end OrderedMap

end SqlComposer
