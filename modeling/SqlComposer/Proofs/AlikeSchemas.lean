import SqlComposer.Proofs.SchemaDiff

/-!
# Schemas without a difference

Two schemas have no difference exactly if they have the same tables, and two tables have none
exactly if they have the same columns with the same definitions, the same indexes in force and the
same parameters. So it does not matter in which order anything stands, nor in which way a primary
key is declared, and to have no difference is an equivalence.
-/

namespace SqlComposer

/-! ### Columns -/

/-- Two definitions of a column do not differ if they agree in all but the key. -/
theorem Column.differs_eq_false_iff {a b : Column} :
    a.differs b = false ↔
      a.type = b.type ∧ a.length = b.length ∧ a.nullable = b.nullable ∧ a.default = b.default ∧
        a.unsigned = b.unsigned ∧ a.charset = b.charset ∧ a.collate = b.collate ∧
        a.comment = b.comment := by
  simp [differs]

theorem Column.equivalence_differs : Equivalence fun a b : Column => a.differs b = false := by
  have h : (fun a b : Column => a.differs b = false) =
      fun a b => { a with key := none } = { b with key := none } := by
    funext a b
    simp [differs]
  rw [h]
  exact eq_equivalence.comap fun c : Column => { c with key := none }

/-! ### Tables -/

namespace Table

/-- Whether two tables are the same but for the order in which things stand and the way in which
the primary key is declared. -/
structure Alike (a b : Table) : Prop where
  columns : ∀ name, name ∈ a.columns.keys ↔ name ∈ b.columns.keys
  definitions : ∀ name c d, a.columns.get? name = some c → b.columns.get? name = some d →
    c.differs d = false
  indexes : ∀ name, sameIndex (a.effectiveIndexes.get? name) (b.effectiveIndexes.get? name) = true
  parameters : a.parameters = b.parameters

theorem equivalence_alike : Equivalence Alike where
  refl a := by
    constructor
    case columns => exact fun _ => Iff.rfl
    case definitions =>
      intro name c d hc hd
      obtain rfl := Option.some.inj (hc.symm.trans hd)
      exact c.differs_self
    case indexes => exact fun _ => sameIndex_refl _
    case parameters => rfl
  symm := by
    intro a b h
    constructor
    case columns => exact fun name => (h.columns name).symm
    case definitions =>
      exact fun name c d hc hd => Column.equivalence_differs.symm (h.definitions name d c hd hc)
    case indexes => exact fun name => sameIndex_comm _ _ ▸ h.indexes name
    case parameters => exact h.parameters.symm
  trans := by
    intro a b c hab hbc
    constructor
    case columns => exact fun name => (hab.columns name).trans (hbc.columns name)
    case definitions =>
      intro name p r hp hr
      obtain ⟨q, hq⟩ := OrderedMap.mem_keys_iff_get?.1
        ((hab.columns name).1 (OrderedMap.mem_keys_iff_get?.2 ⟨p, hp⟩))
      exact Column.equivalence_differs.trans (hab.definitions name p q hp hq)
        (hbc.definitions name q r hq hr)
    case indexes => exact fun name => sameIndex_trans (hab.indexes name) (hbc.indexes name)
    case parameters => exact hab.parameters.trans hbc.parameters

variable (old new : Table)

/-! ### What an empty difference says -/

theorem isEmpty_add_compare :
    (old.compare new).add.isEmpty = true ↔ ∀ name ∈ new.columns.keys, name ∈ old.columns.keys := by
  simp only [OrderedMap.isEmpty_iff, get?_add_compare, Option.bind_eq_none_iff]
  constructor
  · intro h name hn
    obtain ⟨c, hc⟩ := OrderedMap.mem_keys_iff_get?.1 hn
    simpa [OrderedMap.contains_iff] using h name c hc
  · intro h name c hc
    have ho := h name (OrderedMap.mem_keys_iff_get?.2 ⟨c, hc⟩)
    exact if_pos (OrderedMap.contains_iff.2 ho)

theorem isEmpty_drop_compare :
    (old.compare new).drop.isEmpty = true ↔
      ∀ name ∈ old.columns.keys, name ∈ new.columns.keys := by
  rw [List.isEmpty_iff, List.eq_nil_iff_forall_not_mem]
  constructor
  · intro h name ho
    by_contra hn
    exact h name ((mem_drop_compare old new name).2 ⟨ho, hn⟩)
  · intro h name hd
    obtain ⟨ho, hn⟩ := (mem_drop_compare old new name).1 hd
    exact hn (h name ho)

theorem isEmpty_change_compare :
    (old.compare new).change.isEmpty = true ↔
      ∀ name c d, old.columns.get? name = some c → new.columns.get? name = some d →
        c.differs d = false := by
  simp only [OrderedMap.isEmpty_iff, get?_change_compare, Option.bind_eq_none_iff]
  constructor
  · intro h name c d hc hd
    simpa using h name d hd c hc
  · intro h name d hd c hc
    simp [h name c d hc hd]

/-- No index goes and none comes exactly if both versions have the same ones. -/
theorem isEmpty_indexes_compare :
    (old.compare new).addIndexes.isEmpty = true ∧ (old.compare new).dropIndexes.isEmpty = true ↔
      ∀ name,
        sameIndex (old.effectiveIndexes.get? name) (new.effectiveIndexes.get? name) = true := by
  rw [OrderedMap.isEmpty_iff, List.isEmpty_iff, List.eq_nil_iff_forall_not_mem]
  constructor
  · rintro ⟨hadd, hdrop⟩ name
    by_contra hs
    rw [Bool.not_eq_true] at hs
    have hn : new.effectiveIndexes.get? name = none := by
      rw [← get?_addIndexes_compare_of_not_same hs]
      exact hadd name
    cases ho : old.effectiveIndexes.get? name with
    | none =>
      rw [ho, hn] at hs
      cases hs
    | some i =>
      apply hdrop name
      rw [mem_dropIndexes_compare]
      exact ⟨i, ho, by rw [hn]; rfl⟩
  · intro h
    exact ⟨fun name => get?_addIndexes_compare_of_same (h name),
      fun name => not_mem_dropIndexes_compare (h name)⟩

theorem isNone_parameters_compare :
    (old.compare new).parameters.isNone = true ↔ old.parameters = new.parameters := by
  by_cases h : old.parameters = new.parameters <;> simp [compare, h]

/-- Two versions of a table have no difference exactly if they are alike. -/
theorem isEmpty_compare_iff : (old.compare new).isEmpty = true ↔ old.Alike new := by
  have hi := isEmpty_indexes_compare old new
  have ha := isEmpty_add_compare old new
  have hd := isEmpty_drop_compare old new
  have hc := isEmpty_change_compare old new
  have hp := isNone_parameters_compare old new
  simp only [TableDiff.isEmpty, Bool.and_eq_true]
  constructor
  · rintro ⟨⟨⟨⟨⟨hadd, hdrop⟩, hchange⟩, hgone⟩, hnew⟩, hparameters⟩
    exact ⟨fun name => ⟨hd.1 hdrop name, ha.1 hadd name⟩, hc.1 hchange, hi.1 ⟨hgone, hnew⟩,
      hp.1 hparameters⟩
  · intro h
    obtain ⟨hgone, hnew⟩ := hi.2 h.indexes
    exact ⟨⟨⟨⟨⟨ha.2 fun name => (h.columns name).2, hd.2 fun name => (h.columns name).1⟩,
      hc.2 h.definitions⟩, hgone⟩, hnew⟩, hp.2 h.parameters⟩

end Table

/-! ### Schemas -/

namespace Schema

/-- Whether two schemas have tables of the same names, each like the other of its name. -/
structure Alike (a b : Schema) : Prop where
  names : ∀ name, name ∈ a.tables.keys ↔ name ∈ b.tables.keys
  tables : ∀ name t u, a.tables.get? name = some t → b.tables.get? name = some u → t.Alike u

theorem equivalence_alike : Equivalence Alike where
  refl a := by
    constructor
    case names => exact fun _ => Iff.rfl
    case tables =>
      intro name t u ht hu
      obtain rfl := Option.some.inj (ht.symm.trans hu)
      exact Table.equivalence_alike.refl t
  symm := by
    intro a b h
    constructor
    case names => exact fun name => (h.names name).symm
    case tables =>
      exact fun name t u ht hu => Table.equivalence_alike.symm (h.tables name u t hu ht)
  trans := by
    intro a b c hab hbc
    constructor
    case names => exact fun name => (hab.names name).trans (hbc.names name)
    case tables =>
      intro name t v ht hv
      obtain ⟨u, hu⟩ := OrderedMap.mem_keys_iff_get?.1
        ((hab.names name).1 (OrderedMap.mem_keys_iff_get?.2 ⟨t, ht⟩))
      exact Table.equivalence_alike.trans (hab.tables name t u ht hu) (hbc.tables name u v hu hv)

theorem isEmpty_compare_iff (a b : Schema) : (a.compare b).isEmpty = true ↔ a.Alike b := by
  rw [SchemaDiff.isEmpty, OrderedMap.isEmpty_iff]
  simp only [get?_compare]
  constructor
  · intro h
    constructor
    case names =>
      intro name
      have hn := h name
      rw [OrderedMap.mem_keys_iff_get?, OrderedMap.mem_keys_iff_get?]
      cases ha : a.tables.get? name <;> cases hb : b.tables.get? name <;> simp_all
    case tables =>
      intro name t u ht hu
      have hn := h name
      rw [ht, hu] at hn
      rw [← Table.isEmpty_compare_iff]
      simpa using hn
  · intro h name
    have hn := h.names name
    rw [OrderedMap.mem_keys_iff_get?, OrderedMap.mem_keys_iff_get?] at hn
    cases ha : a.tables.get? name with
    | none =>
      cases hb : b.tables.get? name with
      | none => rfl
      | some u => simp [ha, hb] at hn
    | some t =>
      cases hb : b.tables.get? name with
      | none => simp [ha, hb] at hn
      | some u =>
        have he := (Table.isEmpty_compare_iff t u).2 (h.tables name t u ha hb)
        exact if_pos he

/-- Nothing happens to a schema without changes. -/
theorem apply_of_isEmpty {d : SchemaDiff} (h : d.isEmpty = true) (s : Schema) :
    d.apply s = .ok s := by
  rw [SchemaDiff.isEmpty, OrderedMap.isEmpty, List.isEmpty_iff] at h
  rw [SchemaDiff.apply, h]
  rfl

/-- To have no difference is an equivalence of schemas: they have tables of the same names, and
tables of one name have the same columns, indexes in force and parameters. Carrying out such a
difference changes nothing. -/
theorem equivalence_isEmpty_compare :
    Equivalence (fun a b : Schema => (a.compare b).isEmpty = true) ∧
      ∀ a b : Schema, ((a.compare b).isEmpty = true ↔ a.Alike b) ∧
        ((a.compare b).isEmpty = true → (a.compare b).apply a = .ok a) := by
  refine ⟨?_, fun a b => ⟨isEmpty_compare_iff a b, fun h => apply_of_isEmpty h a⟩⟩
  simp only [isEmpty_compare_iff]
  exact equivalence_alike

/-- A key declared by a mark and the same key declared by an index are no difference. -/
example :
    let marked : Table :=
      { name := "t", columns := .ofList [("id", { type := .integer, key := some .primary })] }
    let declared : Table :=
      { name := "t"
        columns := .ofList [("id", { type := .integer })]
        indexes := .ofList [(primaryName, { columns := ["id"] })] }
    ((ofTables [marked]).compare (ofTables [declared])).isEmpty = true := by
  decide

end Schema

end SqlComposer
