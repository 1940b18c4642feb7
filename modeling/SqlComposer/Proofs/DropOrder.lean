import SqlComposer.Proofs.Fragment
import SqlComposer.Proofs.MigrationScript

/-!
# Dropped columns and the indexes that cover them

When a new version of a table is without a column, the indexes that covered it are gone or are other
ones. Where a migration has several steps, it drops the column first and these indexes behind it, so
that an index comes before a column that it covers only if no such column is dropped.
-/

namespace SqlComposer

/-! ### One thing behind another -/

/-- Two items of two lists are both in one of them, or one in each. -/
theorem pair_sublist_append_cases {α : Type} {a b : α} {as bs : List α}
    (h : [a, b].Sublist (as ++ bs)) :
    [a, b].Sublist as ∨ a ∈ as ∧ b ∈ bs ∨ [a, b].Sublist bs := by
  obtain ⟨first, second, he, hf, hs⟩ := List.sublist_append_iff.1 h
  rw [List.cons_eq_append_iff] at he
  rcases he with ⟨rfl, rfl⟩ | ⟨rest, rfl, he⟩
  · exact .inr (.inr hs)
  · rw [List.cons_eq_append_iff] at he
    rcases he with ⟨rfl, rfl⟩ | ⟨rest', rfl, he⟩
    · exact .inr (.inl ⟨List.singleton_sublist.1 hf, List.singleton_sublist.1 hs⟩)
    · obtain ⟨rfl, -⟩ := List.append_eq_nil_iff.1 he.symm
      exact .inl hf

/-- Two items of a list without repetitions stand in one order only. -/
theorem not_sublist_swap {α : Type} {a b : α} {l : List α} (hl : l.Nodup)
    (h : [a, b].Sublist l) : ¬[b, a].Sublist l := by
  obtain ⟨front, back, rfl, ha, hb⟩ := List.cons_sublist_iff.1 h
  have hdisjoint := List.disjoint_of_nodup_append hl
  have hb := List.singleton_sublist.1 hb
  intro hswap
  rcases pair_sublist_append_cases hswap with hfront | ⟨hfront, -⟩ | hback
  · exact hdisjoint (hfront.subset List.mem_cons_self) hb
  · exact hdisjoint hfront hb
  · exact hdisjoint ha (hback.subset (List.mem_cons_of_mem _ (List.mem_singleton_self a)))

namespace Text

variable {a b t u sep : Text} {ts us : List Text}

/-- Whether a text stands in another one and a second text behind it. -/
def InOrder (a b t : Text) : Prop :=
  ∃ front middle back, t = front ++ a ++ middle ++ b ++ back

theorem InOrder.of_isInfix (h : InOrder a b t) (ht : t <:+: u) : InOrder a b u := by
  obtain ⟨front, middle, back, rfl⟩ := h
  obtain ⟨before, after, rfl⟩ := ht
  exact ⟨before ++ front, middle, back ++ after, by simp only [List.append_assoc]⟩

theorem inOrder_append (ha : a <:+: t) (hb : b <:+: u) (sep : Text) :
    InOrder a b (t ++ sep ++ u) := by
  obtain ⟨p, q, rfl⟩ := ha
  obtain ⟨p', q', rfl⟩ := hb
  exact ⟨p, q ++ sep ++ p', q', by simp only [List.append_assoc]⟩

/-- Texts of two rows of texts are in order when the rows are joined. -/
theorem inOrder_join_append (sep : Text) (ht : t ∈ ts) (ha : a <:+: t) (hu : u ∈ us)
    (hb : b <:+: u) : InOrder a b (join sep (ts ++ us)) := by
  rw [join_append sep (List.ne_nil_of_mem ht) (List.ne_nil_of_mem hu)]
  exact inOrder_append (ha.trans (isInfix_join sep ht)) (hb.trans (isInfix_join sep hu)) sep

end Text

/-! ### Columns under an index -/

namespace Table

variable {old new t : Table} {index column : Text}

/-- Whether an index in force has a column among its own. -/
def Covers (t : Table) (index column : Text) : Prop :=
  ∃ i, t.effectiveIndexes.get? index = some i ∧ column ∈ i.columns

theorem Covers.mem_keys (ht : t.Valid) (h : t.Covers index column) : column ∈ t.columns.keys := by
  obtain ⟨i, hi, hc⟩ := h
  by_cases hn : index = primaryName
  · subst hn
    exact mem_keys_of_primaryKey ht hi hc
  · rw [get?_effectiveIndexes_of_ne t hn] at hi
    exact ht.indexColumns index i hi column hc

/-- An index that covers a column does not stay as it is when the column goes. -/
theorem Covers.mem_dropIndexes (hnew : new.Valid) (h : old.Covers index column)
    (hc : column ∉ new.columns.keys) : index ∈ (old.compare new).dropIndexes := by
  obtain ⟨i, hi, hm⟩ := h
  rw [mem_dropIndexes_compare]
  refine ⟨i, hi, ?_⟩
  cases hj : new.effectiveIndexes.get? index with
  | none => rfl
  | some j =>
    rw [← Bool.not_eq_true]
    intro hs
    have hcolumns : j.columns = i.columns := (Index.agrees_iff.1 hs).1
    exact hc (Covers.mem_keys hnew ⟨j, hj, hcolumns ▸ hm⟩)

end Table

/-! ### The order of the steps -/

theorem TableDiff.dropColumn_dropIndex_sublist_script {d : TableDiff} {column index : Text}
    (hc : column ∈ d.drop) (hi : index ∈ d.dropIndexes) (dialect : Dialect) :
    [.dropColumn column, .dropIndex index].Sublist (d.script dialect) := by
  apply pair_sublist_script
  · have hbefore : TableStep.dropColumn column ∈
        d.add.entries.map (fun e => TableStep.addColumn e.1 e.2) ++ d.drop.map .dropColumn ++
          d.change.entries.map fun e => .changeColumn e.1 e.2 := by
      simp [hc]
    have hsteps := pair_sublist_append hbefore (List.mem_map_of_mem (f := TableStep.dropIndex) hi)
    exact (hsteps.trans (List.sublist_append_left _ _)).trans (List.sublist_append_left _ _)
  · intro h
    simp only [TableStep.isItem, Bool.or_eq_true, Bool.and_eq_true] at h ⊢
    exact h.imp_right And.left

namespace Source

variable {s : Source} {D : SchemaDiff} {d : TableDiff} {old new : Table} {table : Option Text}
  {name sql column index a b : Text}

theorem mem_texts {steps : List TableStep} {x : TableStep} (hm : x ∈ steps)
    (hx : s.stepTexts name d x = [a]) : a ∈ steps.flatMap (s.stepTexts name d) :=
  List.mem_flatMap.2 ⟨x, hm, hx ▸ List.mem_singleton_self a⟩

/-- Steps in order are in order among texts that follow others. -/
theorem inOrder_texts {steps : List TableStep} {x y : TableStep} (h : [x, y].Sublist steps)
    (hx : s.stepTexts name d x = [a]) (hy : s.stepTexts name d y = [b]) (sep : Text)
    (before : List Text) :
    Text.InOrder a b (Text.join sep (before ++ steps.flatMap (s.stepTexts name d))) := by
  obtain ⟨first, rest, rfl, hfirst, hrest⟩ := List.cons_sublist_iff.1 h
  rw [List.flatMap_append, ← List.append_assoc]
  exact Text.inOrder_join_append sep (List.mem_append_right _ (mem_texts hfirst hx)) List.infix_rfl
    (mem_texts (List.singleton_sublist.1 hrest) hy) List.infix_rfl

theorem isInfix_alterStatement (table : Text) (items : List Text) :
    Text.join ",\n\t" items <:+: alterStatement table items :=
  isInfix_left (isInfix_right List.infix_rfl _) _

/-- Steps that are written as one text each are written in their order. -/
theorem inOrder_scriptText {x y : TableStep} (h : [x, y].Sublist (d.script s.dialect))
    (hx : s.stepTexts name d x = [a]) (hy : s.stepTexts name d y = [b]) :
    Text.InOrder a b (s.scriptText name d) := by
  have hitems (hm : a ∈ (d.items s.dialect).flatMap (s.stepTexts name d)) :
      ((d.items s.dialect).flatMap (s.stepTexts name d)).isEmpty = false := by
    rw [← Bool.not_eq_true, List.isEmpty_iff]
    exact List.ne_nil_of_mem hm
  unfold scriptText
  dsimp only
  rcases pair_sublist_append_cases h with h | ⟨hitem, hstatement⟩ | h
  · have ha := mem_texts (h.subset List.mem_cons_self) hx
    rw [hitems ha]
    have horder := inOrder_texts h hx hy ",\n\t" []
    exact (horder.of_isInfix (isInfix_alterStatement _ _)).of_isInfix
      (Text.isInfix_join _ (List.mem_append_left _ (List.mem_singleton_self _)))
  · have ha := mem_texts hitem hx
    rw [hitems ha]
    exact Text.inOrder_join_append _ (List.mem_singleton_self _)
      ((Text.isInfix_join _ ha).trans (isInfix_alterStatement _ _)) (mem_texts hstatement hy)
      List.infix_rfl
  · exact inOrder_texts h hx hy _ _

theorem exists_stepTexts_dropColumn (name : Text) (d : TableDiff) (column : Text) :
    ∃ a, s.stepTexts name d (.dropColumn column) = [a] := by
  unfold stepTexts
  cases s.dialect <;> exact ⟨_, rfl⟩

theorem exists_stepTexts_dropIndex (name : Text) (d : TableDiff) (index : Text) :
    ∃ a, s.stepTexts name d (.dropIndex index) = [a] := by
  unfold stepTexts
  cases s.dialect with
  | postgreSql =>
    simp only [eval_postgreSqlDropIndex]
    split <;> exact ⟨_, rfl⟩
  | mySql => exact ⟨_, rfl⟩
  | sqlServer => exact ⟨_, rfl⟩
  | sqlite => exact ⟨_, rfl⟩

/-! ### Columns before indexes -/

theorem isInfix_join_filter (front back : List Text) (t : Text) :
    t <:+: Text.join "\n\n" ((front ++ t :: back).filter (!·.isEmpty)) := by
  by_cases ht : t = []
  · exact ht ▸ List.nil_infix
  · apply Text.isInfix_join
    simp [ht]

/-- An index that covers a dropped column is dropped as well, and behind that column. So indexes go
before the columns that they cover exactly if no covered column goes. -/
theorem dropIndex_precedes_dropColumn_iff (hold : old.validate = .ok ())
    (hnew : new.validate = .ok ())
    (hd : D.tables.get? name = some (.alter (old.compare new)))
    (ht : table = none ∨ table = some name)
    (h : s.eval (s.alterSchema D table).run = .ok sql) :
    (∃ front back : List Text, sql = Text.join "\n\n"
        ((front ++ s.scriptText name (old.compare new) :: back).filter (!·.isEmpty))) ∧
      ((old.compare new).script s.dialect).Nodup ∧
      (∀ index column, old.Covers index column → column ∉ new.columns.keys →
        column ∈ (old.compare new).drop ∧ index ∈ (old.compare new).dropIndexes ∧
          [.dropColumn column, .dropIndex index].Sublist ((old.compare new).script s.dialect) ∧
          ∃ a b, s.stepTexts name (old.compare new) (.dropColumn column) = [a] ∧
            s.stepTexts name (old.compare new) (.dropIndex index) = [b] ∧ Text.InOrder a b sql) ∧
      ((∀ index column, old.Covers index column → index ∈ (old.compare new).dropIndexes →
          column ∈ (old.compare new).drop →
          [.dropIndex index, .dropColumn column].Sublist ((old.compare new).script s.dialect)) ↔
        ∀ index column, old.Covers index column → column ∈ new.columns.keys) := by
  have hold := Table.validate_eq_ok_iff.1 hold
  have hnew := Table.validate_eq_ok_iff.1 hnew
  obtain ⟨-, hsql⟩ := scriptText_of_alterSchema (Table.primaryFirst_compare old new) hd ht h
  have hnodup : ((old.compare new).script s.dialect).Nodup :=
    ((old.compare new).script_perm_steps s.dialect).nodup_iff.2 (Table.nodup_steps_compare old new)
  -- An index cannot outlive a column that it covers: the new version would name a missing column.
  have hbehind : ∀ index column, old.Covers index column → column ∉ new.columns.keys →
      column ∈ (old.compare new).drop ∧ index ∈ (old.compare new).dropIndexes := by
    intro index column hcovers hc
    exact ⟨(Table.mem_drop_compare old new column).2 ⟨hcovers.mem_keys hold, hc⟩,
      hcovers.mem_dropIndexes hnew hc⟩
  refine ⟨hsql, hnodup, ?_, ?_⟩
  · intro index column hcovers hc
    obtain ⟨hdrop, hindex⟩ := hbehind index column hcovers hc
    have horder := TableDiff.dropColumn_dropIndex_sublist_script hdrop hindex s.dialect
    obtain ⟨a, ha⟩ := exists_stepTexts_dropColumn (s := s) name (old.compare new) column
    obtain ⟨b, hb⟩ := exists_stepTexts_dropIndex (s := s) name (old.compare new) index
    refine ⟨hdrop, hindex, horder, a, b, ha, hb, ?_⟩
    obtain ⟨front, back, rfl⟩ := hsql
    exact (inOrder_scriptText horder ha hb).of_isInfix (isInfix_join_filter _ _ _)
  · constructor
    · intro hfirst index column hcovers
      by_contra hc
      obtain ⟨hdrop, hindex⟩ := hbehind index column hcovers hc
      exact not_sublist_swap hnodup
        (TableDiff.dropColumn_dropIndex_sublist_script hdrop hindex s.dialect)
        (hfirst index column hcovers hindex hdrop)
    · intro hkept index column hcovers _ hdrop
      exact absurd (hkept index column hcovers) ((Table.mem_drop_compare old new column).1 hdrop).2

/-- An index on two columns, of which one goes and the index stays on the other. -/
theorem dropIndex_precedes_dropColumn_iff_replaced :
    let old : Table :=
      { name := "t"
        columns := .ofList [("id", { type := .integer }), ("legacy", { type := .text })]
        indexes := .ofList [("by_both", { columns := ["id", "legacy"] })] }
    let new : Table :=
      { name := "t"
        columns := .ofList [("id", { type := .integer })]
        indexes := .ofList [("by_both", { columns := ["id"] })] }
    let D : SchemaDiff := ⟨.ofList [("t", .alter (old.compare new))]⟩
    let s : Source := { dialect := .sqlite }
    let sql : Text := "ALTER TABLE \"t\" DROP COLUMN \"legacy\";\nDROP INDEX \"by_both\";\n" ++
      "CREATE INDEX \"by_both\" ON \"t\" (\"id\");"
    old.validate = .ok () ∧ new.validate = .ok () ∧
      D.tables.get? "t" = some (.alter (old.compare new)) ∧
      s.eval (s.alterSchema D none).run = .ok sql ∧
      ∃ a b, s.stepTexts "t" (old.compare new) (.dropColumn "legacy") = [a] ∧
        s.stepTexts "t" (old.compare new) (.dropIndex "by_both") = [b] ∧ Text.InOrder a b sql := by
  intro old new D s sql
  have hold : old.validate = .ok () := by decide
  have hnew : new.validate = .ok () := by decide
  have hd : D.tables.get? "t" = some (.alter (old.compare new)) := by decide +kernel
  have hsql : s.eval (s.alterSchema D none).run = .ok sql := by decide +kernel
  obtain ⟨-, -, hbehind, -⟩ := dropIndex_precedes_dropColumn_iff hold hnew hd (.inl rfl) hsql
  have hcovers : old.Covers "by_both" "legacy" :=
    ⟨{ columns := ["id", "legacy"] }, by decide, by decide⟩
  obtain ⟨-, -, -, hordered⟩ := hbehind _ _ hcovers (by decide)
  exact ⟨hold, hnew, hd, hsql, hordered⟩

/-- A column that goes together with its index goes first. -/
theorem index_behind_its_column :
    let old : Table :=
      { name := "t"
        columns := .ofList [("id", { type := .integer }), ("legacy", { type := .text })]
        indexes := .ofList [("by_legacy", { columns := ["legacy"] })] }
    let new : Table := { name := "t", columns := .ofList [("id", { type := .integer })] }
    let d := old.compare new
    let D := (Schema.ofTables [old]).compare (Schema.ofTables [new])
    let postgreSql : Source := { dialect := .postgreSql }
    let sqlServer : Source := { dialect := .sqlServer }
    let sqlite : Source := { dialect := .sqlite }
    old.validate = .ok () ∧ new.validate = .ok () ∧
      old.Covers "by_legacy" "legacy" ∧ d.dropIndexes = ["by_legacy".toList] ∧
      d.drop = ["legacy".toList] ∧
      (∀ dialect, ¬[.dropIndex "by_legacy", .dropColumn "legacy"].Sublist (d.script dialect)) ∧
      postgreSql.eval (postgreSql.alterSchema D none).run =
        .ok "ALTER TABLE \"t\"\n\tDROP COLUMN \"legacy\";\nDROP INDEX \"by_legacy\";" ∧
      sqlServer.eval (sqlServer.alterSchema D none).run =
        .ok "ALTER TABLE [t] DROP COLUMN [legacy];\nDROP INDEX [by_legacy] ON [t];" ∧
      sqlite.eval (sqlite.alterSchema D none).run =
        .ok "ALTER TABLE \"t\" DROP COLUMN \"legacy\";\nDROP INDEX \"by_legacy\";" := by
  intro old new d D postgreSql sqlServer sqlite
  have hcovers : old.Covers "by_legacy" "legacy" :=
    ⟨{ columns := ["legacy"] }, by decide, by decide⟩
  have horder : ∀ dialect,
      ¬[.dropIndex "by_legacy", .dropColumn "legacy"].Sublist (d.script dialect) := by
    intro dialect
    cases dialect <;> decide
  refine ⟨by decide, by decide, hcovers, by decide, by decide, horder, ?_, ?_, ?_⟩
  · decide +kernel
  · decide +kernel
  · decide +kernel

end Source

end SqlComposer
