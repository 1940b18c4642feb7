import SqlComposer.Proofs.VirtualNames

/-!
# Virtual fields of a select list

A virtual field that is asked for by its name is selected once, as its expression under a name of
its own, and behind the columns. It is selected as a column, too, where another piece asks for all
fields: then all pieces are written as columns, and none is left out.
-/

namespace SqlComposer

open CharClass Identifier

namespace FieldRequest

variable {s : Source} {r : FieldRequest} {p q v sql t : Text}

/-! ### Texts of a select list -/

/-- A requested piece as it is written as a column. -/
def columnText (s : Source) (r : FieldRequest) (piece : Text) : Text :=
  if r.quoting then s.eval (Field.write s.dialect r.aliasName piece) else piece

/-- A virtual field as it is written: its expression in parentheses, under its name behind the
alias. -/
def virtualText (s : Source) (r : FieldRequest) (name sql : Text) : Text :=
  let label := r.aliasName ++ s.separator ++ name
  if r.quoting then "(" ++ quoteFields s.dialect sql ++ ") AS " ++ s.dialect.quoteName label
  else "(" ++ sql ++ ") AS " ++ label

/-- No select list is asked for to write a field. -/
theorem eval_write (d : Dialect) (label field : Text) (onName : Text → Text)
    (onFields onFields' : FieldRequest → List Text) :
    (Field.write d label field).eval onName onFields =
      (Field.write d label field).eval onName onFields' := by
  have hname : ∀ t, (Field.writeName label t).eval onName onFields =
      (Field.writeName label t).eval onName onFields' := by
    intro t
    unfold Field.writeName
    split_ifs <;> rfl
  have hcall : ∀ t, (Field.writeCall d label t).eval onName onFields =
      (Field.writeCall d label t).eval onName onFields' := by
    intro t
    unfold Field.writeCall
    split
    · split_ifs <;> rfl
    · rfl
  unfold Field.write
  dsimp only
  split_ifs
  · rfl
  · rfl
  · exact hcall _
  · split
    · simp only [Render.bind_eq_bind, Render.eval_bind, hname, Render.pure_eq_done,
        Render.eval_done]
    · exact hname _

theorem eval_writeVirtual (s : Source) (r : FieldRequest) (field : Text × Text)
    (onFields : FieldRequest → List Text) :
    (r.writeVirtual s field).eval s.dialect.quoteName onFields =
      r.virtualText s field.1 field.2 := by
  unfold writeVirtual virtualText
  dsimp only
  split_ifs <;> rfl

/-- A select list is its columns and, behind them, its virtual fields, each text once. -/
theorem fieldList_eq (s : Source) (r : FieldRequest) :
    s.fieldList r = ((r.columnPieces s.dialect).map (r.columnText s) ++
      (r.virtualPieces s.dialect).map fun f => r.virtualText s f.1 f.2).eraseDups := by
  have hcolumn : r.columnText s = fun p => if r.quoting then
      (Field.write s.dialect r.aliasName p).eval s.dialect.quoteName (fun _ => []) else p := by
    funext p
    rw [columnText, Source.eval, eval_write s.dialect r.aliasName p _ s.fieldList fun _ => []]
  simp only [Source.fieldList, compose, hcolumn, Render.bind_eq_bind, Render.eval_bind,
    Render.eval_each, Render.pure_eq_done, eval_writeVirtual]
  cases r.quoting with
  | true => simp only [if_true, Render.eval_bind, Render.eval_each, Render.eval_done]
  | false =>
    simp only [Bool.false_eq_true, if_false, Render.eval_bind, Render.eval_done, List.map_id']

/-! ### What is selected -/

/-- The pieces are trimmed. -/
theorem trim_of_mem_pieces {d : Dialect} (hp : p ∈ r.pieces d) : Text.trim p = p := by
  obtain ⟨t, -, ht⟩ := List.mem_flatMap.1 hp
  obtain ⟨x, -, rfl⟩ := List.mem_map.1 (List.mem_of_mem_filter ht)
  exact Text.trim_trim x

/-- Whether a piece asks for all fields of a model. -/
def IsWildcard (own p : Text) : Prop :=
  p = ['*'] ∨ p = Field.qualify own ['*']

theorem wantsAll_iff {ps : List Text} (hp : p ∈ ps) :
    r.wantsAll ps = true ↔ ∃ q ∈ ps, IsWildcard r.modelAlias q := by
  have hne : ps.isEmpty = false := List.isEmpty_eq_false_iff.2 (List.ne_nil_of_mem hp)
  simp [wantsAll, hne, IsWildcard]

/-- Where pieces are asked for, those that name virtual fields are columns only if all fields are
asked for. -/
theorem mem_columnPieces {d : Dialect} (hp : p ∈ r.pieces d) :
    q ∈ r.columnPieces d ↔ q ∈ r.pieces d ∧
      ((∃ q' ∈ r.pieces d, IsWildcard r.modelAlias q') ∨ r.isVirtual q = false) := by
  have hne : (r.pieces d).isEmpty = false := List.isEmpty_eq_false_iff.2 (List.ne_nil_of_mem hp)
  rw [← wantsAll_iff hp, columnPieces, hne]
  simp only [Bool.false_eq_true, if_false]
  split_ifs with hall
  · simp [hall]
  · simp [hall, List.mem_filter]

theorem mem_virtualPieces {d : Dialect} {w : Text} : (w, sql) ∈ r.virtualPieces d ↔
    w ∈ r.virtualNames d ∧ r.virtualFields.get? w = some sql := by
  simp only [virtualPieces, List.mem_filterMap, Option.map_eq_some_iff, Prod.mk.injEq]
  constructor
  · rintro ⟨_, hw, _, hsql, rfl, rfl⟩
    exact ⟨hw, hsql⟩
  · rintro ⟨hw, hsql⟩
    exact ⟨w, hw, sql, hsql, rfl, rfl⟩

/-- A virtual field that a piece names is selected. -/
theorem mem_virtualNames {d : Dialect} (hsql : r.virtualFields.get? v = some sql)
    (hp : p ∈ r.pieces d) (hname : Model.localNameOf r.modelAlias p = some v)
    (hlast : Text.afterLastDot p = v) : v ∈ r.virtualNames d := by
  have hvirtual : r.isVirtual p = true := by
    rw [isVirtual, Model.virtualFieldOf, hname, Option.bind_some, hsql]
    rfl
  rw [virtualNames]
  split_ifs
  · exact OrderedMap.mem_keys_iff_get?.2 ⟨sql, hsql⟩
  · exact List.mem_map.2 ⟨p, List.mem_filter.2 ⟨hp, hvirtual⟩, hlast⟩

/-- The columns of a select list and, behind them, those of its virtual fields that are not written
like a column. -/
theorem fieldList_eq_append (s : Source) (r : FieldRequest) :
    ∃ columns virtuals, s.fieldList r = columns ++ virtuals ∧
      (∀ t, t ∈ columns ↔ ∃ q ∈ r.columnPieces s.dialect, r.columnText s q = t) ∧
      ∀ t ∈ virtuals, t ∉ columns ∧ ∃ w sql, r.virtualFields.get? w = some sql ∧
        t = r.virtualText s w sql := by
  rw [fieldList_eq, List.eraseDups_append]
  refine ⟨_, _, rfl, fun t => by rw [List.mem_eraseDups, List.mem_map], fun t ht => ?_⟩
  rw [List.mem_eraseDups, List.removeAll, List.mem_filter, List.mem_map] at ht
  obtain ⟨⟨⟨w, sql⟩, hmem, rfl⟩, hnot⟩ := ht
  refine ⟨fun hc => ?_, w, sql, (mem_virtualPieces.1 hmem).2, rfl⟩
  rw [List.mem_eraseDups] at hc
  simp [hc] at hnot

end FieldRequest

open FieldRequest in
/-- A virtual field that a piece names is selected once, as its expression, and virtual fields come
behind the columns. What is written as columns are the pieces that do not name virtual fields, or
all pieces where one of them is a wildcard. So the virtual field is among the columns exactly if
there is a wildcard, or another piece is written in the same way. -/
theorem Source.fields_virtual (s : Source) (m : Model) (label : Option Text) (requested : List Text)
    (quoting : Bool) {v sql p : Text} (hv : isIdentifier v = true)
    (hsql : m.virtualFields.get? v = some sql)
    (hp : p ∈ requested.flatMap (Token.splitTopLevel s.dialect))
    (hname : p = v ∨ '.' ∉ m.aliasName ∧ p = Field.qualify m.aliasName v) :
    let r := m.fieldRequest label requested quoting
    let pieces := requested.flatMap (Token.splitTopLevel s.dialect)
    let fields := s.eval (s.fields m label requested quoting)
    let wildcard := ∃ q ∈ pieces, IsWildcard m.aliasName q
    fields.count (r.virtualText s v sql) = 1 ∧
      ∃ columns virtuals, fields = columns ++ virtuals ∧
        (∀ t ∈ virtuals, t ∉ columns ∧ ∃ w sql', m.virtualFields.get? w = some sql' ∧
          t = r.virtualText s w sql') ∧
        (∀ t, t ∈ columns ↔ ∃ q ∈ pieces, (wildcard ∨ m.isVirtualField q = false) ∧
          r.columnText s q = t) ∧
        (r.columnText s p ∈ columns ↔ wildcard ∨
          ∃ q ∈ pieces, m.isVirtualField q = false ∧ r.columnText s q = r.columnText s p) := by
  intro r pieces fields wildcard
  have htrim : Text.trim p = p := trim_of_mem_pieces (r := r) hp
  have hdot : '.' ∉ v := Model.dot_not_mem hv
  have hlocal : Model.localNameOf m.aliasName p = some v ∧ Text.afterLastDot p = v := by
    rcases hname with rfl | ⟨ha, rfl⟩
    · exact ⟨Model.localNameOf_bare htrim hdot, Text.afterLastDot_bare hdot⟩
    · exact ⟨Model.localNameOf_qualify htrim ha, Text.afterLastDot_qualify hdot⟩
  have hfields : fields = s.fieldList r := rfl
  have hcolumnPieces : ∀ q, q ∈ r.columnPieces s.dialect ↔
      q ∈ pieces ∧ (wildcard ∨ m.isVirtualField q = false) := fun q => mem_columnPieces hp
  constructor
  · have hentry : (v, sql) ∈ r.virtualPieces s.dialect :=
      mem_virtualPieces.2 ⟨mem_virtualNames hsql hp hlocal.1 hlocal.2, hsql⟩
    rw [hfields, fieldList_eq]
    refine List.count_eq_one_of_mem (nodup_eraseDups _) (List.mem_eraseDups.2 ?_)
    exact List.mem_append_right _ (List.mem_map.2 ⟨_, hentry, rfl⟩)
  · obtain ⟨columns, virtuals, happ, hcolumns, hvirtuals⟩ := fieldList_eq_append s r
    have hmem : ∀ t, t ∈ columns ↔ ∃ q ∈ pieces, (wildcard ∨ m.isVirtualField q = false) ∧
        r.columnText s q = t := by
      intro t
      rw [hcolumns]
      simp only [hcolumnPieces, and_assoc]
    refine ⟨columns, virtuals, hfields.trans happ, hvirtuals, hmem, ?_⟩
    rw [hmem]
    constructor
    · rintro ⟨q, hq, hw | hn, ht⟩
      · exact .inl hw
      · exact .inr ⟨q, hq, hn, ht⟩
    · rintro (hw | ⟨q, hq, hn, ht⟩)
      · exact ⟨p, hp, .inl hw, rfl⟩
      · exact ⟨q, hq, .inr hn, ht⟩

/-- The virtual field is asked for twice, in both spellings. -/
theorem Source.fields_virtual_twice :
    let s : Source := {}
    let posts : Model := { name := "Post", virtualFields := .ofList [("two", "1 + 1")] }
    let requested : List Text := ["two", "Post.title, Post.two"]
    let entry : Text := "(1 + 1) AS \x60Post__two\x60"
    isIdentifier "two" = true ∧ posts.virtualFields.get? "two" = some "1 + 1".toList ∧
      "Post.two".toList ∈ requested.flatMap (Token.splitTopLevel s.dialect) ∧
      '.' ∉ posts.aliasName ∧
      s.eval (s.fields posts none requested true) = ["\x60Post\x60.\x60title\x60".toList, entry] ∧
      (s.eval (s.fields posts none requested true)).count entry = 1 := by
  intro s posts requested entry
  have hv : isIdentifier "two" = true := by decide
  have hsql : posts.virtualFields.get? "two" = some "1 + 1".toList := by decide
  have hp : "Post.two".toList ∈ requested.flatMap (Token.splitTopLevel s.dialect) := by
    decide +kernel
  have ha : '.' ∉ posts.aliasName := by decide
  have hentry : (posts.fieldRequest none requested true).virtualText s "two" "1 + 1" = entry := by
    decide +kernel
  have hcount := (s.fields_virtual posts none requested true hv hsql hp (.inr ⟨ha, rfl⟩)).1
  rw [hentry] at hcount
  exact ⟨hv, hsql, hp, ha, by decide +kernel, hcount⟩

/-- Next to a wildcard a virtual field is selected as a column, which need not exist. -/
theorem Source.wildcard_selects_virtual_column :
    let s : Source := {}
    let posts : Model := { name := "Post", virtualFields := .ofList [("two", "1 + 1")] }
    let requested : List Text := ["*", "two"]
    isIdentifier "two" = true ∧ posts.virtualFields.get? "two" = some "1 + 1".toList ∧
      "two".toList ∉ posts.columns.keys ∧
      "two".toList ∈ requested.flatMap (Token.splitTopLevel s.dialect) ∧
      s.eval (s.fields posts none requested true) =
        ["*".toList, "\x60Post\x60.\x60two\x60".toList, "(1 + 1) AS \x60Post__two\x60".toList] ∧
      (posts.fieldRequest none requested true).columnText s "two" ∈
        s.eval (s.fields posts none requested true) := by
  decide +kernel

end SqlComposer
