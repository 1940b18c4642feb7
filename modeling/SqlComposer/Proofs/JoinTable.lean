import SqlComposer.Proofs.Membership

/-!
# The table in between

The follow-up query for an association by way of a table in between joins that table and refers to
two of its columns. They are qualified by the alias of the table, or else by its name with a prefix
in front: that of the owner, whereas the join writes the prefix of the data source. So the columns
are those of the joined table exactly if it has an alias, or the two prefixes are the same.
-/

namespace SqlComposer

open CharClass Identifier

/-! ### Paths between quotes -/

namespace Identifier

variable {d : Dialect} {p q name : Text}

/-- A path with a word behind it. -/
theorem IsPath.qualify (hp : IsPath p) (hn : isWord name = true) :
    IsPath (Field.qualify p name) := by
  intro w hw
  rw [Field.qualify, Text.splitBy_append_cons rfl, splitBy_of_isWord hn] at hw
  rcases List.mem_append.1 hw with hw | hw
  · exact hp w hw
  · rwa [List.mem_singleton.1 hw]

theorem IsPath.quoteName_qualify (d : Dialect) (hp : IsPath p) (hn : isWord name = true) :
    d.quoteName (Field.qualify p name) = d.quoteName p ++ "." ++ d.quote name := by
  rw [d.quoteName_of_isPath (hp.qualify hn), d.quoteName_of_isPath hp, Field.qualify,
    Text.splitBy_append_cons rfl, splitBy_of_isWord hn, List.map_append, List.map_singleton,
    Text.join_append _ _ (List.cons_ne_nil _ _), Text.join_singleton]
  · rfl
  · exact mt List.map_eq_nil_iff.1 (Text.splitBy_ne_nil _ _)

theorem quoteName_of_isIdentifier (d : Dialect) (h : isIdentifier p = true) :
    d.quoteName p = d.quote p := by
  have hw := isWord_of_isIdentifier h
  rw [d.quoteName_of_isPath (isPath_of_isWord hw), splitBy_of_isWord hw, List.map_singleton,
    Text.join_singleton]

/-- The quotes of a path can be left out again. -/
theorem filter_quoteName (d : Dialect) (hp : IsPath p) :
    (d.quoteName p).filter isPathChar = p := by
  have hs := isPathChar_startQuote d
  have he := isPathChar_endQuote d
  have hall : ∀ t : Text, (∀ c ∈ t, isPathChar c = true) →
      (Text.join ['.'] ((Text.splitBy (· == '.') t).map d.quote)).filter isPathChar = t := by
    intro t
    induction t with
    | nil => simp [Text.splitBy, Dialect.quote, hs, he]
    | cons c t ih =>
      intro h
      obtain ⟨hc, ht⟩ := List.forall_mem_cons.1 h
      have ih := ih ht
      obtain ⟨w, ws, hw⟩ := List.exists_cons_of_ne_nil (Text.splitBy_ne_nil (· == '.') t)
      rw [hw] at ih
      rw [Text.splitBy, hw]
      split_ifs with hdot
      · obtain rfl : c = '.' := beq_iff_eq.1 hdot
        simpa [Text.join_cons_cons, Dialect.quote, hs, he, hc] using ih
      · cases ws <;> simpa [Text.join_cons_cons, Dialect.quote, hs, he, hc] using ih
  rw [d.quoteName_of_isPath hp]
  exact hall p fun _ => hp.isPathChar

theorem IsPath.quoteName_inj (hp : IsPath p) (hq : IsPath q) :
    d.quoteName p = d.quoteName q ↔ p = q := by
  refine ⟨fun h => ?_, fun h => h ▸ rfl⟩
  rw [← filter_quoteName d hp, h, filter_quoteName d hq]

theorem IsPath.quoteName_ne_null (d : Dialect) (hp : IsPath p) :
    (d.quoteName p == "NULL") = false := by
  have hhead := d.head?_quoteName hp
  have hstart : d.startQuote ≠ 'N' := by cases d <;> decide
  by_contra hn
  rw [Bool.not_eq_false, beq_iff_eq] at hn
  rw [hn] at hhead
  exact hstart (Option.some.inj hhead).symm

end Identifier

/-! ### The condition of the join -/

namespace Condition

variable {sc : Scope} {f g : Text}

/-- Two fields are compared by an equals sign. -/
theorem comparisonText_identifier (hf : IsPath f) (hd : '.' ∈ f) (hq : sc.quoting = true)
    (hm : sc.model = none) (hg : IsPath g) :
    comparisonText sc f (.one (.identifier g)) =
      sc.source.dialect.quoteName f ++ " = " ++ sc.source.dialect.quoteName g := by
  have hv : sc.virtualField f = none := by rw [Scope.virtualField, hm]; rfl
  have hfield : sc.source.eval (sc.fieldOrVirtual f) = sc.source.dialect.quoteName f := by
    rw [Scope.fieldOrVirtual_of_isPath hf hq hv]
    rfl
  have hwritten : sc.source.eval (write sc (sc.columnType f) (.one (.identifier g))) =
      .one (sc.source.dialect.quoteName g) := by
    rw [eval_write_one]
    rfl
  have hmissing : ¬(isMissing (.one (.identifier g)) ||
      sc.source.dialect.quoteName g == "NULL") = true := by
    rw [hg.quoteName_ne_null, Bool.or_false]
    exact Bool.false_ne_true
  have hop : effectiveOperator [] false = "=".toList := by decide
  rw [comparisonText_of_isListKey hf (Key.isConnective_of_dot hf hd) (.inl ⟨rfl, rfl⟩) rfl, hfield,
    hwritten, compareText, if_neg hmissing, hop]
  simp

end Condition

/-! ### The join -/

namespace Source

variable {s : Source} {table : Text}

/-- What stands in front of the quoted name of a table: its schema, if there is one and the name has
no dot. -/
def schemaPart (s : Source) (table : Text) : Text :=
  match s.schema with
  | some schema =>
    if !schema.isEmpty && !table.contains '.' then s.dialect.quoteName schema ++ "." else []
  | none => []

theorem eval_tableName (s : Source) (table : Text) :
    s.eval (s.tableName table none none) =
      s.schemaPart (s.tablePrefix ++ table) ++ s.dialect.quoteName (s.tablePrefix ++ table) := by
  rw [tableName, schemaPart, Option.none_or, Option.getD_none]
  cases s.schema with
  | none => rfl
  | some schema =>
    dsimp only
    split <;> rfl

/-- A table whose name with the prefix is a path is neither a subquery nor in quotes. -/
theorem not_decorated (hp : IsPath (s.tablePrefix ++ table)) :
    ¬(table.head? == some '(' || s.dialect.opensQuoted table) = true := by
  have hhead : ∀ e, isPathChar e = false → (table.head? == some e) = false := by
    intro e he
    rw [beq_eq_false_iff_ne]
    intro hn
    exact hp.not_mem he (List.mem_append_right _ (List.mem_of_head? hn))
  rw [Dialect.opensQuoted, hhead '(' (by decide), hhead _ (isPathChar_startQuote s.dialect)]
  exact Bool.false_ne_true

/-- A join without a kind, on a condition. -/
theorem eval_join (hp : IsPath (s.tablePrefix ++ table)) (label : Option Text) {c : Condition}
    (hc : c.isEmpty = false) :
    s.eval (s.join { table, aliasName := label, conditions := c }) =
      "JOIN " ++ s.schemaPart (s.tablePrefix ++ table) ++
        s.dialect.quoteName (s.tablePrefix ++ table) ++
        (match label with
          | some label => " AS " ++ s.dialect.quoteName label
          | none => [] : Text) ++
        " ON (" ++ Text.trim (s.eval (s.conditions c true false none)) ++ ")" := by
  have hkind : Text.trim ((none : Option Text).getD []) = [] := rfl
  have hon : (!Text.sameLetters [] "CROSS" && !c.isEmpty) = true := by
    rw [hc]
    decide
  simp only [join, if_neg (not_decorated hp), hkind, hon, if_true]
  cases label <;>
    simp only [eval_bind, eval_pure, eval_ask, eval_tableName] <;>
    simp [Text.unwords, Text.join_cons_cons]

end Source

/-! ### The query -/

namespace Association

variable (a : Association) (s : Source) (owner link : Model)

/-- The name under which the join brings in the table in between: its alias, or else its name with
the prefix of the data source. -/
def joinedName : Text :=
  a.through.getD (s.tablePrefix ++ a.resolvedJoinTable owner link)

/-- What stands between `JOIN` and this name. -/
def joinLead : Text :=
  let table := s.tablePrefix ++ a.resolvedJoinTable owner link
  match a.through with
  | some _ => s.schemaPart table ++ s.dialect.quoteName table ++ " AS "
  | none => s.schemaPart table

/-- A column of the table in between as the join refers to it. -/
def tieColumn (key : Text) : Text :=
  s.dialect.quoteName (a.tieAlias s owner link) ++ "." ++ s.dialect.quote key

/-- The condition of the join: one column of the table in between is compared with the marker, and
one with the primary key of the associated model. -/
def tieCondition : Text :=
  Condition.tieText (a.tieColumn s owner link (a.resolvedForeignKey owner)) ++ " AND " ++
    a.tieColumn s owner link a.resolvedTargetKey ++ " = " ++
    s.dialect.quote a.aliasName ++ "." ++ s.dialect.quote link.primaryKey

/-- The join of the follow-up query with the table in between. -/
def joinText : Text :=
  "JOIN " ++ a.joinLead s owner link ++ s.dialect.quoteName (a.joinedName s owner link) ++
    " ON (" ++ a.tieCondition s owner link ++ ")"

variable {a s owner link}

/-- Both columns of the table in between are compared in the constraint of a follow-up query. -/
theorem constraint_of_manyToMany (link : Model) (hk : a.kind = .manyToMany) (joinAlias : Text)
    (hn : isIdentifier (a.resolvedForeignKey owner) = true) :
    a.constraint owner link joinAlias true =
      .ok (.entries
        [Condition.markerEntry (Field.qualify joinAlias (a.resolvedForeignKey owner)),
         (Field.qualify joinAlias a.resolvedTargetKey,
          .compare (.one (.identifier (Field.qualify a.aliasName link.primaryKey))))]) := by
  rw [constraint, usableForeignKey_eq hn]
  simp only [hk]
  rfl

end Association

namespace Condition

variable {label key target other : Text}

/-- A condition that ties a column to the marker and compares another one with a field. -/
theorem eval_tie_and_identifier (s : Source) (hl : IsPath label) (hk : isWord key = true)
    (ht : isWord target = true) (ho : IsPath other) :
    s.eval (s.conditions (.entries
        [markerEntry (Field.qualify label key),
         (Field.qualify label target, .compare (.one (.identifier other)))]) true false none) =
      tieText (s.dialect.quoteName (Field.qualify label key)) ++ " AND " ++
        (s.dialect.quoteName (Field.qualify label target) ++ " = " ++
          s.dialect.quoteName other) := by
  have hdot : ∀ name, '.' ∈ Field.qualify label name := fun name => by simp [Field.qualify]
  have hkey := hl.qualify hk
  have htarget := hl.qualify ht
  have hj : Key.joint? (Field.qualify label target) = none := by
    simpa [Key.isConnective_eq] using Key.isConnective_of_dot htarget (hdot target)
  have hfield : s.eval ((⟨s, true, none⟩ : Scope).fieldOrVirtual (Field.qualify label key)) =
      s.dialect.quoteName (Field.qualify label key) := by
    rw [Scope.fieldOrVirtual_of_isPath hkey rfl rfl, Source.eval_ask]
  have hc := eval_clause ⟨s, true, none⟩ []
    (show ownClause? (.entries
      [markerEntry (Field.qualify label key),
       (Field.qualify label target, .compare (.one (.identifier other)))]) = none from rfl)
  rw [pieces, writtenRows, rows_tie _ hkey (hdot key), entryRows, entryRows, operandRow, hj,
    comparisonText_identifier htarget (hdot target) rfl rfl ho, hfield] at hc
  rw [Source.conditions, if_neg Bool.false_ne_true, hc, List.nil_append]
  simp [textOf_chain, textOf_leaf, Text.join_cons_cons, Joint.word]

end Condition

namespace Association

variable {a : Association} {s : Source} {owner link : Model}

theorem isPath_joinedName (hk : a.kind = .manyToMany) (hl : IsPath (a.tieAlias s owner link))
    (hj : IsPath (s.tablePrefix ++ a.resolvedJoinTable owner link)) :
    IsPath (a.joinedName s owner link) := by
  simp only [tieAlias, hk] at hl
  rw [joinedName]
  cases h : a.through with
  | none => exact hj
  | some label => rwa [h] at hl

/-- The name that qualifies the columns is the name that the join gives. -/
theorem tieAlias_eq_joinedName (hk : a.kind = .manyToMany) :
    a.tieAlias s owner link = a.joinedName s owner link ↔
      a.through.isSome ∨ owner.tablePrefix.getD s.tablePrefix = s.tablePrefix := by
  simp only [tieAlias, joinedName, hk]
  cases a.through <;> simp

theorem tight_tieCondition (hl : IsPath (a.tieAlias s owner link)) :
    (a.tieCondition s owner link).Tight := by
  refine ⟨⟨s.dialect.startQuote, ?_, by cases s.dialect <;> decide⟩,
    ⟨s.dialect.endQuote, ?_, by cases s.dialect <;> decide⟩⟩
  · rw [tieCondition, Condition.tieText, tieColumn, Option.mem_def]
    simp only [List.append_assoc, List.head?_append, s.dialect.head?_quoteName hl]
    rfl
  · have hlast : (s.dialect.quote link.primaryKey).getLast? = some s.dialect.endQuote :=
      List.getLast?_concat
    rw [tieCondition, List.getLast?_append, hlast]
    rfl

theorem tight_joinText : (a.joinText s owner link).Tight := by
  have hjoin : Text.Tight "JOIN" := ⟨⟨'J', rfl, by decide⟩, ⟨'N', rfl, by decide⟩⟩
  have hclose : Text.Tight ")" := ⟨⟨')', rfl, by decide⟩, ⟨')', rfl, by decide⟩⟩
  let gap : Text := " " ++ a.joinLead s owner link ++
    s.dialect.quoteName (a.joinedName s owner link) ++ " ON (" ++ a.tieCondition s owner link
  have heq : a.joinText s owner link = "JOIN" ++ gap ++ ")" := by
    have hword : "JOIN ".toList = "JOIN".toList ++ " ".toList := by simp
    unfold joinText
    simp only [gap, hword, List.append_assoc]
  rw [heq]
  exact hjoin.append hclose gap

theorem eval_join_eq_joinText (hk : a.kind = .manyToMany) (hl : IsPath (a.tieAlias s owner link))
    (hj : IsPath (s.tablePrefix ++ a.resolvedJoinTable owner link))
    (hn : isIdentifier (a.resolvedForeignKey owner) = true)
    (ht : isIdentifier a.resolvedTargetKey = true) (ha : isIdentifier a.aliasName = true)
    (hp : isIdentifier link.primaryKey = true) {tie : Condition}
    (hc : a.constraint owner link (a.tieAlias s owner link) true = .ok tie) :
    s.eval (s.join
        { table := a.resolvedJoinTable owner link, aliasName := a.through, conditions := tie }) =
      a.joinText s owner link := by
  rw [constraint_of_manyToMany link hk _ hn] at hc
  cases hc
  have hon : s.eval (s.conditions (.entries
      [Condition.markerEntry (Field.qualify (a.tieAlias s owner link) (a.resolvedForeignKey owner)),
       (Field.qualify (a.tieAlias s owner link) a.resolvedTargetKey,
        .compare (.one (.identifier (Field.qualify a.aliasName link.primaryKey))))])
      true false none) = a.tieCondition s owner link := by
    rw [Condition.eval_tie_and_identifier s hl (isWord_of_isIdentifier hn)
      (isWord_of_isIdentifier ht) (isPath_qualify ha hp),
      hl.quoteName_qualify _ (isWord_of_isIdentifier hn),
      hl.quoteName_qualify _ (isWord_of_isIdentifier ht),
      (isPath_of_isWord (isWord_of_isIdentifier ha)).quoteName_qualify _
        (isWord_of_isIdentifier hp), quoteName_of_isIdentifier _ ha]
    simp only [tieCondition, tieColumn, List.append_assoc]
  rw [Source.eval_join hj _ rfl, hon, (tight_tieCondition hl).trim]
  unfold joinText joinLead joinedName
  cases a.through <;> simp

end Association

namespace Source

variable {a : Association} {s : Source} {owner link : Model}

/-- The follow-up query joins the table in between under a name, and its condition qualifies two
columns of that table. The qualifier is the name exactly if the table has an alias, or the prefix of
the owner is that of the data source. -/
theorem planAssociation_joinText (hk : a.kind = .manyToMany) (hf : a.finderQuery = none)
    (hl : IsPath (a.tieAlias s owner link))
    (hj : IsPath (s.tablePrefix ++ a.resolvedJoinTable owner link))
    (hn : isIdentifier (a.resolvedForeignKey owner) = true)
    (ht : isIdentifier a.resolvedTargetKey = true) (ha : isIdentifier a.aliasName = true)
    (hp : isIdentifier link.primaryKey = true) (q : Query) (standalone : Bool) :
    ∃ sql, s.eval (s.planAssociation owner link a q standalone).run = .ok (.standalone sql) ∧
      a.joinText s owner link <:+: sql ∧
      (s.dialect.quoteName (a.tieAlias s owner link) =
          s.dialect.quoteName (a.joinedName s owner link) ↔
        a.through.isSome ∨ owner.tablePrefix.getD s.tablePrefix = s.tablePrefix) := by
  have hc := Association.constraint_of_manyToMany link hk (a.tieAlias s owner link) hn
  obtain ⟨fields, he⟩ := @eval_planManyToMany s owner link a
    ((q.associationConditions.get? a.aliasName).getD .empty) _ hk hc
  rw [planAssociation_of_manyToMany hk hf]
  refine ⟨_, he, ?_, ?_⟩
  · refine isInfix_standalone_joins Association.tight_joinText (List.mem_singleton.2 rfl) ?_
    rw [Association.eval_join_eq_joinText hk hl hj hn ht ha hp hc]
  · rw [hl.quoteName_inj (Association.isPath_joinedName hk hl hj),
      Association.tieAlias_eq_joinedName hk]

theorem planAssociation_joinText_alias :
    let s : Source := { dialect := .postgreSql, schema := some "public", tablePrefix := "app_" }
    let articles : Model :=
      { name := "Article", table := "articles", tablePrefix := some "old_" }
    let tags : Model := { name := "Tag", table := "tags" }
    let a : Association := { kind := .manyToMany, aliasName := "Tag", through := some "Tagging" }
    a.joinText s articles tags =
        "JOIN \"public\".\"app_articles_tags\" AS \"Tagging\" ON (\"Tagging\".\"article_id\" = " ++
          ("(\x7b$__cakeID__$\x7d) AND \"Tagging\".\"tag_id\" = \"Tag\".\"id\")" : Text) ∧
      ∃ sql, s.eval (s.planAssociation articles tags a {} true).run = .ok (.standalone sql) ∧
        a.joinText s articles tags <:+: sql ∧
        s.dialect.quoteName (a.tieAlias s articles tags) =
          s.dialect.quoteName (a.joinedName s articles tags) := by
  intro s articles tags a
  obtain ⟨sql, he, hjoin, hname⟩ := @planAssociation_joinText a s articles tags rfl rfl
    (isPath_of_isWord (by decide +kernel)) (isPath_of_isWord (by decide +kernel))
    (by decide +kernel) (by decide +kernel) (by decide +kernel) (by decide +kernel) {} true
  exact ⟨by decide +kernel, sql, he, hjoin, hname.2 (.inl rfl)⟩

/-- With a prefix of its own, the owner makes the query refer to a table that it does not join. -/
theorem tie_refers_to_no_table :
    let s : Source := {}
    let articles : Model :=
      { name := "Article", table := "articles", tablePrefix := some "app_" }
    let tags : Model := { name := "Tag", table := "tags" }
    let a : Association := { kind := .manyToMany, aliasName := "Tag" }
    (s.eval (s.planAssociation articles tags a {} true).run).toOption.bind
        AssociationQuery.sql? = some
        ("SELECT * FROM \x60tags\x60 AS \x60Tag\x60 JOIN \x60articles_tags\x60 " ++
          ("ON (\x60app_articles_tags\x60.\x60article_id\x60 = (\x7b$__cakeID__$\x7d) " : Text) ++
          "AND \x60app_articles_tags\x60.\x60tag_id\x60 = \x60Tag\x60.\x60id\x60) WHERE 1 = 1") ∧
      s.dialect.quoteName (a.joinedName s articles tags) = "\x60articles_tags\x60" ∧
      s.dialect.quoteName (a.tieAlias s articles tags) = "\x60app_articles_tags\x60" := by
  intro s articles tags a
  exact ⟨by decide +kernel, by decide +kernel, by decide +kernel⟩

end Source

end SqlComposer
