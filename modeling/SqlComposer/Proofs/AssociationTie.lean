import SqlComposer.Association.Plan
import SqlComposer.Proofs.Attempt
import SqlComposer.Proofs.ConditionPieces
import SqlComposer.Proofs.FieldKey
import SqlComposer.Proofs.Fragment

/-!
# How follow-up queries are tied to their owners

A follow-up query compares one field with the marker that stands for the keys of the owners. The
comparison is in its text, whatever other conditions there are: it comes first in the conditions of
the query, or in those of the join with the table in between.
-/

namespace SqlComposer

open CharClass Identifier

theorem Identifier.isPath_qualify {label name : Text} (hl : isIdentifier label = true)
    (hn : isIdentifier name = true) : IsPath (Field.qualify label name) :=
  isPath_append (isWord_of_isIdentifier hl) (isPath_of_isWord (isWord_of_isIdentifier hn))

/-! ### Paths as keys -/

namespace Key

theorem isBlank_toUpper (c : Char) : isBlank c.toUpper = isBlank c := by
  by_cases hl : c.isLower = true
  · have hu : c.toUpper.isUpper = true := by simp [Char.isAlpha, hl]
    rw [isBlank_of (p := Char.isLower) (by decide) hl,
      isBlank_of (p := Char.isUpper) (by decide) hu]
  · rw [Char.toUpper_eq_of_not_isLower hl]

theorem isBlank_toLower (c : Char) : isBlank c.toLower = isBlank c := by
  by_cases hu : c.isUpper = true
  · have hl : c.toLower.isLower = true := by simp [Char.isAlpha, hu]
    rw [isBlank_of (p := Char.isUpper) (by decide) hu,
      isBlank_of (p := Char.isLower) (by decide) hl]
  · rw [Char.toLower_eq_of_not_isUpper hu]

theorem isPlainMembership_of_isPath {key : Text} (h : IsPath key) :
    isPlainMembership key = true := by
  have ht : Text.trimEnd key = key := Text.trimEnd_of_getLast? fun _ hc =>
    isBlank_of_isPathChar (h.isPathChar (List.mem_of_getLast? hc))
  have hc : Text.cutLast isBlank (Text.asciiUpper key) = none := by
    refine Text.cutLast_eq_none_iff.2 fun c hc => ?_
    obtain ⟨e, he, rfl⟩ := List.mem_map.1 hc
    rw [isBlank_toUpper, isBlank_of_isPathChar (h.isPathChar he)]
  rw [isPlainMembership, ht, hc]

/-- A path with a dot in it is no connective. -/
theorem isConnective_of_dot {key : Text} (h : IsPath key) (hd : '.' ∈ key) :
    isConnective key = false := by
  have hl : '.' ∈ Text.asciiLower key := List.mem_map.2 ⟨'.', hd, by decide⟩
  have hn : ∀ k ∈ connectives, '.' ∉ k := by decide
  rw [isConnective, h.trim]
  by_contra hc
  exact hn _ (List.contains_iff_mem.1 (Bool.not_eq_false _ ▸ hc)) hl

end Key

/-! ### The comparison with the marker -/

namespace Condition

variable {sc : Scope} {key : Text}

/-- The comparison of a field with the marker. -/
def tieText (field : Text) : Text :=
  field ++ " = (" ++ deferredIdMarker ++ ")"

/-- The entry that makes this comparison. -/
def markerEntry (field : Text) : Text × Operand :=
  (field, .compare (.many [.text deferredIdMarker]))

theorem membershipValue_of_isPath (d : Dialect) (h : IsPath key) (v : Value) :
    membershipValue d key (.many [v]) = some v := by
  simp [membershipValue, Placeholder.count_of_isPath d h, Key.isPlainMembership_of_isPath h]

/-- Under the name of a field, a list of the marker only is written as the tie. -/
theorem comparisonText_marker (h : IsPath key) (hd : '.' ∈ key) :
    comparisonText sc key (.many [.text deferredIdMarker]) =
      tieText (sc.source.eval (sc.fieldOrVirtual key)) := by
  have hk : ¬Key.isConnective key = true := by simp [Key.isConnective_of_dot h hd]
  have hb : Text.before? "=" key = none := Text.before?_eq_none fun hs =>
    h.not_mem (by decide) (hs.subset List.mem_cons_self)
  have hm : isDeferredMarker deferredIdMarker = true := by decide
  rw [comparisonText_of_membership hk (membershipValue_of_isPath _ h _), membership]
  simp only [h.trim, hb]
  simp [Source.eval, Source.values, Source.value, Source.textLiteral, hm, tieText]

/-- A condition whose first entry is the tie. -/
theorem rows_tie (sc : Scope) (h : IsPath key) (hd : '.' ∈ key) (es : List (Text × Operand)) :
    rows sc (.entries (markerEntry key :: es)) =
      [.leaf (tieText (sc.source.eval (sc.fieldOrVirtual key)))] :: entryRows sc es := by
  have hj : Key.joint? key = none := by
    simpa [Key.isConnective_eq] using Key.isConnective_of_dot h hd
  rw [rows, markerEntry, entryRows, operandRow, hj, ← comparisonText_marker h hd]
  rfl

/-- The first member of a condition is what its text begins with. -/
theorem prefix_textOf_pieces {c : Condition} {t : Text} {rest : List (List Piece)}
    (h : rows sc c = [.leaf t] :: rest) : t <+: Piece.textOf (pieces sc c) := by
  rw [pieces, writtenRows, h, List.isEmpty_cons, if_neg Bool.false_ne_true, textOf_chain,
    List.map_cons, textOf_leaf]
  cases rest with
  | nil => simp
  | cons ps rest =>
    rw [List.map_cons, Text.join_cons_cons, List.append_assoc]
    exact List.prefix_append _ _

/-- A condition that is not empty stands alone when others are merged into it, or comes first. -/
theorem merge_cons {c : Condition} (hc : c.isEmpty = false) (cs : List Condition) :
    merge (c :: cs) = c ∨ ∃ d ds, merge (c :: cs) = .all (c :: d :: ds) := by
  rw [merge, List.filter_cons_of_pos (by simp [hc])]
  cases cs.filter fun c => !c.isEmpty with
  | nil => exact .inl rfl
  | cons d ds => exact .inr ⟨d, ds, rfl⟩

theorem rows_merge {c : Condition} {t : Text} (hc : c.isEmpty = false)
    (h : rows sc c = [[.leaf t]]) (cs : List Condition) :
    ∃ rest, rows sc (merge (c :: cs)) = [.leaf t] :: rest := by
  rcases merge_cons hc cs with hm | ⟨d, ds, hm⟩
  · rw [hm]
    exact ⟨[], h⟩
  · refine ⟨memberRows sc (d :: ds), ?_⟩
    rw [hm, rows, memberRows, h]
    rfl

theorem ownClause?_merge (e : Text × Operand) (es : List (Text × Operand))
    (cs : List Condition) : ownClause? (merge (.entries (e :: es) :: cs)) = none := by
  rcases merge_cons (c := .entries (e :: es)) rfl cs with hm | ⟨d, ds, hm⟩ <;> rw [hm] <;> rfl

end Condition

/-! ### Clauses that a statement keeps -/

/-- What begins and ends with no blank is kept in the statement if it is in a clause. -/
theorem Clauses.isInfix_render {c : Clauses} {template : List TemplatePart} {slot : Slot} {w : Text}
    (hw : w.Tight) (hs : TemplatePart.slot slot ∈ template) (h : w <:+: c.clause slot) :
    w <:+: c.render template := by
  have hf : w <:+: c.fill (.slot slot) := hw.isInfix_trim h
  have hn : (!(c.fill (.slot slot)).isEmpty) = true := by simpa using hw.ne_nil hf
  exact hf.trans (Text.isInfix_join _ (List.mem_filter.2 ⟨List.mem_map_of_mem hs, hn⟩))

namespace Source

variable {s : Source} {w : Text}

theorem isInfix_select_conditions {q : Query} {table label : Text} {model : Option Model}
    (hw : w.Tight) (h : w <:+: s.eval (s.conditions q.conditions true true model)) :
    w <:+: s.eval (s.select q table label model) := by
  have hs : TemplatePart.slot .conditions ∈ StatementKind.selectTemplate := by
    simp [StatementKind.selectTemplate]
  simp only [Source.eval, select, Render.bind_eq_bind, Render.eval_bind, Render.pure_eq_done,
    Render.eval_done]
  exact Clauses.isInfix_render hw hs h

theorem isInfix_select_joins {q : Query} {table label : Text} {model : Option Model} {j : Join}
    (hw : w.Tight) (hj : j ∈ q.joins) (h : w <:+: s.eval (s.join j)) :
    w <:+: s.eval (s.select q table label model) := by
  have hs : TemplatePart.slot .joins ∈ StatementKind.selectTemplate := by
    simp [StatementKind.selectTemplate]
  simp only [Source.eval, select, Render.bind_eq_bind, Render.eval_bind, Render.pure_eq_done,
    Render.eval_done, Render.eval_each]
  exact Clauses.isInfix_render hw hs (h.trans (Text.isInfix_join _ (List.mem_map_of_mem hj)))

theorem isInfix_join_conditions {j : Join} (hw : w.Tight) (hk : j.kind = none)
    (hj : j.conditions.isEmpty = false)
    (h : w <:+: s.eval (s.conditions j.conditions true false none)) :
    w <:+: s.eval (s.join j) := by
  have hc : (!Text.sameLetters (Text.trim ((none : Option Text).getD [])) "CROSS" &&
      !j.conditions.isEmpty) = true := by
    rw [hj]
    decide
  let on : Text := "ON (" ++ Text.trim (s.eval (s.conditions j.conditions true false none)) ++ ")"
  have hon : w <:+: on :=
    (hw.isInfix_trim h).trans ⟨"ON (".toList, ")".toList, rfl⟩
  have hn : (!on.isEmpty) = true := by simp [on]
  have hm : ∀ label : Text, on ∈ [label, on].filter fun t => !t.isEmpty :=
    fun label => List.mem_filter.2 ⟨by simp, hn⟩
  have hu : ∀ (label : Text) (head : List Text), w <:+: Text.unwords
      (head ++ [label, on].filter fun t => !t.isEmpty) :=
    fun label _ => hon.trans (Text.isInfix_join _ (List.mem_append_right _ (hm label)))
  simp only [join, hk, hc, if_true, Source.eval, Render.bind_eq_bind, Render.pure_eq_done]
  split <;> cases j.aliasName <;> simp only [Render.eval_bind, Render.eval_done] <;> exact hu _ _

theorem isInfix_standalone_conditions {link : Model} {a : Association} {c : Condition}
    {fields : List Text} {joins : List Join} (hw : w.Tight)
    (h : w <:+: s.eval (s.conditions c true true (some link))) :
    w <:+: s.eval (s.standalone link a c fields joins) := by
  simp only [Source.eval, standalone, Render.bind_eq_bind, Render.eval_bind]
  exact isInfix_select_conditions hw h

theorem isInfix_standalone_joins {link : Model} {a : Association} {c : Condition}
    {fields : List Text} {joins : List Join} {j : Join} (hw : w.Tight) (hj : j ∈ joins)
    (h : w <:+: s.eval (s.join j)) : w <:+: s.eval (s.standalone link a c fields joins) := by
  simp only [Source.eval, standalone, Render.bind_eq_bind, Render.eval_bind]
  exact isInfix_select_joins hw hj h

end Source

/-! ### The tie of a follow-up query -/

namespace Condition

variable {sc : Scope} {key : Text}

/-- A field between quotes, or the expression of a virtual field in parentheses. -/
theorem head?_fieldOrVirtual (sc : Scope) (h : IsPath key) (hq : sc.quoting = true) :
    ∃ c ∈ (sc.source.eval (sc.fieldOrVirtual key)).head?, isBlank c = false := by
  cases hv : sc.virtualField key with
  | some sql =>
    refine ⟨'(', ?_, by decide⟩
    simp [Scope.fieldOrVirtual, hv, Source.eval]
  | none =>
    refine ⟨sc.source.dialect.startQuote, ?_, by cases sc.source.dialect <;> decide⟩
    rw [Scope.fieldOrVirtual_of_isPath h hq hv, Source.eval_ask, Option.mem_def,
      Dialect.head?_quoteName _ h]

theorem tight_tieText {field : Text} (h : ∃ c ∈ field.head?, isBlank c = false) :
    (tieText field).Tight := by
  obtain ⟨c, hc, hb⟩ := h
  refine ⟨⟨c, ?_, hb⟩, ⟨')', ?_, by decide⟩⟩
  · cases field with
    | nil => cases hc
    | cons e es => exact hc
  · rw [tieText, List.getLast?_append]
    rfl

/-- The tie is in the text of a condition that begins with it. -/
theorem isInfix_clause {c : Condition} {t : Text} {rest : List (List Piece)} (head : Text)
    (ho : ownClause? c = none) (h : rows sc c = [.leaf t] :: rest) :
    t <:+: sc.source.eval (clause sc head c) := by
  rw [eval_clause sc head ho]
  exact (prefix_textOf_pieces h).isInfix.trans (List.suffix_append _ _).isInfix

end Condition

namespace Association

/-- The name that qualifies the key by which the records of a follow-up query are tied to their
owner: the alias of the association, or of the table in between. -/
def tieAlias (a : Association) (s : Source) (owner link : Model) : Text :=
  match a.kind with
  | .manyToMany =>
    a.through.getD (owner.tablePrefix.getD s.tablePrefix ++ a.resolvedJoinTable owner link)
  | _ => a.aliasName

/-- Where the tie is written: in the conditions of the query, which know the associated model, or
in those of the join. -/
def tieScope (a : Association) (s : Source) (link : Model) : Condition.Scope :=
  match a.kind with
  | .manyToMany => ⟨s, true, none⟩
  | _ => ⟨s, true, some link⟩

/-- The field that a follow-up query compares with the keys of the owners, as it is written. -/
def tieField (a : Association) (s : Source) (owner link : Model) : Text :=
  s.eval ((a.tieScope s link).fieldOrVirtual
    (Field.qualify (a.tieAlias s owner link) (a.resolvedForeignKey owner)))

variable {a : Association} {s : Source} {owner link : Model}

theorem usableForeignKey_eq (h : isIdentifier (a.resolvedForeignKey owner) = true) :
    a.usableForeignKey owner = .ok (a.resolvedForeignKey owner) := by
  have ht := (isPath_of_isWord (isWord_of_isIdentifier h)).trim
  have hb : ¬Text.blank (a.resolvedForeignKey owner) = true := by
    rw [← Text.isEmpty_trim, ht, List.isEmpty_iff]
    exact ne_nil_of_isWord (isWord_of_isIdentifier h)
  rw [usableForeignKey, if_neg hb]

/-- The comparison with the keys of the owners comes first in a constraint, or is all of it. -/
theorem constraint_eq (joinAlias : Text) (hn : isIdentifier (a.resolvedForeignKey owner) = true) :
    (a.kind = .hasMany → a.constraint owner link joinAlias true =
      .ok (.entries
        [Condition.markerEntry (Field.qualify a.aliasName (a.resolvedForeignKey owner))])) ∧
    (a.kind = .manyToMany → ∃ es, a.constraint owner link joinAlias true =
      .ok (.entries
        (Condition.markerEntry (Field.qualify joinAlias (a.resolvedForeignKey owner)) :: es))) := by
  rw [constraint, usableForeignKey_eq hn]
  constructor <;> intro hk <;> simp only [hk]
  · rfl
  · exact ⟨_, rfl⟩

end Association

/-- The text of a query of its own. -/
def AssociationQuery.sql? : AssociationQuery → Option Text
  | .standalone sql => some sql
  | .joined _ => none

namespace Source

variable {s : Source} {owner link : Model} {a : Association}

/-- The query for an association of which a record has many has the tie in its conditions. -/
theorem eval_planMany {extra tie : Condition}
    (hn : isIdentifier (a.resolvedForeignKey owner) = true)
    (ht : a.constraint owner link a.aliasName true = .ok tie) :
    ∃ fields, s.eval (s.planMany owner link a extra).run =
      .ok (.standalone (s.eval
        (s.standalone link a (Condition.merge [tie, a.conditions, extra]) fields []))) := by
  rw [planMany, Association.usableForeignKey_eq hn, ht, eval_attempt_ok, eval_attempt_lift,
    eval_attempt_lift, eval_attempt_ok, eval_attempt_lift]
  exact ⟨_, rfl⟩

/-- The query for an association by way of a table in between has the tie in its join. -/
theorem eval_planManyToMany {extra tie : Condition} (hk : a.kind = .manyToMany)
    (ht : a.constraint owner link (a.tieAlias s owner link) true = .ok tie) :
    ∃ fields, s.eval (s.planManyToMany owner link a extra).run =
      .ok (.standalone (s.eval
        (s.standalone link a (Condition.merge [a.conditions, extra]) fields
          [{ table := a.resolvedJoinTable owner link
             aliasName := a.through
             conditions := tie }]))) := by
  simp only [Association.tieAlias, hk] at ht
  rw [planManyToMany, ht, eval_attempt_lift]
  cases a.through with
  | none =>
    simp only [pure_bind]
    rw [eval_attempt_ok, eval_attempt_lift]
    exact ⟨_, rfl⟩
  | some label =>
    simp only [pure_bind]
    rw [eval_attempt_lift, eval_attempt_ok, eval_attempt_lift]
    exact ⟨_, rfl⟩

theorem planAssociation_of_hasMany (hk : a.kind = .hasMany) (hf : a.finderQuery = none) (q : Query)
    (standalone : Bool) : s.planAssociation owner link a q standalone =
      s.planMany owner link a ((q.associationConditions.get? a.aliasName).getD .empty) := by
  unfold planAssociation
  cases standalone <;> simp only [hf, hk]

theorem planAssociation_of_manyToMany (hk : a.kind = .manyToMany) (hf : a.finderQuery = none)
    (q : Query) (standalone : Bool) : s.planAssociation owner link a q standalone =
      s.planManyToMany owner link a ((q.associationConditions.get? a.aliasName).getD .empty) := by
  unfold planAssociation
  cases standalone <;> simp only [hf, hk]

/-- A follow-up query contains the tie. -/
theorem eval_planAssociation (hk : a.kind = .hasMany ∨ a.kind = .manyToMany)
    (hf : a.finderQuery = none) (hl : isIdentifier (a.tieAlias s owner link) = true)
    (hn : isIdentifier (a.resolvedForeignKey owner) = true) (q : Query) (standalone : Bool) :
    ∃ sql, s.eval (s.planAssociation owner link a q standalone).run = .ok (.standalone sql) ∧
      Condition.tieText (a.tieField s owner link) <:+: sql := by
  have hp := isPath_qualify hl hn
  have hd : '.' ∈ Field.qualify (a.tieAlias s owner link) (a.resolvedForeignKey owner) := by
    simp [Field.qualify]
  have hw : ∀ model, (Condition.tieText (s.eval ((⟨s, true, model⟩ : Condition.Scope).fieldOrVirtual
      (Field.qualify (a.tieAlias s owner link) (a.resolvedForeignKey owner))))).Tight :=
    fun model => Condition.tight_tieText
      (Condition.head?_fieldOrVirtual ⟨s, true, model⟩ hp rfl)
  have hr := fun model => Condition.rows_tie ⟨s, true, model⟩ hp hd
  rcases hk with hk | hk
  · -- The tie is one of the conditions of the selection.
    have hs : a.tieScope s link = ⟨s, true, some link⟩ := by rw [Association.tieScope, hk]
    have ha : a.tieAlias s owner link = a.aliasName := by rw [Association.tieAlias, hk]
    rw [planAssociation_of_hasMany hk hf, Association.tieField, hs]
    obtain ⟨fields, he⟩ := eval_planMany hn ((Association.constraint_eq a.aliasName hn).1 hk)
    refine ⟨_, he, ?_⟩
    rw [ha] at hr hw ⊢
    obtain ⟨rest, hr⟩ := Condition.rows_merge rfl (hr (some link) []) _
    exact isInfix_standalone_conditions (hw _)
      (Condition.isInfix_clause _ (Condition.ownClause?_merge _ _ _) hr)
  · -- The tie is the condition of the join table.
    have hs : a.tieScope s link = ⟨s, true, none⟩ := by rw [Association.tieScope, hk]
    rw [planAssociation_of_manyToMany hk hf, Association.tieField, hs]
    obtain ⟨es, hc⟩ := (Association.constraint_eq (a.tieAlias s owner link) hn).2 hk
    obtain ⟨fields, he⟩ := eval_planManyToMany hk hc
    refine ⟨_, he, isInfix_standalone_joins (hw _) (List.mem_singleton.2 rfl) ?_⟩
    exact isInfix_join_conditions (hw _) rfl rfl (Condition.isInfix_clause _ rfl (hr none es))

end Source

end SqlComposer
