import SqlComposer.Proofs.Lookups
import SqlComposer.Proofs.SelectedFields

/-!
# The alias of an associated model

A follow-up query selects from the table of the associated model under the alias of the
association, but columns and virtual fields are looked up in the model under the model's own alias.
Under another alias the model finds the same, and the query stays the same, unless a name that it
knows is qualified by one of the two.
-/

namespace SqlComposer

open Identifier

/-! ### Names under an alias -/

/-- Whether a text, but for blanks around it, is one of some names behind a label. -/
def Field.IsQualified (label : Text) (names : List Text) (t : Text) : Prop :=
  ∃ v ∈ names, Text.trim t = Field.qualify label v

instance (label : Text) (names : List Text) (t : Text) :
    Decidable (Field.IsQualified label names t) :=
  inferInstanceAs (Decidable (∃ v ∈ names, Text.trim t = Field.qualify label v))

namespace Model

/-- The model under another alias. -/
def relabel (m : Model) (label : Text) : Model :=
  { m with aliasName := label }

section Names

variable {α : Type} {names : List Text} {find : Text → Option α} {own label v t : Text}

/-- A name behind a label is looked up in the model that has the label as its alias. -/
theorem localNameOf_of_trim (ht : Text.trim t = Field.qualify label v) (hl : '.' ∉ label) :
    localNameOf own t = if label = own then some v else none := by
  rw [localNameOf, ht, Field.qualify, Text.cutFirst_append (beq_dot_of_not_mem hl) rfl]

/-- What is found under a text that is not a known name behind the label does not depend on the
label. -/
theorem bind_localNameOf (hfind : ∀ v, find v = none ↔ v ∉ names)
    (h : ¬Field.IsQualified label names t) :
    (localNameOf label t).bind find = if '.' ∈ Text.trim t then none else find (Text.trim t) := by
  cases hcut : Text.cutFirst (· == '.') (Text.trim t) with
  | none =>
    have hdot : '.' ∉ Text.trim t := fun hd =>
      absurd (Text.cutFirst_eq_none_iff.1 hcut _ hd) (by decide)
    rw [localNameOf, hcut, if_neg hdot]
    rfl
  | some r =>
    obtain ⟨own, v⟩ := r
    obtain ⟨c, hc, -, ht⟩ := Text.eq_append_of_cutFirst hcut
    obtain rfl : c = '.' := by simpa using hc
    rw [localNameOf, hcut, if_pos (by simp [ht])]
    by_cases hown : own = label
    · subst hown
      simp only [if_true, Option.bind_some]
      exact (hfind v).2 fun hv => h ⟨v, hv, ht⟩
    · simp only [if_neg hown, Option.bind_none]

theorem bind_localNameOf_ne (hfind : ∀ v, find v = none ↔ v ∉ names) (hl : '.' ∉ label)
    (hne : label ≠ own) (h : Field.IsQualified label names t) :
    (localNameOf label t).bind find ≠ (localNameOf own t).bind find := by
  obtain ⟨v, hv, ht⟩ := h
  rw [localNameOf_of_trim ht hl, localNameOf_of_trim ht hl, if_pos rfl, if_neg hne]
  exact fun he => (hfind v).1 he hv

/-- Under two labels the same is found unless the text is a known name behind one of them. -/
theorem bind_localNameOf_eq_iff (hfind : ∀ v, find v = none ↔ v ∉ names) (hl : '.' ∉ label)
    (ho : '.' ∉ own) (hne : label ≠ own) :
    (localNameOf label t).bind find = (localNameOf own t).bind find ↔
      ¬Field.IsQualified own names t ∧ ¬Field.IsQualified label names t := by
  constructor
  · intro he
    exact ⟨fun h => bind_localNameOf_ne hfind ho hne.symm h he.symm,
      fun h => bind_localNameOf_ne hfind hl hne h he⟩
  · rintro ⟨h, h'⟩
    rw [bind_localNameOf hfind h', bind_localNameOf hfind h]

end Names

variable (m : Model) {label t : Text}

theorem columnType_eq_bind : m.columnType t =
    (localNameOf m.aliasName t).bind fun v => (m.columns.get? v).map Column.type :=
  Option.map_bind

theorem map_get?_eq_none_iff (v : Text) :
    (m.columns.get? v).map Column.type = none ↔ v ∉ m.columns.keys :=
  Option.map_eq_none_iff.trans OrderedMap.get?_eq_none_iff

theorem columnType_relabel (h : ¬Field.IsQualified m.aliasName m.columns.keys t)
    (h' : ¬Field.IsQualified label m.columns.keys t) :
    (m.relabel label).columnType t = m.columnType t := by
  rw [columnType_eq_bind, columnType_eq_bind, bind_localNameOf m.map_get?_eq_none_iff h]
  exact bind_localNameOf m.map_get?_eq_none_iff h'

theorem virtualField_relabel (h : ¬Field.IsQualified m.aliasName m.virtualFields.keys t)
    (h' : ¬Field.IsQualified label m.virtualFields.keys t) :
    (m.relabel label).virtualField t = m.virtualField t :=
  have hfind := fun _ => OrderedMap.get?_eq_none_iff
  (bind_localNameOf hfind h').trans (bind_localNameOf hfind h).symm

/-- A model finds the same type and the same expression under another alias exactly if the text is
not the name of a column or of a virtual field behind one of the two. -/
theorem relabel_iff (ho : isIdentifier m.aliasName = true) (hl : isIdentifier label = true)
    (hne : label ≠ m.aliasName) :
    ((m.relabel label).columnType t = m.columnType t ↔
      ¬Field.IsQualified m.aliasName m.columns.keys t ∧
        ¬Field.IsQualified label m.columns.keys t) ∧
    ((m.relabel label).virtualField t = m.virtualField t ↔
      ¬Field.IsQualified m.aliasName m.virtualFields.keys t ∧
        ¬Field.IsQualified label m.virtualFields.keys t) := by
  have ho := Model.dot_not_mem ho
  have hl := Model.dot_not_mem hl
  rw [columnType_eq_bind, columnType_eq_bind]
  exact ⟨bind_localNameOf_eq_iff m.map_get?_eq_none_iff hl ho hne,
    bind_localNameOf_eq_iff (fun _ => OrderedMap.get?_eq_none_iff) hl ho hne⟩

end Model

/-! ### What a select list looks up -/

namespace FieldRequest

variable {r : FieldRequest} {ps : List Text} {label : Text}

/-- A wildcard under the alias of the model counts only where a piece is one. -/
theorem wantsAll_of_not_mem (h : Field.qualify r.modelAlias ['*'] ∉ ps) :
    r.wantsAll ps = (ps.isEmpty || ps.any fun p => p == ['*']) := by
  have hany : (ps.any fun p => p == ['*'] || p == Field.qualify r.modelAlias ['*']) =
      ps.any fun p => p == ['*'] := by
    rw [Bool.eq_iff_iff, List.any_eq_true, List.any_eq_true]
    simp only [Bool.or_eq_true, beq_iff_eq]
    exact exists_congr fun p => and_congr_right fun hp => or_iff_left fun he => h (he ▸ hp)
  rw [wantsAll, hany]

/-- The answer to a request is the same for another alias of the model if no piece is a wildcard
under one of the two and all pieces name the same virtual fields under both. -/
theorem fieldList_relabel (s : Source)
    (hown : Field.qualify r.modelAlias ['*'] ∉ r.pieces s.dialect)
    (hlabel : Field.qualify label ['*'] ∉ r.pieces s.dialect)
    (hv : ∀ p ∈ r.pieces s.dialect, Model.virtualFieldOf label r.virtualFields p =
      Model.virtualFieldOf r.modelAlias r.virtualFields p) :
    s.fieldList { r with modelAlias := label } = s.fieldList r := by
  let r' : FieldRequest := { r with modelAlias := label }
  have hall : r'.wantsAll (r.pieces s.dialect) = r.wantsAll (r.pieces s.dialect) :=
    (wantsAll_of_not_mem (r := r') hlabel).trans (wantsAll_of_not_mem hown).symm
  have hvirtual : ∀ p ∈ r.pieces s.dialect, r'.isVirtual p = r.isVirtual p :=
    fun p hp => congrArg Option.isSome (hv p hp)
  have hfilter : (r.pieces s.dialect).filter r'.isVirtual =
      (r.pieces s.dialect).filter r.isVirtual := List.filter_congr hvirtual
  have hrest : ((r.pieces s.dialect).filter fun p => !r'.isVirtual p) =
      (r.pieces s.dialect).filter fun p => !r.isVirtual p :=
    List.filter_congr fun p hp => congrArg (! ·) (hvirtual p hp)
  have hcolumns : r'.columnPieces s.dialect = r.columnPieces s.dialect := by
    show (if (r.pieces s.dialect).isEmpty then r.columns
      else if r'.wantsAll (r.pieces s.dialect) then r.pieces s.dialect
      else (r.pieces s.dialect).filter fun p => !r'.isVirtual p) = r.columnPieces s.dialect
    rw [hall, hrest, columnPieces]
  have hnames : r'.virtualNames s.dialect = r.virtualNames s.dialect := by
    show (if r'.wantsAll (r.pieces s.dialect) then r.virtualFields.keys
      else ((r.pieces s.dialect).filter r'.isVirtual).map Text.afterLastDot) =
        r.virtualNames s.dialect
    rw [hall, hfilter, virtualNames]
  have hpieces : r'.virtualPieces s.dialect = r.virtualPieces s.dialect := by
    rw [virtualPieces, hnames, virtualPieces]
  rw [fieldList_eq, fieldList_eq, hcolumns, hpieces]
  rfl

end FieldRequest

/-! ### Follow-up queries -/

namespace Association

variable (a : Association) (d : Dialect)

/-- The field that ties associated records to their owner, as it is looked up. -/
def tieLookups (owner : Model) : List Text :=
  Condition.leafLookups d (Field.qualify a.aliasName (a.resolvedForeignKey owner))
    (.many [.text deferredIdMarker])

/-- The fields that the conditions on associated records look up. -/
def conditionLookups (q : Query) : List Text :=
  a.conditions.lookups d ++
    ((q.associationConditions.get? a.aliasName).getD .empty).lookups d

/-- The pieces of the select list. -/
def requestedPieces : List Text :=
  a.requestedFields.flatMap (Token.splitTopLevel d)

/-- All names under which a follow-up query looks up virtual fields. -/
def virtualLookups (owner : Model) (q : Query) : List Text :=
  a.tieLookups d owner ++ a.conditionLookups d q ++ a.requestedPieces d ++
    Order.lookups "ASC" a.order

/-- Whether a follow-up query looks nothing up in the associated model that is qualified by a
label. -/
structure Avoids (owner link : Model) (q : Query) (label : Text) : Prop where
  columns : ∀ t ∈ a.conditionLookups d q, ¬Field.IsQualified label link.columns.keys t
  virtualFields : ∀ t ∈ a.virtualLookups d owner q,
    ¬Field.IsQualified label link.virtualFields.keys t
  wildcard : Field.qualify label ['*'] ∉ a.requestedPieces d

variable {a : Association} {s : Source} {owner link : Model} {label : Text}

theorem usableForeignKey_eq_ok {key : Text} (h : a.usableForeignKey owner = .ok key) :
    a.resolvedForeignKey owner = key := by
  rw [usableForeignKey] at h
  split at h
  · cases h
  · exact Except.ok.inj h

/-- The tie of a follow-up query, if the foreign key is not blank. -/
theorem constraint_of_hasMany (hk : a.kind = .hasMany) (joinAlias : Text) (standalone : Bool) :
    a.constraint owner link joinAlias standalone = (a.usableForeignKey owner).map fun key =>
      .entries [Condition.markerEntry (Field.qualify a.aliasName key)] := by
  rw [constraint]
  cases a.usableForeignKey owner with
  | error e => rfl
  | ok key =>
    simp only [hk]
    rfl

end Association

namespace Source

variable {s : Source} {owner link : Model} {a : Association} {label : Text}

/-- The query for an association of which a record has many, unless the foreign key is blank. -/
theorem eval_planMany_of_hasMany (hk : a.kind = .hasMany) (extra : Condition) :
    s.eval (s.planMany owner link a extra).run = (a.usableForeignKey owner).map fun key =>
      let fields := s.eval (s.fields link (some a.aliasName) a.requestedFields true)
      let keyField := s.dialect.quoteName (Field.qualify a.aliasName key)
      let tie : Condition := .entries [Condition.markerEntry (Field.qualify a.aliasName key)]
      .standalone (s.eval (s.standalone link a (Condition.merge [tie, a.conditions, extra])
        (if fields.contains keyField then fields else fields ++ [keyField]) [])) := by
  rw [planMany, Association.constraint_of_hasMany hk]
  cases a.usableForeignKey owner with
  | error e => rfl
  | ok key =>
    rw [eval_attempt_ok, eval_attempt_lift, eval_attempt_lift]
    exact eval_attempt_lift _ _

theorem standalone_congr {c : Condition} {fields : List Text} {joins : List Join}
    (hc : Condition.members ⟨s, true, some (link.relabel label)⟩ c =
      Condition.members ⟨s, true, some link⟩ c)
    (ho : ∀ t ∈ Order.lookups "ASC" a.order,
      (link.relabel label).virtualField t = link.virtualField t) :
    s.standalone (link.relabel label) a c fields joins = s.standalone link a c fields joins := by
  rw [standalone, standalone]
  exact congrArg (s.fullTableName link >>= ·) (funext fun table =>
    s.select_congr table a.aliasName hc ho rfl rfl)

section Avoids

variable {q : Query} (hown : a.Avoids s.dialect owner link q link.aliasName)
  (hlabel : a.Avoids s.dialect owner link q label)

include hown hlabel

theorem virtualField_of_avoids {t : Text} (ht : t ∈ a.virtualLookups s.dialect owner q) :
    (link.relabel label).virtualField t = link.virtualField t :=
  link.virtualField_relabel (hown.virtualFields t ht) (hlabel.virtualFields t ht)

theorem eval_fields_relabel :
    s.eval (s.fields (link.relabel label) (some a.aliasName) a.requestedFields true) =
      s.eval (s.fields link (some a.aliasName) a.requestedFields true) :=
  FieldRequest.fieldList_relabel (r := link.fieldRequest (some a.aliasName) a.requestedFields true)
    s hown.wildcard hlabel.wildcard fun _ hp => virtualField_of_avoids hown hlabel
      (List.mem_append_left _ (List.mem_append_right _ hp))

/-- The tie and the conditions on the associated records have the same members. -/
theorem members_relabel {key : Text} (hkey : a.resolvedForeignKey owner = key) :
    let tie : Condition := .entries [Condition.markerEntry (Field.qualify a.aliasName key)]
    let extra := (q.associationConditions.get? a.aliasName).getD .empty
    ∀ c ∈ [tie, a.conditions, extra], Condition.members ⟨s, true, some (link.relabel label)⟩ c =
      Condition.members ⟨s, true, some link⟩ c := by
  intro tie extra
  have hvirtual : ∀ t, t ∈ a.tieLookups s.dialect owner ∨ t ∈ a.conditionLookups s.dialect q →
      (link.relabel label).virtualField t = link.virtualField t :=
    fun t ht => virtualField_of_avoids hown hlabel
      (List.mem_append_left _ (List.mem_append_left _ (List.mem_append.2 ht)))
  have halike : ∀ t ∈ a.conditionLookups s.dialect q, (link.relabel label).Alike link t :=
    fun t ht => ⟨link.columnType_relabel (hown.columns t ht) (hlabel.columns t ht),
      hvirtual t (.inr ht)⟩
  obtain ⟨hconditions, hextra⟩ := List.forall_mem_append.1 halike
  have htie : Condition.members ⟨s, true, some (link.relabel label)⟩ tie =
      Condition.members ⟨s, true, some link⟩ tie := by
    have hleaf := @Condition.leaf_congr s true (link.relabel label) link
      (Field.qualify a.aliasName key) (.many [.text deferredIdMarker])
      (fun t _ => Condition.writtenAlike_marker s _ _ t)
      fun t ht => hvirtual t (.inl (by rwa [Association.tieLookups, hkey]))
    simp only [tie, Condition.members, Condition.markerEntry, Condition.entryTexts,
      Condition.operandText, hleaf]
  simp only [List.forall_mem_cons]
  exact ⟨htie, Condition.members_congr _ hconditions, Condition.members_congr _ hextra, by simp⟩

end Avoids

end Source

/-! ### Fields under the alias of the association -/

namespace Model

variable (m : Model) (label v : Text)

/-- The type of a column that is qualified by a label: only the alias of the model leads to it. -/
def columnUnder : Option ColumnType :=
  if m.aliasName = label then (m.columns.get? v).map Column.type else none

/-- The expression of a virtual field that is qualified by a label. -/
def expressionUnder : Option Text :=
  if m.aliasName = label then m.virtualFields.get? v else none

variable {m label v}

theorem columnUnder_eq_iff : m.columnUnder label v = (m.columns.get? v).map Column.type ↔
    m.aliasName = label ∨ v ∉ m.columns.keys := by
  rw [columnUnder, ite_eq_left_iff, ← or_iff_not_imp_left, @eq_comm _ none, map_get?_eq_none_iff]

theorem expressionUnder_eq_iff : m.expressionUnder label v = m.virtualFields.get? v ↔
    m.aliasName = label ∨ v ∉ m.virtualFields.keys := by
  rw [expressionUnder, ite_eq_left_iff, ← or_iff_not_imp_left, @eq_comm _ none,
    OrderedMap.get?_eq_none_iff]

variable (hl : isIdentifier label = true) (hv : isIdentifier v = true)

include hl hv

theorem bind_localNameOf_qualify {α : Type} (own : Text) (find : Text → Option α) :
    (localNameOf own (Field.qualify label v)).bind find = if own = label then find v else none := by
  rw [localNameOf_of_trim (isPath_qualify hl hv).trim (dot_not_mem hl)]
  by_cases h : own = label
  · rw [if_pos h.symm, if_pos h, Option.bind_some]
  · rw [if_neg (Ne.symm h), if_neg h, Option.bind_none]

theorem columnType_qualify : m.columnType (Field.qualify label v) = m.columnUnder label v :=
  m.columnType_eq_bind.trans (bind_localNameOf_qualify hl hv _ _)

theorem virtualField_qualify :
    m.virtualField (Field.qualify label v) = m.expressionUnder label v :=
  bind_localNameOf_qualify hl hv _ _

theorem isVirtual_qualify (label' : Option Text) (requested : List Text) (quoting : Bool) :
    (m.fieldRequest label' requested quoting).isVirtual (Field.qualify label v) = true ↔
      m.aliasName = label ∧ v ∈ m.virtualFields.keys := by
  have h : (m.fieldRequest label' requested quoting).isVirtual (Field.qualify label v) =
      (m.expressionUnder label v).isSome := congrArg Option.isSome (virtualField_qualify hl hv)
  rw [h, expressionUnder]
  split_ifs with hlabel
  · rw [OrderedMap.isSome_get?, OrderedMap.contains_iff]
    exact (and_iff_right hlabel).symm
  · simp [hlabel]

end Model

namespace Condition

/-- A field under a label: its name in quotes, or its expression in parentheses. -/
def fieldUnder (s : Source) (m : Model) (label v : Text) : Text :=
  match m.expressionUnder label v with
  | some sql => "(" ++ quoteFields s.dialect sql ++ ")"
  | none => s.dialect.quoteName (Field.qualify label v)

/-- A field under a label compared with a value. -/
def valueText (s : Source) (m : Model) (label v : Text) (w : Value) : Text :=
  let t := s.eval (s.value w (m.columnUnder label v))
  let op : Text := if w.isNull || t == "NULL" then "IS" else "="
  fieldUnder s m label v ++ " " ++ op ++ " " ++ t

variable {s : Source} {m : Model} {label v : Text}

theorem eval_fieldOrVirtual_qualify (hl : isIdentifier label = true) (hv : isIdentifier v = true) :
    s.eval ((⟨s, true, some m⟩ : Scope).fieldOrVirtual (Field.qualify label v)) =
      fieldUnder s m label v := by
  have hlookup : (⟨s, true, some m⟩ : Scope).virtualField (Field.qualify label v) =
      m.expressionUnder label v := Model.virtualField_qualify hl hv
  rw [fieldUnder]
  cases he : m.expressionUnder label v with
  | some sql =>
    rw [he] at hlookup
    rw [Scope.fieldOrVirtual, hlookup]
    rfl
  | none =>
    rw [he] at hlookup
    rw [Scope.fieldOrVirtual_of_isPath (isPath_qualify hl hv) rfl hlookup]
    rfl

theorem compareText_nil (field t : Text) (missing : Bool) :
    compareText field [] missing (.one t) =
      field ++ " " ++ (if missing || t == "NULL" then "IS" else "=" : Text) ++ " " ++ t := by
  have hop : effectiveOperator [] false = ['='] := by decide
  have hnull : nullOperator ['='] = "IS".toList := by decide
  simp only [compareText, hop, hnull]
  rfl

theorem eval_members_qualify (hl : isIdentifier label = true) (hv : isIdentifier v = true)
    (w : Value) : s.eval (s.conditionMembers (.single (Field.qualify label v) w) true (some m)) =
      [valueText s m label v w] := by
  have hp := isPath_qualify hl hv
  have hk : ¬Key.isConnective (Field.qualify label v) = true := by
    simp [Key.isConnective_of_dot hp (by simp [Field.qualify])]
  have hs : Key.split s.dialect (Field.qualify label v) = (Field.qualify label v, []) :=
    Key.split_of_isPath hp
  have hn : ¬Text.sameLetters (Key.split s.dialect (Field.qualify label v)).2 "not" = true := by
    rw [hs]
    exact (by decide : ¬Text.sameLetters [] "not" = true)
  have hbinds : ¬bindsKey s.dialect (Field.qualify label v) (.one w) = true := by
    simp [bindsKey, Placeholder.count_of_isPath s.dialect hp]
  have htype : (⟨s, true, some m⟩ : Scope).columnType (Field.qualify label v) =
      m.columnUnder label v := Model.columnType_qualify hl hv
  have htext : comparisonText ⟨s, true, some m⟩ (Field.qualify label v) (.one w) =
      valueText s m label v w := by
    rw [comparisonText_of_comparison hk rfl hn, eval_comparison, if_neg hbinds, hs,
      eval_fieldOrVirtual_qualify hl hv, htype, eval_write_one, compareText_nil]
    rfl
  have hmembers : s.conditionMembers (.single (Field.qualify label v) w) true (some m) =
      members ⟨s, true, some m⟩ (.entries [(Field.qualify label v, .compare (.one w))]) := rfl
  rw [hmembers, eval_members_compare ⟨s, true, some m⟩, eval_leaf hk, htext]
  rfl

end Condition

namespace Source

variable {s : Source} {owner link : Model} {a : Association}

/-- A follow-up query is the same under another alias of the associated model, as long as nothing it
looks up is a name of the model behind one of the two aliases; such a name is found under one of
them and not under the other. Behind the alias of the association, a name has the type and the
expression that the model knows for it only if that is the alias of the model, too. -/
theorem planAssociation_relabel (hk : a.kind = .hasMany) (hf : a.finderQuery = none)
    (label : Text) (q : Query) (standalone : Bool) :
    (a.Avoids s.dialect owner link q link.aliasName → a.Avoids s.dialect owner link q label →
      s.eval (s.planAssociation owner (link.relabel label) a q standalone).run =
        s.eval (s.planAssociation owner link a q standalone).run) ∧
    (isIdentifier link.aliasName = true → isIdentifier label = true → label ≠ link.aliasName →
      ∀ t, ((link.relabel label).columnType t = link.columnType t ↔
          ¬Field.IsQualified link.aliasName link.columns.keys t ∧
            ¬Field.IsQualified label link.columns.keys t) ∧
        ((link.relabel label).virtualField t = link.virtualField t ↔
          ¬Field.IsQualified link.aliasName link.virtualFields.keys t ∧
            ¬Field.IsQualified label link.virtualFields.keys t)) ∧
    ∀ v, isIdentifier a.aliasName = true → isIdentifier v = true →
      (∀ w, s.eval (s.conditionMembers (.single (Field.qualify a.aliasName v) w) true (some link)) =
        [Condition.valueText s link a.aliasName v w]) ∧
      (link.columnUnder a.aliasName v = (link.columns.get? v).map Column.type ↔
        link.aliasName = a.aliasName ∨ v ∉ link.columns.keys) ∧
      (link.expressionUnder a.aliasName v = link.virtualFields.get? v ↔
        link.aliasName = a.aliasName ∨ v ∉ link.virtualFields.keys) ∧
      ∀ requested quoting, (link.fieldRequest (some a.aliasName) requested quoting).isVirtual
          (Field.qualify a.aliasName v) = true ↔
        link.aliasName = a.aliasName ∧ v ∈ link.virtualFields.keys := by
  refine ⟨?_, fun ho hl hne t => link.relabel_iff ho hl hne, ?_⟩
  · intro hown hlabel
    rw [planAssociation_of_hasMany hk hf, planAssociation_of_hasMany hk hf,
      eval_planMany_of_hasMany hk, eval_planMany_of_hasMany hk, eval_fields_relabel hown hlabel]
    cases hu : a.usableForeignKey owner with
    | error e => rfl
    | ok key =>
      have hkey := Association.usableForeignKey_eq_ok hu
      have hmembers := Condition.members_merge (members_relabel hown hlabel hkey)
      have horder : ∀ t ∈ Order.lookups "ASC" a.order,
          (link.relabel label).virtualField t = link.virtualField t :=
        fun t ht => virtualField_of_avoids hown hlabel (List.mem_append_right _ ht)
      simp only [Except.map, standalone_congr hmembers horder]
  · intro v hl hv
    exact ⟨Condition.eval_members_qualify hl hv, Model.columnUnder_eq_iff,
      Model.expressionUnder_eq_iff, Model.isVirtual_qualify hl hv _⟩

/-- Fields without an alias are found under any. -/
theorem planAssociation_relabel_replies :
    let s : Source := {}
    let articles : Model := { name := "Article", table := "articles" }
    let comments : Model :=
      { name := "Comment", table := "comments"
        columns := .ofList [("id", { type := .integer }), ("votes", { type := .integer })]
        virtualFields := .ofList [("doubled", "votes * 2")] }
    let a : Association :=
      { kind := .hasMany, aliasName := "Reply", target := "Comment"
        conditions := .single "votes >" (.text "5"), fields := .only ["votes, doubled"]
        order := [.field "doubled DESC"] }
    (s.eval (s.planAssociation articles comments a {} true).run).toOption.bind
        AssociationQuery.sql? = some
        ("SELECT \x60Reply\x60.\x60votes\x60, (votes * 2) AS \x60Reply__doubled\x60, " ++
          ("\x60Reply\x60.\x60article_id\x60 FROM \x60comments\x60 AS \x60Reply\x60 " : Text) ++
          "WHERE \x60Reply\x60.\x60article_id\x60 = (\x7b$__cakeID__$\x7d) AND \x60votes\x60 > 5 " ++
          "ORDER BY (votes * 2) DESC") ∧
      a.Avoids s.dialect articles comments {} "Comment" ∧
      a.Avoids s.dialect articles comments {} "Note" ∧
      s.eval (s.planAssociation articles (comments.relabel "Note") a {} true).run =
        s.eval (s.planAssociation articles comments a {} true).run := by
  intro s articles comments a
  have hown : a.Avoids s.dialect articles comments {} comments.aliasName :=
    ⟨by decide +kernel, by decide +kernel, by decide +kernel⟩
  have hlabel : a.Avoids s.dialect articles comments {} "Note" :=
    ⟨by decide +kernel, by decide +kernel, by decide +kernel⟩
  exact ⟨by decide +kernel, hown, hlabel,
    (planAssociation_relabel (a := a) rfl rfl "Note" {} true).1 hown hlabel⟩

/-- A field behind the alias of the association has the type of the column only if the model has
that alias, too. -/
theorem followUp_depends_on_alias :
    let s : Source := {}
    let articles : Model := { name := "Article", table := "articles" }
    let comments : Model :=
      { name := "Comment", table := "comments"
        columns := .ofList [("votes", { type := .integer })] }
    let a : Association :=
      { kind := .hasMany, aliasName := "Reply", target := "Comment"
        conditions := .single "Reply.votes >" (.text "5") }
    let sql (link : Model) := (s.eval (s.planAssociation articles link a {} true).run).toOption.bind
      AssociationQuery.sql?
    let head : Text := "SELECT \x60Reply\x60.\x60votes\x60, \x60Reply\x60.\x60article_id\x60 " ++
      ("FROM \x60comments\x60 AS \x60Reply\x60 WHERE \x60Reply\x60.\x60article_id\x60 = " : Text) ++
      "(\x7b$__cakeID__$\x7d) AND \x60Reply\x60.\x60votes\x60 > "
    isIdentifier "Comment" = true ∧ isIdentifier "Reply" = true ∧
      sql comments = some (head ++ "'5'") ∧ sql (comments.relabel "Reply") = some (head ++ "5") ∧
      sql comments ≠ sql (comments.relabel "Reply") := by
  intro s articles comments a sql head
  have hown : sql comments = some (head ++ "'5'") := by decide +kernel
  have hlabel : sql (comments.relabel "Reply") = some (head ++ "5") := by decide +kernel
  refine ⟨by decide, by decide, hown, hlabel, ?_⟩
  rw [hown, hlabel]
  exact fun h => absurd (List.append_cancel_left (Option.some.inj h)) (by decide)

end Source

end SqlComposer
