import SqlComposer.Proofs.Membership
import SqlComposer.Proofs.Negation

/-!
# What a selection looks up

The SQL of conditions and of an order depends on the model by the types and the expressions that are
found under some names. These names are collected here: two models that agree on them give the same
SQL.
-/

namespace SqlComposer

/-- Whether two models find the same under a name, as the type of a column and as the expression of
a virtual field. -/
structure Model.Alike (m m' : Model) (t : Text) : Prop where
  columnType : m.columnType t = m'.columnType t
  virtualField : m.virtualField t = m'.virtualField t

/-! ### What conditions look up -/

namespace Condition

/-- The fields that a comparison looks up: none under a connective, otherwise the one that the
comparison is about, in front of all NOTs at the end of the key. -/
def leafLookups (d : Dialect) (key : Text) (x : Comparand) : List Text :=
  if Key.isConnective key then []
  else
    match membershipValue d key x with
    | some _ => [Key.askedField key]
    | none =>
      if _h : Text.sameLetters (Key.split d key).2 "not" = true then
        leafLookups d (Key.split d key).1 x
      else [(Key.split d key).1]
termination_by key.length
decreasing_by
  have := Key.length_add_four_le _h
  omega

mutual

/-- The fields that the comparisons of a condition look up. -/
def lookups (d : Dialect) : Condition → List Text
  | .bool _ | .raw _ => []
  | .all cs => memberLookups d cs
  | .entries es => entryLookups d es

def memberLookups (d : Dialect) : List Condition → List Text
  | [] => []
  | c :: cs => lookups d c ++ memberLookups d cs

def entryLookups (d : Dialect) : List (Text × Operand) → List Text
  | [] => []
  | (key, o) :: es => operandLookups d key o ++ entryLookups d es

def operandLookups (d : Dialect) (key : Text) : Operand → List Text
  | .compare x => leafLookups d key x
  | .group c => lookups d c

end

section Congruence

variable {s : Source} {quoting : Bool} {m m' : Model} {key t op : Text} {x : Comparand}

/-- Whether a comparand is written the same in the columns that two models find under a name. -/
def WrittenAlike (s : Source) (m m' : Model) (x : Comparand) (t : Text) : Prop :=
  write ⟨s, true, none⟩ (m.columnType t) x = write ⟨s, true, none⟩ (m'.columnType t) x

theorem fieldOrVirtual_congr (hv : m.virtualField t = m'.virtualField t) :
    (⟨s, quoting, some m⟩ : Scope).fieldOrVirtual t =
      (⟨s, quoting, some m'⟩ : Scope).fieldOrVirtual t := by
  simp only [Scope.fieldOrVirtual, Scope.virtualField, Option.bind_some, hv]
  rfl

theorem comparison_congr (hw : WrittenAlike s m m' x t)
    (hv : m.virtualField t = m'.virtualField t) :
    comparison ⟨s, quoting, some m⟩ key t op x = comparison ⟨s, quoting, some m'⟩ key t op x := by
  have hw : write ⟨s, quoting, some m⟩ (m.columnType t) x =
      write ⟨s, quoting, some m'⟩ (m'.columnType t) x := hw
  simp only [comparison, Scope.columnType, Option.bind_some, hw, fieldOrVirtual_congr hv]

theorem membership_congr {v : Value}
    (hw : WrittenAlike s m m' (.many [v]) (Key.askedField key))
    (hv : m.virtualField (Key.askedField key) = m'.virtualField (Key.askedField key)) :
    membership ⟨s, quoting, some m⟩ key v = membership ⟨s, quoting, some m'⟩ key v := by
  have hvalues : s.values [v] (m.columnType (Key.askedField key)) =
      s.values [v] (m'.columnType (Key.askedField key)) := by
    have h := congrArg (Render.bind · fun w => .done w.texts) hw
    simpa [write, Render.bind_assoc, Render.bind, Written.texts, Render.bind_done] using h
  have hmembership : ∀ m : Model, membership ⟨s, quoting, some m⟩ key v = (do
      let ts ← s.values [v] (m.columnType (Key.askedField key))
      let rendered ← (⟨s, quoting, some m⟩ : Scope).fieldOrVirtual (Key.askedField key)
      pure (rendered ++ " = (" ++ Text.join ", " ts ++ ")")) := fun _ => rfl
  rw [hmembership, hmembership, hvalues, fieldOrVirtual_congr hv]

theorem eq_many_of_membershipValue {d : Dialect} {v : Value}
    (h : membershipValue d key x = some v) : x = .many [v] := by
  match x with
  | .many [w] =>
    rw [membershipValue_one] at h
    split at h
    · cases h
      rfl
    · cases h

/-- Models that agree on what a comparison looks up write it alike. Only the comparand depends on the
column. -/
theorem leaf_congr {s : Source} {quoting : Bool} {m m' : Model} (key : Text) (x : Comparand)
    (hw : ∀ t ∈ leafLookups s.dialect key x, WrittenAlike s m m' x t)
    (hv : ∀ t ∈ leafLookups s.dialect key x, m.virtualField t = m'.virtualField t) :
    leaf ⟨s, quoting, some m⟩ key x = leaf ⟨s, quoting, some m'⟩ key x := by
  -- The lookups recurse as the compilation does, on what stands in front of NOT.
  fun_induction leafLookups s.dialect key x with
  | case1 key hk =>
    rw [leaf.eq_def ⟨s, quoting, some m⟩, leaf.eq_def ⟨s, quoting, some m'⟩, if_pos hk, if_pos hk]
    rfl
  | case2 key hk v hm =>
    obtain rfl := eq_many_of_membershipValue hm
    rw [leaf.eq_def ⟨s, quoting, some m⟩, leaf.eq_def ⟨s, quoting, some m'⟩]
    simp only [hk, hm, Bool.false_eq_true, if_false,
      membership_congr (hw _ List.mem_cons_self) (hv _ List.mem_cons_self)]
  | case3 key hk hm hn ih =>
    rw [leaf.eq_def ⟨s, quoting, some m⟩, leaf.eq_def ⟨s, quoting, some m'⟩]
    simp only [hk, hm, hn, Bool.false_eq_true, if_false, dite_true, ih hw hv]
  | case4 key hk hm hn =>
    rw [leaf.eq_def ⟨s, quoting, some m⟩, leaf.eq_def ⟨s, quoting, some m'⟩]
    simp only [hk, hm, hn, Bool.false_eq_true, if_false, dite_false,
      comparison_congr (hw _ List.mem_cons_self) (hv _ List.mem_cons_self)]

/-- A marker is written bare in any column. -/
theorem writtenAlike_marker (s : Source) (m m' : Model) (t : Text) :
    WrittenAlike s m m' (.many [.text deferredIdMarker]) t := by
  have hm : isDeferredMarker deferredIdMarker = true := by decide
  simp [WrittenAlike, write, Source.values, Render.each, Source.value, Source.textLiteral, hm]

theorem leaf_alike (h : ∀ t ∈ leafLookups s.dialect key x, m.Alike m' t) :
    leaf ⟨s, quoting, some m⟩ key x = leaf ⟨s, quoting, some m'⟩ key x :=
  leaf_congr key x (fun t ht => by rw [WrittenAlike, (h t ht).columnType])
    fun t ht => (h t ht).virtualField

mutual

/-- Models that agree on what a condition looks up give it the same members. -/
theorem members_congr : ∀ c : Condition, (∀ t ∈ lookups s.dialect c, m.Alike m' t) →
    members ⟨s, quoting, some m⟩ c = members ⟨s, quoting, some m'⟩ c
  | .bool _, _ => rfl
  | .raw _, _ => rfl
  | .all cs, h => memberTexts_congr cs h
  | .entries es, h => entryTexts_congr es h

theorem memberTexts_congr : ∀ cs : List Condition,
    (∀ t ∈ memberLookups s.dialect cs, m.Alike m' t) →
    memberTexts ⟨s, quoting, some m⟩ cs = memberTexts ⟨s, quoting, some m'⟩ cs
  | [], _ => rfl
  | c :: cs, h => by
    obtain ⟨hc, hcs⟩ := List.forall_mem_append.1 h
    rw [memberTexts, memberTexts, members_congr c hc, memberTexts_congr cs hcs]

theorem entryTexts_congr : ∀ es : List (Text × Operand),
    (∀ t ∈ entryLookups s.dialect es, m.Alike m' t) →
    entryTexts ⟨s, quoting, some m⟩ es = entryTexts ⟨s, quoting, some m'⟩ es
  | [], _ => rfl
  | (key, o) :: es, h => by
    obtain ⟨ho, hes⟩ := List.forall_mem_append.1 h
    rw [entryTexts, entryTexts, operandText_congr key o ho, entryTexts_congr es hes]

theorem operandText_congr (key : Text) : ∀ o : Operand,
    (∀ t ∈ operandLookups s.dialect key o, m.Alike m' t) →
    operandText ⟨s, quoting, some m⟩ key o = operandText ⟨s, quoting, some m'⟩ key o
  | .compare _, h => leaf_alike h
  | .group c, h => by rw [operandText, operandText, members_congr c h]

end

theorem memberTexts_of_forall {sc sc' : Scope} {cs : List Condition}
    (h : ∀ c ∈ cs, members sc c = members sc' c) : memberTexts sc cs = memberTexts sc' cs := by
  induction cs with
  | nil => rfl
  | cons c cs ih =>
    obtain ⟨hc, hcs⟩ := List.forall_mem_cons.1 h
    rw [memberTexts, memberTexts, hc, ih hcs]

/-- Conditions with the same members have the same when they are merged. -/
theorem members_merge {sc sc' : Scope} {cs : List Condition}
    (h : ∀ c ∈ cs, members sc c = members sc' c) :
    members sc (merge cs) = members sc' (merge cs) := by
  have hkept : ∀ c ∈ cs.filter fun c => !c.isEmpty, members sc c = members sc' c :=
    fun c hc => h c (List.mem_of_mem_filter hc)
  rw [merge]
  split
  · rfl
  · next c hf => exact hkept c (by simp [hf])
  · exact memberTexts_of_forall hkept

theorem clause_congr (head : Text) {c : Condition}
    (h : members ⟨s, quoting, some m⟩ c = members ⟨s, quoting, some m'⟩ c) :
    clause ⟨s, quoting, some m⟩ head c = clause ⟨s, quoting, some m'⟩ head c := by
  rw [clause, clause, h]
  rfl

end Congruence

end Condition

/-! ### What an order looks up -/

theorem Render.each_congr {α β : Type} {f g : α → Render β} {as : List α}
    (h : ∀ a ∈ as, f a = g a) : each f as = each g as := by
  induction as with
  | nil => rfl
  | cons a as ih =>
    obtain ⟨ha, has⟩ := List.forall_mem_cons.1 h
    rw [each, each, ha, ih has]

namespace Order

/-- The name that a term looks up: its key without a direction. -/
def Term.lookups : Term → List Text
  | .finished _ => []
  | .key k direction => [Text.trim ((cutDirection k).getD (k, direction)).1]

theorem writeKey_congr (d : Dialect) {m m' : Model} {key : Text}
    (h : m.virtualField key = m'.virtualField key) :
    writeKey d (some m) key = writeKey d (some m') key := by
  rw [writeKey, writeKey, Option.bind_some, Option.bind_some, h]

theorem writeTerm_congr (d : Dialect) {m m' : Model} {term : Term}
    (h : ∀ t ∈ term.lookups, m.virtualField t = m'.virtualField t) :
    writeTerm d (some m) term = writeTerm d (some m') term := by
  cases term with
  | finished sql => rfl
  | key k direction =>
    simp only [writeTerm, writeKey_congr d (h _ List.mem_cons_self)]

/-- The names that the items of a clause look up. -/
def lookups (direction : Text) (items : List Order) : List Text :=
  (items.flatMap (terms direction)).flatMap Term.lookups

end Order

namespace Source

theorem order_congr (s : Source) (direction : Text) {items : List Order} {m m' : Model}
    (h : ∀ t ∈ Order.lookups direction items, m.virtualField t = m'.virtualField t) :
    s.order items direction (some m) = s.order items direction (some m') := by
  have hterms : ∀ term ∈ items.flatMap (Order.terms direction),
      Order.writeTerm s.dialect (some m) term = Order.writeTerm s.dialect (some m') term :=
    fun term hterm => Order.writeTerm_congr s.dialect fun t ht =>
      h t (List.mem_flatMap.2 ⟨term, hterm, ht⟩)
  rw [order, order, Order.collect_eq, Render.each_congr hterms]

/-- A selection without groups depends on its model by its conditions and its order. -/
theorem select_congr (s : Source) {m m' : Model} {q : Query} (table label : Text)
    (hc : Condition.members ⟨s, true, some m⟩ q.conditions =
      Condition.members ⟨s, true, some m'⟩ q.conditions)
    (ho : ∀ t ∈ Order.lookups "ASC" q.order, m.virtualField t = m'.virtualField t)
    (hg : q.group = []) (hh : q.having = none) :
    s.select q table label (some m) = s.select q table label (some m') := by
  have hclause : s.conditions q.conditions true true (some m) =
      s.conditions q.conditions true true (some m') := Condition.clause_congr _ hc
  rw [select, select, hclause, s.order_congr "ASC" ho, hg, hh]
  rfl

end Source

end SqlComposer
