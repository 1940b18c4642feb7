import SqlComposer.Proofs.BlankTexts
import SqlComposer.Proofs.ConditionTexts
import SqlComposer.Proofs.Negation

/-!
# Blank members

Blank pieces of SQL are dropped wherever they stand as conditions. A blank text is still written
where a boolean key holds it as a value, since such values are not looked at, and where all that a
comparison consists of is placeholders for blank pieces of SQL. `Condition.holdsBlank` says which
conditions hold something of this kind; all others are compiled to members that are not blank.
-/

namespace SqlComposer

open Piece (leavesOf)

/-! ### Blank templates -/

/-- Whether a row of placeholders leaves nothing but blanks when values are put in. -/
def Placeholder.blankWith (vs : List Value) (used : Nat) : List Placeholder → Bool
  | [] => true
  | .verbatim t :: ps => Text.blank t && blankWith vs used ps
  | .next :: ps => (vs[used]?).any Value.isBlankSql && blankWith vs (used + 1) ps
  | .numbered n t :: ps => (vs[n]?).elim (Text.blank t) Value.isBlankSql && blankWith vs used ps

theorem Source.blank_fill (s : Source) (column : Option ColumnType) (vs : List Value) (used : Nat)
    (ps : List Placeholder) :
    Text.blank (Placeholder.fill (vs.map fun v => s.eval (s.value v column)) used ps) =
      Placeholder.blankWith vs used ps := by
  have hput : ∀ (n : Nat) (t : Text),
      Text.blank (((vs.map fun v => s.eval (s.value v column))[n]?).getD t) =
        (vs[n]?).elim (Text.blank t) Value.isBlankSql := by
    intro n t
    rw [List.getElem?_map]
    cases vs[n]? with
    | none => rfl
    | some v => exact s.blank_value v column
  induction ps generalizing used with
  | nil => rfl
  | cons p ps ih =>
    cases p with
    | verbatim t => rw [Placeholder.fill, Text.blank_append, ih, Placeholder.blankWith]
    | next =>
      rw [Placeholder.fill, Text.blank_append, ih, hput, Placeholder.blankWith]
      cases vs[used]? <;> rfl
    | numbered n t => rw [Placeholder.fill, Text.blank_append, ih, hput, Placeholder.blankWith]

namespace Condition

variable {sc : Scope} {key op : Text}

/-! ### Blank comparisons -/

/-- The values that go to the placeholders of a key: an empty list is NULL. -/
def boundValues : Comparand → List Value
  | .one v => [v]
  | .many [] => [.null]
  | .many vs => vs

theorem exists_texts_write (sc : Scope) (ty : Option ColumnType) (x : Comparand) :
    ∃ column, (sc.source.eval (write sc ty x)).texts =
      (boundValues x).map fun v => sc.source.eval (sc.source.value v column) := by
  match x with
  | .one v => exact ⟨ty, by rw [eval_write_one]; rfl⟩
  | .many [] => exact ⟨none, rfl⟩
  | .many (v :: vs) =>
    refine ⟨some (ty.getD (Value.inferredListType (v :: vs))), ?_⟩
    rw [eval_write_cons, Source.eval_values]
    rfl

/-- The text that values are put into where the placeholders of a key take them. -/
def template (sc : Scope) (key : Text) : Text :=
  let parts := Key.split sc.source.dialect key
  Text.trimEnd (sc.source.eval (sc.fieldOrVirtual parts.1) ++ " " ++ parts.2)

/-- Whether all of a comparison are placeholders for blank pieces of SQL. -/
def isBlankComparison (sc : Scope) (key : Text) (x : Comparand) : Bool :=
  let d := sc.source.dialect
  (membershipValue d key x).isNone && !Text.sameLetters (Key.split d key).2 "not" &&
    bindsKey d key x &&
    Placeholder.blankWith (boundValues x) 0 (Placeholder.scan d (template sc key))

theorem blank_effectiveOperator (op : Text) (listed : Bool) :
    Text.blank (effectiveOperator op listed) = false := by
  rw [effectiveOperator]
  split
  · next h => exact Key.blank_of_isKnownOperator h
  · rw [Text.blank_trim, Text.blank_append]
    cases listed <;> exact Bool.and_false _

theorem blank_listOperator (h : Text.blank op = false) : Text.blank (listOperator op) = false := by
  unfold listOperator
  dsimp only
  split_ifs
  · rfl
  · rfl
  · exact h

theorem blank_nullOperator (h : Text.blank op = false) : Text.blank (nullOperator op) = false := by
  unfold nullOperator
  dsimp only
  split_ifs
  · rfl
  · rfl
  · exact h

/-- In a comparison stands an operator. -/
theorem blank_compareText (field op : Text) (missing : Bool) (w : Written) :
    Text.blank (compareText field op missing w) = false := by
  unfold compareText
  split
  · have hop := blank_effectiveOperator op true
    dsimp only
    split
    · split_ifs
      · simp only [Text.blank_append, hop, Bool.and_false, Bool.false_and]
      · simp only [Text.blank_append, blank_listOperator hop, Bool.and_false, Bool.false_and]
    · simp only [Text.blank_append, blank_listOperator hop, Bool.and_false, Bool.false_and]
  · have hop := blank_effectiveOperator op false
    dsimp only
    split_ifs
    · simp only [Text.blank_append, blank_nullOperator hop, Bool.and_false, Bool.false_and]
    · simp only [Text.blank_append, hop, Bool.and_false, Bool.false_and]

theorem blank_negation (member : Option Text) :
    Text.blank ((negation member).getD []) = false := by
  cases member with
  | none => rfl
  | some m =>
    rw [negation_some]
    rfl

/-- A comparison is blank only where it is placeholders for blank pieces of SQL. -/
theorem blank_comparisonText (sc : Scope) (hk : Key.isConnective key = false) (x : Comparand) :
    Text.blank (comparisonText sc key x) = isBlankComparison sc key x := by
  have hc : ¬Key.isConnective key = true := by simp [hk]
  rw [isBlankComparison]
  cases hm : membershipValue sc.source.dialect key x with
  | some v =>
    rw [comparisonText_of_membership hc hm, eval_membership, listText]
    exact Text.blank_eq_false (a := '=') (by simp) rfl
  | none =>
    by_cases hn : Text.sameLetters (Key.split sc.source.dialect key).2 "not" = true
    · rw [comparisonText, eval_leaf_of_negates ⟨hk, rfl, hn⟩, blank_negation, hn]
      rfl
    · rw [comparisonText_of_comparison hc hm hn, eval_comparison]
      obtain ⟨column, htexts⟩ := exists_texts_write sc
        (sc.columnType (Key.split sc.source.dialect key).1) x
      cases hb : bindsKey sc.source.dialect key x with
      | true =>
        rw [if_pos rfl, htexts, Placeholder.bind, Source.blank_fill, Bool.eq_false_iff.2 hn]
        rfl
      | false =>
        rw [if_neg Bool.false_ne_true, blank_compareText]
        simp

/-! ### Blank leaves -/

theorem blank_raw (sc : Scope) (sql : Text) : Text.blank (sc.raw sql) = Text.blank sql := by
  rw [Scope.raw]
  split_ifs
  · exact Identifier.blank_quoteFields sc.source.dialect sql
  · rfl

theorem blank_groupValue (sc : Scope) (v : Value) :
    Text.blank (sc.source.eval (groupValue sc v)) = v.isBlankPiece := by
  cases v with
  | text t => exact blank_raw sc t
  | null => exact sc.source.blank_value .null none
  | bool b => exact sc.source.blank_value (.bool b) none
  | integer n => exact sc.source.blank_value (.integer n) none
  | natural n => exact sc.source.blank_value (.natural n) none
  | float x => exact sc.source.blank_value (.float x) none
  | bytes data => exact sc.source.blank_value (.bytes data) none
  | temporal t => exact sc.source.blank_value (.temporal t) none
  | identifier name => exact sc.source.blank_value (.identifier name) none
  | expression sql => exact sc.source.blank_value (.expression sql) none

mutual

/-- Whether a condition holds something blank that is not dropped, at any depth: a value of a
boolean key that is a blank piece, or a comparison that is blank. -/
def holdsBlank (sc : Scope) : Condition → Bool
  | .bool _ => false
  | .raw _ => false
  | .all cs => membersHoldBlank sc cs
  | .entries es => entriesHoldBlank sc es

def membersHoldBlank (sc : Scope) : List Condition → Bool
  | [] => false
  | c :: cs => holdsBlank sc c || membersHoldBlank sc cs

def entriesHoldBlank (sc : Scope) : List (Text × Operand) → Bool
  | [] => false
  | (key, o) :: es => operandHoldsBlank sc key o || entriesHoldBlank sc es

def operandHoldsBlank (sc : Scope) (key : Text) : Operand → Bool
  | .compare x =>
    if Key.isConnective key then x.values.any Value.isBlankPiece else isBlankComparison sc key x
  | .group c => holdsBlank sc c

end

mutual

/-- The leaves of a condition are not blank but where it holds something blank. -/
theorem any_blank_rows : ∀ c : Condition,
    ((rows sc c).flatMap leavesOf).any Text.blank = holdsBlank sc c
  | .bool b => by cases b <;> rfl
  | .raw sql => by
    rw [rows, holdsBlank]
    split
    · rfl
    · next h =>
      have hleaf : leavesOf [.leaf (sc.raw (Text.trim sql))] = [sc.raw (Text.trim sql)] := rfl
      rw [List.flatMap_singleton, hleaf, List.any_cons, blank_raw, Text.blank_trim,
        Bool.eq_false_iff.2 h]
      rfl
  | .all cs => any_blank_memberRows cs
  | .entries es => any_blank_entryRows es

theorem any_blank_memberRows : ∀ cs : List Condition,
    ((memberRows sc cs).flatMap leavesOf).any Text.blank = membersHoldBlank sc cs
  | [] => rfl
  | c :: cs => by
    rw [memberRows, membersHoldBlank, List.flatMap_append, List.any_append, leavesOf_groupRow,
      any_blank_rows c, any_blank_memberRows cs]

theorem any_blank_entryRows : ∀ es : List (Text × Operand),
    ((entryRows sc es).flatMap leavesOf).any Text.blank = entriesHoldBlank sc es
  | [] => rfl
  | (key, o) :: es => by
    rw [entryRows, entriesHoldBlank, List.flatMap_append, List.any_append,
      any_blank_operandRow key o, any_blank_entryRows es]

theorem any_blank_operandRow (key : Text) : ∀ o : Operand,
    ((operandRow sc key o).toList.flatMap leavesOf).any Text.blank = operandHoldsBlank sc key o
  | .compare x => by
    rw [operandRow, operandHoldsBlank, Key.isConnective_eq]
    cases hk : Key.joint? key with
    | none =>
      have hc : Key.isConnective key = false := by simp [Key.isConnective_eq, hk]
      simp [leavesOf, blank_comparisonText sc hc]
    | some e =>
      have hleaves : (x.values.map fun v => [Piece.leaf (sc.source.eval (groupValue sc v))]).flatMap
          leavesOf = x.values.map fun v => sc.source.eval (groupValue sc v) := by
        rw [List.flatMap_map]
        exact List.map_eq_flatMap.symm
      simp only [leavesOf_groupRow, hleaves, List.any_map, Function.comp_def, blank_groupValue,
        Option.isSome_some, if_true]
  | .group c => by
    rw [operandRow, operandHoldsBlank]
    cases Key.joint? key with
    | none => rw [leavesOf_plainRow, any_blank_rows c]
    | some e => rw [leavesOf_groupRow, any_blank_rows c]

end

/-! ### Blank members -/

/-- What is read as a formula is blank only if it is a leaf. -/
theorem eq_leaf_of_reads {r : Reading} {ps : List Piece} {f : Formula} (h : Reads r ps f)
    (hb : Text.blank (Piece.textOf ps) = true) : ∃ t, ps = [.leaf t] := by
  induction h with
  | leaf t => exact ⟨t, rfl⟩
  | enclosed _ _ => cases hb
  | not _ _ => cases hb
  | operand _ ih => exact ih hb
  | join j _ _ _ _ =>
    have hj : Text.blank (Piece.joint j).text = false := by cases j <;> rfl
    rw [Piece.textOf, List.flatMap_append, List.flatMap_cons, Text.blank_append, Text.blank_append,
      hj, Bool.false_and, Bool.and_false] at hb
    cases hb

theorem exists_reads_of_mem {rs : List (List Piece)} {fs : List Formula}
    (h : List.Forall₂ Says rs fs) : ∀ ps ∈ rs, ∃ g, Reads .formula ps g := by
  induction h with
  | nil => simp
  | cons hs _ ih => exact List.forall_mem_cons.2 ⟨hs.joins.readable, ih⟩

/-- A blank text is a member if and only if it is one as a leaf. -/
theorem mem_members_of_blank {m : Text} (hm : Text.blank m = true) (c : Condition) :
    m ∈ sc.source.eval (members sc c) ↔ [.leaf m] ∈ rows sc c := by
  rw [eval_members, List.mem_map]
  constructor
  · rintro ⟨ps, hps, rfl⟩
    obtain ⟨g, hg⟩ := exists_reads_of_mem (says_rows c) ps hps
    obtain ⟨t, rfl⟩ := eq_leaf_of_reads hg hm
    rwa [textOf_leaf]
  · exact fun h => ⟨_, h, textOf_leaf m⟩

theorem blank_of_mem_members {c : Condition} (h : holdsBlank sc c = false) :
    ∀ m ∈ sc.source.eval (members sc c), Text.blank m = false := by
  intro m hm
  by_contra hb
  have hb : Text.blank m = true := Bool.not_eq_false _ ▸ hb
  have hleaf : m ∈ (rows sc c).flatMap leavesOf :=
    List.mem_flatMap.2 ⟨_, (mem_members_of_blank hb c).1 hm, List.mem_singleton_self m⟩
  rw [← any_blank_rows] at h
  exact absurd (List.any_eq_true.2 ⟨m, hleaf, hb⟩) (Bool.eq_false_iff.1 h)

theorem blank_of_ownClause {c : Condition} {sql : Text} (h : ownClause? c = some sql) :
    Text.blank sql = false := by
  cases c with
  | raw t =>
    simp only [ownClause?] at h
    split_ifs at h with hs
    cases h
    refine Bool.eq_false_iff.2 fun hb => ?_
    -- All of a blank text is trimmed, and no clause starts with nothing.
    have ht : Text.trimStart t = [] := List.dropWhile_eq_nil_iff.2 (List.all_eq_true.1
      ((Text.blank_trim t).symm.trans hb))
    rw [ht] at hs
    exact absurd hs (by decide)
  | bool | all | entries => cases h

/-- A condition that holds nothing blank is written as a conjunction of at least one text, and none
of them is blank. -/
theorem exists_parts_of_clause (head : Text) {c : Condition} (h : holdsBlank sc c = false) :
    ∃ parts, parts ≠ [] ∧ (∀ p ∈ parts, Text.blank p = false) ∧ sc.source.eval (clause sc head c) =
      (if (ownClause? c).isSome then [' '] else head) ++ Text.join " AND " parts := by
  cases ho : ownClause? c with
  | some sql =>
    have hsql : ∀ p ∈ [sc.raw sql], Text.blank p = false := by
      simpa [blank_raw] using blank_of_ownClause ho
    refine ⟨[sc.raw sql], List.cons_ne_nil _ _, hsql, ?_⟩
    simp only [clause, ho]
    rw [Text.join_singleton]
    rfl
  | none =>
    rw [eval_clause_eq sc head ho]
    cases hms : sc.source.eval (members sc c) with
    | nil => exact ⟨["1 = 1"], List.cons_ne_nil _ _, List.forall_mem_singleton.2 rfl, rfl⟩
    | cons m ms => exact ⟨m :: ms, List.cons_ne_nil _ _, hms ▸ blank_of_mem_members h, rfl⟩

/-! ### Blank pieces that are dropped -/

/-- Whether a condition is a blank piece of SQL. -/
def isBlankRaw : Condition → Bool
  | .raw sql => Text.blank sql
  | _ => false

mutual

/-- A condition without the conditions in it, at any depth, that are blank pieces of SQL. -/
def withoutBlanks : Condition → Condition
  | .bool b => .bool b
  | .raw sql => if Text.blank sql then empty else .raw sql
  | .all cs => .all (membersWithoutBlanks cs)
  | .entries es => .entries (entriesWithoutBlanks es)

def membersWithoutBlanks : List Condition → List Condition
  | [] => []
  | c :: cs =>
    if c.isBlankRaw then membersWithoutBlanks cs else withoutBlanks c :: membersWithoutBlanks cs

def entriesWithoutBlanks : List (Text × Operand) → List (Text × Operand)
  | [] => []
  | (key, o) :: es =>
    match o with
    | .compare x => (key, .compare x) :: entriesWithoutBlanks es
    | .group c =>
      if c.isBlankRaw then entriesWithoutBlanks es
      else (key, .group (withoutBlanks c)) :: entriesWithoutBlanks es

end

theorem rows_of_isBlankRaw {c : Condition} (h : c.isBlankRaw = true) : rows sc c = [] := by
  cases c with
  | raw sql => exact if_pos h
  | bool | all | entries => cases h

theorem operandRow_of_isBlankRaw {c : Condition} (h : c.isBlankRaw = true) (key : Text) :
    operandRow sc key (.group c) = none := by
  rw [operandRow, rows_of_isBlankRaw h]
  split <;> rfl

mutual

theorem rows_withoutBlanks : ∀ c : Condition, rows sc c.withoutBlanks = rows sc c
  | .bool b => by rw [withoutBlanks]
  | .raw sql => by
    rw [withoutBlanks]
    split_ifs with h
    · exact (rows_of_isBlankRaw (c := .raw sql) h).symm
    · rfl
  | .all cs => memberRows_withoutBlanks cs
  | .entries es => entryRows_withoutBlanks es

theorem memberRows_withoutBlanks : ∀ cs : List Condition,
    memberRows sc (membersWithoutBlanks cs) = memberRows sc cs
  | [] => rfl
  | c :: cs => by
    rw [membersWithoutBlanks, memberRows]
    split_ifs with h
    · rw [rows_of_isBlankRaw h, memberRows_withoutBlanks cs]
      rfl
    · rw [memberRows, rows_withoutBlanks c, memberRows_withoutBlanks cs]

theorem entryRows_withoutBlanks : ∀ es : List (Text × Operand),
    entryRows sc (entriesWithoutBlanks es) = entryRows sc es
  | [] => rfl
  | (key, .compare x) :: es => by
    rw [entriesWithoutBlanks, entryRows, entryRows, entryRows_withoutBlanks es]
  | (key, .group c) :: es => by
    rw [entriesWithoutBlanks, entryRows]
    split_ifs with h
    · rw [operandRow_of_isBlankRaw h, entryRows_withoutBlanks es]
      rfl
    · rw [entryRows, operandRow, operandRow, rows_withoutBlanks c, entryRows_withoutBlanks es]

end

end Condition

open Condition in
/-- Blank pieces of SQL that stand as conditions are dropped at every depth. Of what is written
then, the texts between parentheses and connectives are blank only where the condition holds a blank
value under a boolean key or a comparison that is blank, and a blank member is such a text alone.
Without any, no member is blank, and behind the head of its clause a condition is a conjunction of
at least one text, none of them blank. -/
theorem Source.blank_members (s : Source) (c : Condition) (quoting : Bool) (model : Option Model) :
    let sc : Scope := ⟨s, quoting, model⟩
    let members (c : Condition) : List Text := s.eval (s.conditionMembers c quoting model)
    let leaves : List Text := (rows sc c).flatMap leavesOf
    members c.withoutBlanks = members c ∧
      leaves.any Text.blank = c.holdsBlank sc ∧
      (∀ m, Text.blank m = true → (m ∈ members c ↔ [.leaf m] ∈ rows sc c)) ∧
      (c.holdsBlank sc = false → (∀ m ∈ members c, Text.blank m = false) ∧ ∀ whereClause,
        ∃ parts, parts ≠ [] ∧ (∀ p ∈ parts, Text.blank p = false) ∧
          s.eval (s.conditions c quoting whereClause model) =
            (if (ownClause? c).isSome then [' '] else if whereClause then " WHERE " else []) ++
              Text.join " AND " parts) := by
  intro sc members leaves
  have hrows : ∀ c, sc.source.eval (Condition.members sc c) = (rows sc c).map Piece.textOf :=
    eval_members
  have hmem : ∀ m, Text.blank m = true → (m ∈ sc.source.eval (Condition.members sc c) ↔
      [.leaf m] ∈ rows sc c) := fun m hm => mem_members_of_blank hm c
  refine ⟨?_, any_blank_rows c, hmem,
    fun h => ⟨blank_of_mem_members h, fun whereClause => exists_parts_of_clause _ h⟩⟩
  calc
    members c.withoutBlanks = (rows sc c.withoutBlanks).map Piece.textOf := hrows _
    _ = (rows sc c).map Piece.textOf := by rw [rows_withoutBlanks]
    _ = members c := (hrows c).symm

example :
    let c : Condition := .entries
      [("OR", .group (.all [.raw " ", .entries [("x", .group (.raw ""))], .raw "Post.a = 1"]))]
    c.holdsBlank ⟨{}, true, none⟩ = false ∧
      ({} : Source).eval (({} : Source).conditions c true true none) =
        " WHERE \x60Post\x60.\x60a\x60 = 1".toList := by
  decide +kernel

/-- A blank text under a boolean key is a member, alone and among others, and a blank piece of SQL
takes the place of a placeholder. -/
theorem Source.blank_member_of_boolean_key :
    let members (key : Text) (x : Comparand) : List Text :=
      ({} : Source).eval (({} : Source).conditionMembers (.entries [(key, .compare x)]) true none)
    let written (key : Text) (x : Comparand) : Text :=
      ({} : Source).eval (({} : Source).conditions (.entries [(key, .compare x)]) true true none)
    (∃ m ∈ members "OR" (.one (.text "  ")), Text.blank m = true) ∧
      members "OR" (.one (.text "  ")) = ["  ".toList] ∧
      written "OR" (.one (.text "  ")) = " WHERE   ".toList ∧
      written "OR" (.many [.text "", .text "a = 1"]) = " WHERE (() OR (a = 1))".toList ∧
      members "?" (.one (.expression "")) = [[]] := by
  decide +kernel

end SqlComposer
