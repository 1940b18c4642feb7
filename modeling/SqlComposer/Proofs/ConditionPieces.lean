import Mathlib
import SqlComposer.Condition.Compile
import SqlComposer.DataSource
import SqlComposer.Proofs.Formula

/-!
# Conditions as rows of pieces

A condition is written as parentheses, negations and connectives around texts that are not looked
into: pieces of SQL and comparisons. `Condition.rows` gives these pieces, one row for each member,
and `Condition.eval_members` says that the members are the texts of the rows.
-/

namespace SqlComposer

open Piece (textOf)

/-! ### Connectives of keys -/

namespace Key

/-- The connectives that keys stand for, and whether the members of the group are negated. -/
def joints : List (Text × Joint × Bool) :=
  [("and", .and, false), ("or", .or, false), ("not", .and, true), ("and not", .and, true),
   ("or not", .or, true), ("xor", .xor, false), ("||", .bars, false), ("&&", .ampersands, false)]

/-- The connective that a key stands for, in any letter case, and whether it negates. -/
def joint? (key : Text) : Option (Joint × Bool) :=
  joints.lookup (Text.asciiLower (Text.trim key))

theorem isConnective_eq (key : Text) : isConnective key = (joint? key).isSome := by
  have h : connectives = joints.map Prod.fst := rfl
  rw [isConnective, joint?, h]
  generalize joints = js
  induction js with
  | nil => rfl
  | cons e js ih =>
    rw [List.map_cons, List.contains_cons, List.lookup_cons, ih]
    cases Text.asciiLower (Text.trim key) == e.1 <;> rfl

theorem mem_joints_of_joint? {key : Text} {e : Joint × Bool} (h : joint? key = some e) :
    (Text.asciiLower (Text.trim key), e) ∈ joints := by
  obtain ⟨l₁, l₂, hl, _⟩ := List.lookup_eq_some_iff.1 h
  rw [hl]
  exact List.mem_append_right _ List.mem_cons_self

end Key

theorem Text.asciiUpper_asciiLower (t : Text) : asciiUpper (asciiLower t) = asciiUpper t := by
  simp [asciiUpper, asciiLower]

namespace Condition

/-! ### Groups as they are written -/

/-- A member in parentheses, negated if it has to be. -/
def enclosed (negated : Bool) (m : Text) : Text :=
  (if negated then "NOT " else [] : Text) ++ "(" ++ m ++ ")"

theorem join_enclosed (word m : Text) (negated : Bool) (ms : List Text) :
    (if negated then "NOT " else [] : Text) ++ "(" ++
        Text.join (") " ++ word ++ " " ++ (if negated then "NOT " else [] : Text) ++ "(") (m :: ms) ++
        ")" =
      Text.join (" " ++ word ++ " ") ((m :: ms).map (enclosed negated)) := by
  induction ms generalizing m with
  | nil => simp [enclosed]
  | cons n ms ih =>
    rw [List.map_cons, List.map_cons, Text.join_cons_cons, Text.join_cons_cons, ← List.map_cons,
      ← ih, enclosed]
    simp

theorem upper_of_mem_joints : ∀ e ∈ Key.joints,
    Text.has "NOT" (Text.asciiUpper e.1) = e.2.2 ∧
      (if Text.asciiUpper e.1 == "NOT".toList then "AND NOT".toList else Text.asciiUpper e.1) =
        e.2.1.word ++ (if e.2.2 then " NOT" else "").toList := by
  decide

theorem group_eq {key : Text} {j : Joint} {negated : Bool} (h : Key.joint? key = some (j, negated))
    (ms : List Text) :
    group key ms =
      match ms with
      | [] => none
      | [m] => some (if negated then enclosed true m else m)
      | ms => some ("(" ++ Text.join (" " ++ j.word ++ " ") (ms.map (enclosed negated)) ++ ")") := by
  obtain ⟨hn, hw⟩ := upper_of_mem_joints _ (Key.mem_joints_of_joint? h)
  simp only [Text.asciiUpper_asciiLower] at hn hw
  match ms with
  | [] => rfl
  | [m] =>
    simp only [group, hn]
    cases negated <;> rfl
  | m :: n :: ms =>
    simp only [group, hn, hw]
    rw [← join_enclosed]
    cases negated <;> simp

theorem plainGroup_eq (m n : Text) (ms : List Text) :
    plainGroup (m :: n :: ms) =
      some (Text.join (" " ++ Joint.and.word ++ " ") ((m :: n :: ms).map (enclosed false))) := by
  rw [← join_enclosed]
  simp [plainGroup, Joint.word]

/-! ### Groups as rows of pieces -/

theorem textOf_cell (negated : Bool) (ps : List Piece) :
    textOf (Piece.cell negated ps) = enclosed negated (textOf ps) := by
  cases negated <;> simp [Piece.cell, enclosed, textOf, Piece.text]

theorem map_textOf_cell (negated : Bool) (rows : List (List Piece)) :
    (rows.map (Piece.cell negated)).map textOf = (rows.map textOf).map (enclosed negated) := by
  rw [List.map_map, List.map_map]
  exact List.map_congr_left fun ps _ => textOf_cell negated ps

theorem textOf_chain (j : Joint) (rows : List (List Piece)) :
    textOf (Piece.chain j rows) = Text.join (" " ++ j.word ++ " ") (rows.map textOf) := by
  induction rows with
  | nil => rfl
  | cons ps rows ih =>
    cases rows with
    | nil => simp
    | cons qs rows =>
      rw [Piece.chain_cons_cons, List.map_cons, List.map_cons, Text.join_cons_cons,
        ← List.map_cons, ← ih]
      simp [textOf, Piece.text]

/-- The pieces of a group. -/
def groupRow (j : Joint) (negated : Bool) (rows : List (List Piece)) : Option (List Piece) :=
  match rows with
  | [] => none
  | [ps] => some (if negated then Piece.cell true ps else ps)
  | rows => some (Piece.cell false (Piece.chain j (rows.map (Piece.cell negated))))

/-- The pieces of a group under a key that is no connective. -/
def plainRow (rows : List (List Piece)) : Option (List Piece) :=
  match rows with
  | [] => none
  | [ps] => some ps
  | rows => some (Piece.chain .and (rows.map (Piece.cell false)))

theorem group_map_textOf {key : Text} {j : Joint} {negated : Bool}
    (h : Key.joint? key = some (j, negated)) (rows : List (List Piece)) :
    group key (rows.map textOf) = (groupRow j negated rows).map textOf := by
  rw [group_eq h]
  match rows with
  | [] => rfl
  | [ps] =>
    cases negated with
    | false => rfl
    | true => exact congrArg some (textOf_cell true ps).symm
  | ps :: qs :: rows =>
    have hr : groupRow j negated (ps :: qs :: rows) =
        some (Piece.cell false (Piece.chain j ((ps :: qs :: rows).map (Piece.cell negated)))) := rfl
    rw [hr, Option.map_some, textOf_cell, textOf_chain, map_textOf_cell]
    rfl

theorem plainGroup_map_textOf (rows : List (List Piece)) :
    plainGroup (rows.map textOf) = (plainRow rows).map textOf := by
  match rows with
  | [] => rfl
  | [ps] => rfl
  | ps :: qs :: rows =>
    have hr : plainRow (ps :: qs :: rows) =
        some (Piece.chain .and ((ps :: qs :: rows).map (Piece.cell false))) := rfl
    rw [List.map_cons, List.map_cons, plainGroup_eq, hr, Option.map_some, textOf_chain,
      map_textOf_cell]
    rfl

/-! ### Conditions as rows of pieces -/

/-- A comparison under a key that is no connective. -/
def comparisonText (sc : Scope) (key : Text) (x : Comparand) : Text :=
  (sc.source.eval (leaf sc key x)).getD []

mutual

/-- The pieces of a condition, one row for each member. -/
def rows (sc : Scope) : Condition → List (List Piece)
  | .bool b => [[.leaf (if b then "1 = 1" else "0 = 1" : Text)]]
  | .raw sql => if Text.blank sql then [] else [[.leaf (sc.raw (Text.trim sql))]]
  | .all cs => memberRows sc cs
  | .entries es => entryRows sc es

/-- One row for each condition of a conjunction that has any. -/
def memberRows (sc : Scope) : List Condition → List (List Piece)
  | [] => []
  | c :: cs => (groupRow .and false (rows sc c)).toList ++ memberRows sc cs

/-- One row for each entry that has any. -/
def entryRows (sc : Scope) : List (Text × Operand) → List (List Piece)
  | [] => []
  | (key, o) :: es => (operandRow sc key o).toList ++ entryRows sc es

/-- The row of an entry, if it has any. -/
def operandRow (sc : Scope) (key : Text) : Operand → Option (List Piece)
  | .compare x =>
    match Key.joint? key with
    | some (j, negated) =>
      groupRow j negated (x.values.map fun v => [.leaf (sc.source.eval (groupValue sc v))])
    | none => some [.leaf (comparisonText sc key x)]
  | .group c =>
    match Key.joint? key with
    | some (j, negated) => groupRow j negated (rows sc c)
    | none => plainRow (rows sc c)

end

section Members

variable {sc : Scope}

theorem eval_leaf_of_connective {key : Text} (hk : Key.isConnective key = true) (x : Comparand) :
    sc.source.eval (leaf sc key x) =
      group key (x.values.map fun v => sc.source.eval (groupValue sc v)) := by
  rw [leaf, if_pos hk]
  simp only [Source.eval, Render.bind_eq_bind, Render.eval_bind, Render.eval_each,
    Render.pure_eq_done, Render.eval_done]

/-- A comparison is always written, and never dropped. -/
theorem eval_leaf {key : Text} (hk : ¬Key.isConnective key = true) (x : Comparand) :
    sc.source.eval (leaf sc key x) = some (comparisonText sc key x) := by
  suffices hs : (sc.source.eval (leaf sc key x)).isSome by
    obtain ⟨t, ht⟩ := Option.isSome_iff_exists.1 hs
    rw [comparisonText, ht, Option.getD_some]
  rw [leaf, if_neg hk]
  cases membershipValue sc.source.dialect key x with
  | some v =>
    simp only [Source.eval, Render.bind_eq_bind, Render.eval_bind, Render.pure_eq_done,
      Render.eval_done, Option.isSome_some]
  | none =>
    by_cases hn : Text.sameLetters (Key.split sc.source.dialect key).2 "not" = true
    all_goals
      simp only [hn, Source.eval, Render.bind_eq_bind, Render.eval_bind, Render.pure_eq_done,
        Render.eval_done, dite_true, dite_false, Bool.false_eq_true, Option.isSome_some]

theorem comparisonText_of_membership {key : Text} (hk : ¬Key.isConnective key = true)
    {x : Comparand} {v : Value} (hm : membershipValue sc.source.dialect key x = some v) :
    comparisonText sc key x = sc.source.eval (membership sc key v) := by
  rw [comparisonText, leaf, if_neg hk]
  simp only [hm, Source.eval, Render.bind_eq_bind, Render.eval_bind, Render.pure_eq_done,
    Render.eval_done, Option.getD_some]

theorem comparisonText_of_comparison {key : Text} (hk : ¬Key.isConnective key = true)
    {x : Comparand} (hm : membershipValue sc.source.dialect key x = none)
    (hn : ¬Text.sameLetters (Key.split sc.source.dialect key).2 "not" = true) :
    comparisonText sc key x =
      sc.source.eval (comparison sc key (Key.split sc.source.dialect key).1
        (Key.split sc.source.dialect key).2 x) := by
  rw [comparisonText, leaf, if_neg hk]
  simp only [hm, hn, Source.eval, Render.bind_eq_bind, Render.eval_bind, Render.pure_eq_done,
    Render.eval_done, Option.getD_some, dite_false, Bool.false_eq_true]

theorem eval_comparison (key field op : Text) (x : Comparand) :
    sc.source.eval (comparison sc key field op x) =
      if bindsKey sc.source.dialect key x then
        Placeholder.bind sc.source.dialect
          (Text.trimEnd (sc.source.eval (sc.fieldOrVirtual field) ++ " " ++ op))
          (sc.source.eval (write sc (sc.columnType field) x)).texts
      else
        compareText (sc.source.eval (sc.fieldOrVirtual field)) op (isMissing x)
          (sc.source.eval (write sc (sc.columnType field) x)) := by
  simp only [comparison, Source.eval, Render.bind_eq_bind, Render.eval_bind, Render.pure_eq_done]
  split <;> rfl

theorem eval_write_one (ty : Option ColumnType) (v : Value) :
    sc.source.eval (write sc ty (.one v)) = .one (sc.source.eval (sc.source.value v ty)) := by
  simp only [write, Source.eval, Render.bind_eq_bind, Render.eval_bind, Render.pure_eq_done,
    Render.eval_done]

theorem eval_write_cons (ty : Option ColumnType) (v : Value) (vs : List Value) :
    sc.source.eval (write sc ty (.many (v :: vs))) =
      .many (sc.source.eval (sc.source.values (v :: vs) ty)) := by
  simp only [write, Source.eval, Render.bind_eq_bind, Render.eval_bind, Render.pure_eq_done,
    Render.eval_done]

theorem eval_memberTexts (c : Condition) (cs : List Condition) :
    sc.source.eval (memberTexts sc (c :: cs)) =
      (group "AND" (sc.source.eval (members sc c))).toList ++ sc.source.eval (memberTexts sc cs) := by
  simp only [Source.eval, memberTexts, Render.bind_eq_bind, Render.eval_bind, Render.pure_eq_done,
    Render.eval_done]

theorem eval_entryTexts (key : Text) (o : Operand) (es : List (Text × Operand)) :
    sc.source.eval (entryTexts sc ((key, o) :: es)) =
      (sc.source.eval (operandText sc key o)).toList ++ sc.source.eval (entryTexts sc es) := by
  simp only [Source.eval, entryTexts, Render.bind_eq_bind, Render.eval_bind, Render.pure_eq_done,
    Render.eval_done]

theorem eval_operandText_group (key : Text) (c : Condition) :
    sc.source.eval (operandText sc key (.group c)) =
      if Key.isConnective key then group key (sc.source.eval (members sc c))
      else plainGroup (sc.source.eval (members sc c)) := by
  simp only [Source.eval, operandText, Render.bind_eq_bind, Render.eval_bind, Render.pure_eq_done,
    Render.eval_done]

theorem textOf_leaf (t : Text) : textOf [.leaf t] = t :=
  List.append_nil t

theorem eval_operandText_compare (key : Text) (x : Comparand) :
    sc.source.eval (operandText sc key (.compare x)) =
      (operandRow sc key (.compare x)).map textOf := by
  rw [operandText, operandRow]
  cases hk : Key.joint? key with
  | none =>
    rw [eval_leaf (by simp [Key.isConnective_eq, hk])]
    exact congrArg some (textOf_leaf _).symm
  | some e =>
    rw [eval_leaf_of_connective (by simp [Key.isConnective_eq, hk])]
    simpa only [List.map_map, Function.comp_def, textOf_leaf] using
      group_map_textOf hk (x.values.map fun v => [.leaf (sc.source.eval (groupValue sc v))])

theorem toList_map_textOf (row : Option (List Piece)) :
    (row.map textOf).toList = row.toList.map textOf := by
  cases row <;> rfl

mutual

/-- The members of a condition are the texts of its rows. -/
theorem eval_members : ∀ c : Condition,
    sc.source.eval (members sc c) = (rows sc c).map textOf
  | .bool b => by
    rw [members, rows, List.map_singleton, textOf_leaf]
    rfl
  | .raw sql => by
    simp only [members, rows, Text.isEmpty_trim, Source.eval, Render.pure_eq_done,
      Render.eval_done]
    split
    · rfl
    · rw [List.map_singleton, textOf_leaf]
  | .all cs => eval_memberTexts_eq cs
  | .entries es => eval_entryTexts_eq es

theorem eval_memberTexts_eq : ∀ cs : List Condition,
    sc.source.eval (memberTexts sc cs) = (memberRows sc cs).map textOf
  | [] => rfl
  | c :: cs => by
    have hk : Key.joint? "AND" = some (.and, false) := by decide
    rw [eval_memberTexts, memberRows, List.map_append, eval_members c, group_map_textOf hk,
      toList_map_textOf, eval_memberTexts_eq cs]

theorem eval_entryTexts_eq : ∀ es : List (Text × Operand),
    sc.source.eval (entryTexts sc es) = (entryRows sc es).map textOf
  | [] => rfl
  | (key, o) :: es => by
    rw [eval_entryTexts, entryRows, List.map_append, eval_operandText_eq key o,
      toList_map_textOf, eval_entryTexts_eq es]

theorem eval_operandText_eq (key : Text) : ∀ o : Operand,
    sc.source.eval (operandText sc key o) = (operandRow sc key o).map textOf
  | .compare x => eval_operandText_compare key x
  | .group c => by
    rw [eval_operandText_group, operandRow, Key.isConnective_eq, eval_members c]
    cases hk : Key.joint? key with
    | none => exact plainGroup_map_textOf _
    | some e => exact group_map_textOf hk _

end

end Members

/-- The rows that are written: without members, a text that holds of every row. -/
def writtenRows (sc : Scope) (c : Condition) : List (List Piece) :=
  if (rows sc c).isEmpty then [[.leaf "1 = 1"]] else rows sc c

/-- The pieces of a condition. -/
def pieces (sc : Scope) (c : Condition) : List Piece :=
  Piece.chain .and (writtenRows sc c)

theorem eval_clause_eq (sc : Scope) (head : Text) {c : Condition} (h : ownClause? c = none) :
    sc.source.eval (clause sc head c) =
      head ++ (if (sc.source.eval (members sc c)).isEmpty then "1 = 1"
        else Text.join " AND " (sc.source.eval (members sc c)) : Text) := by
  simp only [clause, h, Source.eval, Render.bind_eq_bind, Render.eval_bind,
    Render.pure_eq_done, Render.eval_done]
  rfl

/-- A condition is written as the text of its pieces. -/
theorem eval_clause (sc : Scope) (head : Text) {c : Condition} (h : ownClause? c = none) :
    sc.source.eval (clause sc head c) = head ++ textOf (pieces sc c) := by
  rw [eval_clause_eq sc head h, eval_members, List.isEmpty_map, pieces, writtenRows]
  split
  · rw [Piece.chain_singleton, textOf_leaf]
  · rw [textOf_chain]
    rfl

end Condition

end SqlComposer
