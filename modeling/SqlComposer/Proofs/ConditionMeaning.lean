import SqlComposer.Proofs.ConditionPieces

/-!
# Conditions mean what they say

A condition stands for a formula: its lists are conjunctions, and its groups are joined and negated
as their keys say. `Source.conditions_denotes` compares the text of a condition with that formula:
however the text is read, it has the value of the formula, so no parenthesis is missing and no
negation stands in the wrong place.
-/

namespace SqlComposer

open Formula (joinAll)
open Piece (textOf leavesOf Guarded)

namespace Condition

/-! ### What a condition stands for -/

mutual

/-- The formulas that a condition is the conjunction of. -/
def formulas (sc : Scope) : Condition → List Formula
  | .bool b => [.leaf (if b then "1 = 1" else "0 = 1" : Text)]
  | .raw sql => if Text.blank sql then [] else [.leaf (sc.raw (Text.trim sql))]
  | .all cs => memberFormulas sc cs
  | .entries es => entryFormulas sc es

/-- One formula for each member of a conjunction that has any. -/
def memberFormulas (sc : Scope) : List Condition → List Formula
  | [] => []
  | c :: cs => (joinAll .and (formulas sc c)).toList ++ memberFormulas sc cs

/-- One formula for each entry that has any. -/
def entryFormulas (sc : Scope) : List (Text × Operand) → List Formula
  | [] => []
  | (key, o) :: es => (operandFormula sc key o).toList ++ entryFormulas sc es

/-- What an entry holds is joined and negated as its connective says. Under other keys a group is a
conjunction, and values are compared. -/
def operandFormula (sc : Scope) (key : Text) : Operand → Option Formula
  | .compare x =>
    match Key.joint? key with
    | some (j, negated) =>
      joinAll j (x.values.map fun v => .negateIf negated (.leaf (sc.source.eval (groupValue sc v))))
    | none => some (.leaf (comparisonText sc key x))
  | .group c =>
    match Key.joint? key with
    | some (j, negated) => joinAll j ((formulas sc c).map (Formula.negateIf negated))
    | none => joinAll .and (formulas sc c)

end

/-- The formula of a condition. Without members it holds of every row. -/
def formula (sc : Scope) (c : Condition) : Formula :=
  (joinAll .and (formulas sc c)).getD (.leaf "1 = 1")

/-! ### Rows say what their formulas say -/

/-- Whether a row of pieces, as the member of a conjunction, says what a formula says. -/
structure Says (ps : List Piece) (f : Formula) : Prop where
  guarded : Guarded ps
  joins : Joins .and ps f

theorem says_leaf (t : Text) : Says [.leaf t] (.leaf t) :=
  ⟨Piece.guarded_leaf t, .leaf .and t⟩

/-- Rows in parentheses with a connective between them say what their formulas say joined. -/
theorem joins_cells {j : Joint} {negated : Bool} {rows : List (List Piece)} {fs : List Formula}
    (h : List.Forall₂ Says rows fs) {f : Formula}
    (hf : joinAll j (fs.map (Formula.negateIf negated)) = some f) :
    Joins j.connective (Piece.chain j (rows.map (Piece.cell negated))) f := by
  refine Joins.chain ?_ hf
  rw [List.forall₂_map_left_iff, List.forall₂_map_right_iff]
  exact h.imp fun _ _ hs => hs.joins.cell negated j.connective

theorem guarded_of_mem {rows : List (List Piece)} {fs : List Formula}
    (h : List.Forall₂ Says rows fs) : ∀ ps ∈ rows, Guarded ps := by
  induction h with
  | nil => simp
  | cons hs _ ih => exact List.forall_mem_cons.2 ⟨hs.guarded, ih⟩

theorem says_groupRow (j : Joint) (negated : Bool) {rows : List (List Piece)} {fs : List Formula}
    (h : List.Forall₂ Says rows fs) :
    Option.Rel Says (groupRow j negated rows) (joinAll j (fs.map (Formula.negateIf negated))) := by
  match rows, fs, h with
  | [], [], .nil => exact .none
  | [ps], [f], .cons hs .nil =>
    cases negated with
    | false => exact .some hs
    | true => exact .some ⟨hs.guarded.cell true, hs.joins.cell true .and⟩
  | ps :: qs :: rows, f :: g :: fs, h =>
    have hg := Piece.guarded_chain j negated (guarded_of_mem h) (List.cons_ne_nil _ _)
    exact .some ⟨hg.cell false, (joins_cells h rfl).cell false .and⟩

theorem map_negateIf_false (fs : List Formula) : fs.map (Formula.negateIf false) = fs :=
  List.map_id fs

theorem says_plainRow {rows : List (List Piece)} {fs : List Formula}
    (h : List.Forall₂ Says rows fs) : Option.Rel Says (plainRow rows) (joinAll .and fs) := by
  match rows, fs, h with
  | [], [], .nil => exact .none
  | [ps], [f], .cons hs .nil => exact .some hs
  | ps :: qs :: rows, f :: g :: fs, h =>
    have hg := Piece.guarded_chain .and false (guarded_of_mem h) (List.cons_ne_nil _ _)
    rw [← map_negateIf_false (f :: g :: fs)]
    exact .some ⟨hg, joins_cells (j := .and) h rfl⟩

theorem forall₂_toList {row : Option (List Piece)} {f : Option Formula}
    (h : Option.Rel Says row f) : List.Forall₂ Says row.toList f.toList := by
  cases h with
  | some h => exact .cons h .nil
  | none => exact .nil

variable {sc : Scope}

mutual

theorem says_rows : ∀ c : Condition, List.Forall₂ Says (rows sc c) (formulas sc c)
  | .bool b => .cons (says_leaf _) .nil
  | .raw sql => by
    rw [rows, formulas]
    split
    · exact .nil
    · exact .cons (says_leaf _) .nil
  | .all cs => says_memberRows cs
  | .entries es => says_entryRows es

theorem says_memberRows : ∀ cs : List Condition,
    List.Forall₂ Says (memberRows sc cs) (memberFormulas sc cs)
  | [] => .nil
  | c :: cs => by
    have hc := says_groupRow .and false (says_rows c)
    rw [map_negateIf_false] at hc
    rw [memberRows, memberFormulas]
    exact List.rel_append (forall₂_toList hc) (says_memberRows cs)

theorem says_entryRows : ∀ es : List (Text × Operand),
    List.Forall₂ Says (entryRows sc es) (entryFormulas sc es)
  | [] => .nil
  | (key, o) :: es => by
    rw [entryRows, entryFormulas]
    exact List.rel_append (forall₂_toList (says_operandRow key o)) (says_entryRows es)

theorem says_operandRow (key : Text) : ∀ o : Operand,
    Option.Rel Says (operandRow sc key o) (operandFormula sc key o)
  | .compare x => by
    rw [operandRow, operandFormula]
    cases Key.joint? key with
    | none => exact .some (says_leaf _)
    | some e =>
      have hs : List.Forall₂ Says (x.values.map fun v => [.leaf (sc.source.eval (groupValue sc v))])
          (x.values.map fun v => .leaf (sc.source.eval (groupValue sc v))) := by
        rw [List.forall₂_map_left_iff, List.forall₂_map_right_iff, List.forall₂_same]
        exact fun v _ => says_leaf _
      simpa only [List.map_map, Function.comp_def] using says_groupRow e.1 e.2 hs
  | .group c => by
    rw [operandRow, operandFormula]
    cases Key.joint? key with
    | none => exact says_plainRow (says_rows c)
    | some e => exact says_groupRow e.1 e.2 (says_rows c)

end

/-! ### Conditions -/

/-- Whether a text is a conjunction of members, in which connectives stand between parentheses only,
that says what a formula says: it has the leaves of the formula, and it has the value of the formula
whichever way it is read. -/
def Denotes (t : Text) (f : Formula) : Prop :=
  ∃ rows : List (List Piece), (∀ ps ∈ rows, Guarded ps) ∧ textOf (Piece.chain .and rows) = t ∧
    leavesOf (Piece.chain .and rows) = f.leaves ∧
      (∃ g, Reads .formula (Piece.chain .and rows) g) ∧
        ∀ g, Reads .formula (Piece.chain .and rows) g → ∀ v, g.eval v = f.eval v

theorem joins_pieces (sc : Scope) (c : Condition) :
    (∀ ps ∈ writtenRows sc c, Guarded ps) ∧ Joins .and (pieces sc c) (formula sc c) := by
  have h : List.Forall₂ Says (rows sc c) (formulas sc c) := says_rows c
  rw [pieces, formula, writtenRows]
  generalize rows sc c = rs, formulas sc c = fs at h
  cases h with
  | nil => exact ⟨by simpa using Piece.guarded_leaf _, .leaf .and _⟩
  | cons hs ht =>
    have h := List.Forall₂.cons hs ht
    exact ⟨guarded_of_mem h, Joins.chain (j := .and) (h.imp fun _ _ hs => hs.joins) rfl⟩

end Condition

/-- A condition is written so that it says what its formula says. -/
theorem Source.conditions_denotes (s : Source) (c : Condition) (quoting whereClause : Bool)
    (model : Option Model) (h : Condition.ownClause? c = none) :
    ∃ body, s.eval (s.conditions c quoting whereClause model) =
        (if whereClause then " WHERE " else [] : Text) ++ body ∧
      Condition.Denotes body (c.formula ⟨s, quoting, model⟩) := by
  obtain ⟨hg, hj⟩ := Condition.joins_pieces ⟨s, quoting, model⟩ c
  refine ⟨_, Condition.eval_clause ⟨s, quoting, model⟩ _ h, _, hg, rfl, hj.leaves, hj.readable, ?_⟩
  exact fun g hr v => hj.eval_eq hr v

theorem Source.conditions_denotes_negated_group :
    let c : Condition := .entries
      [("Or not", .group (.all [.raw " a ", .all [.raw "b", .raw "", .bool true]])),
        ("k", .group (.all [.raw "c", .raw " "]))]
    Condition.ownClause? c = none ∧
      Condition.Denotes "(NOT (a) OR NOT (((b) AND (1 = 1)))) AND c"
        (.join .and
          (.join .or (.not (.leaf "a")) (.not (.join .and (.leaf "b") (.leaf "1 = 1"))))
          (.leaf "c")) := by
  intro c
  obtain ⟨body, hb, hd⟩ := Source.conditions_denotes {} c false false none rfl
  have ht : "(NOT (a) OR NOT (((b) AND (1 = 1)))) AND c".toList = body := hb
  exact ⟨rfl, ht ▸ hd⟩

end SqlComposer
