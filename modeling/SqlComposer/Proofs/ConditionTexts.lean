import SqlComposer.Proofs.ConditionPieces

/-!
# Conditions that compare keys with texts

What is written for such a condition has two parts. Its shape, the pieces apart from what their
leaves say, does not depend on the texts, and its leaves are the comparisons in order.
-/

namespace SqlComposer

open Piece (leavesOf)

/-! ### Shapes of written formulas -/

namespace Piece

/-- A piece without what its leaf says. -/
def shape : Piece → Piece
  | .leaf _ => .leaf []
  | p => p

theorem map_shape_cell (negated : Bool) (ps : List Piece) :
    (cell negated ps).map shape = cell negated (ps.map shape) := by
  cases negated <;> simp [cell, shape]

theorem map_shape_chain (j : Joint) (rows : List (List Piece)) :
    (chain j rows).map shape = chain j (rows.map (List.map shape)) := by
  induction rows with
  | nil => rfl
  | cons ps rows ih =>
    cases rows with
    | nil => simp
    | cons qs rows =>
      rw [List.map_cons] at ih
      simp [chain_cons_cons, ih, shape]

theorem leavesOf_cell (negated : Bool) (ps : List Piece) :
    leavesOf (cell negated ps) = leavesOf ps := by
  cases negated <;> simp [cell, leavesOf]

theorem leavesOf_chain (j : Joint) (rows : List (List Piece)) :
    leavesOf (chain j rows) = rows.flatMap leavesOf := by
  induction rows with
  | nil => rfl
  | cons ps rows ih =>
    cases rows with
    | nil => simp
    | cons qs rows =>
      rw [chain_cons_cons, leavesOf_append, List.flatMap_cons, ← ih]
      rfl

end Piece

namespace Condition

theorem map_shape_groupRow (j : Joint) (negated : Bool) (rows : List (List Piece)) :
    groupRow j negated (rows.map (List.map Piece.shape)) =
      (groupRow j negated rows).map (List.map Piece.shape) := by
  match rows with
  | [] => rfl
  | [ps] => cases negated <;> simp [groupRow, Piece.map_shape_cell]
  | ps :: qs :: rows =>
    simp [groupRow, Piece.map_shape_cell, Piece.map_shape_chain, Function.comp_def]

theorem map_shape_plainRow (rows : List (List Piece)) :
    plainRow (rows.map (List.map Piece.shape)) = (plainRow rows).map (List.map Piece.shape) := by
  match rows with
  | [] => rfl
  | [ps] => rfl
  | ps :: qs :: rows =>
    simp [plainRow, Piece.map_shape_cell, Piece.map_shape_chain, Function.comp_def]

theorem leavesOf_groupRow (j : Joint) (negated : Bool) (rows : List (List Piece)) :
    (groupRow j negated rows).toList.flatMap leavesOf = rows.flatMap leavesOf := by
  match rows with
  | [] => rfl
  | [ps] => cases negated <;> simp [groupRow, Piece.leavesOf_cell]
  | ps :: qs :: rows =>
    simp [groupRow, Piece.leavesOf_cell, Piece.leavesOf_chain, List.flatMap_map]

theorem leavesOf_plainRow (rows : List (List Piece)) :
    (plainRow rows).toList.flatMap leavesOf = rows.flatMap leavesOf := by
  match rows with
  | [] => rfl
  | [ps] => simp [plainRow]
  | ps :: qs :: rows =>
    simp [plainRow, Piece.leavesOf_cell, Piece.leavesOf_chain, List.flatMap_map]

/-! ### Strings of conditions -/

/-- The empty text in place of a text. -/
def emptyText : Value → Value
  | .text _ => .text []
  | v => v

/-- A comparand with the empty text in place of a text. -/
def comparandEmptyText : Comparand → Comparand
  | .one v => .one (emptyText v)
  | .many vs => .many vs

/-- The text that a key is compared with, if it is one. -/
def textOperand (key : Text) : Comparand → List (Text × Text)
  | .one (.text t) => [(key, t)]
  | _ => []

mutual

/-- The condition with empty texts in place of those that keys are compared with. -/
def emptyTexts : Condition → Condition
  | .bool b => .bool b
  | .raw sql => .raw sql
  | .all cs => .all (memberEmptyTexts cs)
  | .entries es => .entries (entryEmptyTexts es)

def memberEmptyTexts : List Condition → List Condition
  | [] => []
  | c :: cs => emptyTexts c :: memberEmptyTexts cs

def entryEmptyTexts : List (Text × Operand) → List (Text × Operand)
  | [] => []
  | (key, o) :: es => (key, operandEmptyTexts o) :: entryEmptyTexts es

def operandEmptyTexts : Operand → Operand
  | .compare x => .compare (comparandEmptyText x)
  | .group c => .group (emptyTexts c)

end

mutual

/-- The keys that are compared with texts, and the texts. -/
def comparisons : Condition → List (Text × Text)
  | .bool _ | .raw _ => []
  | .all cs => memberComparisons cs
  | .entries es => entryComparisons es

def memberComparisons : List Condition → List (Text × Text)
  | [] => []
  | c :: cs => comparisons c ++ memberComparisons cs

def entryComparisons : List (Text × Operand) → List (Text × Text)
  | [] => []
  | (key, o) :: es => operandComparisons key o ++ entryComparisons es

def operandComparisons (key : Text) : Operand → List (Text × Text)
  | .compare x => textOperand key x
  | .group c => comparisons c

end

/-- The texts that keys are compared with. -/
def texts (c : Condition) : List Text :=
  (comparisons c).map Prod.snd

mutual

/-- Whether a condition is made of lists and groups in which keys are compared with texts. -/
def comparesTexts : Condition → Bool
  | .bool _ | .raw _ => false
  | .all cs => memberComparesTexts cs
  | .entries es => entryComparesTexts es

def memberComparesTexts : List Condition → Bool
  | [] => true
  | c :: cs => comparesTexts c && memberComparesTexts cs

def entryComparesTexts : List (Text × Operand) → Bool
  | [] => true
  | (_, o) :: es => operandComparesTexts o && entryComparesTexts es

def operandComparesTexts : Operand → Bool
  | .compare (.one (.text _)) => true
  | .compare _ => false
  | .group c => comparesTexts c

end

/-! ### Shapes do not depend on texts -/

section Shapes

variable (sc : Scope)

theorem map_shape_toList_append (row : Option (List Piece)) (rows : List (List Piece)) :
    (row.toList ++ rows).map (List.map Piece.shape) =
      (row.map (List.map Piece.shape)).toList ++ rows.map (List.map Piece.shape) := by
  cases row <;> rfl

mutual

theorem shape_emptyTexts : ∀ c : Condition,
    (rows sc c.emptyTexts).map (List.map Piece.shape) = (rows sc c).map (List.map Piece.shape)
  | .bool _ => rfl
  | .raw _ => rfl
  | .all cs => shape_memberEmptyTexts cs
  | .entries es => shape_entryEmptyTexts es

theorem shape_memberEmptyTexts : ∀ cs : List Condition,
    (memberRows sc (memberEmptyTexts cs)).map (List.map Piece.shape) =
      (memberRows sc cs).map (List.map Piece.shape)
  | [] => rfl
  | c :: cs => by
    rw [memberEmptyTexts, memberRows, memberRows, map_shape_toList_append, map_shape_toList_append,
      ← map_shape_groupRow, ← map_shape_groupRow, shape_emptyTexts c, shape_memberEmptyTexts cs]

theorem shape_entryEmptyTexts : ∀ es : List (Text × Operand),
    (entryRows sc (entryEmptyTexts es)).map (List.map Piece.shape) =
      (entryRows sc es).map (List.map Piece.shape)
  | [] => rfl
  | (key, o) :: es => by
    rw [entryEmptyTexts, entryRows, entryRows, map_shape_toList_append, map_shape_toList_append,
      shape_operandEmptyTexts key o, shape_entryEmptyTexts es]

theorem shape_operandEmptyTexts (key : Text) : ∀ o : Operand,
    (operandRow sc key (operandEmptyTexts o)).map (List.map Piece.shape) =
      (operandRow sc key o).map (List.map Piece.shape)
  | .compare x => by
    rw [operandEmptyTexts, operandRow, operandRow]
    cases Key.joint? key with
    | none => rfl
    | some e =>
      simp only
      rw [← map_shape_groupRow, ← map_shape_groupRow]
      cases x <;> rfl
  | .group c => by
    rw [operandEmptyTexts, operandRow, operandRow]
    cases Key.joint? key with
    | none =>
      simp only
      rw [← map_shape_plainRow, ← map_shape_plainRow, shape_emptyTexts c]
    | some e =>
      simp only
      rw [← map_shape_groupRow, ← map_shape_groupRow, shape_emptyTexts c]

end

end Shapes

/-! ### The comparisons are the leaves -/

section Leaves

variable {sc : Scope}

/-- The comparison of a key with a text. -/
def textComparison (sc : Scope) (e : Text × Text) : Text :=
  comparisonText sc e.1 (.one (.text e.2))

mutual

theorem leavesOf_rows : ∀ c : Condition, comparesTexts c = true →
    (∀ e ∈ comparisons c, Key.isConnective e.1 = false) →
    (rows sc c).flatMap leavesOf = (comparisons c).map (textComparison sc)
  | .all cs, h, hk => leavesOf_memberRows cs h hk
  | .entries es, h, hk => leavesOf_entryRows es h hk

theorem leavesOf_memberRows : ∀ cs : List Condition, memberComparesTexts cs = true →
    (∀ e ∈ memberComparisons cs, Key.isConnective e.1 = false) →
    (memberRows sc cs).flatMap leavesOf = (memberComparisons cs).map (textComparison sc)
  | [], _, _ => rfl
  | c :: cs, h, hk => by
    obtain ⟨hc, hcs⟩ := Bool.and_eq_true_iff.1 h
    obtain ⟨hkc, hkcs⟩ := List.forall_mem_append.1 hk
    rw [memberRows, memberComparisons, List.flatMap_append, List.map_append, leavesOf_groupRow,
      leavesOf_rows c hc hkc, leavesOf_memberRows cs hcs hkcs]

theorem leavesOf_entryRows : ∀ es : List (Text × Operand), entryComparesTexts es = true →
    (∀ e ∈ entryComparisons es, Key.isConnective e.1 = false) →
    (entryRows sc es).flatMap leavesOf = (entryComparisons es).map (textComparison sc)
  | [], _, _ => rfl
  | (key, o) :: es, h, hk => by
    obtain ⟨ho, hes⟩ := Bool.and_eq_true_iff.1 h
    obtain ⟨hko, hkes⟩ := List.forall_mem_append.1 hk
    rw [entryRows, entryComparisons, List.flatMap_append, List.map_append,
      leavesOf_operandRow key o ho hko, leavesOf_entryRows es hes hkes]

theorem leavesOf_operandRow (key : Text) : ∀ o : Operand, operandComparesTexts o = true →
    (∀ e ∈ operandComparisons key o, Key.isConnective e.1 = false) →
    (operandRow sc key o).toList.flatMap leavesOf =
      (operandComparisons key o).map (textComparison sc)
  | .compare (.one (.text t)), _, hk => by
    have hj : Key.joint? key = none := by
      simpa [Key.isConnective_eq] using hk (key, t) List.mem_cons_self
    rw [operandRow, hj]
    rfl
  | .group c, h, hk => by
    rw [operandRow, operandComparisons]
    cases Key.joint? key with
    | none => exact (leavesOf_plainRow _).trans (leavesOf_rows c h hk)
    | some e => exact (leavesOf_groupRow _ _ _).trans (leavesOf_rows c h hk)

end

mutual

theorem comparisons_emptyTexts : ∀ c : Condition,
    comparisons c.emptyTexts = (comparisons c).map fun e => (e.1, [])
  | .bool _ => rfl
  | .raw _ => rfl
  | .all cs => memberComparisons_emptyTexts cs
  | .entries es => entryComparisons_emptyTexts es

theorem memberComparisons_emptyTexts : ∀ cs : List Condition,
    memberComparisons (memberEmptyTexts cs) = (memberComparisons cs).map fun e => (e.1, [])
  | [] => rfl
  | c :: cs => by
    rw [memberEmptyTexts, memberComparisons, memberComparisons, List.map_append,
      comparisons_emptyTexts c, memberComparisons_emptyTexts cs]

theorem entryComparisons_emptyTexts : ∀ es : List (Text × Operand),
    entryComparisons (entryEmptyTexts es) = (entryComparisons es).map fun e => (e.1, [])
  | [] => rfl
  | (key, o) :: es => by
    rw [entryEmptyTexts, entryComparisons, entryComparisons, List.map_append,
      operandComparisons_emptyTexts key o, entryComparisons_emptyTexts es]

theorem operandComparisons_emptyTexts (key : Text) : ∀ o : Operand,
    operandComparisons key (operandEmptyTexts o) =
      (operandComparisons key o).map fun e => (e.1, [])
  | .compare (.one v) => by cases v <;> rfl
  | .compare (.many _) => rfl
  | .group c => comparisons_emptyTexts c

end

end Leaves

end Condition

end SqlComposer
