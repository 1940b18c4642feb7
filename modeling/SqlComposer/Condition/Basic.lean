import SqlComposer.Value

/-!
# Conditions

A condition is a truth value, a piece of SQL, a conjunction, or a row of entries, each of which
compares a key with something. A key is a field, with an operator behind it or not, or else one of
the boolean connectives, which joins what its entry holds.
-/

namespace SqlComposer

/-- What a field is compared with: one value or a list of values. -/
inductive Comparand where
  | one (v : Value)
  | many (vs : List Value)

/-- The values of a comparand. -/
def Comparand.values : Comparand → List Value
  | .one v => [v]
  | .many vs => vs

mutual

/-- A condition on the rows of a statement. -/
inductive Condition where
  /-- True of all rows, or of none. -/
  | bool (b : Bool)
  /-- A piece of SQL, in which only qualified names get quotes. -/
  | raw (sql : Text)
  /-- A conjunction. -/
  | all (members : List Condition)
  /-- A conjunction of entries with their keys, in order. -/
  | entries (es : List (Text × Operand))

/-- What an entry of a condition holds. -/
inductive Operand where
  | compare (x : Comparand)
  | group (c : Condition)

end

namespace Condition

/-- The condition without members. -/
def empty : Condition :=
  .all []

instance : Inhabited Condition := ⟨empty⟩

instance : Inhabited Operand := ⟨.group empty⟩

/-! ### Emptiness -/

mutual

/-- Whether a condition has no members: no entries, or only empty conditions and blank SQL. -/
def isEmpty : Condition → Bool
  | .bool _ => false
  | .raw sql => Text.blank sql
  | .all members => allEmpty members
  | .entries es => es.isEmpty

/-- Whether all conditions of a list are empty. -/
def allEmpty : List Condition → Bool
  | [] => true
  | c :: cs => isEmpty c && allEmpty cs

end

theorem allEmpty_eq_all (cs : List Condition) : allEmpty cs = cs.all isEmpty := by
  induction cs with
  | nil => rfl
  | cons c cs ih => simp [allEmpty, ih]

/-! ### Building -/

/-- A condition of one entry. -/
def entry (key : Text) (operand : Operand) : Condition :=
  .entries [(key, operand)]

/-- A field compared with one value. -/
def single (key : Text) (v : Value) : Condition :=
  entry key (.compare (.one v))

/-- The condition and a further entry. -/
def extend (c : Condition) (key : Text) (operand : Operand) : Condition :=
  match c with
  | .entries es => .entries (es ++ [(key, operand)])
  | c => if c.isEmpty then entry key operand else .all [c, entry key operand]

/-- A group joined by a boolean connective. -/
def connect (connective : Text) (c : Condition) : Condition :=
  entry connective (.group c)

/-- The conjunction of the conditions that are not empty. A single one is kept as it is. -/
def merge (cs : List Condition) : Condition :=
  match cs.filter fun c => !c.isEmpty with
  | [] => empty
  | [c] => c
  | cs => .all cs

end Condition

end SqlComposer
