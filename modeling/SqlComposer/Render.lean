import SqlComposer.OrderedMap
import SqlComposer.Text.Basic

/-!
# Rendering

Composing a piece of SQL asks for quoted names and for field lists, whose answers a data source may
remember from earlier. A `Render` describes such a composition without saying where the answers
come from: it is done, or it asks and goes on with the answer. `Render.run` answers the questions in
any monad, in the order in which they are asked; `Render.eval` answers them by two pure functions.
-/

namespace SqlComposer

/-- A request for the select list of a model: all that the answer depends on, apart from the
settings of the data source. -/
structure FieldRequest where
  /-- The name that qualifies the fields. -/
  aliasName : Text
  modelName : Text
  modelAlias : Text
  table : Text
  columns : List Text
  virtualFields : OrderedMap Text Text
  /-- The fields asked for; none for all. -/
  requested : List Text
  quoting : Bool
deriving DecidableEq

/-- A composition that ends in a value of type `α`. -/
inductive Render (α : Type) where
  | done (a : α)
  /-- Asks for a name in quotes. -/
  | name (identifier : Text) (next : Text → Render α)
  /-- Asks for a select list. -/
  | fields (request : FieldRequest) (next : List Text → Render α)

namespace Render

variable {α β γ : Type}

/-- Goes on with the result of a composition. -/
def bind : Render α → (α → Render β) → Render β
  | .done a, f => f a
  | .name t k, f => .name t fun q => (k q).bind f
  | .fields r k, f => .fields r fun l => (k l).bind f

instance : Monad Render where
  pure := .done
  bind := bind

/-- Asks for a name in quotes. -/
def ask (identifier : Text) : Render Text :=
  .name identifier .done

/-- Asks for a select list. -/
def askFields (request : FieldRequest) : Render (List Text) :=
  .fields request .done

/-- The results of composing the items of a list one after another. -/
def each (f : α → Render β) : List α → Render (List β)
  | [] => pure []
  | a :: as => do
    let b ← f a
    let bs ← each f as
    pure (b :: bs)

/-! ### Answering -/

/-- Answers the questions of a composition in a monad. -/
def run {m : Type → Type} [Monad m] (onName : Text → m Text)
    (onFields : FieldRequest → m (List Text)) : Render α → m α
  | .done a => pure a
  | .name t k => do
    let q ← onName t
    (k q).run onName onFields
  | .fields r k => do
    let l ← onFields r
    (k l).run onName onFields

/-- Answers the questions of a composition by functions. -/
def eval (onName : Text → Text) (onFields : FieldRequest → List Text) : Render α → α
  | .done a => a
  | .name t k => (k (onName t)).eval onName onFields
  | .fields r k => (k (onFields r)).eval onName onFields

section Laws

variable (onName : Text → Text) (onFields : FieldRequest → List Text)

@[simp] theorem pure_eq_done (a : α) : (pure a : Render α) = .done a := rfl

@[simp] theorem bind_eq_bind (x : Render α) (f : α → Render β) : (x >>= f) = x.bind f := rfl

@[simp] theorem eval_done (a : α) : (Render.done a).eval onName onFields = a := rfl

@[simp] theorem eval_ask (t : Text) : (ask t).eval onName onFields = onName t := rfl

@[simp] theorem eval_askFields (r : FieldRequest) :
    (askFields r).eval onName onFields = onFields r := rfl

@[simp] theorem eval_bind (x : Render α) (f : α → Render β) :
    (x.bind f).eval onName onFields = (f (x.eval onName onFields)).eval onName onFields := by
  induction x with
  | done a => rfl
  | name t k ih => exact ih _
  | fields r k ih => exact ih _

@[simp] theorem eval_each (f : α → Render β) (as : List α) :
    (each f as).eval onName onFields = as.map fun a => (f a).eval onName onFields := by
  induction as with
  | nil => rfl
  | cons a as ih => simp [each, ih]

theorem bind_assoc (x : Render α) (f : α → Render β) (g : β → Render γ) :
    (x.bind f).bind g = x.bind fun a => (f a).bind g := by
  induction x with
  | done a => rfl
  | name t k ih => simp only [bind, ih]
  | fields r k ih => simp only [bind, ih]

theorem bind_done (x : Render α) : x.bind .done = x := by
  induction x with
  | done a => rfl
  | name t k ih => simp only [bind, ih]
  | fields r k ih => simp only [bind, ih]

end Laws

instance : LawfulMonad Render :=
  LawfulMonad.mk' Render bind_done (fun _ _ => rfl) bind_assoc

end Render

end SqlComposer
