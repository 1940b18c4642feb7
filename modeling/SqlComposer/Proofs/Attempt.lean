import Mathlib.Control.Lawful
import SqlComposer.DataSource
import SqlComposer.Literal

/-!
# What compositions come to

A composition is evaluated step by step. One that may fail goes on from step to step as long as none
fails.
-/

namespace SqlComposer.Source

variable {ε α β : Type} {s : Source}

theorem eval_pure (a : α) : s.eval (pure a : Render α) = a := rfl

theorem eval_ask (identifier : Text) : s.eval (Render.ask identifier) = s.dialect.quoteName identifier :=
  rfl

theorem eval_bind (x : Render α) (f : α → Render β) :
    s.eval (x >>= f) = s.eval (f (s.eval x)) :=
  Render.eval_bind _ _ x f

theorem eval_each (f : α → Render β) (as : List α) :
    s.eval (Render.each f as) = as.map fun a => s.eval (f a) :=
  Render.eval_each _ _ f as

/-- The values of a list have one type in common. -/
theorem eval_values (s : Source) (vs : List Value) (column : Option ColumnType) :
    s.eval (s.values vs column) =
      vs.map fun v => s.eval (s.value v (some (column.getD (Value.inferredListType vs)))) :=
  eval_each _ vs

/-! ### Compositions that may fail -/

/-- A composition goes on behind another as outcomes do. -/
theorem eval_attempt (x : ExceptT ε Render α) (f : α → ExceptT ε Render β) :
    s.eval (x >>= f).run = s.eval x.run >>= fun a => s.eval (f a).run := by
  rw [ExceptT.run_bind, Render.bind_eq_bind, Source.eval, Render.eval_bind]
  unfold Source.eval
  cases x.run.eval s.dialect.quoteName s.fieldList <;> rfl

theorem eval_attempt_ok (a : α) (f : α → ExceptT ε Render β) :
    s.eval (ExceptT.mk (pure (.ok a)) >>= f : ExceptT ε Render β).run = s.eval (f a).run := rfl

theorem eval_attempt_lift (x : Render α) (f : α → ExceptT ε Render β) :
    s.eval (liftM x >>= f : ExceptT ε Render β).run = s.eval (f (s.eval x)).run := by
  have h : (liftM x >>= f : ExceptT ε Render β).run = x.bind fun a => (f a).run := by
    rw [ExceptT.run_bind, ExceptT.run_monadLift, monadLift_self, map_eq_pure_bind, bind_assoc]
    rfl
  rw [h, Source.eval, Render.eval_bind]
  rfl

theorem eval_attempt_liftM (x : Render α) :
    s.eval (liftM x : ExceptT ε Render α).run = .ok (s.eval x) := by
  rw [ExceptT.run_monadLift, monadLift_self, map_eq_pure_bind, Render.bind_eq_bind, Source.eval,
    Render.eval_bind]
  rfl

theorem eval_attempt_bind {x : ExceptT ε Render α} {a : α} (hx : s.eval x.run = .ok a)
    (f : α → ExceptT ε Render β) : s.eval (x >>= f).run = s.eval (f a).run := by
  rw [eval_attempt, hx]
  rfl

/-- A composition goes on behind another only if that does not fail. -/
theorem exists_of_eval_bind {x : ExceptT ε Render α} {f : α → ExceptT ε Render β} {b : β}
    (h : s.eval (x >>= f).run = .ok b) :
    ∃ a, s.eval x.run = .ok a ∧ s.eval (f a).run = .ok b := by
  rw [eval_attempt] at h
  cases hx : s.eval x.run with
  | error e =>
    rw [hx] at h
    cases h
  | ok a =>
    rw [hx] at h
    exact ⟨a, rfl, h⟩

end SqlComposer.Source
