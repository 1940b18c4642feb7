import SqlComposer.Proofs.TableDefinition

/-!
# Migrations of single tables

A migration that is asked for one table writes the change of that table. The migration of all tables
is made of these: it writes what each of them writes, one after another, and fails with the error of
the first of them that fails.
-/

namespace SqlComposer

/-! ### Rows of steps that may fail -/

section Steps

variable {ε α β : Type} {f : α → Except ε β} {as : List α} {bs : List β} {e : ε}

/-- A row of steps gives the result of each step. -/
theorem mapM_eq_ok_iff :
    as.mapM f = .ok bs ↔ List.Forall₂ (fun a b => f a = .ok b) as bs := by
  induction as generalizing bs with
  | nil => simp [pure, Except.pure, eq_comm]
  | cons a as ih =>
    rw [List.mapM_cons, List.forall₂_cons_left_iff]
    simp only [← ih]
    cases f a with
    | error e => simp [bind, Except.bind]
    | ok b => cases as.mapM f <;> simp [bind, Except.bind, pure, Except.pure, eq_comm]

/-- The first item with a property is in front, or the item in front has what the others before it
have. -/
theorem exists_first_cons_iff {p q : α → Prop} {a : α} :
    (∃ front x back, a :: as = front ++ x :: back ∧ (∀ y ∈ front, p y) ∧ q x) ↔
      q a ∨ p a ∧ ∃ front x back, as = front ++ x :: back ∧ (∀ y ∈ front, p y) ∧ q x := by
  constructor
  · rintro ⟨front, x, back, h, hp, hq⟩
    cases front with
    | nil =>
      obtain ⟨rfl, -⟩ := List.cons.inj h
      exact .inl hq
    | cons y front =>
      obtain ⟨rfl, rfl⟩ := List.cons.inj h
      obtain ⟨ha, hp⟩ := List.forall_mem_cons.1 hp
      exact .inr ⟨ha, front, x, back, rfl, hp, hq⟩
  · rintro (hq | ⟨ha, front, x, back, rfl, hp, hq⟩)
    · exact ⟨[], a, as, rfl, by simp, hq⟩
    · exact ⟨a :: front, x, back, rfl, List.forall_mem_cons.2 ⟨ha, hp⟩, hq⟩

/-- A row of steps fails with the error of the first step that fails. -/
theorem mapM_eq_error_iff :
    as.mapM f = .error e ↔
      ∃ front a back, as = front ++ a :: back ∧ (∀ x ∈ front, ∃ b, f x = .ok b) ∧
        f a = .error e := by
  induction as with
  | nil => simp [pure, Except.pure]
  | cons a as ih =>
    rw [List.mapM_cons, exists_first_cons_iff, ← ih]
    cases f a with
    | error e' => simp [bind, Except.bind]
    | ok b => cases as.mapM f <;> simp [bind, Except.bind, pure, Except.pure]

theorem mapM_congr {g : α → Except ε β} (h : ∀ a ∈ as, f a = g a) : as.mapM f = as.mapM g := by
  induction as with
  | nil => rfl
  | cons a as ih =>
    obtain ⟨ha, has⟩ := List.forall_mem_cons.1 h
    rw [List.mapM_cons, List.mapM_cons, ha, ih has]

end Steps

namespace Source

variable {s : Source} {d : SchemaDiff} {name : Text} {change : TableChange}

theorem eval_eachTable {α β : Type} (f : α → Migration β) (as : List α) :
    s.eval (eachTable f as).run = as.mapM fun a => s.eval (f a).run := by
  induction as with
  | nil => rfl
  | cons a as ih =>
    rw [List.mapM_cons, ← ih, eachTable, eval_attempt]
    congr 1
    funext b
    rw [eval_attempt]
    rfl

/-! ### One table and all tables -/

/-- The texts of changes that are not empty, with a blank line between them. -/
def joinChanges (texts : List Text) : Text :=
  Text.join "\n\n" (texts.filter fun sql => !sql.isEmpty)

theorem joinChanges_singleton (text : Text) : joinChanges [text] = text := by
  cases text <;> simp [joinChanges, Text.join]

/-- The texts of some changes, if all of them have one. -/
theorem eval_changes (changes : List (Text × TableChange)) :
    s.eval (do
      let statements ← eachTable s.changeTable changes
      pure (joinChanges statements) : Migration Text).run =
        (changes.mapM fun e => s.eval (s.changeTable e).run).map joinChanges := by
  rw [eval_attempt, eval_eachTable]
  cases changes.mapM fun e => s.eval (s.changeTable e).run <;> rfl

/-- Asked for one table, a migration writes the change of that table. -/
theorem eval_alterSchema_some (hc : d.tables.get? name = some change) :
    s.eval (s.alterSchema d (some name)).run = s.eval (s.changeTable (name, change)).run := by
  have h : s.alterSchema d (some name) = (do
      let statements ← eachTable s.changeTable [(name, change)]
      pure (joinChanges statements)) := by
    simp only [alterSchema, hc]
    rfl
  rw [h, eval_changes, List.mapM_cons, List.mapM_nil]
  cases s.eval (s.changeTable (name, change)).run with
  | error e => rfl
  | ok text => exact congrArg Except.ok (joinChanges_singleton text)

/-- The migration of all tables puts those of single tables together. -/
theorem eval_alterSchema_none (s : Source) (d : SchemaDiff) :
    s.eval (s.alterSchema d none).run =
      (d.tables.keys.mapM fun name =>
        s.eval (s.alterSchema d (some name)).run).map joinChanges := by
  have h : s.alterSchema d none = (do
      let statements ← eachTable s.changeTable d.tables.entries
      pure (joinChanges statements)) := rfl
  have hsome : ∀ e ∈ d.tables.entries,
      s.eval (s.alterSchema d (some e.1)).run = s.eval (s.changeTable e).run := by
    intro e he
    exact eval_alterSchema_some (OrderedMap.get?_eq_some_iff.2 he)
  rw [h, eval_changes, OrderedMap.keys, List.mapM_map]
  exact congrArg (Except.map joinChanges) (mapM_congr fun e he => (hsome e he).symm)

/-! ### Empty texts -/

theorem join_cons_ne_nil (sep : Text) {t : Text} (ht : t ≠ []) (ts : List Text) :
    Text.join sep (t :: ts) ≠ [] := by
  cases ts with
  | nil => simpa using ht
  | cons u us => simp [Text.join_cons_cons, ht]

theorem renderTable_ne_nil (c : Clauses) : c.renderTable ≠ [] := by
  have hword : "CREATE TABLE ".toList ≠ [] := by decide
  unfold Clauses.renderTable
  dsimp only
  intro h
  simp only [List.append_eq_nil_iff] at h
  exact hword h.1.1.1.1.1.1

theorem tableDefinition_ne_nil (t : Table) : s.eval (s.tableDefinition t) ≠ [] := by
  rw [eval_tableDefinition]
  exact join_cons_ne_nil _ (renderTable_ne_nil _) _

theorem createTable_ne_nil (t : Table) : s.eval (s.createTable t).run ≠ .ok [] := by
  intro h
  obtain ⟨-, -, h⟩ := exists_of_eval_bind h
  rw [eval_attempt_liftM] at h
  exact tableDefinition_ne_nil t (Except.ok.inj h)

theorem dropTable_ne_nil (n : Text) : s.eval (s.dropTable n) ≠ [] := by
  simp only [dropTable, eval_bind, eval_pure]
  split <;> simp

/-- A change without a text is an alteration. -/
theorem exists_alter_of_empty (h : s.eval (s.changeTable (name, change)).run = .ok []) :
    ∃ d, change = .alter d := by
  cases change with
  | create t => exact absurd h (createTable_ne_nil t)
  | drop t =>
    have hd : s.eval (s.changeTable (name, .drop t)).run = .ok (s.eval (s.dropTable name)) :=
      eval_attempt_liftM _
    exact absurd (Except.ok.inj (hd.symm.trans h)) (dropTable_ne_nil name)
  | alter d => exact ⟨d, rfl⟩

/-- The migration of all tables has a text exactly if those of single tables have one, and then it
is these texts in order, empty ones left out; otherwise it fails with the error of the first table
of which the migration fails. Only the alteration of a table can come out empty. -/
theorem alterSchema_none_iff (s : Source) (d : SchemaDiff) :
    (∀ sql, s.eval (s.alterSchema d none).run = .ok sql ↔
      ∃ texts : List Text, List.Forall₂
          (fun name text => s.eval (s.alterSchema d (some name)).run = .ok text)
          d.tables.keys texts ∧
        sql = Text.join "\n\n" (texts.filter fun text => !text.isEmpty)) ∧
      (∀ e, s.eval (s.alterSchema d none).run = .error e ↔
        ∃ front name back, d.tables.keys = front ++ name :: back ∧
          (∀ n ∈ front, ∃ text, s.eval (s.alterSchema d (some n)).run = .ok text) ∧
          s.eval (s.alterSchema d (some name)).run = .error e) ∧
      ∀ name ∈ d.tables.keys, s.eval (s.alterSchema d (some name)).run = .ok [] →
        ∃ changes, d.tables.get? name = some (.alter changes) := by
  rw [eval_alterSchema_none]
  refine ⟨fun sql => ?_, fun e => ?_, fun name hn h => ?_⟩
  · simp only [← mapM_eq_ok_iff]
    cases d.tables.keys.mapM fun name => s.eval (s.alterSchema d (some name)).run <;>
      simp [Except.map, joinChanges, eq_comm]
  · rw [← mapM_eq_error_iff]
    cases d.tables.keys.mapM fun name => s.eval (s.alterSchema d (some name)).run <;>
      simp [Except.map]
  · obtain ⟨change, hc⟩ := OrderedMap.mem_keys_iff_get?.1 hn
    rw [eval_alterSchema_some hc] at h
    obtain ⟨changes, rfl⟩ := exists_alter_of_empty h
    exact ⟨changes, hc⟩

end Source

end SqlComposer
