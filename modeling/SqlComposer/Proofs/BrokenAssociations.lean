import SqlComposer.Proofs.ReadPlan

/-!
# Plans that fail

A plan goes through the associations of a model in order, and ends at the first that is broken: one
whose model is not known, or whose key is blank although a query needs it. Nothing else makes it
fail. What is asked on the way does not matter, so this holds whatever the data source remembers.
-/

namespace SqlComposer

/-! ### Results whatever the answers -/

namespace Render

variable {α β : Type} {P : α → Prop} {Q : β → Prop} {x : Render α}

/-- Whether a composition ends in a result with a property, whatever is answered to its
questions. -/
def Returns (P : α → Prop) : Render α → Prop
  | .done a => P a
  | .name _ next => ∀ q, (next q).Returns P
  | .fields _ next => ∀ l, (next l).Returns P

theorem Returns.bind {f : α → Render β} (hx : x.Returns P) (hf : ∀ a, P a → (f a).Returns Q) :
    (x.bind f).Returns Q := by
  induction x with
  | done a => exact hf a hx
  | name t next ih => exact fun q => ih q (hx q)
  | fields r next ih => exact fun l => ih l (hx l)

theorem returns_of_forall (h : ∀ a, P a) (x : Render α) : x.Returns P := by
  induction x with
  | done a => exact h a
  | name t next ih => exact ih
  | fields r next ih => exact ih

/-- Answers from a memory are answers. -/
theorem Returns.run {σ : Type} {onName : Text → StateM σ Text}
    {onFields : FieldRequest → StateM σ (List Text)} (h : x.Returns P) (m : σ) :
    P ((x.run onName onFields).run m).1 := by
  induction x generalizing m with
  | done a => exact h
  | name t next ih => exact ih _ (h _) _
  | fields r next ih => exact ih _ (h _) _

end Render

/-! ### Errors -/

section Outcome

variable {ε α β : Type} {e e' : Option ε}

/-- Whether an outcome is the error that is given, or a result if none is. -/
def Outcome (e : Option ε) (r : Except ε α) : Prop :=
  match e with
  | some e => r = .error e
  | none => ∃ a, r = .ok a

theorem Outcome.eq_error_iff {r : Except ε α} (h : Outcome e r) (err : ε) :
    r = .error err ↔ e = some err := by
  cases e with
  | some err' =>
    rw [show r = .error err' from h]
    simp
  | none =>
    obtain ⟨a, rfl⟩ := h
    simp

/-- Of two steps the first error counts. -/
theorem Outcome.bind {x : ExceptT ε Render α} {f : α → ExceptT ε Render β}
    (hx : x.run.Returns (Outcome e)) (hf : ∀ a, (f a).run.Returns (Outcome e')) :
    (x >>= f).run.Returns (Outcome (e.or e')) := by
  rw [ExceptT.run_bind, Render.bind_eq_bind]
  apply Render.Returns.bind hx
  intro r hr
  cases e with
  | some err =>
    rw [show r = .error err from hr]
    exact rfl
  | none =>
    obtain ⟨a, rfl⟩ := hr
    exact hf a

theorem Outcome.pure (a : α) : (Pure.pure a : ExceptT ε Render α).run.Returns (Outcome none) :=
  ⟨a, rfl⟩

/-- Questions do not fail. -/
theorem Outcome.lift_bind (x : Render α) {f : α → ExceptT ε Render β}
    (hf : ∀ a, (f a).run.Returns (Outcome e)) :
    (liftM x >>= f : ExceptT ε Render β).run.Returns (Outcome e) := by
  rw [← Option.none_or (o := e)]
  refine Outcome.bind ?_ hf
  rw [ExceptT.run_monadLift, monadLift_self, map_eq_pure_bind, Render.bind_eq_bind]
  exact (Render.returns_of_forall (P := fun _ => True) (fun _ => trivial) x).bind
    fun a _ => ⟨a, rfl⟩

end Outcome

/-! ### One association -/

namespace Association

variable {models : Models} {a : Association}

/-- The error for a foreign key that is given and blank. -/
def blankKey (a : Association) : Option AssociationError :=
  if a.foreignKey.any Text.blank then some (.missingForeignKey a.aliasName) else none

/-- The error for an association that is broken: its model is not known, or its key is blank and a
join or a query of its own is made of it. -/
def fault (models : Models) (a : Association) : Option AssociationError :=
  if (models.get? a.target).isNone then some (.unknownModel a.aliasName a.target)
  else if !a.kind.isJoinable && a.finderQuery.isSome then none
  else a.blankKey

/-- A key by convention is never blank. -/
theorem blank_resolvedForeignKey (a : Association) (owner : Model) :
    Text.blank (a.resolvedForeignKey owner) = a.foreignKey.any Text.blank := by
  have hid : ∀ name, Text.blank (conventionalKey name) = false := fun name => by
    rw [conventionalKey, Text.blank_append, show Text.blank "_id" = false from by decide,
      Bool.and_false]
  unfold resolvedForeignKey
  cases a.foreignKey with
  | some key => rfl
  | none => cases a.kind <;> exact hid _

theorem outcome_usableForeignKey (a : Association) (owner : Model) :
    Outcome a.blankKey (a.usableForeignKey owner) := by
  rw [usableForeignKey, blankKey, blank_resolvedForeignKey]
  cases a.foreignKey.any Text.blank with
  | true => exact rfl
  | false => exact ⟨_, rfl⟩

theorem outcome_constraint (a : Association) (owner link : Model) (joinAlias : Text)
    (standalone : Bool) : Outcome a.blankKey (a.constraint owner link joinAlias standalone) := by
  have hk := a.outcome_usableForeignKey owner
  cases hu : a.usableForeignKey owner with
  | error e =>
    rw [hu] at hk
    rw [Source.constraint_of_error hu, (hk.eq_error_iff e).1 rfl]
    exact rfl
  | ok key =>
    obtain ⟨tie, ht⟩ := Source.constraint_of_ok hu link joinAlias standalone
    rw [ht]
    cases hb : a.blankKey with
    | some e =>
      rw [hu, hb] at hk
      cases hk
    | none => exact ⟨tie, rfl⟩

end Association

namespace Source

variable (s : Source) (owner link : Model) {models : Models} (a : Association) (q : Query)
  (extra : Condition)

/-- What is made of the constraint does not fail any more. -/
theorem outcome_tied {β : Type} (joinAlias : Text) (standalone : Bool)
    {f : Condition → Planning β} (hf : ∀ tie, (f tie).run.Returns (Outcome none)) :
    (ExceptT.mk (pure (a.constraint owner link joinAlias standalone)) >>= f).run.Returns
      (Outcome a.blankKey) := by
  rw [← Option.or_none (o := a.blankKey)]
  exact Outcome.bind (a.outcome_constraint owner link joinAlias standalone) hf

theorem outcome_planOne : (s.planOne owner link a q extra false).run.Returns
    (Outcome a.blankKey) := by
  rw [planOne]
  apply outcome_tied
  intro tie
  apply Outcome.lift_bind
  intro table
  dsimp only
  split
  · exact Outcome.pure _
  · exact Outcome.lift_bind _ fun fields => Outcome.pure _

theorem outcome_planMany : (s.planMany owner link a extra).run.Returns (Outcome a.blankKey) := by
  rw [← Option.or_self (o := a.blankKey), planMany]
  refine Outcome.bind (a.outcome_usableForeignKey owner) fun key => ?_
  refine Outcome.lift_bind _ fun fields => Outcome.lift_bind _ fun keyField => ?_
  apply outcome_tied
  intro tie
  exact Outcome.lift_bind _ fun sql => Outcome.pure _

theorem outcome_planManyToMany :
    (s.planManyToMany owner link a extra).run.Returns (Outcome a.blankKey) := by
  rw [planManyToMany]
  refine Outcome.lift_bind _ fun fields => ?_
  dsimp only
  split
  · refine Outcome.lift_bind _ fun name => ?_
    rw [pure_bind]
    apply outcome_tied
    intro tie
    exact Outcome.lift_bind _ fun sql => Outcome.pure _
  · rw [pure_bind]
    apply outcome_tied
    intro tie
    exact Outcome.lift_bind _ fun sql => Outcome.pure _

/-- An association of which a record has at most one fails for a blank key only. -/
theorem outcome_planAssociation_join (hk : a.kind.isJoinable = true) :
    (s.planAssociation owner link a q false).run.Returns (Outcome a.blankKey) := by
  rw [planAssociation_of_isJoinable hk]
  exact s.outcome_planOne owner link a q _

/-- An association of which a record has many fails for a blank key, unless its query is given. -/
theorem outcome_planAssociation_many (hk : a.kind.isJoinable = false) :
    (s.planAssociation owner link a q true).run.Returns
      (Outcome (if a.finderQuery.isSome then none else a.blankKey)) := by
  cases hf : a.finderQuery with
  | some sql =>
    unfold planAssociation
    simp only [hf]
    exact Outcome.pure _
  | none =>
    cases hkind : a.kind with
    | belongsTo | hasOne => simp [hkind, AssociationKind.isJoinable] at hk
    | hasMany =>
      rw [planAssociation_of_hasMany hkind hf]
      exact s.outcome_planMany owner link a _
    | manyToMany =>
      rw [planAssociation_of_manyToMany hkind hf]
      exact s.outcome_planManyToMany owner link a _

/-! ### All associations -/

/-- The first broken association decides. -/
theorem outcome_planAssociations (m : Model) (choosing : Bool) (followUps : List FollowUp)
    (as : List Association) :
    (s.planAssociations m models choosing q followUps as).run.Returns
      (Outcome (as.findSome? (Association.fault models))) := by
  induction as generalizing q followUps with
  | nil => exact Outcome.pure _
  | cons a as ih =>
    have hor : (a :: as).findSome? (Association.fault models) =
        (a.fault models).or (as.findSome? (Association.fault models)) := by
      rw [List.findSome?_cons]
      cases a.fault models <;> rfl
    rw [planAssociations, hor]
    cases hl : models.get? a.target with
    | none =>
      simp only [Association.fault, hl, Option.isNone_none, if_true, Option.some_or]
      exact rfl
    | some link =>
      cases hk : a.kind.isJoinable with
      | true =>
        -- Narrowing changes only the fields, and so it keeps the fault.
        have hn : (a.narrow choosing).blankKey = a.blankKey := by
          rw [a.narrow_eq choosing]
          rfl
        have hkn : (a.narrow choosing).kind.isJoinable = true := by
          rw [a.narrow_eq choosing]
          exact hk
        have hf : a.fault models = (a.narrow choosing).blankKey := by
          simp [Association.fault, hl, hk, hn]
        rw [hf]
        refine Outcome.bind (s.outcome_planAssociation_join m link _ q hkn) fun planned => ?_
        cases planned with
        | joined q => exact ih q followUps
        | standalone sql => exact ih q followUps
      | false =>
        have hf : a.fault models = if a.finderQuery.isSome then none else a.blankKey := by
          simp [Association.fault, hl, hk]
        rw [hf]
        refine Outcome.bind (s.outcome_planAssociation_many m link a q hk) fun planned => ?_
        cases planned with
        | joined q' => exact ih q followUps
        | standalone sql => exact ih q _

theorem outcome_read (m : Model) (models : Models) :
    (s.read m models q).run.Returns
      (Outcome (m.associations.findSome? (Association.fault models))) := by
  rw [read]
  refine Outcome.lift_bind _ fun fields => ?_
  rw [← Option.or_none (o := m.associations.findSome? _)]
  refine Outcome.bind (s.outcome_planAssociations _ m _ [] m.associations) fun planned => ?_
  exact Outcome.lift_bind _ fun sql => Outcome.pure _

end Source

/-- A plan that reads the records of a model fails if and only if an association of it is broken,
and then with the error of the first of them, whatever is asked for and remembered. -/
theorem DataSource.read_error_iff (ds : DataSource) (m : Model) (models : Models) (q : Query) :
    ((∃ e, (ds.run fun s => (s.read m models q).run).1 = .error e) ↔
      ∃ a ∈ m.associations, (a.fault models).isSome) ∧
    ∀ e, (ds.run fun s => (s.read m models q).run).1 = .error e ↔
      ∃ before a after, m.associations = before ++ a :: after ∧
        (∀ b ∈ before, b.fault models = none) ∧ a.fault models = some e := by
  have houtcome : Outcome (m.associations.findSome? (Association.fault models))
      (ds.run fun s => (s.read m models q).run).1 :=
    (ds.source.outcome_read q m models).run ds.memo
  constructor
  · simp only [houtcome.eq_error_iff]
    rw [← Option.isSome_iff_exists, List.findSome?_isSome_iff]
  · intro e
    rw [houtcome.eq_error_iff, List.findSome?_eq_some_iff]
    constructor
    · rintro ⟨before, a, after, hm, ha, hb⟩
      exact ⟨before, a, after, hm, hb, ha⟩
    · rintro ⟨before, a, after, hm, hb, ha⟩
      exact ⟨before, a, after, hm, ha, hb⟩

end SqlComposer
