import SqlComposer.Proofs.AssociationTie

/-!
# Plans that read associated records

Associations are added to the main selection one after another. What comes of it can be said without
the order of the steps: each association of which a record has at most one brings its join, unless
its alias is taken, and each of which it has many gets the follow-up query that it would get alone.
-/

namespace SqlComposer

/-! ### First of each key -/

section FirstByKey

variable {α κ : Type} [DecidableEq κ] {key : α → Option κ} {taken : List κ} {as : List α}

/-- The items whose key is not taken, neither from the start nor by an item before them. Items
without a key all stay. -/
def firstByKey (key : α → Option κ) (taken : List κ) : List α → List α
  | [] => []
  | a :: as =>
    match key a with
    | none => a :: firstByKey key taken as
    | some k =>
      if k ∈ taken then firstByKey key taken as else a :: firstByKey key (taken ++ [k]) as

/-- No key comes twice. -/
theorem nodup_firstByKey (key : α → Option κ) (ht : taken.Nodup) (as : List α) :
    (taken ++ (firstByKey key taken as).filterMap key).Nodup := by
  fun_induction firstByKey key taken as with
  | case1 => simpa using ht
  | case2 taken a as hk ih => simpa [hk] using ih ht
  | case3 taken a as k hk hm ih => exact ih ht
  | case4 taken a as k hk hm ih =>
    have hn : (taken ++ [k]).Nodup := List.nodup_append.2 ⟨ht, by simp, by
      rintro b hb c hc rfl
      exact hm (List.mem_singleton.1 hc ▸ hb)⟩
    simpa [hk] using ih hn

/-- Items without a key all stay. -/
theorem filter_firstByKey (key : α → Option κ) (taken : List κ) (as : List α) :
    (firstByKey key taken as).filter (fun a => (key a).isNone) =
      as.filter fun a => (key a).isNone := by
  fun_induction firstByKey key taken as with
  | case1 => rfl
  | case2 taken a as hk ih => simp [hk, ih]
  | case3 taken a as k hk hm ih => simp [hk, ih]
  | case4 taken a as k hk hm ih => simp [hk, ih]

end FirstByKey

namespace Query

variable {q : Query} {j : Join}

theorem takes_eq_false_of_none (h : j.aliasName = none) : q.takes j = false := by
  simp [takes, h]

theorem takes_iff {label : Text} (h : j.aliasName = some label) :
    q.takes j = true ↔ label ∈ q.joins.filterMap Join.aliasName := by
  simp [takes, h]

/-- Joins are added as far as their aliases are free. -/
theorem foldl_addJoin (js : List Join) (q : Query) :
    js.foldl addJoin q =
      { q with
        joins := q.joins ++ firstByKey Join.aliasName (q.joins.filterMap Join.aliasName) js } := by
  induction js generalizing q with
  | nil => simp [firstByKey]
  | cons j js ih =>
    rw [List.foldl_cons, ih, firstByKey]
    cases hj : j.aliasName with
    | none => simp [addJoin, takes_eq_false_of_none hj, hj]
    | some label =>
      by_cases hm : label ∈ q.joins.filterMap Join.aliasName
      · simp [addJoin, (takes_iff hj).2 hm, hm]
      · have ht : q.takes j = false := Bool.eq_false_iff.2 fun ht => hm ((takes_iff hj).1 ht)
        simp [addJoin, ht, hm, hj]

end Query

/-! ### One association -/

/-- The associations of a model, each with the model that it refers to. -/
def Models.links (models : Models) (as : List Association) : List (Association × Model) :=
  as.filterMap fun a => (models.get? a.target).map fun link => (a, link)

/-- An association that contributes no fields is otherwise the same. -/
theorem Association.narrow_eq (a : Association) (choosing : Bool) :
    a.narrow choosing = { a with fields := (a.narrow choosing).fields } := by
  unfold narrow
  split <;> rfl

namespace Source

variable {s : Source} {m owner link : Model} {models : Models} {a : Association}
  {as : List Association} {q q' : Query} {choosing : Bool} {followUps followUps' : List FollowUp}

/-- What the join of an association to its owner is in a query. -/
structure Brings (s : Source) (owner : Model) (q : Query) (l : Association × Model) (j : Join) :
    Prop where
  kind : j.kind = some (l.1.joinType.getD "LEFT")
  table : j.table = s.eval (s.fullTableName l.2)
  aliasName : j.aliasName = some l.1.aliasName
  conditions : ∃ tie, l.1.constraint owner l.2 l.1.aliasName false = .ok tie ∧
    j.conditions = Condition.merge
      [tie, l.1.conditions, (q.associationConditions.get? l.1.aliasName).getD .empty]

/-- What the follow-up query for an association is, on its own. -/
structure Follows (s : Source) (owner : Model) (q : Query) (l : Association × Model)
    (f : FollowUp) : Prop where
  aliasName : f.aliasName = l.1.aliasName
  kind : f.kind = l.1.kind
  sql : s.eval (s.planAssociation owner l.2 l.1 q true).run = .ok (.standalone f.sql)

theorem planAssociation_of_isJoinable (hk : a.kind.isJoinable = true) :
    s.planAssociation owner link a q false =
      s.planOne owner link a q ((q.associationConditions.get? a.aliasName).getD .empty) false := by
  unfold planAssociation
  cases hkind : a.kind <;> simp_all [AssociationKind.isJoinable]

/-- An association of which a record has at most one adds its join, its fields and its order to a
query, or nothing if its alias is taken. -/
theorem eval_planAssociation_join {x : AssociationQuery} (hk : a.kind.isJoinable = true)
    (h : s.eval (s.planAssociation owner link a q false).run = .ok x) :
    ∃ j, s.Brings owner q (a, link) j ∧
      x = .joined (if q.takes j then q else
        { q with
          joins := q.joins ++ [j]
          fields := q.fields ++ s.eval (s.associationFields link a)
          order := q.order ++ a.order }) := by
  rw [planAssociation_of_isJoinable hk, planOne] at h
  obtain ⟨tie, ht, h⟩ := exists_of_eval_bind h
  have ht : a.constraint owner link a.aliasName false = .ok tie := ht
  simp only [Bool.false_eq_true, if_false] at h
  rw [eval_attempt_lift] at h
  generalize hj : ({
    kind := some (a.joinType.getD "LEFT")
    table := s.eval (s.fullTableName link)
    aliasName := some a.aliasName
    conditions := Condition.merge [tie, a.conditions,
      (q.associationConditions.get? a.aliasName).getD .empty] } : Join) = j at h
  refine ⟨j, hj ▸ ⟨rfl, rfl, rfl, tie, ht, rfl⟩, ?_⟩
  split at h
  · next hq =>
    rw [if_pos hq]
    exact (Except.ok.inj h).symm
  · next hq =>
    rw [eval_attempt_lift, Query.addJoin, if_neg hq] at h
    rw [if_neg hq]
    exact (Except.ok.inj h).symm

/-- A query of its own does not depend on the joins, the fields or the order of another one. -/
theorem planAssociation_congr (hq : q.associationConditions = q'.associationConditions) :
    s.planAssociation owner link a q true = s.planAssociation owner link a q' true := by
  unfold planAssociation
  rw [hq]
  cases a.kind <;> rfl

theorem constraint_of_error {e : AssociationError} (h : a.usableForeignKey owner = .error e)
    (link : Model) (joinAlias : Text) (standalone : Bool) :
    a.constraint owner link joinAlias standalone = .error e := by
  rw [Association.constraint, h]
  rfl

theorem constraint_of_ok {key : Text} (h : a.usableForeignKey owner = .ok key) (link : Model)
    (joinAlias : Text) (standalone : Bool) :
    ∃ tie, a.constraint owner link joinAlias standalone = .ok tie := by
  rw [Association.constraint, h]
  exact ⟨_, rfl⟩

/-- An association of which a record has many gets a query of its own: the one that is given, or one
that is tied to the owner by its key. -/
theorem eval_planAssociation_many (hk : a.kind.isJoinable = false) :
    ∃ sql, s.eval (s.planAssociation owner link a q true).run =
      match a.finderQuery with
      | some sql => .ok (.standalone sql)
      | none => (a.usableForeignKey owner).map fun _ => .standalone sql := by
  cases hf : a.finderQuery with
  | some sql =>
    unfold planAssociation
    simp only [hf]
    exact ⟨[], rfl⟩
  | none =>
    cases hkind : a.kind with
    | belongsTo | hasOne => simp [hkind, AssociationKind.isJoinable] at hk
    | hasMany =>
      rw [planAssociation_of_hasMany hkind hf, planMany]
      cases hu : a.usableForeignKey owner with
      | error e => exact ⟨[], rfl⟩
      | ok key =>
        obtain ⟨tie, ht⟩ := constraint_of_ok hu link a.aliasName true
        rw [eval_attempt_ok, eval_attempt_lift, eval_attempt_lift, ht, eval_attempt_ok,
          eval_attempt_lift]
        exact ⟨_, rfl⟩
    | manyToMany =>
      rw [planAssociation_of_manyToMany hkind hf, planManyToMany, eval_attempt_lift]
      dsimp only
      cases hu : a.usableForeignKey owner with
      | error e =>
        rw [constraint_of_error hu]
        refine ⟨[], ?_⟩
        split
        · rw [eval_attempt_lift]
          rfl
        · rfl
      | ok key =>
        obtain ⟨tie, ht⟩ := constraint_of_ok hu link
          (a.through.getD (owner.tablePrefix.getD s.tablePrefix ++ a.resolvedJoinTable owner link)) true
        rw [ht]
        split
        · rw [eval_attempt_lift, pure_bind, eval_attempt_ok, eval_attempt_lift]
          exact ⟨_, rfl⟩
        · rw [pure_bind, eval_attempt_ok, eval_attempt_lift]
          exact ⟨_, rfl⟩

theorem exists_sql_of_planAssociation {x : AssociationQuery} (hk : a.kind.isJoinable = false)
    (hx : s.eval (s.planAssociation m link a q true).run = .ok x) :
    ∃ sql, x = .standalone sql := by
  obtain ⟨sql, he⟩ := @eval_planAssociation_many s m link a q hk
  rw [he] at hx
  cases hf : a.finderQuery with
  | some sql =>
    rw [hf] at hx
    exact ⟨sql, (Except.ok.inj hx).symm⟩
  | none =>
    rw [hf] at hx
    cases hu : a.usableForeignKey m with
    | error e =>
      rw [hu] at hx
      cases hx
    | ok key =>
      rw [hu] at hx
      exact ⟨sql, (Except.ok.inj hx).symm⟩

/-! ### All associations -/

/-- The associations that bring a join: of those with one alias the first, unless the alias is
taken. -/
def joining (taken : List Text) (ls : List (Association × Model)) : List (Association × Model) :=
  firstByKey (fun l => some l.1.aliasName) taken (ls.filter fun l => l.1.kind.isJoinable)

theorem joining_cons (taken : List Text) (l : Association × Model) (ls : List (Association × Model)) :
    joining taken (l :: ls) =
      if l.1.kind.isJoinable ∧ l.1.aliasName ∉ taken then
        l :: joining (taken ++ [l.1.aliasName]) ls
      else joining taken ls := by
  rw [joining]
  by_cases hk : l.1.kind.isJoinable = true
  · by_cases ht : l.1.aliasName ∈ taken <;> simp [hk, ht, firstByKey, joining]
  · simp [hk, joining]

/-- The query with joins, and with the fields and the order of associations. -/
def extend (s : Source) (choosing : Bool) (q : Query) (ls : List (Association × Model))
    (js : List Join) : Query :=
  { q with
    joins := q.joins ++ js
    fields := q.fields ++ ls.flatMap fun l => s.eval (s.associationFields l.2 (l.1.narrow choosing))
    order := q.order ++ ls.flatMap fun l => l.1.order }

/-- What the associations from some point on make of a query and of the follow-up queries so
far. -/
structure Planned (s : Source) (m : Model) (choosing : Bool) (q : Query) (followUps : List FollowUp)
    (ls : List (Association × Model)) (q' : Query) (followUps' : List FollowUp) : Prop where
  query : ∃ js, List.Forall₂ (s.Brings m q) (joining (q.joins.filterMap Join.aliasName) ls) js ∧
    q' = s.extend choosing q (joining (q.joins.filterMap Join.aliasName) ls) js
  followUps : ∃ fs, followUps' = followUps ++ fs ∧
    List.Forall₂ (s.Follows m q) (ls.filter fun l => !l.1.kind.isJoinable) fs

theorem planned_nil : s.Planned m choosing q followUps [] q followUps where
  query := ⟨[], .nil, by simp [extend, joining, firstByKey]⟩
  followUps := ⟨[], by simp, .nil⟩

/-- An association of which a record has at most one in front of others. -/
theorem Planned.cons_joinable {x : AssociationQuery} {ls : List (Association × Model)}
    (hk : a.kind.isJoinable = true)
    (hx : s.eval (s.planAssociation m link (a.narrow choosing) q false).run = .ok x) :
    ∃ q₁, x = .joined q₁ ∧ (s.Planned m choosing q₁ followUps ls q' followUps' →
      s.Planned m choosing q followUps ((a, link) :: ls) q' followUps') := by
  have hn := a.narrow_eq choosing
  have hkn : (a.narrow choosing).kind.isJoinable = true := by rwa [hn]
  obtain ⟨j, hj, hx⟩ := eval_planAssociation_join hkn hx
  have hj : s.Brings m q (a, link) j := by
    rw [hn] at hj
    exact ⟨hj.kind, hj.table, hj.aliasName, hj.conditions⟩
  have ho : (a.narrow choosing).order = a.order := by rw [hn]
  have hf : ((a, link) :: ls).filter (fun l => !l.1.kind.isJoinable) =
      ls.filter fun l => !l.1.kind.isJoinable := by simp [hk]
  refine ⟨_, hx, ?_⟩
  by_cases ht : q.takes j = true
  · -- The alias is taken, so the association adds nothing.
    have hm := (Query.takes_iff hj.aliasName).1 ht
    rw [if_pos ht]
    rintro ⟨hq, hfs⟩
    refine ⟨?_, hf ▸ hfs⟩
    rwa [joining_cons, if_neg fun h => h.2 hm]
  · -- The join stands in front of those that the others bring, and takes its alias.
    have hm : a.aliasName ∉ q.joins.filterMap Join.aliasName :=
      fun hm => ht ((Query.takes_iff hj.aliasName).2 hm)
    rw [if_neg ht]
    rintro ⟨⟨js, hjs, rfl⟩, fs, rfl, hfs⟩
    have htaken : (q.joins ++ [j]).filterMap Join.aliasName =
        q.joins.filterMap Join.aliasName ++ [a.aliasName] := by simp [hj.aliasName]
    simp only [htaken] at hjs ⊢
    have hown : joining (q.joins.filterMap Join.aliasName) ((a, link) :: ls) =
        (a, link) :: joining (q.joins.filterMap Join.aliasName ++ [a.aliasName]) ls := by
      rw [joining_cons, if_pos ⟨hk, hm⟩]
    refine ⟨⟨j :: js, ?_, ?_⟩, fs, rfl, ?_⟩
    · rw [hown]
      exact .cons hj (hjs.imp fun _ _ h => ⟨h.kind, h.table, h.aliasName, h.conditions⟩)
    · simp [extend, hown, ho]
    · rw [hf]
      exact hfs.imp fun _ _ h => ⟨h.aliasName, h.kind, planAssociation_congr rfl ▸ h.sql⟩

/-- An association of which a record has many in front of others. -/
theorem Planned.cons_many {x : AssociationQuery} {ls : List (Association × Model)}
    (hk : a.kind.isJoinable = false) (hx : s.eval (s.planAssociation m link a q true).run = .ok x) :
    ∃ sql, x = .standalone sql ∧
      (s.Planned m choosing q (followUps ++ [⟨a.aliasName, a.kind, sql⟩]) ls q' followUps' →
        s.Planned m choosing q followUps ((a, link) :: ls) q' followUps') := by
  obtain ⟨sql, rfl⟩ := exists_sql_of_planAssociation hk hx
  refine ⟨sql, rfl, ?_⟩
  rintro ⟨hq, fs, rfl, hfs⟩
  refine ⟨?_, ⟨a.aliasName, a.kind, sql⟩ :: fs, by simp, ?_⟩
  · rwa [joining_cons, if_neg fun h => by simp [hk] at h]
  · rw [List.filter_cons_of_pos (by simp [hk])]
    exact .cons ⟨rfl, rfl, hx⟩ hfs

/-- Adding associations one after another adds the joins of those that bring one, and collects the
follow-up queries of the others. -/
theorem eval_planAssociations
    (h : s.eval (s.planAssociations m models choosing q followUps as).run =
      .ok (q', followUps')) :
    (Models.links models as).map Prod.fst = as ∧
      s.Planned m choosing q followUps (Models.links models as) q' followUps' := by
  -- The query grows along the associations, so the induction is for every query.
  induction as generalizing q followUps with
  | nil =>
    cases h
    exact ⟨rfl, planned_nil⟩
  | cons a as ih =>
    rw [planAssociations] at h
    cases hl : models.get? a.target with
    | none =>
      rw [hl] at h
      cases h
    | some link =>
      have hlinks : Models.links models (a :: as) = (a, link) :: Models.links models as := by
        simp [Models.links, hl]
      rw [hl] at h
      rw [hlinks, List.map_cons]
      dsimp only at h
      split at h
      · next hk =>
        obtain ⟨x, hx, h⟩ := exists_of_eval_bind h
        obtain ⟨q₁, rfl, hc⟩ := Planned.cons_joinable hk hx
        obtain ⟨hfst, hp⟩ := ih h
        exact ⟨congrArg _ hfst, hc hp⟩
      · next hk =>
        obtain ⟨x, hx, h⟩ := exists_of_eval_bind h
        obtain ⟨sql, rfl, hc⟩ := Planned.cons_many (Bool.eq_false_iff.2 hk) hx
        obtain ⟨hfst, hp⟩ := ih h
        exact ⟨congrArg _ hfst, hc hp⟩

/-! ### The whole plan -/

theorem filterMap_aliasName {ls : List (Association × Model)} {js : List Join}
    (h : List.Forall₂ (s.Brings m q) ls js) :
    js.filterMap Join.aliasName = ls.map fun l => l.1.aliasName := by
  induction h with
  | nil => rfl
  | cons hj _ ih => simp [hj.aliasName, ih]

theorem filter_isNone_aliasName {ls : List (Association × Model)} {js : List Join}
    (h : List.Forall₂ (s.Brings m q) ls js) :
    (js.filter fun j => j.aliasName.isNone) = [] := by
  induction h with
  | nil => rfl
  | cons hj _ ih => simp [hj.aliasName, ih]

/-- Whether an association can be planned: its model is known, and it has a key unless a query is
given in place of the one that would use it. -/
def Plannable (m : Model) (models : Models) (a : Association) : Prop :=
  (∃ link, models.get? a.target = some link) ∧
    ((a.kind.isJoinable = false ∧ a.finderQuery.isSome = true) ∨
      ∃ key, a.usableForeignKey m = .ok key)

theorem exists_planAssociation_join_iff (hk : a.kind.isJoinable = true) :
    (∃ x, s.eval (s.planAssociation owner link a q false).run = .ok x) ↔
      ∃ key, a.usableForeignKey owner = .ok key := by
  rw [planAssociation_of_isJoinable hk, planOne]
  cases hu : a.usableForeignKey owner with
  | error e =>
    rw [constraint_of_error hu]
    constructor <;> rintro ⟨_, h⟩ <;> cases h
  | ok key =>
    obtain ⟨tie, ht⟩ := constraint_of_ok hu link a.aliasName false
    refine ⟨fun _ => ⟨key, rfl⟩, fun _ => ?_⟩
    rw [ht, eval_attempt_ok]
    simp only [Bool.false_eq_true, if_false]
    rw [eval_attempt_lift]
    split
    · exact ⟨_, rfl⟩
    · rw [eval_attempt_lift]
      exact ⟨_, rfl⟩

theorem exists_planAssociation_many_iff (hk : a.kind.isJoinable = false) :
    (∃ x, s.eval (s.planAssociation owner link a q true).run = .ok x) ↔
      a.finderQuery.isSome = true ∨ ∃ key, a.usableForeignKey owner = .ok key := by
  obtain ⟨sql, he⟩ := @eval_planAssociation_many s owner link a q hk
  rw [he]
  cases a.finderQuery with
  | some sql => simp
  | none => cases a.usableForeignKey owner <;> simp [Except.map]

/-- Associations can be planned one after another if each of them can. -/
theorem exists_planAssociations_iff :
    (∃ r, s.eval (s.planAssociations m models choosing q followUps as).run = .ok r) ↔
      ∀ a ∈ as, Plannable m models a := by
  induction as generalizing q followUps with
  | nil => exact ⟨fun _ => by simp, fun _ => ⟨_, rfl⟩⟩
  | cons a as ih =>
    rw [planAssociations, List.forall_mem_cons, Plannable]
    cases hl : models.get? a.target with
    | none =>
      constructor
      · rintro ⟨_, h⟩
        cases h
      · rintro ⟨⟨⟨link, h⟩, -⟩, -⟩
        cases h
    | some link =>
      dsimp only
      -- Whatever an association adds to the query, the others can be planned or not as before.
      cases hk : a.kind.isJoinable with
      | true =>
        have hkn : (a.narrow choosing).kind.isJoinable = true := by rwa [a.narrow_eq]
        have hun : (a.narrow choosing).usableForeignKey m = a.usableForeignKey m := by
          rw [a.narrow_eq]
          rfl
        rw [if_pos rfl]
        constructor
        · rintro ⟨r, h⟩
          obtain ⟨x, hx, h⟩ := exists_of_eval_bind h
          have hu := (exists_planAssociation_join_iff hkn).1 ⟨x, hx⟩
          obtain ⟨j, -, rfl⟩ := eval_planAssociation_join hkn hx
          exact ⟨⟨⟨link, rfl⟩, .inr (hun ▸ hu)⟩, ih.1 ⟨r, h⟩⟩
        · rintro ⟨⟨-, h⟩, has⟩
          have hu := h.resolve_left (by simp)
          obtain ⟨x, hx⟩ := (exists_planAssociation_join_iff hkn).2 (hun ▸ hu)
          rw [eval_attempt_bind hx]
          obtain ⟨j, -, rfl⟩ := eval_planAssociation_join hkn hx
          exact ih.2 has
      | false =>
        have hiff := @exists_planAssociation_many_iff s m link a q hk
        rw [if_neg (by simp)]
        constructor
        · rintro ⟨r, h⟩
          obtain ⟨x, hx, h⟩ := exists_of_eval_bind h
          obtain ⟨sql, rfl⟩ := exists_sql_of_planAssociation hk hx
          exact ⟨⟨⟨link, rfl⟩, (hiff.1 ⟨_, hx⟩).imp_left (⟨rfl, ·⟩)⟩, ih.1 ⟨r, h⟩⟩
        · rintro ⟨⟨-, h⟩, has⟩
          obtain ⟨x, hx⟩ := hiff.2 (h.imp_left And.right)
          rw [eval_attempt_bind hx]
          obtain ⟨sql, rfl⟩ := exists_sql_of_planAssociation hk hx
          exact ih.2 has

/-- A plan fails only for an association that cannot be planned. -/
theorem exists_read_iff :
    (∃ plan, s.eval (s.read m models q).run = .ok plan) ↔
      ∀ a ∈ m.associations, Plannable m models a := by
  rw [read, eval_attempt_lift, ← exists_planAssociations_iff]
  constructor
  · rintro ⟨plan, h⟩
    obtain ⟨r, hr, -⟩ := exists_of_eval_bind h
    exact ⟨r, hr⟩
  · rintro ⟨r, hr⟩
    rw [eval_attempt_bind hr]
    dsimp only
    rw [eval_attempt_lift]
    exact ⟨_, rfl⟩

end Source

end SqlComposer
