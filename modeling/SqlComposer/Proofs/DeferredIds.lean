import SqlComposer.Proofs.AssociationTie

/-!
# Filling in the keys of records

The keys of the records found go where the marker stands in a follow-up query. With one key the
comparison stays one, with more it becomes a test of membership.
-/

namespace SqlComposer

open Identifier

/-! ### Integers as keys -/

/-- The decimal digits of an integer. -/
def Value.digits? : Value → Option Text
  | .integer n => some (Text.ofInt n)
  | .natural n => some (Text.ofNat n)
  | _ => none

/-- A field compared with some keys. -/
def Condition.keysText (field : Text) (keys : List Text) : Text :=
  field ++ (if keys.length = 1 then " = (" else " IN (" : Text) ++ Text.join ", " keys ++ ")"

namespace Text

theorem digits_ofNat {n : Nat} : ofNat n ≠ [] ∧ ∀ c ∈ ofNat n, c.isDigit = true :=
  ⟨Nat.toDigits_ne_nil, fun _ hc => Nat.isDigit_of_mem_toDigits (by decide) (by decide) hc⟩

theorem chars_join {sep : Text} {p : Char → Prop} (hs : ∀ c ∈ sep, p c) {ts : List Text}
    (ht : ∀ t ∈ ts, ∀ c ∈ t, p c) : ∀ c ∈ join sep ts, p c := by
  induction ts with
  | nil =>
    intro c hc
    cases hc
  | cons t ts ih =>
    obtain ⟨h, hts⟩ := List.forall_mem_cons.1 ht
    cases ts with
    | nil => simpa using h
    | cons u us =>
      rw [join_cons_cons]
      intro c hc
      rcases List.mem_append.1 hc with hc | hc
      · rcases List.mem_append.1 hc with hc | hc
        · exact h c hc
        · exact hs c hc
      · exact ih hts c hc

end Text

namespace Value

theorem chars_digits? {v : Value} {t : Text} (h : v.digits? = some t) :
    t ≠ [] ∧ ∀ c ∈ t, c = '-' ∨ c.isDigit = true := by
  cases v <;> cases h
  · next n =>
    cases n with
    | ofNat n => exact ⟨Text.digits_ofNat.1, fun c hc => .inr (Text.digits_ofNat.2 c hc)⟩
    | negSucc n =>
      refine ⟨List.cons_ne_nil _ _, fun c hc => ?_⟩
      rcases List.mem_cons.1 hc with rfl | hc
      · exact .inl rfl
      · exact .inr (Text.digits_ofNat.2 c hc)
  · exact ⟨Text.digits_ofNat.1, fun c hc => .inr (Text.digits_ofNat.2 c hc)⟩

theorem inferredListType_of_digits? {vs : List Value} (hn : vs ≠ [])
    (h : ∀ v ∈ vs, ∃ t, v.digits? = some t) : inferredListType vs = .integer := by
  have hv : ∀ v ∈ vs, v.looksInteger = true ∧ v.looksFloat = false := by
    intro v hv
    obtain ⟨t, ht⟩ := h v hv
    cases v <;> cases ht <;> exact ⟨rfl, rfl⟩
  have hf : ¬vs.any looksFloat = true := by
    simpa using fun v hm => (hv v hm).2
  have hi : (!vs.isEmpty && vs.all fun v => v.looksInteger || v.looksFloat) = true := by
    simpa [hn] using fun v hm => Or.inl (hv v hm).1
  rw [inferredListType, if_neg hf, if_pos hi]

end Value

namespace Source

variable {s : Source} {ids : List Value} {vs : List Text}

theorem eval_values_of_digits? (hn : ids ≠ []) (h : ids.map Value.digits? = vs.map some) :
    s.eval (s.values ids none) = vs := by
  have hd : ∀ v ∈ ids, ∃ t, v.digits? = some t := by
    intro v hv
    have hm : v.digits? ∈ vs.map some := h ▸ List.mem_map_of_mem hv
    obtain ⟨t, _, ht⟩ := List.mem_map.1 hm
    exact ⟨t, ht.symm⟩
  have hv : ∀ v ∈ ids, some (s.eval (s.value v (some .integer))) = v.digits? := by
    intro v hv
    obtain ⟨t, ht⟩ := hd v hv
    cases v <;> cases ht <;> rfl
  rw [eval_values, Option.getD_none, Value.inferredListType_of_digits? hn hd]
  refine List.map_injective_iff.2 (Option.some_injective _) ?_
  rw [← h, List.map_map]
  exact List.map_congr_left hv

theorem eval_fillIds (hn : ids ≠ []) (h : ids.map Value.digits? = vs.map some) (sql : Text) :
    s.eval (s.fillIds sql ids) =
      let list := Text.join ", " vs
      let filled := Text.replace deferredIdMarker list sql
      some (if 1 < ids.length then Text.replace ("= (" ++ list) ("IN (" ++ list) filled
        else filled) := by
  have he : ¬ids.isEmpty = true := by simpa using hn
  have hv := eval_values_of_digits? (s := s) hn h
  rw [fillIds, if_neg he]
  simp only [Source.eval, Render.bind_eq_bind, Render.eval_bind, Render.pure_eq_done,
    Render.eval_done] at hv ⊢
  rw [hv]

/-- The keys in a comparison become members of a list. -/
theorem replace_comparison {p b : Text} (hn : ids ≠ []) (h : ids.map Value.digits? = vs.map some)
    (hp : ¬"= (".toList ++ Text.join ", " vs <:+: p ++ "= (")
    (hb : ¬"= (".toList ++ Text.join ", " vs <:+: b) :
    Text.replace ("= (" ++ Text.join ", " vs) ("IN (" ++ Text.join ", " vs)
        (p ++ ("= (" ++ Text.join ", " vs) ++ b) = p ++ ("IN (" ++ Text.join ", " vs) ++ b := by
  have hd : ∀ t ∈ vs, t ≠ [] ∧ ∀ c ∈ t, c = '-' ∨ c.isDigit = true := by
    intro t ht
    have hm : some t ∈ ids.map Value.digits? := h ▸ List.mem_map_of_mem ht
    obtain ⟨v, _, hv⟩ := List.mem_map.1 hm
    exact Value.chars_digits? hv
  have hc : ∀ c ∈ Text.join ", " vs, c ≠ '=' ∧ c ≠ '(' := by
    refine Text.chars_join (p := fun c => c ≠ '=' ∧ c ≠ '(') (by simp) fun t ht c hc => ?_
    rcases (hd t ht).2 c hc with rfl | hc
    · decide
    · constructor <;> rintro rfl <;> exact absurd hc (by decide)
  have hne : Text.join ", " vs ≠ [] := by
    cases vs with
    | nil => exact absurd (List.map_eq_nil_iff.1 h) hn
    | cons t ts =>
      obtain ⟨c, cs, rfl⟩ := List.exists_cons_of_ne_nil (hd _ List.mem_cons_self).1
      cases ts <;> simp [Text.join]
  refine Text.replace_append _ (by simp) fun x y hxy => ?_
  exact Text.eq_of_occurs_filled hne (fun he => (hc _ he).1 rfl) (fun he => (hc _ he).2 rfl) hp hb
    (by simpa using hxy)

/-- Where the marker stands once, in a tie, the keys take its place and nothing else changes. -/
theorem eval_fillIds_tie {field pre post : Text} (hn : ids ≠ [])
    (h : ids.map Value.digits? = vs.map some)
    (ho : Text.OccursOnce deferredIdMarker (pre ++ Condition.tieText field ++ post))
    (hk : ¬"= (".toList ++ Text.join ", " vs <:+: pre ++ Condition.tieText field ++ post) :
    s.eval (s.fillIds (pre ++ Condition.tieText field ++ post) ids) =
      some (pre ++ Condition.keysText field vs ++ post) := by
  have hl : vs.length = ids.length := by
    simpa using (congrArg List.length h).symm
  have hsql : pre ++ Condition.tieText field ++ post =
      pre ++ field ++ " = (" ++ deferredIdMarker ++ (')' :: post) := by
    simp [Condition.tieText]
  rw [hsql] at ho hk ⊢
  have hm : ∀ x y, pre ++ field ++ " = (" ++ deferredIdMarker ++ (')' :: post) =
      x ++ deferredIdMarker ++ y → x = pre ++ field ++ " = (" :=
    fun x y hxy => ho.unique ⟨y, hxy⟩ ⟨_, rfl⟩
  have hone := Text.replace_append (Text.join ", " vs) (by decide) hm
  rw [eval_fillIds hn h]
  simp only [hone]
  -- One key takes the place of the marker; with several the comparison becomes a list.
  by_cases h1 : vs.length = 1
  · rw [if_neg (by omega), Condition.keysText, if_pos h1]
    simp
  · have hpos : 0 < ids.length := List.length_pos_iff.2 hn
    have hp : ¬"= (".toList ++ Text.join ", " vs <:+: pre ++ field ++ " " ++ "= (" := fun hi =>
      hk (hi.trans ⟨[], deferredIdMarker ++ (')' :: post), by simp⟩)
    have hb : ¬"= (".toList ++ Text.join ", " vs <:+: ')' :: post := fun hi =>
      hk (hi.trans (List.suffix_append _ _).isInfix)
    have hmany := replace_comparison hn h hp hb
    rw [if_pos (by omega), Condition.keysText, if_neg h1]
    simpa using hmany

/-- A follow-up query is tied to the records found by one comparison with the marker. Filling in
their keys makes it a comparison with their one key or a test of membership among them. -/
theorem planAssociation_fillIds (s : Source) {owner link : Model} {a : Association}
    (hk : a.kind = .hasMany ∨ a.kind = .manyToMany) (hf : a.finderQuery = none)
    (hl : isIdentifier (a.tieAlias s owner link) = true)
    (hn : isIdentifier (a.resolvedForeignKey owner) = true) (q : Query) (standalone : Bool) :
    ∃ sql pre post, s.eval (s.planAssociation owner link a q standalone).run =
        .ok (.standalone sql) ∧
      sql = pre ++ Condition.tieText (a.tieField s owner link) ++ post ∧
      s.eval (s.fillIds sql []) = none ∧
      ∀ (ids : List Value) (keys : List Text), ids ≠ [] → ids.map Value.digits? = keys.map some →
        Text.OccursOnce deferredIdMarker sql → ¬"= (".toList ++ Text.join ", " keys <:+: sql →
        s.eval (s.fillIds sql ids) =
          some (pre ++ Condition.keysText (a.tieField s owner link) keys ++ post) := by
  obtain ⟨sql, he, pre, post, hsql⟩ := eval_planAssociation hk hf hl hn q standalone
  subst hsql
  exact ⟨_, pre, post, he, rfl, rfl, fun ids keys hi hv ho hm => eval_fillIds_tie hi hv ho hm⟩

theorem planAssociation_fillIds_posts :
    let owner : Model := { name := "User" }
    let link : Model :=
      { name := "Post", columns := OrderedMap.ofList [("id", { type := .integer })] }
    let posts : Association :=
      { kind := .hasMany, aliasName := "Post", conditions := .raw "Post.hidden = 0" }
    let s : Source := {}
    let sql : Text := "SELECT `Post`.`id`, `Post`.`user_id` FROM `posts` AS `Post` WHERE " ++
      ("`Post`.`user_id` = (\x7b$__cakeID__$\x7d) AND `Post`.`hidden` = 0" : Text)
    (s.eval (s.planAssociation owner link posts {} true).run).toOption.bind AssociationQuery.sql? =
        some sql ∧
      ∃ pre post, sql = pre ++ Condition.tieText "`Post`.`user_id`" ++ post ∧
        s.eval (s.fillIds sql [.integer 7]) = some (pre ++ "`Post`.`user_id` = (7)" ++ post) ∧
        s.eval (s.fillIds sql [.integer 7, .natural 12]) =
          some (pre ++ "`Post`.`user_id` IN (7, 12)" ++ post) := by
  intro owner link posts s sql
  obtain ⟨_, pre, post, he, hsql, -, hfill⟩ :=
    @planAssociation_fillIds s owner link posts (.inl rfl) rfl (by decide) (by decide) {} true
  have hv : (s.eval (s.planAssociation owner link posts {} true).run).toOption.bind
      AssociationQuery.sql? = some sql := by decide +kernel
  have hfield : posts.tieField s owner link = "`Post`.`user_id`" := by decide +kernel
  have he' := hv
  rw [he] at he'
  cases he'
  rw [hfield] at hsql hfill
  refine ⟨hv, pre, post, hsql, ?_, ?_⟩
  · exact hfill _ ["7"] (by decide) rfl (by decide +kernel) (by decide +kernel)
  · exact hfill _ ["7", "12"] (by decide) rfl (by decide +kernel) (by decide +kernel)

end Source

end SqlComposer
