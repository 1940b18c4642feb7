import SqlComposer.Proofs.QuotedTokens

/-!
# Parentheses of tokens

The level of parentheses behind tokens says whether each that closes was opened. Quotes around
identifiers leave it.
-/

namespace SqlComposer

namespace Token

open CharClass

variable {d : Dialect} {t u r : Token} {ts is : List Token} {rest s : Text} {k m : Nat}

/-! ### Levels of parentheses -/

/-- The level of parentheses behind tokens; none if one closes that was not opened. -/
def level (k : Nat) : List Token → Option Nat
  | [] => some k
  | t :: ts =>
    if t.kind = .lParen then level (k + 1) ts
    else if t.kind = .rParen then if k = 0 then none else level (k - 1) ts
    else level k ts

theorem level_append (k : Nat) (ts us : List Token) :
    level k (ts ++ us) = (level k ts).bind fun m => level m us := by
  induction ts generalizing k with
  | nil => rfl
  | cons t ts ih =>
    simp only [List.cons_append, level]
    split_ifs
    · exact ih _
    · rfl
    · exact ih _
    · exact ih _

/-- Further parentheses around tokens change nothing about them. -/
theorem level_add (h : level k ts = some m) (j : Nat) : level (k + j) ts = some (m + j) := by
  induction ts generalizing k with
  | nil => simpa [level] using h
  | cons t ts ih =>
    simp only [level] at h ⊢
    split_ifs at h ⊢ with h1 h2 h3 h4
    · rw [Nat.add_right_comm]
      exact ih h
    · omega
    · rw [Nat.sub_add_comm (by omega)]
      exact ih h
    · exact ih h

/-- Where every parenthesis that closes was opened, the depth is the level. -/
theorem foldl_depthAfter (h : level k ts = some m) : ts.foldl depthAfter k = m := by
  induction ts generalizing k with
  | nil => exact Option.some.inj h
  | cons t ts ih =>
    rw [level] at h
    rw [List.foldl_cons]
    split_ifs at h with h1 h2 h3
    · rw [depthAfter, h1]
      exact ih h
    · rw [depthAfter, h2]
      exact ih h
    · have hd : depthAfter k t = k := by
        cases hk : t.kind <;> simp_all [depthAfter]
      rw [hd]
      exact ih h

/-- Tokens other than parentheses leave the level. -/
theorem level_of_kind (h : ∀ u ∈ ts, u.kind ≠ .lParen ∧ u.kind ≠ .rParen) (k : Nat) :
    level k ts = some k := by
  induction ts with
  | nil => rfl
  | cons t ts ih =>
    obtain ⟨ht, hts⟩ := List.forall_mem_cons.1 h
    simp [level, ht, ih hts]

theorem level_of_whitespace (h : ∀ u ∈ ts, u.kind = .whitespace) (k : Nat) :
    level k ts = some k :=
  level_of_kind (fun u hu => by simp [h u hu]) k

theorem foldl_depthAfter_of_whitespace (h : ∀ u ∈ ts, u.kind = .whitespace) (k : Nat) :
    ts.foldl depthAfter k = k :=
  foldl_depthAfter (level_of_whitespace h k)

theorem level_attach (d : Dialect) (k : Nat) (t : Token) (us : List Token) :
    level k (attach d t us) = level k (t :: us) := by
  cases us with
  | nil => rfl
  | cons u us =>
    rw [attach]
    split
    · next hj =>
      obtain ⟨ht, hu, -⟩ := joins_eq_true hj
      simp [level, ht, hu]
    · rfl

theorem level_glue (d : Dialect) (k : Nat) (ts : List Token) :
    level k (glue d ts) = level k ts := by
  induction ts generalizing k with
  | nil => rfl
  | cons t ts ih =>
    rw [glue_cons, level_attach]
    simp only [level, ih]

/-- Quotes around identifiers leave the level. -/
theorem level_marked (d : Dialect) {ms : List (Token × Bool)}
    (hm : ∀ m ∈ ms, m.2 = true → m.1.kind = .ident) (k : Nat) :
    level k (ms.map (marked d)) = level k (ms.map Prod.fst) := by
  induction ms generalizing k with
  | nil => rfl
  | cons m ms ih =>
    obtain ⟨hm, hms⟩ := List.forall_mem_cons.1 hm
    simp only [List.map_cons, level, ih hms]
    cases hb : m.2 with
    | true => simp [marked, hb, quoted, hm hb]
    | false => simp [marked, hb]

/-- Tokens whose parentheses close at the last one. -/
theorem closingFrom_of_level (hr : r.kind = .rParen) (h : level k is = some 0) :
    closingFrom (k + 1) (is ++ [r]) = some is.length := by
  induction is generalizing k with
  | nil =>
    cases h
    simp [closingFrom, hr]
  | cons t ts ih =>
    simp only [level] at h
    rw [List.cons_append, closingFrom, List.length_cons]
    split_ifs at h with h1 h2 h3
    · simp [h1, ih h]
    · obtain ⟨j, rfl⟩ := Nat.exists_eq_succ_of_ne_zero h3
      have ih := ih (k := j) h
      simp [h2, ih]
    · cases hk : t.kind <;> simp_all

theorem level_of_closingFrom {n : Nat} (h : closingFrom (k + 1) ts = some n)
    (hn : n + 1 = ts.length) :
    ∃ is r, ts = is ++ [r] ∧ r.kind = .rParen ∧ level k is = some 0 := by
  induction ts generalizing k n with
  | nil => cases hn
  | cons t ts ih =>
    rw [closingFrom] at h
    have hstep : ∀ {j : Nat}, (closingFrom (j + 1) ts).map (· + 1) = some n →
        (∀ us, level k (t :: us) = level j us) →
        ∃ is r, t :: ts = is ++ [r] ∧ r.kind = .rParen ∧ level k is = some 0 := by
      intro j hj hlevel
      obtain ⟨i, hi, rfl⟩ := Option.map_eq_some_iff.1 hj
      obtain ⟨is, r, rfl, hr, hl⟩ := ih hi (by simpa using hn)
      exact ⟨t :: is, r, rfl, hr, by rw [hlevel, hl]⟩
    cases hk : t.kind with
    | lParen =>
      rw [hk] at h
      exact hstep (j := k + 1) h fun us => by simp [level, hk]
    | rParen =>
      rw [hk] at h
      cases k with
      | zero =>
        have hts : ts = [] := by
          have h : n = 0 := by simpa using h.symm
          subst h
          exact List.length_eq_zero_iff.1 (by simpa using hn.symm)
        exact ⟨[], t, by simp [hts], hk, rfl⟩
      | succ k => exact hstep (j := k) (by simpa using h) fun us => by simp [level, hk]
    | _ =>
      rw [hk] at h
      exact hstep (j := k) h fun us => by simp [level, hk]

/-! ### The last of tokens side by side -/

theorem kind_getLast?_glue (d : Dialect) (ts : List Token) :
    (glue d ts).getLast?.map Token.kind = ts.getLast?.map Token.kind := by
  have hattach : ∀ t us, (attach d t us).getLast?.map Token.kind =
      (t :: us).getLast?.map Token.kind := by
    intro t us
    rcases us with _ | ⟨u, _ | ⟨v, vs⟩⟩
    · rfl
    · rw [attach]
      split
      · next hj => simp [(joins_eq_true hj).2.1]
      · rfl
    · rw [attach]
      split <;> simp [List.getLast?_cons_cons]
  induction ts with
  | nil => rfl
  | cons t ts ih =>
    rw [glue_cons, hattach, List.getLast?_cons, List.getLast?_cons]
    cases hg : (glue d ts).getLast? <;> cases ht : ts.getLast? <;> simp_all

/-- What is not between quotes stays behind the rest. -/
theorem glue_concat (hr : r.kind ≠ .quotedIdent) (ts : List Token) :
    glue d (ts ++ [r]) = glue d ts ++ [r] := by
  induction ts with
  | nil => rfl
  | cons t ts ih =>
    rw [List.cons_append, glue_cons, ih, glue_cons]
    cases glue d ts with
    | nil =>
      have hj : joins d t r = false := Bool.eq_false_iff.2 fun hj => hr (joins_eq_true hj).2.1
      simp [attach, hj]
    | cons u us =>
      rw [List.cons_append, attach, attach]
      split <;> rfl

end Token

end SqlComposer
