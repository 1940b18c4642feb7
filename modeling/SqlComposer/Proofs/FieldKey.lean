import SqlComposer.Condition.Compile
import SqlComposer.Proofs.Fragment
import SqlComposer.Proofs.Names

/-!
# Keys that name a field

A key that is a path, with an operator behind a blank or without one, is split into just these two,
and no value goes into it.
-/

namespace SqlComposer

open CharClass Identifier

namespace Token

theorem mem_of_mem_tokenize {d : Dialect} {t : Text} {u : Token} (hu : u ∈ tokenize d t) {c : Char}
    (hc : c ∈ u.text) : c ∈ t := by
  rw [← textOf_tokenize d t]
  exact List.mem_flatMap.2 ⟨u, hu, hc⟩

end Token

namespace Key

variable {d : Dialect}

/-! ### Tokens of paths -/

/-- Whether a token neither separates a field from its operator nor changes the depth of
parentheses, wherever it stands. -/
structure Inert (d : Dialect) (u : Token) : Prop where
  bare : u.Bare d
  kind : u.kind ≠ .whitespace ∧ u.kind ≠ .lParen ∧ u.kind ≠ .rParen
  isComparison : isComparison u = false

theorem kind_of_mem {t : Text} (h : IsPath t) {u : Token} (hu : u ∈ Token.tokenize d t) :
    u.kind ∈ [TokenKind.ident, .number, .dot, .operator] := by
  obtain ⟨rest, c, cs, ht, he⟩ := (Token.separate_tokenize d t).ends_of_mem hu
  have hc : isPathChar c = true := h.isPathChar (Token.mem_of_mem_tokenize hu (by simp [ht]))
  have hk : ((Token.start d c).extent (cs ++ rest)).1 = u.kind := congrArg Prod.fst he
  exact hk ▸ kind_of_isPathChar d hc (cs ++ rest)

theorem inert_of_mem {t : Text} (h : IsPath t) {u : Token} (hu : u ∈ Token.tokenize d t) :
    Inert d u := by
  obtain ⟨c, cs, ht⟩ := List.exists_cons_of_ne_nil (Token.text_ne_nil_of_mem d t u hu)
  have hc : isPathChar c = true := h.isPathChar (Token.mem_of_mem_tokenize hu (by simp [ht]))
  have hcmp : isComparisonSign c = false := by
    have hne := fun e => beq_of_isPathChar (e := e) hc
    rw [isComparisonSign, hne '<' (by decide), hne '>' (by decide), hne '=' (by decide),
      hne '!' (by decide)]
    rfl
  refine ⟨⟨c, by simp [ht], bare_of_isPathChar d hc⟩, ?_, by simp [isComparison, ht, hcmp]⟩
  have hm := kind_of_mem h hu
  simp only [List.mem_cons, List.not_mem_nil, or_false] at hm
  rcases hm with hm | hm | hm | hm <;> simp [hm]

/-! ### Operators -/

/-- The operators that compare a field with a text. -/
def textOperators : List Text :=
  ["=", "!=", "<>", "<", "<=", ">", ">=", "LIKE"]

/-- An operator as a token. -/
def operatorToken (op : Text) : Token :=
  ⟨if op = "LIKE".toList then .ident else .operator, op⟩

theorem ends_operatorToken (d : Dialect) {op : Text} (h : op ∈ textOperators) :
    (operatorToken op).Ends d [] ∧ (operatorToken op).Bare d := by
  simp only [textOperators, List.mem_cons, List.not_mem_nil, or_false] at h
  rcases h with rfl | rfl | rfl | rfl | rfl | rfl | rfl | rfl <;> cases d <;>
    exact ⟨⟨_, _, rfl, rfl⟩, _, rfl, rfl⟩

theorem ends_whitespace {gap rest : Text} (hg : gap ≠ []) (hb : ∀ c ∈ gap, isBlank c = true)
    (hr : ∀ c ∈ rest.head?, isBlank c = false) : (⟨.whitespace, gap⟩ : Token).Ends d rest := by
  cases gap with
  | nil => exact absurd rfl hg
  | cons c cs =>
    obtain ⟨hc, hcs⟩ := List.forall_mem_cons.1 hb
    refine ⟨c, cs, rfl, ?_⟩
    have hs : Token.start d c = .blank := by rw [Token.start, if_pos hc]
    rw [hs, Token.Start.extent, Token.spanLength, List.takeWhile_append_of_pos hcs]
    cases rest with
    | nil => simp
    | cons e es => simp [hr e rfl]

/-! ### Splitting -/

theorem cutsFrom_append_of_inert {us vs : List Token} (h : ∀ u ∈ us, Inert d u) (pos : Nat)
    (cuts : Cuts) :
    cutsFrom 0 pos cuts (us ++ vs) = cutsFrom 0 (pos + (Token.textOf us).length) cuts vs := by
  induction us generalizing pos with
  | nil => rfl
  | cons u us ih =>
    obtain ⟨hu, hus⟩ := List.forall_mem_cons.1 h
    have hd : Token.depthAfter 0 u = 0 := by
      unfold Token.depthAfter
      split
      · next hk => exact absurd hk hu.kind.2.1
      · rfl
      · rfl
    have hc : cutsFrom 0 pos cuts (u :: (us ++ vs)) =
        cutsFrom 0 (pos + u.text.length) cuts (us ++ vs) := by
      simp [cutsFrom, hd, hu.kind.1, hu.isComparison]
    rw [List.cons_append, hc, ih hus, Token.textOf_cons, List.length_append, Nat.add_assoc]

variable {f gap op : Text}

theorem split_of_isPath (hf : IsPath f) : split d f = (f, []) := by
  have hc : cutsFrom 0 0 {} (Token.tokenize d f ++ []) = _ :=
    cutsFrom_append_of_inert (fun u hu => inert_of_mem hf hu) 0 {}
  rw [List.append_nil] at hc
  simp only [split, hf.trim, hc, cutsFrom]

theorem tight_of_mem_textOperators (h : op ∈ textOperators) : op.Tight := by
  simp only [textOperators, List.mem_cons, List.not_mem_nil, or_false] at h
  rcases h with rfl | rfl | rfl | rfl | rfl | rfl | rfl | rfl <;>
    exact ⟨⟨_, rfl, rfl⟩, ⟨_, rfl, rfl⟩⟩

/-- The first place for a cut stays the first. -/
theorem first_cutsFrom {n : Nat} {cuts : Cuts} (h : cuts.first = some n) (depth pos : Nat)
    (ts : List Token) : (cutsFrom depth pos cuts ts).first = some n := by
  induction ts generalizing depth pos cuts with
  | nil => exact h
  | cons t ts ih =>
    rw [cutsFrom]
    refine ih ?_ _ _
    split
    · simp [h]
    · split
      · simp [h]
      · exact h

theorem tokenize_append_blank (hf : IsPath f) (hg : gap ≠ []) (hb : ∀ c ∈ gap, isBlank c = true)
    (hop : op.Tight) : Token.tokenize d (f ++ gap ++ op) =
      Token.tokenize d f ++ ⟨.whitespace, gap⟩ :: Token.tokenize d op := by
  have hgap : ∀ c ∈ (gap ++ op).head?, isBoundary c = true := by
    rw [List.head?_append_of_ne_nil _ hg]
    exact fun c hc => isBoundary_of_isBlank (hb c (List.mem_of_mem_head? hc))
  have hh : ∀ c ∈ op.head?, isBlank c = false := fun c hc => by
    obtain ⟨e, he, hn⟩ := hop.head
    rwa [← Option.mem_unique he hc]
  have hbare : ∀ u ∈ Token.tokenize d f, u.Bare d := fun u hu => (inert_of_mem hf hu).bare
  rw [List.append_assoc, Token.tokenize_append_boundary hbare hgap,
    (ends_whitespace (d := d) hg hb hh).tokenize_append]

/-- Whether a text is an operator wherever it stands behind a field: it is known, or a word. -/
def IsOperator (op : Text) : Prop :=
  isKnownOperator op = true ∨ op ≠ [] ∧ ∀ c ∈ op, isBlank c = false

theorem blank_of_isKnownOperator (h : isKnownOperator op = true) : Text.blank op = false := by
  refine Bool.eq_false_iff.2 fun hb => ?_
  have ht : Text.trim op = [] := List.isEmpty_iff.1 ((Text.isEmpty_trim op).trans hb)
  rw [isKnownOperator, ht] at h
  exact absurd h (by decide)

theorem IsOperator.blank (h : IsOperator op) : Text.blank op = false := by
  rcases h with h | ⟨hn, h⟩
  · exact blank_of_isKnownOperator h
  · obtain ⟨c, cs, rfl⟩ := List.exists_cons_of_ne_nil hn
    exact Text.blank_eq_false List.mem_cons_self (h c List.mem_cons_self)

/-- A trimmed key is cut at the first place if an operator stands behind it. -/
theorem split_eq_cutAt_first {key : Text} {n : Nat} (ht : Text.trim key = key)
    (hc : (cutsFrom 0 0 {} (Token.tokenize d key)).first = some n)
    (ho : IsOperator (cutAt n key).2) : split d key = cutAt n key := by
  have hlast : (!isKnownOperator (cutAt n key).2 && (cutAt n key).2.any isBlank) = false := by
    rcases ho with ho | ⟨-, ho⟩
    · rw [ho]
      rfl
    · rw [List.any_eq_false.2 fun c hc => by simp [ho c hc], Bool.and_false]
  simp only [split, ht, hc, hlast, Bool.false_and, Bool.false_eq_true, if_false]
  split <;> rfl

/-- A path, a blank and an operator. -/
theorem split_append_of_isOperator (hf : IsPath f) (hg : gap ≠ [])
    (hb : ∀ c ∈ gap, isBlank c = true) (hop : op.Tight) (ho : IsOperator op) :
    split d (f ++ gap ++ op) = (f, op) := by
  have ht : Text.trim (f ++ gap ++ op) = f ++ gap ++ op := (hf.tight.append hop gap).trim
  have hc : (cutsFrom 0 0 {} (Token.tokenize d (f ++ gap ++ op))).first = some f.length := by
    rw [tokenize_append_blank hf hg hb hop, cutsFrom_append_of_inert fun u hu => inert_of_mem hf hu,
      Token.textOf_tokenize, Nat.zero_add, cutsFrom]
    exact first_cutsFrom (by simp) _ _ _
  have hcut : cutAt f.length (f ++ gap ++ op) = (f, op) := by
    rw [cutAt, List.append_assoc, List.take_left, List.drop_left, hf.trim,
      hop.append_trim hb]
  rw [split_eq_cutAt_first ht hc (by rwa [hcut]), hcut]

theorem split_append (hf : IsPath f) (hg : gap ≠ []) (hb : ∀ c ∈ gap, isBlank c = true)
    (ho : op ∈ textOperators) : split d (f ++ gap ++ op) = (f, op) := by
  have hk : ∀ op ∈ textOperators, isKnownOperator op = true := by decide
  exact split_append_of_isOperator hf hg hb (tight_of_mem_textOperators ho) (.inl (hk op ho))

end Key

/-! ### Placeholders -/

theorem Placeholder.verbatim_of_mem {ts : List Token} (hq : (⟨.operator, "?"⟩ : Token) ∉ ts)
    (hc : (⟨.operator, ":"⟩ : Token) ∉ ts) :
    ∀ p ∈ ofTokens ts, ∃ t, p = Placeholder.verbatim t := by
  fun_induction ofTokens ts with
  | case1 => simp
  | case2 t =>
    have ht : t ≠ ⟨.operator, "?"⟩ := fun ht => hq (by simp [ht])
    rw [if_neg ht]
    exact List.forall_mem_singleton.2 ⟨_, rfl⟩
  | case3 u ts ih => exact absurd List.mem_cons_self hq
  | case4 t u ts ht hu n hn ih => exact absurd (by simp [hu.1]) hc
  | case5 t u ts ht hu hn ih => exact absurd (by simp [hu.1]) hc
  | case6 t u ts ht hu ih =>
    exact List.forall_mem_cons.2 ⟨⟨_, rfl⟩,
      ih (fun h => hq (List.mem_cons_of_mem _ h)) fun h => hc (List.mem_cons_of_mem _ h)⟩

/-- A text without question marks and colons has no place for values. -/
theorem Placeholder.count_of_not_mem (d : Dialect) {t : Text} (hq : '?' ∉ t) (hc : ':' ∉ t) :
    Placeholder.count d t = (0, 0) := by
  have hv : ∀ p ∈ scan d t, ∃ u, p = Placeholder.verbatim u :=
    verbatim_of_mem (fun h => hq (Token.mem_of_mem_tokenize h List.mem_cons_self))
      fun h => hc (Token.mem_of_mem_tokenize h List.mem_cons_self)
  have hn : (scan d t).filterMap number? = [] := List.filterMap_eq_nil_iff.2 fun p hp => by
    obtain ⟨u, rfl⟩ := hv p hp
    rfl
  have hz : (scan d t).countP (· = .next) = 0 := List.countP_eq_zero.2 fun p hp => by
    obtain ⟨u, rfl⟩ := hv p hp
    simp
  simp only [count, hn, hz]
  rfl

theorem Placeholder.count_of_isPath (d : Dialect) {t : Text} (h : IsPath t) :
    Placeholder.count d t = (0, 0) :=
  count_of_not_mem d (fun hc => absurd (h.isPathChar hc) (by decide))
    fun hc => absurd (h.isPathChar hc) (by decide)

/-- A path and an operator behind blanks have none. -/
theorem Placeholder.count_append (d : Dialect) {f gap op : Text} (hf : IsPath f)
    (hb : ∀ c ∈ gap, isBlank c = true) (hq : '?' ∉ op) (hc : ':' ∉ op) :
    Placeholder.count d (f ++ gap ++ op) = (0, 0) := by
  have hn : ∀ c, isPathChar c = false → isBlank c = false → c ∉ op → c ∉ f ++ gap ++ op := by
    intro c hpath hblank hop hm
    rcases List.mem_append.1 hm with hm | hm
    · rcases List.mem_append.1 hm with hm | hm
      · exact hf.not_mem hpath hm
      · rw [hb c hm] at hblank
        cases hblank
    · exact hop hm
  exact count_of_not_mem d (hn '?' (by decide) (by decide) hq) (hn ':' (by decide) (by decide) hc)

/-! ### Paths as fields -/

namespace Condition.Scope

variable {sc : Scope} {f : Text}

/-- A path is written as a name. -/
theorem field_of_isPath (h : IsPath f) (hq : sc.quoting = true) : sc.field f = Render.ask f := by
  have hany : ∀ p : Char → Bool, (∀ c, isPathChar c = true → p c = false) → f.any p = false :=
    fun p hp => List.any_eq_false.2 fun c hc => by simp [hp c (h.isPathChar hc)]
  have hparens := hany (fun c => c == '(' || c == ')' || c == '|') fun c hc => by
    have hne := fun e => beq_of_isPathChar (e := e) hc
    rw [hne '(' (by decide), hne ')' (by decide), hne '|' (by decide)]
    rfl
  have hblank := hany isBlank fun c => isBlank_of_isPathChar
  have harrow : Text.has "->" f = false := Bool.eq_false_iff.2 fun hn =>
    h.not_mem (c := '>') (by decide)
      ((Text.isInfix_of_has hn).subset (List.mem_cons_of_mem _ List.mem_cons_self))
  simp only [field, hq, hparens, hblank, harrow]
  rfl

theorem fieldOrVirtual_of_isPath (h : IsPath f) (hq : sc.quoting = true)
    (hv : sc.virtualField f = none) : sc.fieldOrVirtual f = Render.ask f := by
  rw [fieldOrVirtual, hv]
  exact field_of_isPath h hq

end Condition.Scope

end SqlComposer
