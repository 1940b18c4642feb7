import SqlComposer.Proofs.QuotedTokens

/-!
# Fragments whose fields have quotes

Where the fields of a fragment are between quotes, none is left that needs them: what is bare in it
is neither part of a chain that is no call, nor in front of an arrow, nor an alias. So a second pass
changes nothing.
-/

namespace SqlComposer.Identifier

open Token (glue attach marked attach_of_kind attach_eq_cons)

/-! ### States of a reader -/

/-- What the tokens up to here say about an alias. -/
inductive AliasState where
  | none
  /-- Something has ended that may have an alias. -/
  | ended
  /-- `AS` follows it. -/
  | awaited
deriving DecidableEq

/-- Where in a chain of names the tokens up to here end. -/
inductive ChainState where
  | none
  /-- Behind a part of a chain. -/
  | part
  /-- Behind a dot of a chain. -/
  | dot
deriving DecidableEq

/-- Whether a token is a name, bare or between quotes. -/
def isName (t : Token) : Bool :=
  t.kind = .ident || t.kind = .quotedIdent

theorem isChainPart_of_isName {t : Token} (h : isName t = true) : isChainPart t = true := by
  rw [isChainPart, ← isName.eq_def, h, Bool.true_or]

def isEnd (t : Token) : Bool :=
  t.kind = .quotedIdent || t.kind = .rParen

def isAs (t : Token) : Bool :=
  t.kind = .ident && Text.sameLetters t.text "as"

namespace AliasState

def next (a : AliasState) (t : Token) : AliasState :=
  if t.kind = .whitespace then a
  else if isEnd t then .ended
  else if isAs t && a = .ended then .awaited
  else .none

/-- As `next`, but a star at the end of a chain counts as a name. -/
def nextIn (c : ChainState) (a : AliasState) (t : Token) : AliasState :=
  if c = .dot && t = ⟨.operator, "*"⟩ then .ended else a.next t

end AliasState

def ChainState.next (c : ChainState) (t : Token) : ChainState :=
  if t.kind = .ident || t.kind = .quotedIdent then .part
  else if t.kind = .dot && c = .part then .dot
  else if t = ⟨.operator, "*"⟩ && c = .dot then .part
  else .none

def Context.aliasState (ctx : Context) : AliasState :=
  if ctx.awaitsAlias then .awaited
  else if ctx.last.any isEnd then .ended
  else .none

theorem isEnd_of_isAs {t : Token} (h : isAs t = true) : isEnd t = false := by
  simp only [isAs, Bool.and_eq_true, decide_eq_true_eq] at h
  simp [isEnd, h.1]

namespace Context

theorem awaitsAlias_eq (ctx : Context) :
    ctx.awaitsAlias = (ctx.last.any isAs && ctx.beforeLast.any isEnd) := rfl

theorem aliasState_eq_awaited (ctx : Context) :
    ctx.aliasState = .awaited ↔ ctx.awaitsAlias = true := by
  rw [aliasState]
  split
  · next h => simp [h]
  · next h => split <;> simp [h]

theorem aliasState_eq_ended (ctx : Context) :
    ctx.aliasState = .ended ↔ ctx.last.any isEnd = true := by
  rw [aliasState, awaitsAlias_eq]
  cases ctx.last with
  | none => simp
  | some u =>
    cases hu : isAs u with
    | true => cases hb : ctx.beforeLast.any isEnd <;> simp [hu, isEnd_of_isAs hu]
    | false => cases he : isEnd u <;> simp [hu, he]

theorem aliasState_push (ctx : Context) (t : Token) :
    (ctx.push t).aliasState = ctx.aliasState.next t := by
  by_cases hw : t.kind = .whitespace
  · simp [push, AliasState.next, hw]
  · have ha : (⟨some t, ctx.last⟩ : Context).awaitsAlias =
        (isAs t && decide (ctx.aliasState = .ended)) := by
      have hd : decide (ctx.aliasState = .ended) = ctx.last.any isEnd := by
        rw [Bool.eq_iff_iff, decide_eq_true_eq, aliasState_eq_ended]
      rw [awaitsAlias_eq, hd]
      rfl
    rw [push, if_neg hw, AliasState.next, if_neg hw, aliasState, ha]
    cases hu : isAs t with
    | true => simp [isEnd_of_isAs hu]
    | false => simp

end Context

/-! ### Fragments without fields to quote -/

/-- Whether a call follows the names that go on a chain. -/
def isCalled (ts : List Token) : Bool :=
  (ts.drop (chainLength ts)).head?.any fun u => u.kind = .lParen

/-- Whether no token of a fragment needs quotes, read from given states. -/
def Settled (a : AliasState) (c : ChainState) : List Token → Prop
  | [] => True
  | t :: ts =>
    (t.kind = .ident → arrowFollows ts = false ∧ ¬(isIdentifier t.text = true ∧ a = .awaited) ∧
      (c = .dot ∨ 0 < chainLength ts → isCalled ts = true)) ∧
    Settled (a.nextIn c t) (c.next t) ts

theorem Context.aliasState_push_quoted (ctx : Context) (p : Text) :
    (ctx.push ⟨.quotedIdent, p⟩).aliasState = .ended := by
  rw [aliasState_push]
  rfl

theorem ChainState.next_of_isName (c : ChainState) {t : Token} (h : isName t = true) :
    c.next t = .part := by
  rw [isName] at h
  rw [next, if_pos h]

theorem ChainState.next_of_isChainPart {u : Token} (h : isChainPart u = true) :
    ChainState.dot.next u = .part := by
  simp only [isChainPart, Bool.or_eq_true, decide_eq_true_eq] at h
  rcases h with (h | h) | h <;> simp [next, h]

theorem AliasState.nextIn_of_quotedIdent {t : Token} (c : ChainState) (a : AliasState)
    (h : t.kind = .quotedIdent) : nextIn c a t = .ended := by
  have ht : t ≠ ⟨.operator, "*"⟩ := by
    rintro rfl
    cases h
  simp [nextIn, next, h, isEnd]

theorem AliasState.nextIn_of_isChainPart {u : Token} (a : AliasState) (h : isChainPart u = true)
    (hk : u.kind ≠ .ident) : nextIn .dot a u = .ended := by
  simp only [isChainPart, Bool.or_eq_true, decide_eq_true_eq, hk, false_or] at h
  rcases h with h | h
  · exact nextIn_of_quotedIdent _ _ h
  · simp [nextIn, h]

theorem isCalled_cons_cons {t u : Token} {ts : List Token} (ht : t.kind = .dot)
    (hu : isChainPart u = true) : isCalled (t :: u :: ts) = isCalled ts := by
  rw [isCalled, chainLength, if_pos (by simp [ht, hu]), List.drop_succ_cons, List.drop_succ_cons,
    isCalled]

/-- A chain that is no call has only names between quotes in it. -/
theorem settled_chain {ts : List Token} (h : Settled .ended .part ts) (hc : isCalled ts = false) :
    (∀ u ∈ ts.take (chainLength ts), u.kind ≠ .ident) ∧
      Settled .ended .part (ts.drop (chainLength ts)) := by
  fun_induction chainLength ts with
  | case1 t u ts hd ih =>
    simp only [Bool.and_eq_true, decide_eq_true_eq] at hd
    rw [isCalled_cons_cons hd.1 hd.2] at hc
    obtain ⟨-, hu, hts⟩ := h
    have hdot : ChainState.part.next t = .dot := by simp [ChainState.next, hd.1]
    rw [hdot] at hu hts
    have hnu : u.kind ≠ .ident := fun hk => by
      have := (hu hk).2.2 (.inl rfl)
      rw [hc] at this
      cases this
    rw [AliasState.nextIn_of_isChainPart _ hd.2 hnu, ChainState.next_of_isChainPart hd.2] at hts
    obtain ⟨hi, hs⟩ := ih hts hc
    refine ⟨?_, hs⟩
    rw [List.take_succ_cons, List.take_succ_cons]
    exact List.forall_mem_cons.2 ⟨by simp [hd.1], List.forall_mem_cons.2 ⟨hnu, hi⟩⟩
  | case2 => exact ⟨by simp, h⟩
  | case3 => exact ⟨by simp, h⟩

/-! ### Marking step by step -/

/-- Whether a token that is not marked with a chain gets quotes. -/
def isSingled (ctx : Context) (t : Token) (ts : List Token) : Bool :=
  t.kind = .ident && (arrowFollows ts || isIdentifier t.text && ctx.awaitsAlias)

/-- The token that a context remembers. -/
def seen (ctx : Context) (t : Token) (ts : List Token) : Token :=
  if isSingled ctx t ts then ⟨.quotedIdent, t.text⟩ else t

section Mark

variable {ctx : Context} {t : Token} {ts : List Token}

theorem all_head?_drop (ts : List Token) :
    ((ts.drop (chainLength ts)).head?.all fun u => u.kind != .lParen) = !isCalled ts := by
  rw [isCalled]
  cases (ts.drop (chainLength ts)).head? with
  | none => rfl
  | some u => by_cases h : u.kind = .lParen <;> simp [h]

@[simp] theorem mark_nil (ctx : Context) : mark ctx [] = [] := by
  rw [mark]

/-- A chain as it is marked where it gets quotes. -/
def markChain (ts : List Token) : List (Token × Bool) :=
  ts.map fun u => (u, decide (u.kind = .ident))

@[simp] theorem map_fst_markChain (ts : List Token) : (markChain ts).map Prod.fst = ts := by
  have hid : (Prod.fst ∘ fun u : Token => (u, decide (u.kind = .ident))) = id := rfl
  rw [markChain, List.map_map, hid, List.map_id]

theorem mark_chain (hn : isName t = true) (hl : 0 < chainLength ts) (hc : isCalled ts = false) :
    mark ctx (t :: ts) = markChain (t :: ts.take (chainLength ts)) ++
      mark (ctx.push ⟨.quotedIdent, t.text⟩) (ts.drop (chainLength ts)) := by
  rw [isName] at hn
  rw [mark, markChain]
  simp only [hn, if_true, hl, decide_true, Bool.true_and, all_head?_drop, hc, Bool.not_false]

theorem mark_single (h : isName t = true → 0 < chainLength ts → isCalled ts = true) :
    mark ctx (t :: ts) = (t, isSingled ctx t ts) :: mark (ctx.push (seen ctx t ts)) ts := by
  rw [isName] at h
  rw [mark]
  by_cases hn : (decide (t.kind = .ident) || decide (t.kind = .quotedIdent)) = true
  · by_cases hl : 0 < chainLength ts
    · simp only [hn, if_true, hl, decide_true, Bool.true_and, all_head?_drop, h hn hl,
        Bool.not_true, Bool.false_eq_true, if_false]
      rfl
    · simp only [hn, if_true, hl, decide_false, Bool.false_and, Bool.false_eq_true, if_false]
      rfl
  · simp only [hn, if_false, Nat.lt_irrefl, decide_false, Bool.false_and, Bool.false_eq_true]
    rfl

theorem seen_of_not_isSingled (h : isSingled ctx t ts = false) : seen ctx t ts = t := by
  rw [seen, h]
  rfl

/-- Marking goes on chain by chain and otherwise token by token. -/
@[elab_as_elim]
theorem mark_induction {motive : Context → List Token → Prop} (nil : ∀ ctx, motive ctx [])
    (chain : ∀ ctx t ts, isName t = true → 0 < chainLength ts → isCalled ts = false →
      motive (ctx.push ⟨.quotedIdent, t.text⟩) (ts.drop (chainLength ts)) → motive ctx (t :: ts))
    (single : ∀ ctx t ts, (isName t = true → 0 < chainLength ts → isCalled ts = true) →
      motive (ctx.push (seen ctx t ts)) ts → motive ctx (t :: ts))
    (ctx : Context) (ts : List Token) : motive ctx ts := by
  -- A chain is passed over at once, hence the induction on the length.
  induction hl : ts.length using Nat.strongRecOn generalizing ctx ts with
  | ind n ih =>
    cases ts with
    | nil => exact nil ctx
    | cons t ts =>
      rw [List.length_cons] at hl
      by_cases h : isName t = true → 0 < chainLength ts → isCalled ts = true
      · exact single ctx t ts h (ih _ (by omega) _ _ rfl)
      · simp only [Classical.not_imp] at h
        refine chain ctx t ts h.1 h.2.1 (Bool.eq_false_iff.2 h.2.2) (ih _ ?_ _ _ rfl)
        rw [List.length_drop]
        omega

end Mark

/-! ### A second pass -/

/-- Whether one state says no more than another. -/
def AliasState.Below (a b : AliasState) : Prop :=
  a = .none ∨ a = b

theorem AliasState.Below.next {a b : AliasState} (h : a.Below b) (c : ChainState) (t : Token) :
    (a.next t).Below (b.nextIn c t) := by
  rw [nextIn]
  split
  · next hs =>
    simp only [Bool.and_eq_true, decide_eq_true_eq] at hs
    rw [hs.2]
    exact .inl (by cases a <;> rfl)
  · rcases h with rfl | rfl
    · simp only [AliasState.next]
      split
      · exact .inl rfl
      · split
        · exact .inr rfl
        · exact .inl (by simp)
    · exact .inr rfl

/-- A token that needs no quotes gets none on its own account. -/
theorem isSingled_of_settled {ctx : Context} {a : AliasState} {c : ChainState} {t : Token}
    {ts : List Token} (h : Settled a c (t :: ts)) (ha : ctx.aliasState.Below a) :
    isSingled ctx t ts = false := by
  rw [isSingled]
  by_cases hk : t.kind = .ident
  · obtain ⟨harrow, halias, -⟩ := h.1 hk
    have hw : (isIdentifier t.text && ctx.awaitsAlias) = false := by
      rw [Bool.and_eq_false_iff, or_iff_not_imp_left, Bool.not_eq_false]
      intro hi
      rw [Bool.eq_false_iff, Ne, ← ctx.aliasState_eq_awaited]
      intro hctx
      rcases ha with ha | ha
      · rw [hctx] at ha
        cases ha
      · exact halias ⟨hi, ha ▸ hctx⟩
    rw [harrow, hw, Bool.or_self, Bool.and_false]
  · simp [hk]

/-- In such a fragment no token gets quotes. -/
theorem mark_of_settled {ctx : Context} {a : AliasState} {c : ChainState} {ts : List Token}
    (h : Settled a c ts) (ha : ctx.aliasState.Below a) : ∀ m ∈ mark ctx ts, m.2 = false := by
  induction ctx, ts using mark_induction generalizing a c with
  | nil ctx => simp
  | chain ctx t ts hn hl hc ih =>
    have hk : t.kind ≠ .ident := fun hk => by
      have := (h.1 hk).2.2 (.inr hl)
      rw [hc] at this
      cases this
    have hq : t.kind = .quotedIdent := by simpa [isName, hk] using hn
    have hts := h.2
    rw [AliasState.nextIn_of_quotedIdent c a hq, ChainState.next_of_isName c hn] at hts
    obtain ⟨hi, hs⟩ := settled_chain hts hc
    rw [mark_chain hn hl hc]
    refine List.forall_mem_append.2 ⟨fun m hm => ?_, ih hs (.inr (ctx.aliasState_push_quoted _))⟩
    obtain ⟨u, hu, rfl⟩ := List.mem_map.1 hm
    rcases List.mem_cons.1 hu with rfl | hu
    · exact decide_eq_false hk
    · exact decide_eq_false (hi u hu)
  | single ctx t ts hc ih =>
    have hs : isSingled ctx t ts = false := isSingled_of_settled h ha
    rw [mark_single hc]
    refine List.forall_mem_cons.2 ⟨hs, ?_⟩
    rw [seen_of_not_isSingled hs] at ih ⊢
    exact ih h.2 (ctx.aliasState_push t ▸ ha.next c t)

/-! ### Fragments after the first pass -/

section Written

variable {d : Dialect} {ctx : Context} {t : Token} {ts us : List Token}

theorem map_fst_mark (ctx : Context) (ts : List Token) : (mark ctx ts).map Prod.fst = ts := by
  induction ctx, ts using mark_induction with
  | nil ctx => simp
  | chain ctx t ts hn hl hc ih =>
    rw [mark_chain hn hl hc, List.map_append, ih, map_fst_markChain, List.cons_append,
      List.take_append_drop]
  | single ctx t ts hc ih => rw [mark_single hc, List.map_cons, ih]

theorem kind_of_isSingled (h : isSingled ctx t ts = true) : t.kind = .ident := by
  simpa using (Bool.and_eq_true_iff.1 h).1

theorem kind_of_mem_mark (ctx : Context) (ts : List Token) :
    ∀ m ∈ mark ctx ts, m.2 = true → m.1.kind = .ident := by
  induction ctx, ts using mark_induction with
  | nil ctx => simp
  | chain ctx t ts hn hl hc ih =>
    rw [mark_chain hn hl hc]
    refine List.forall_mem_append.2 ⟨fun m hm => ?_, ih⟩
    obtain ⟨u, -, rfl⟩ := List.mem_map.1 hm
    exact of_decide_eq_true
  | single ctx t ts hc ih =>
    rw [mark_single hc]
    exact List.forall_mem_cons.2 ⟨kind_of_isSingled, ih⟩

/-- The tokens of a fragment after quoting its fields. -/
def written (d : Dialect) (ctx : Context) (ts : List Token) : List Token :=
  glue d ((mark ctx ts).map (marked d))

theorem written_nil (d : Dialect) (ctx : Context) : written d ctx [] = [] := by
  rw [written, mark_nil]
  rfl

theorem written_single (h : isName t = true → 0 < chainLength ts → isCalled ts = true) :
    written d ctx (t :: ts) =
      attach d (marked d (t, isSingled ctx t ts)) (written d (ctx.push (seen ctx t ts)) ts) := by
  rw [written, mark_single h]
  rfl

theorem written_chain (hn : isName t = true) (hl : 0 < chainLength ts) (hc : isCalled ts = false) :
    written d ctx (t :: ts) =
      attach d (marked d (t, decide (t.kind = .ident)))
        (((ts.take (chainLength ts)).map fun u => marked d (u, decide (u.kind = .ident))).foldr
          (attach d) (written d (ctx.push ⟨.quotedIdent, t.text⟩) (ts.drop (chainLength ts)))) := by
  rw [written, mark_chain hn hl hc, markChain, List.map_append, glue, List.foldr_append,
    List.map_map]
  rfl

/-- What is no name stays in front of the rest. -/
theorem written_of_not_isName (h : isName t = false) :
    written d ctx (t :: ts) = t :: written d (ctx.push t) ts := by
  have hk : t.kind ≠ .ident ∧ t.kind ≠ .quotedIdent := by
    simpa [isName] using h
  have hs : isSingled ctx t ts = false := by simp [isSingled, hk.1]
  rw [written_single (by simp [h]), seen_of_not_isSingled hs, hs, marked, if_neg Bool.false_ne_true,
    attach_of_kind hk.2]

theorem written_cons (d : Dialect) (ctx : Context) (t : Token) (ts : List Token) :
    ∃ u us, written d ctx (t :: ts) = u :: us ∧ (u = t ∨ isName t = true ∧ u.kind = .quotedIdent) := by
  have hcons : ∀ (b : Bool) (us : List Token), (b = true → t.kind = .ident) →
      ∃ v vs, attach d (marked d (t, b)) us = v :: vs ∧
        (v = t ∨ isName t = true ∧ v.kind = .quotedIdent) := by
    intro b us hb
    obtain ⟨v, vs, hv, hk⟩ := attach_eq_cons d (marked d (t, b)) us
    refine ⟨v, vs, hv, ?_⟩
    cases b with
    | true =>
      refine .inr ⟨by simp [isName, hb rfl], ?_⟩
      rcases hk with rfl | ⟨-, hk⟩
      · rfl
      · exact hk
    | false =>
      rcases hk with rfl | ⟨ht, hk⟩
      · exact .inl rfl
      · exact .inr ⟨by simp [isName, show t.kind = .quotedIdent from ht], hk⟩
  by_cases h : isName t = true → 0 < chainLength ts → isCalled ts = true
  · rw [written_single h]
    exact hcons _ _ kind_of_isSingled
  · simp only [Classical.not_imp] at h
    rw [written, mark_chain h.1 h.2.1 (Bool.eq_false_iff.2 h.2.2)]
    exact hcons _ _ of_decide_eq_true

/-- Behind a token that gets no quotes the rest is written. -/
theorem written_tail (ht : t.kind ≠ .quotedIdent) (h : written d ctx (t :: ts) = t :: us) :
    us = written d (ctx.push t) ts := by
  have hfalse : ∀ b vs, attach d (marked d (t, b)) vs = t :: us → b = false := by
    intro b vs hv
    obtain ⟨v, vs', hv', hk⟩ := attach_eq_cons d (marked d (t, b)) vs
    rw [hv'] at hv
    cases hv
    cases b with
    | false => rfl
    | true =>
      rcases hk with hk | ⟨-, hk⟩
      · exact absurd (congrArg Token.kind hk) ht
      · exact absurd hk ht
  by_cases hc : isName t = true → 0 < chainLength ts → isCalled ts = true
  · rw [written_single hc] at h
    have hs : isSingled ctx t ts = false := hfalse _ _ h
    rw [hs, seen_of_not_isSingled hs, marked, if_neg Bool.false_ne_true, attach_of_kind ht] at h
    exact (List.cons_eq_cons.1 h).2.symm
  · simp only [Classical.not_imp] at hc
    rw [written_chain hc.1 hc.2.1 (Bool.eq_false_iff.2 hc.2.2)] at h
    have hi : t.kind ≠ .ident := of_decide_eq_false (hfalse _ _ h)
    exact absurd hc.1 (by simp [isName, hi, ht])

/-- A token that is not between quotes stands where it stood. -/
theorem written_eq_cons (h : written d ctx ts = t :: us) (ht : t.kind ≠ .quotedIdent) :
    ∃ vs, ts = t :: vs ∧ us = written d (ctx.push t) vs := by
  cases ts with
  | nil =>
    rw [written_nil] at h
    cases h
  | cons v vs =>
    obtain ⟨w, ws, hw, hk⟩ := written_cons d ctx v vs
    obtain ⟨rfl, rfl⟩ := List.cons_eq_cons.1 (hw.symm.trans h)
    obtain rfl : w = v := hk.resolve_right fun hk => ht hk.2
    exact ⟨vs, rfl, written_tail ht hw⟩

theorem arrowFollows_cons (t : Token) (ts : List Token) :
    arrowFollows (t :: ts) =
      if t.kind = .whitespace then arrowFollows ts
      else t.kind = .operator && List.isPrefixOf "->" t.text := by
  by_cases h : t.kind = .whitespace
  · simp [arrowFollows, h]
  · simp [arrowFollows, h]

/-- Quotes hide no arrow and bring none. -/
theorem arrowFollows_written (d : Dialect) (ctx : Context) (ts : List Token) :
    arrowFollows (written d ctx ts) = arrowFollows ts := by
  induction ts generalizing ctx with
  | nil => rw [written_nil]
  | cons t ts ih =>
    by_cases hw : t.kind = .whitespace
    · rw [written_of_not_isName (by simp [isName, hw]), arrowFollows_cons, arrowFollows_cons,
        if_pos hw, if_pos hw, ih]
    · obtain ⟨u, us, hu, hk⟩ := written_cons d ctx t ts
      rw [hu, arrowFollows_cons, arrowFollows_cons]
      rcases hk with rfl | ⟨hn, hk⟩
      · rw [if_neg hw, if_neg hw]
      · have ht : t.kind ≠ .operator := fun h => by simp [isName, h] at hn
        simp [hw, hk, ht]

theorem chainLength_pos : 0 < chainLength ts ↔
    ∃ t u us, ts = t :: u :: us ∧ t.kind = .dot ∧ isChainPart u = true := by
  constructor
  · intro h
    unfold chainLength at h
    split at h
    · next t u us =>
      split at h
      · next hc => exact ⟨t, u, us, rfl, by simpa using hc⟩
      · cases h
    · cases h
  · rintro ⟨t, u, us, rfl, ht, hu⟩
    rw [chainLength, if_pos (by simp [ht, hu])]
    omega

/-- Quotes begin no chain. -/
theorem chainLength_of_written (h : 0 < chainLength (written d ctx ts)) : 0 < chainLength ts := by
  obtain ⟨t, u, us, he, ht, hu⟩ := chainLength_pos.1 h
  obtain ⟨vs, rfl, hvs⟩ := written_eq_cons he (by simp [ht])
  cases vs with
  | nil =>
    rw [written_nil] at hvs
    cases hvs
  | cons p vs =>
    obtain ⟨w, ws, hw, hk⟩ := written_cons d (ctx.push t) p vs
    obtain ⟨rfl, -⟩ := List.cons_eq_cons.1 (hvs.trans hw)
    refine chainLength_pos.2 ⟨t, p, vs, rfl, ht, ?_⟩
    rcases hk with rfl | ⟨hn, -⟩
    · exact hu
    · exact isChainPart_of_isName hn

theorem isCalled_of_lParen (h : t.kind = .lParen) : isCalled (t :: ts) = true := by
  have hl : chainLength (t :: ts) = 0 := by
    by_contra hn
    obtain ⟨u, _, _, hu, hd, _⟩ := chainLength_pos.1 (Nat.pos_of_ne_zero hn)
    cases hu
    rw [h] at hd
    cases hd
  rw [isCalled, hl]
  simp [h]

theorem kind_of_isCalled (h : isCalled (t :: ts) = true) : t.kind = .lParen ∨ t.kind = .dot := by
  by_cases hl : 0 < chainLength (t :: ts)
  · obtain ⟨u, _, _, hu, hd, _⟩ := chainLength_pos.1 hl
    cases hu
    exact .inr hd
  · rw [isCalled, Nat.eq_zero_of_not_pos hl] at h
    exact .inl (by simpa using h)

/-- In a chain that is a call no token gets quotes. -/
theorem isSingled_of_isCalled {u : Token} (ht : t.kind = .dot) (hc : isCalled ts = true) :
    isSingled (ctx.push t) u ts = false := by
  have ha : (ctx.push t).awaitsAlias = false := by
    simp [Context.awaitsAlias_eq, Context.push, ht, isAs]
  have harrow : arrowFollows ts = false := by
    cases ts with
    | nil => rfl
    | cons v vs =>
      rw [arrowFollows_cons]
      rcases kind_of_isCalled hc with hk | hk <;> simp [hk]
  rw [isSingled, ha, harrow, Bool.and_false, Bool.or_self, Bool.and_false]

theorem isCalled_written_of_lParen (d : Dialect) (ctx : Context) (hl : chainLength ts = 0)
    (h : isCalled ts = true) : isCalled (written d ctx ts) = true := by
  rw [isCalled, hl] at h
  cases ts with
  | nil => cases h
  | cons t ts =>
    have hk : t.kind = .lParen := by simpa using h
    rw [written_of_not_isName (by simp [isName, hk])]
    exact isCalled_of_lParen hk

/-- A call stays one. -/
theorem isCalled_written (d : Dialect) (ctx : Context) (h : isCalled ts = true) :
    isCalled (written d ctx ts) = true := by
  fun_induction chainLength ts generalizing ctx with
  | case1 t u ts hd ih =>
    simp only [Bool.and_eq_true, decide_eq_true_eq] at hd
    rw [isCalled_cons_cons hd.1 hd.2] at h
    have ih := ih (ctx.push t |>.push (seen (ctx.push t) u ts)) h
    rw [written_of_not_isName (by simp [isName, hd.1]), written_single fun _ _ => h,
      isSingled_of_isCalled hd.1 h, marked, if_neg Bool.false_ne_true]
    generalize written d (ctx.push t |>.push (seen (ctx.push t) u ts)) ts = us at ih ⊢
    cases us with
    | nil => cases ih
    | cons v vs =>
      have hj : ¬Token.joins d u v = true := fun hj => by
        have hv := (Token.joins_eq_true hj).2.1
        rcases kind_of_isCalled ih with hk | hk <;> rw [hk] at hv <;> cases hv
      rw [attach, if_neg hj, isCalled_cons_cons hd.1 hd.2]
      exact ih
  | case2 t u ts hd =>
    exact isCalled_written_of_lParen d ctx (by rw [chainLength, if_neg hd]) h
  | case3 ts hd =>
    refine isCalled_written_of_lParen d ctx ?_ h
    by_contra hn
    obtain ⟨t, u, us, rfl, -⟩ := chainLength_pos.1 (Nat.pos_of_ne_zero hn)
    exact hd t u us rfl

theorem settled_attach_quoted {a : AliasState} {c : ChainState} (ht : t.kind = .quotedIdent)
    (h : Settled .ended .part us) : Settled a c (attach d t us) := by
  have hstep : ∀ {u : Token} {vs : List Token}, u.kind = .quotedIdent → ∀ {a c},
      Settled a c (u :: vs) ↔ Settled .ended .part vs := by
    intro u vs hu a c
    rw [Settled, AliasState.nextIn_of_quotedIdent c a hu,
      ChainState.next_of_isName c (by simp [isName, hu])]
    simp [hu]
  cases us with
  | nil => exact (hstep ht).2 trivial
  | cons u us =>
    rw [attach]
    split
    · next hj => exact (hstep rfl).2 ((hstep (Token.joins_eq_true hj).2.1).1 h)
    · exact (hstep ht).2 h

theorem settled_of_isCalled {c : ChainState} (hc : isCalled us = true) (h : Settled .none c us) :
    Settled .ended c us := by
  cases us with
  | nil => trivial
  | cons t us =>
    have hk := kind_of_isCalled hc
    have hn : AliasState.nextIn c .ended t = AliasState.nextIn c .none t := by
      have he : t.kind ≠ .whitespace ∧ isEnd t = false ∧ isAs t = false := by
        rcases hk with hk | hk <;> simp [isEnd, isAs, hk]
      simp [AliasState.nextIn, AliasState.next, he]
    refine ⟨fun hi => ?_, hn ▸ h.2⟩
    rcases hk with hk | hk <;> rw [hk] at hi <;> cases hi

/-- What a state in a chain that is no field says about the rest. -/
def Follows : ChainState → List Token → Prop
  | .none, _ => True
  | .part, ts => 0 < chainLength ts → isCalled ts = true
  | .dot, ts => ∀ u ∈ ts.head?, isChainPart u = true → isCalled ts.tail = true

theorem kind_marked_name (hn : isName t = true) :
    (marked d (t, decide (t.kind = .ident))).kind = .quotedIdent := by
  rw [marked]
  split
  · rfl
  · next h =>
    have h : t.kind ≠ .ident := by simpa using h
    simpa [isName, h] using hn

/-- Behind a name, a chain of names between quotes settles nothing. -/
theorem settled_quotedChain (h : Settled .ended .part us) :
    Settled .ended .part
      (((ts.take (chainLength ts)).map fun u => marked d (u, decide (u.kind = .ident))).foldr
        (attach d) us) := by
  fun_induction chainLength ts with
  | case1 t u ts hd ih =>
    simp only [Bool.and_eq_true, decide_eq_true_eq] at hd
    rw [List.take_succ_cons, List.take_succ_cons, List.map_cons, List.map_cons, List.foldr_cons,
      List.foldr_cons]
    have ht : marked d (t, decide (t.kind = .ident)) = t := by simp [marked, hd.1]
    rw [ht, attach_of_kind (by simp [hd.1])]
    refine ⟨by simp [hd.1], ?_⟩
    have hstate : AliasState.nextIn .part .ended t = .none ∧ ChainState.part.next t = .dot := by
      simp [AliasState.nextIn, AliasState.next, ChainState.next, hd.1, isEnd, isAs]
    rw [hstate.1, hstate.2]
    by_cases hn : isName u = true
    · exact settled_attach_quoted (kind_marked_name hn) ih
    · have hu : u = ⟨.operator, "*"⟩ := by
        have hp := hd.2
        rw [isChainPart, ← isName.eq_def] at hp
        simpa [hn] using hp
      subst hu
      rw [attach_of_kind (by simp [marked])]
      exact ⟨by simp [marked], ih⟩
  | case2 => exact h
  | case3 => exact h

theorem chainLength_drop (ts : List Token) : chainLength (ts.drop (chainLength ts)) = 0 := by
  fun_induction chainLength ts with
  | case1 t u ts hd ih => rwa [List.drop_succ_cons, List.drop_succ_cons]
  | case2 t u ts hd => rw [List.drop_zero, chainLength, if_neg hd]
  | case3 ts hd =>
    by_contra hn
    obtain ⟨t, u, us, rfl, -⟩ := chainLength_pos.1 (Nat.pos_of_ne_zero hn)
    exact hd t u us rfl

theorem Follows.next_of_not_isName {c : ChainState} (h : Follows c (t :: ts))
    (hn : isName t = false) : Follows (c.next t) ts := by
  rw [isName] at hn
  rw [ChainState.next, if_neg (by simp [hn])]
  split
  · next hd =>
    simp only [Bool.and_eq_true, decide_eq_true_eq] at hd
    rw [hd.2] at h
    intro u hu hp
    cases ts with
    | nil => cases hu
    | cons v vs =>
      cases hu
      have := h (chainLength_pos.2 ⟨t, u, vs, rfl, hd.1, hp⟩)
      rwa [isCalled_cons_cons hd.1 hp] at this
  · split
    · next hs =>
      simp only [Bool.and_eq_true, decide_eq_true_eq] at hs
      rw [hs.2] at h
      exact fun _ => h t rfl (by simp [isChainPart, hs.1])
    · trivial

/-- A bare name that gets no quotes needs none where the rest has got its quotes. -/
theorem settled_written_ident {c : ChainState} (hi : t.kind = .ident)
    (hs : isSingled ctx t ts = false)
    (hcalled : c = .dot ∨ 0 < chainLength ts → isCalled ts = true)
    (h : Settled (ctx.push t).aliasState .part (written d (ctx.push t) ts)) :
    Settled ctx.aliasState c (t :: written d (ctx.push t) ts) := by
  have hstate : ctx.aliasState.nextIn c t = (ctx.push t).aliasState := by
    have hstar : t ≠ ⟨.operator, "*"⟩ := fun he => by simp [he] at hi
    rw [Context.aliasState_push, AliasState.nextIn,
      if_neg fun he => hstar (of_decide_eq_true (Bool.and_eq_true_iff.1 he).2)]
  refine ⟨fun _ => ?_, ?_⟩
  · rw [isSingled] at hs
    simp only [hi, decide_true, Bool.true_and, Bool.or_eq_false_iff] at hs
    refine ⟨by rw [arrowFollows_written, hs.1], fun ha => ?_, fun hl => ?_⟩
    · rw [Context.aliasState_eq_awaited] at ha
      simp [ha] at hs
    · exact isCalled_written d _ (hcalled (hl.imp_right chainLength_of_written))
  · rw [hstate, ChainState.next_of_isName c (by simp [isName, hi])]
    exact h

/-- What is no name needs no quotes; the star of a chain reads like a name, but only a call can
follow it. -/
theorem settled_written_of_not_isName {c : ChainState} (hn : isName t = false)
    (hf : Follows c (t :: ts))
    (h : Settled (ctx.push t).aliasState (c.next t) (written d (ctx.push t) ts)) :
    Settled ctx.aliasState c (t :: written d (ctx.push t) ts) := by
  rw [Context.aliasState_push] at h
  refine ⟨fun hi => by simp [isName, hi] at hn, ?_⟩
  rw [AliasState.nextIn]
  split
  · next hstar =>
    simp only [Bool.and_eq_true, decide_eq_true_eq] at hstar
    rw [hstar.1] at hf
    have hcalled : isCalled ts = true := hf t rfl (by simp [isChainPart, hstar.2])
    have hnone : ctx.aliasState.next t = .none := by
      rw [hstar.2]
      cases ctx.aliasState <;> rfl
    exact settled_of_isCalled (isCalled_written d _ hcalled) (hnone ▸ h)
  · exact h

/-- After the first pass no token needs quotes. -/
theorem settled_written (d : Dialect) (ctx : Context) {c : ChainState} (h : Follows c ts) :
    Settled ctx.aliasState c (written d ctx ts) := by
  induction ctx, ts using mark_induction generalizing c with
  | nil ctx =>
    rw [written_nil]
    trivial
  | chain ctx t ts hn hl hc ih =>
    have hend : Follows .part (ts.drop (chainLength ts)) := fun h => by
      rw [chainLength_drop] at h
      cases h
    have ih := ih hend
    rw [Context.aliasState_push_quoted] at ih
    rw [written_chain hn hl hc]
    exact settled_attach_quoted (kind_marked_name hn) (settled_quotedChain ih)
  | single ctx t ts hc ih =>
    rw [written_single hc]
    cases hs : isSingled ctx t ts with
    | true =>
      have hn : isName t = true := by simp [isName, kind_of_isSingled hs]
      have ih := ih (c := .part) fun hl => hc hn hl
      have hp : (ctx.push (seen ctx t ts)).aliasState = .ended := by
        rw [seen, if_pos hs, Context.aliasState_push_quoted]
      exact settled_attach_quoted rfl (hp ▸ ih)
    | false =>
      have hm : marked d (t, false) = t := rfl
      rw [seen_of_not_isSingled hs] at ih ⊢
      rw [hm]
      -- What gets no quotes has them already, or is a bare name, or is no name.
      by_cases hq : t.kind = .quotedIdent
      · have hn : isName t = true := by simp [isName, hq]
        have ih := ih (c := .part) fun hl => hc hn hl
        have hp : (ctx.push t).aliasState = .ended := by
          rw [Context.aliasState_push]
          simp [AliasState.next, hq, isEnd]
        exact settled_attach_quoted hq (hp ▸ ih)
      · rw [attach_of_kind hq]
        by_cases hi : t.kind = .ident
        · have hn : isName t = true := by simp [isName, hi]
          refine settled_written_ident hi hs ?_ (ih fun hl => hc hn hl)
          rintro (rfl | hl)
          · exact h t rfl (by simp [isChainPart, hi])
          · exact hc hn hl
        · have hn : isName t = false := by simp [isName, hi, hq]
          exact settled_written_of_not_isName hn h (ih (h.next_of_not_isName hn))

end Written

/-! ### Quoting fields twice -/

open Token (tokenize textOf Separate)

variable {d : Dialect} {ts : List Token}

theorem flatMap_writeMarked (d : Dialect) (ms : List (Token × Bool)) :
    ms.flatMap (writeMarked d) = textOf (glue d (ms.map (marked d))) := by
  rw [Token.textOf_glue, textOf, List.flatMap_map]
  exact List.flatMap_congr fun m _ => (Token.text_marked d m).symm

/-- No quote that closes an identifier stands alone. -/
def Paired (d : Dialect) (ts : List Token) : Prop :=
  ∀ u ∈ ts, u.text.head? = some d.endQuote → u.kind = .quotedIdent

theorem quoteFields_textOf (h : Separate d ts []) :
    quoteFields d (textOf ts) = textOf (written d {} ts) := by
  rw [quoteFields, h.tokenize_textOf, flatMap_writeMarked]
  rfl

/-- The tokens of an operand after quoting its fields. -/
theorem solid_written (h : Solid d ts) (hp : Paired d ts) : Solid d (written d {} ts) where
  head := by
    obtain ⟨c, hc, hb⟩ := h.head
    cases ts with
    | nil => cases hc
    | cons t ts =>
      have ht : t.Ends d _ := (h.separate (by rintro _ ⟨⟩) : Token.Separate d (t :: ts) []).1
      obtain ⟨m, ms, hm⟩ : ∃ m ms, mark {} (t :: ts) = m :: ms :=
        List.exists_cons_of_ne_nil fun hn => by simpa [hn] using map_fst_mark {} (t :: ts)
      have hmt : m.1 = t := by
        have := map_fst_mark {} (t :: ts)
        rw [hm] at this
        exact (List.cons_eq_cons.1 this).1
      rw [written, Token.textOf_glue, hm, List.map_cons]
      cases hm2 : m.2 with
      | true =>
        refine ⟨d.startQuote, ?_, by cases d <;> rfl⟩
        simp [marked, hm2, Token.quoted, Dialect.quote]
      | false =>
        rw [marked, if_neg (by simp [hm2]), hmt, Token.textOf_cons,
          List.head?_append_of_ne_nil _ ht.ne_nil]
        rw [Token.head?_textOf_cons ht] at hc
        exact ⟨c, hc, hb⟩
  separate hr := by
    have hs : Token.Separate d ts [')'] := h.separate (by rintro _ ⟨⟩; exact .inr rfl)
    rw [← map_fst_mark {} ts] at hs
    refine Token.separate_glue hs (.inr ⟨by simp, hr, fun m hm => h.kind_getLast m.1 ?_⟩)
      (kind_of_mem_mark {} ts) fun m hm => hp m.1 (map_fst_mark {} ts ▸ List.mem_map_of_mem hm)
    have := map_fst_mark {} ts
    rw [← this, List.getLast?_map, Option.mem_def.1 hm]
    rfl

/-- The tokens of a fragment after quoting its fields are read as they are written. -/
theorem separate_written (h : Separate d ts []) (hp : Paired d ts) :
    Separate d (written d {} ts) [] := by
  rw [← map_fst_mark {} ts] at h
  exact Token.separate_glue h (.inl ⟨rfl, rfl⟩) (kind_of_mem_mark {} ts)
    fun m hm => hp m.1 (map_fst_mark {} ts ▸ List.mem_map_of_mem hm)

/-- A fragment without fields to quote stays as it is. -/
theorem quoteFields_of_settled (h : Separate d ts []) (hs : Settled .none .none ts) :
    quoteFields d (textOf ts) = textOf ts := by
  have hm : ∀ m ∈ mark {} ts, m.2 = false := mark_of_settled hs (.inl rfl)
  have hw : (mark {} ts).flatMap (writeMarked d) = (mark {} ts).flatMap fun m => m.1.text :=
    List.flatMap_congr fun m h => by rw [writeMarked, hm m h]; rfl
  rw [quoteFields, h.tokenize_textOf, hw, ← List.flatMap_map, map_fst_mark]
  rfl

/-- Quoting fields twice is quoting them once. -/
theorem quoteFields_written (h : Separate d (written d {} ts) []) :
    quoteFields d (textOf (written d {} ts)) = textOf (written d {} ts) :=
  quoteFields_of_settled h (settled_written d {} trivial)

end SqlComposer.Identifier
