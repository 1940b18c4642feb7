import SqlComposer.Proofs.QuotedFields
import SqlComposer.Proofs.Parentheses

/-!
# Calls between quotes

A call whose arguments have their quotes is read as a call of the same function, whose arguments
need no further quotes.
-/

namespace SqlComposer.Identifier

open CharClass
open Token (tokenize textOf Separate level quoted marked)

variable {d : Dialect} {f u : Token} {ts us is : List Token} {t c inner rest : Text}

/-! ### The tokens of a call -/

theorem isCall_iff : isCall ts = true ↔ ∃ f p is r, ts = f :: p :: (is ++ [r]) ∧
    f.kind = .ident ∧ p.kind = .lParen ∧ r.kind = .rParen ∧ level 0 is = some 0 := by
  have hmatch : ∀ (f p : Token) (us : List Token), p.kind = .lParen →
      Token.matchingParen (f :: p :: us) 1 = (Token.closingFrom 1 us).map (· + 2) := by
    intro f p us hp
    rw [Token.matchingParen, List.drop_succ_cons, List.drop_zero, Token.closingFrom]
    simp [hp, Option.map_map, Function.comp_def]
  constructor
  · intro h
    unfold isCall at h
    split at h
    · next f p us =>
      simp only [Bool.and_eq_true, decide_eq_true_eq, beq_iff_eq] at h
      obtain ⟨⟨hf, hp⟩, hm⟩ := h
      rw [hmatch f p us hp] at hm
      obtain ⟨n, hn, hl⟩ := Option.map_eq_some_iff.1 hm
      obtain ⟨is, r, rfl, hr, hi⟩ := Token.level_of_closingFrom hn (by omega)
      exact ⟨f, p, is, r, rfl, hf, hp, hr, hi⟩
    · cases h
  · rintro ⟨f, p, is, r, rfl, hf, hp, hr, hi⟩
    rw [isCall, hmatch f p _ hp, Token.closingFrom_of_level hr hi]
    simp [hf, hp]

/-- The name of a function and its arguments between parentheses. -/
def callTokens (f : Token) (is : List Token) : List Token :=
  f :: ⟨.lParen, ['(']⟩ :: (is ++ [⟨.rParen, [')']⟩])

theorem textOf_callTokens (f : Token) (is : List Token) :
    textOf (callTokens f is) = f.text ++ "(" ++ textOf is ++ ")" := by
  simp [callTokens]

theorem level_callTokens (hf : f.kind = .ident) (h : level 0 is = some 0) :
    level 0 (callTokens f is) = some 0 := by
  have hi := Token.level_add h 1
  simp [callTokens, level, hf, Token.level_append, hi]

theorem solid_callTokens (hf : f.Ends d rest) (hk : f.kind = .ident)
    (his : is = [] ∨ Solid d is) : Solid d (callTokens f is) where
  head := by
    obtain ⟨c, cs, ht, he⟩ := hf
    refine ⟨c, by simp [callTokens, ht], isBlank_of_isBoundary ?_⟩
    exact (Token.start_of_ident (d := d) (s := cs ++ rest) (by rw [he]; exact hk)).1
  separate {rest'} _ := by
    have hbare : f.Bare d := by
      obtain ⟨c, cs, ht, he⟩ := hf
      refine ⟨c, by rw [ht]; rfl, ?_⟩
      exact (Token.start_of_ident (d := d) (s := cs ++ rest) (by rw [he]; exact hk)).2
    refine ⟨?_, .of_sign rfl d _, Token.Separate.append_iff.2
      ⟨?_, .of_sign rfl d _, trivial⟩⟩
    · exact (Token.Ends.cut (a := []) hf).append_boundary hbare (by rintro _ ⟨⟩; rfl)
    · rcases his with rfl | his
      · trivial
      · exact his.separate (by rintro _ ⟨⟩; exact .inr rfl)

theorem callParts_of_tokenize (ht : tokenize d t = callTokens f is) (hk : f.kind = .ident)
    (hi : level 0 is = some 0) : callParts d t = some (f.text, Text.trim (textOf is)) := by
  have hc : isCall (callTokens f is) = true :=
    isCall_iff.2 ⟨f, _, is, _, rfl, hk, rfl, rfl, hi⟩
  rw [callParts, ht]
  simp only [callTokens] at hc ⊢
  rw [if_pos hc, List.dropLast_concat]

theorem tokenize_of_callParts {name : Text} (h : callParts d t = some (name, inner)) :
    ∃ f is, tokenize d t = callTokens f is ∧ f.kind = .ident ∧ level 0 is = some 0 ∧
      name = f.text ∧ inner = Text.trim (textOf is) := by
  have hs := Token.separate_tokenize d t
  unfold callParts at h
  split at h
  · next f p us hts =>
    split at h
    · next hc =>
      cases h
      obtain ⟨f', p', is, r, hcall, hf, hp, hr, hi⟩ := isCall_iff.1 hc
      cases hcall
      rw [hts] at hs
      have hr' := (Token.Separate.append_iff.1 hs.2.2).2.1.eq_sign hr rfl
      have hp' := hs.2.1.eq_sign hp rfl
      subst hp' hr'
      exact ⟨f, is, hts, hf, hi, rfl, by rw [List.dropLast_concat]⟩
    · cases h
  · cases h

theorem isSome_callParts (d : Dialect) (t : Text) :
    (callParts d t).isSome = isCall (tokenize d t) := by
  unfold callParts
  split
  · next h =>
    rw [h]
    split
    · next hc => rw [hc, Option.isSome_some]
    · next hc => simp [hc]
  · next h =>
    by_contra hc
    have hc : isCall (tokenize d t) = true := by simpa using hc
    obtain ⟨f, p, is, r, ht, -⟩ := isCall_iff.1 hc
    exact h f p _ ht

/-! ### Arguments -/

/-- What stands between the parentheses of a call with its argument quoted. -/
def quoteArguments (d : Dialect) (inner : Text) : Text :=
  if inner.isEmpty then []
  else (quoteCall d inner).getD <| if isIdentifier inner then d.quote inner else quoteFields d inner

theorem quoteCall_eq (d : Dialect) (t : Text) :
    quoteCall d t = (callParts d t).map fun r => r.1 ++ "(" ++ quoteArguments d r.2 ++ ")" := by
  rw [quoteCall]
  split
  · next h => rw [h, Option.map_none]
  · next f inner h =>
    rw [h, Option.map_some, quoteArguments]
    cases quoteCall d inner <;> rfl

theorem isSome_quoteCall (d : Dialect) (t : Text) :
    (quoteCall d t).isSome = isCall (tokenize d t) := by
  rw [quoteCall_eq, Option.isSome_map, isSome_callParts]

theorem quoteCall_eq_none : quoteCall d t = none ↔ isCall (tokenize d t) = false := by
  rw [← isSome_quoteCall, Option.isSome_eq_false_iff, Option.isNone_iff_eq_none]

theorem quoteCall_of_tokenize (ht : tokenize d t = callTokens f is) (hk : f.kind = .ident)
    (hi : level 0 is = some 0) :
    quoteCall d t = some (f.text ++ "(" ++ quoteArguments d (Text.trim (textOf is)) ++ ")") := by
  rw [quoteCall_eq, callParts_of_tokenize ht hk hi, Option.map_some]

/-- Identifiers between quotes with dots between them as an operand. -/
theorem solid_pathTokens {ps : List Text} (hn : ps ≠ [])
    (h : ∀ p ∈ ps, ∀ c ∈ p, (c == d.endQuote) = false) : Solid d (Token.pathTokens d ps) where
  head := ⟨d.startQuote, Token.head?_pathTokens hn, by cases d <;> rfl⟩
  separate hr := Token.separate_pathTokens h fun _ hc =>
    beq_false_of_ne (Token.head?_ne_quote hr hc).1

theorem solid_quoted {p : Text} (h : ∀ c ∈ p, (c == d.endQuote) = false) : Solid d [quoted d p] :=
  solid_pathTokens (List.cons_ne_nil p []) (List.forall_mem_singleton.2 h)

theorem isIdentifier_quote (d : Dialect) (p : Text) : isIdentifier (d.quote p) = false := by
  cases d <;> rfl

/-- An identifier between quotes is an argument that stays. -/
theorem quoteArguments_quote {p : Text} (h : ∀ c ∈ p, (c == d.endQuote) = false) :
    quoteArguments d (d.quote p) = d.quote p := by
  have hs := solid_quoted h
  have ht : textOf [quoted d p] = d.quote p := List.append_nil _
  have hc : quoteCall d (d.quote p) = none := by
    refine quoteCall_eq_none.2 ?_
    rw [← ht, hs.tokenize_textOf]
    rfl
  have hf := quoteFields_of_settled hs.alone ⟨by simp [quoted], trivial⟩
  rw [ht] at hf
  rw [quoteArguments, hc, isIdentifier_quote, Option.getD_none, hf]
  rfl

/-- Quotes make no identifier. -/
theorem isIdentifier_of_written (h : isIdentifier (textOf (written d {} us)) = true) :
    isIdentifier (textOf us) = true := by
  have hw : textOf (written d {} us) = (mark {} us).flatMap (writeMarked d) :=
    (flatMap_writeMarked d _).symm
  have hm : ∀ m ∈ mark {} us, m.2 = false := by
    intro m hm
    by_contra hb
    have hb : m.2 = true := by simpa using hb
    have hq : d.startQuote ∈ textOf (written d {} us) := by
      rw [hw]
      refine List.mem_flatMap.2 ⟨m, hm, ?_⟩
      rw [writeMarked, if_pos hb]
      exact List.mem_cons_self
    have hn := isNameChar_of_isWord (isWord_of_isIdentifier h) _ hq
    have := isPathChar_startQuote d
    rw [isPathChar_of_isNameChar hn] at this
    cases this
  have he : (mark {} us).flatMap (writeMarked d) = (mark {} us).flatMap fun m => m.1.text :=
    List.flatMap_congr fun m h => by rw [writeMarked, hm m h]; rfl
  rw [hw, he, ← List.flatMap_map, map_fst_mark] at h
  exact h

/-- A last token that is not between quotes stands where it stood, behind tokens of the same
level. -/
theorem written_eq_concat {ctx : Context} {r : Token} (h : written d ctx ts = is ++ [r])
    (hr : r.kind ≠ .quotedIdent) : ∃ us, ts = us ++ [r] ∧ ∀ k, level k is = level k us := by
  have hfst := map_fst_mark ctx ts
  have hmark := kind_of_mem_mark ctx ts
  rw [written] at h
  rcases List.eq_nil_or_concat' (mark ctx ts) with hm | ⟨ms, m, hm⟩
  · rw [hm] at h
    exact absurd h (by simp)
  rw [hm, List.map_append, List.map_singleton] at h hfst
  rw [hm] at hmark
  have hlast : (marked d m).kind = r.kind := by
    have := Token.kind_getLast?_glue d (ms.map (marked d) ++ [marked d m])
    rw [h] at this
    simpa using this.symm
  rw [Token.glue_concat (hlast ▸ hr)] at h
  obtain ⟨rfl, hrm⟩ := List.append_inj' h rfl
  have hb : m.2 = false := by
    by_contra hb
    rw [marked, if_pos (by simpa using hb)] at hlast
    exact hr hlast.symm
  have hmr : m.1 = r := by simpa [marked, hb] using hrm
  refine ⟨ms.map Prod.fst, by rw [← hfst, hmr], fun k => ?_⟩
  rw [Token.level_glue, Token.level_marked d fun m hm => hmark m (List.mem_append_left _ hm)]

/-- Quotes make no call. -/
theorem isCall_of_written (h : isCall (written d {} us) = true) : isCall us = true := by
  obtain ⟨f, p, is, r, hw, hf, hp, hr, hi⟩ := isCall_iff.1 h
  -- The name, the parenthesis behind it and the last one get no quotes.
  obtain ⟨us, rfl, htail⟩ := written_eq_cons hw (by simp [hf])
  obtain ⟨vs, rfl, hinner⟩ := written_eq_cons htail.symm (by simp [hp])
  obtain ⟨us, rfl, hlevel⟩ := written_eq_concat hinner.symm (by simp [hr])
  exact isCall_iff.2 ⟨f, p, us, r, rfl, hf, hp, hr, hlevel 0 ▸ hi⟩

theorem level_written (d : Dialect) (ctx : Context) (k : Nat) (ts : List Token) :
    level k (written d ctx ts) = level k ts := by
  rw [written, Token.level_glue, Token.level_marked d (kind_of_mem_mark ctx ts), map_fst_mark]

/-! ### Quoting a call twice -/

/-- Whether a text with a given reading is a call that stays as it is. -/
structure IsQuotedCall (d : Dialect) (c : Text) (f : Token) (is : List Token) : Prop where
  text : c = textOf (callTokens f is)
  kind : f.kind = .ident
  solid : Solid d (callTokens f is)
  level : Token.level 0 is = some 0
  stays : quoteCall d c = some c

/-- Arguments with their quotes stay as they are. -/
theorem exists_quoteArguments (hs : us = [] ∨ Solid d us) (hp : Paired d us)
    (hl : level 0 us = some 0)
    (ih : ∀ c, quoteCall d (textOf us) = some c → ∃ f is, IsQuotedCall d c f is) :
    ∃ vs, quoteArguments d (textOf us) = textOf vs ∧ (vs = [] ∨ Solid d vs) ∧
      level 0 vs = some 0 ∧ quoteArguments d (textOf vs) = textOf vs := by
  rcases hs with rfl | hs
  · exact ⟨[], rfl, .inl rfl, rfl, rfl⟩
  have hargs : ∀ {ws : List Token}, Solid d ws → quoteArguments d (textOf ws) =
      (quoteCall d (textOf ws)).getD
        (if isIdentifier (textOf ws) then d.quote (textOf ws) else quoteFields d (textOf ws)) :=
    fun hw => by rw [quoteArguments, if_neg (by simpa using hw.ne_nil)]
  cases hc : quoteCall d (textOf us) with
  | some c =>
    obtain ⟨f, is, hq⟩ := ih c hc
    refine ⟨callTokens f is, ?_, .inr hq.solid, level_callTokens hq.kind hq.level, ?_⟩
    · rw [hargs hs, hc, Option.getD_some, hq.text]
    · rw [hargs hq.solid, ← hq.text, hq.stays, Option.getD_some]
  | none =>
    have hargs' := hargs hs
    rw [hc, Option.getD_none] at hargs'
    by_cases hi : isIdentifier (textOf us) = true
    · have hn := beq_endQuote_of_isWord d (isWord_of_isIdentifier hi)
      have ht : textOf [quoted d (textOf us)] = d.quote (textOf us) := List.append_nil _
      refine ⟨[quoted d (textOf us)], ?_, .inr (solid_quoted hn), rfl, ?_⟩
      · rw [hargs', if_pos hi, ht]
      · rw [ht, quoteArguments_quote hn]
    · rw [if_neg hi, quoteFields_textOf hs.alone] at hargs'
      have hw := solid_written hs hp
      refine ⟨written d {} us, hargs', .inr hw, by rw [level_written, hl], ?_⟩
      have hcall : quoteCall d (textOf (written d {} us)) = none := by
        rw [quoteCall_eq_none, hw.tokenize_textOf]
        rw [quoteCall_eq_none, hs.tokenize_textOf] at hc
        exact Bool.eq_false_iff.2 fun h => Bool.eq_false_iff.1 hc (isCall_of_written h)
      rw [hargs hw, hcall, Option.getD_none, if_neg fun h => hi (isIdentifier_of_written h),
        quoteFields_written hw.alone]

/-- A call with its arguments quoted is a call that stays as it is. -/
theorem exists_quoteCall (hp : Paired d (tokenize d t)) (h : quoteCall d t = some c) :
    ∃ f is, IsQuotedCall d c f is := by
  -- The argument of a call may be a call again, but a shorter one.
  induction hn : t.length using Nat.strongRecOn generalizing t c with
  | ind n ih =>
    rw [quoteCall_eq] at h
    obtain ⟨⟨name, inner⟩, hc, rfl⟩ := Option.map_eq_some_iff.1 h
    have hlen := length_callParts hc
    obtain ⟨f, is, ht, hk, hl, rfl, rfl⟩ := tokenize_of_callParts hc
    have hsep := Token.separate_tokenize d t
    rw [ht] at hsep hp
    obtain ⟨as, us, bs, rfl, hblank, htext, hus⟩ :=
      Token.exists_trim (Token.Separate.append_iff.1 hsep.2.2).1 (by simp)
    have hlevel : level 0 us = some 0 := by
      have has := fun k =>
        Token.level_of_whitespace (fun u hu => hblank u (List.mem_append_left _ hu)) k
      have hbs := fun k =>
        Token.level_of_whitespace (fun u hu => hblank u (List.mem_append_right _ hu)) k
      simpa [Token.level_append, has, hbs] using hl
    have hpaired : Paired d us := fun u hu => hp u (by simp [callTokens, hu])
    dsimp only at hlen ⊢
    rw [← htext] at hlen ⊢
    obtain ⟨vs, hargs, hvs, hlvs, hstay⟩ := exists_quoteArguments hus hpaired hlevel fun c hc => by
      refine ih _ (hn ▸ hlen) ?_ hc rfl
      rcases hus with rfl | hus
      · exact fun u hu => by simp at hu
      · rwa [hus.tokenize_textOf]
    have hsolid : Solid d (callTokens f vs) := solid_callTokens hsep.1 hk hvs
    refine ⟨f, vs, ⟨by rw [hargs, textOf_callTokens], hk, hsolid, hlvs, ?_⟩⟩
    have htrim : Text.trim (textOf vs) = textOf vs := by
      rcases hvs with rfl | hvs
      · rfl
      · exact hvs.tight.trim
    rw [hargs, ← textOf_callTokens, quoteCall_of_tokenize hsolid.tokenize_textOf hk hlvs, htrim,
      hstay, textOf_callTokens]

end SqlComposer.Identifier
