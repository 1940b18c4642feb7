import SqlComposer.Proofs.Calls
import SqlComposer.Proofs.FieldKey

/-!
# Aliases between names

An expression and its alias are found again around the `AS` that is written between them: it is the
last one outside parentheses.
-/

namespace SqlComposer.Identifier

open CharClass
open Token (tokenize textOf Separate blankToken depthAfter level)

variable {d : Dialect} {u v : Token} {ts us vs ms : List Token} {t a b e l before before' : Text}
  {last last' : Option Token} {k : Nat}

/-! ### Cutting at `AS` -/

/-- Whether a token is a blank. -/
def isGap (u : Token) : Bool :=
  u.kind = .whitespace

/-- Whether a text is cut at a token between others. -/
def isCut (k : Nat) (last : Option Token) (t : Token) (ts : List Token) : Bool :=
  isAs t && k = 0 && last.any isGap && ts.head?.any isGap

theorem cutAtAs_cons (k : Nat) (before : Text) (last : Option Token) (t : Token)
    (ts : List Token) :
    cutAtAs k before last (t :: ts) =
      (cutAtAs (depthAfter k t) (before ++ t.text) (some t) ts).or
        (if isCut k last t ts then some (before, textOf ts) else none) := by
  have hc : isCut k last t ts = (t.kind = .ident && k = 0 && Text.sameLetters t.text "as" &&
      last.any (fun u => u.kind = .whitespace) && ts.head?.any fun u => u.kind = .whitespace) := by
    rw [isCut, isAs, Bool.and_right_comm (decide (t.kind = .ident))]
    rfl
  rw [cutAtAs, hc]
  split
  · next h => rw [h, Option.some_or]
  · next h => rw [h, Option.none_or]

/-- Where a text is cut does not depend on what has been read, except for a blank. -/
theorem map_snd_cutAtAs (before before' : Text) (h : last.any isGap = last'.any isGap) :
    (cutAtAs k before last ts).map Prod.snd = (cutAtAs k before' last' ts).map Prod.snd := by
  induction ts generalizing k before before' last last' with
  | nil => rfl
  | cons t ts ih =>
    have hcut : isCut k last t ts = isCut k last' t ts := by rw [isCut, h, isCut]
    rw [cutAtAs_cons, cutAtAs_cons, Option.map_or, Option.map_or, ih _ _ rfl, hcut]
    split <;> rfl

theorem cutAtAs_eq_none_congr (before before' : Text) (h : last.any isGap = last'.any isGap) :
    cutAtAs k before last ts = none ↔ cutAtAs k before' last' ts = none := by
  rw [← Option.map_eq_none_iff (f := Prod.snd), map_snd_cutAtAs before before' h,
    Option.map_eq_none_iff]

theorem getLast?_cons_or (u : Token) (us : List Token) (last : Option Token) :
    (u :: us).getLast?.or last = us.getLast?.or (some u) := by
  rw [List.getLast?_cons]
  cases us.getLast? <;> rfl

/-- What is cut behind tokens is cut with them in front. -/
theorem cutAtAs_eq_none_of_append (h : cutAtAs k before last (us ++ vs) = none) :
    cutAtAs (us.foldl depthAfter k) (before ++ textOf us) (us.getLast?.or last) vs = none := by
  induction us generalizing k before last with
  | nil => simpa using h
  | cons u us ih =>
    rw [List.cons_append, cutAtAs_cons, Option.or_eq_none_iff] at h
    rw [getLast?_cons_or, Token.textOf_cons, ← List.append_assoc, List.foldl_cons]
    exact ih h.1

theorem depthAfter_of_ident (h : v.kind = .ident) (k : Nat) : depthAfter k v = k := by
  simp [depthAfter, h]

theorem kind_of_isAs (h : isAs v = true) : v.kind = .ident := by
  simpa using (Bool.and_eq_true_iff.1 h).1

/-- Where a text is cut. -/
theorem exists_of_cutAtAs (h : cutAtAs k before last ts = some (a, b)) :
    ∃ us v vs, ts = us ++ v :: vs ∧ a = before ++ textOf us ∧ b = textOf vs ∧
      isAs v = true ∧ us.foldl depthAfter k = 0 ∧ (us.getLast?.or last).any isGap = true ∧
      vs.head?.any isGap = true ∧ cutAtAs 0 [] (some v) vs = none := by
  induction ts generalizing k before last with
  | nil => cases h
  | cons t ts ih =>
    rw [cutAtAs_cons] at h
    -- A place further on goes before this one.
    cases hc : cutAtAs (depthAfter k t) (before ++ t.text) (some t) ts with
    | some r =>
      rw [hc, Option.some_or] at h
      cases h
      obtain ⟨us, v, vs, rfl, rfl, rfl, hv, hd, hl, hh, hn⟩ := ih hc
      exact ⟨t :: us, v, vs, rfl, by simp, rfl, hv, hd, by rwa [getLast?_cons_or], hh, hn⟩
    | none =>
      rw [hc, Option.none_or] at h
      split at h
      · next hcut =>
        cases h
        simp only [isCut, Bool.and_eq_true, decide_eq_true_eq] at hcut
        obtain ⟨⟨⟨hv, rfl⟩, hl⟩, hh⟩ := hcut
        refine ⟨[], t, ts, rfl, by simp, rfl, hv, rfl, hl, hh, ?_⟩
        rw [depthAfter_of_ident (kind_of_isAs hv)] at hc
        rwa [cutAtAs_eq_none_congr [] _ rfl]
      · cases h

/-- A text is cut at an `AS` behind which there is no other. -/
theorem cutAtAs_append (hv : isAs v = true) (hd : us.foldl depthAfter k = 0)
    (hl : (us.getLast?.or last).any isGap = true) (hh : vs.head?.any isGap = true)
    (hn : cutAtAs 0 [] (some v) vs = none) :
    cutAtAs k before last (us ++ v :: vs) = some (before ++ textOf us, textOf vs) := by
  induction us generalizing k before last with
  | nil =>
    have hk : k = 0 := hd
    have hl : last.any isGap = true := hl
    rw [List.nil_append, cutAtAs_cons, depthAfter_of_ident (kind_of_isAs hv), hk,
      (cutAtAs_eq_none_congr [] _ rfl).1 hn, Option.none_or, isCut, hv, hl, hh]
    simp
  | cons u us ih =>
    rw [getLast?_cons_or] at hl
    rw [List.cons_append, cutAtAs_cons, ih hd hl, Option.some_or]
    simp

/-- Without words nothing is cut. -/
theorem cutAtAs_of_kind (h : ∀ u ∈ ts, u.kind ≠ .ident) : cutAtAs k before last ts = none := by
  induction ts generalizing k before last with
  | nil => rfl
  | cons t ts ih =>
    obtain ⟨ht, hts⟩ := List.forall_mem_cons.1 h
    have hcut : isCut k last t ts = false := by simp [isCut, isAs, ht]
    rw [cutAtAs_cons, ih hts, hcut]
    rfl

theorem cutAtAs_singleton (k : Nat) (before : Text) (last : Option Token) (u : Token) :
    cutAtAs k before last [u] = none := by
  rw [cutAtAs_cons]
  simp [isCut, cutAtAs]

/-! ### Expressions and labels -/

/-- How the tokens of a text fall into those of an expression, those of its alias, and what stands
between them. -/
structure Alias (d : Dialect) (t e l : Text) (us ms vs : List Token) : Prop where
  tokens : tokenize d t = us ++ ms ++ vs
  expr : textOf us = e
  label : textOf vs = l
  solid : Solid d us
  tight : l.Tight
  gap : ∃ g ∈ ms.head?, g.kind = .whitespace
  between : ∀ u ∈ ms, u.kind = .whitespace ∨ u.kind = .ident
  depth : us.foldl depthAfter 0 = 0
  uncut : cutAtAs 0 [] (some blankToken) vs = none
  named : isIdentifier l = true ∨ d.opensQuoted l = true ∨
    (∃ u, u.kind = .ident ∧ vs = [u]) ∧ (isQualified e = true ∨ (quoteCall d e).isSome = true)

/-- The first token of a text without leading blanks. -/
theorem kind_head?_of_tight (ht : t.Tight) :
    ∀ u ∈ (tokenize d t).head?, u.kind ≠ .whitespace := by
  intro u hu hk
  have hs := Token.separate_tokenize d t
  have htext := Token.textOf_tokenize d t
  obtain ⟨vs, hvs⟩ : ∃ vs, tokenize d t = u :: vs := List.head?_eq_some_iff.1 hu
  rw [hvs] at hs htext
  obtain ⟨c, hc, hb⟩ := ht.head
  rw [← htext, Token.head?_textOf_cons hs.1] at hc
  rw [(hs.1.isBlank_head hc).2 hk] at hb
  cases hb

/-- The tokens of an expression, with the blanks behind it. -/
theorem exists_expr (ht : t.Tight) (hts : tokenize d t = us ++ vs) (hvs : vs ≠ [])
    (he : Text.trim (textOf us) ≠ []) :
    ∃ ws gs, us = ws ++ gs ∧ (∀ g ∈ gs, g.kind = .whitespace) ∧
      textOf ws = Text.trim (textOf us) ∧ Solid d ws := by
  have hs := Token.separate_tokenize d t
  rw [hts] at hs
  have hne : textOf vs ++ [] ≠ [] := by
    cases vs with
    | nil => exact absurd rfl hvs
    | cons v vs => simp [(Token.Separate.append_iff.1 hs).2.1.ne_nil]
  obtain ⟨as, ws, gs, hus, hblank, htext, hw⟩ :=
    Token.exists_trim (Token.Separate.append_iff.1 hs).1 hne
  have has : as = [] := by
    cases as with
    | nil => rfl
    | cons a as =>
      have hk := kind_head?_of_tight ht a (d := d) (by rw [hts, hus]; rfl)
      exact absurd (hblank a (by simp)) hk
  subst has
  refine ⟨ws, gs, hus, fun g hg => hblank g hg, htext, hw.resolve_left ?_⟩
  rintro rfl
  exact he htext.symm

theorem foldl_depthAfter_append (hg : ∀ g ∈ ms, g.kind = .whitespace) (us : List Token) (k : Nat) :
    (us ++ ms).foldl depthAfter k = us.foldl depthAfter k := by
  rw [List.foldl_append]
  exact Token.foldl_depthAfter_of_whitespace hg _

/-- The tokens of an alias behind `AS`. -/
theorem exists_label (ht : t.Tight) (hts : tokenize d t = us ++ vs)
    (hh : vs.head?.any isGap = true) (hn : cutAtAs 0 [] (some v) vs = none) :
    ∃ gs ws, vs = gs ++ ws ∧ (∀ g ∈ gs, g.kind = .whitespace) ∧
      textOf ws = Text.trim (textOf vs) ∧ cutAtAs 0 [] (some blankToken) ws = none := by
  have hs := Token.separate_tokenize d t
  have htext := Token.textOf_tokenize d t
  rw [hts] at hs htext
  obtain ⟨gs, ws, rfl, hgs, hw, hhead⟩ := Token.exists_trimStart (Token.Separate.append_iff.1 hs).2
  have hlast : ∀ c ∈ (textOf ws).getLast?, isBlank c = false := by
    intro c hc
    obtain ⟨e, he, hb⟩ := ht.last
    have hce : c ∈ t.getLast? := by
      rw [← htext, Token.textOf_append, Token.textOf_append, List.getLast?_append,
        List.getLast?_append, Option.mem_def.1 hc]
      rfl
    rwa [Option.mem_unique hce he]
  refine ⟨gs, ws, rfl, hgs, ?_, ?_⟩
  · rw [Text.trim, ← hw, Text.trimEnd_of_getLast? hlast]
  · -- The search goes on behind the blanks as it would behind any one blank.
    have hcut := cutAtAs_eq_none_of_append hn
    rw [Token.foldl_depthAfter_of_whitespace hgs] at hcut
    refine (cutAtAs_eq_none_congr _ _ ?_).1 hcut
    rcases List.eq_nil_or_concat' gs with rfl | ⟨gs, g, rfl⟩
    · cases ws with
      | nil => cases hh
      | cons w ws => exact absurd (by simpa [isGap] using hh) (hhead w rfl)
    · simp [isGap, hgs g (by simp), blankToken]

theorem level_of_isPath (h : IsPath t) (d : Dialect) : level 0 (tokenize d t) = some 0 :=
  Token.level_of_kind (fun _ hu => (Key.inert_of_mem h hu).kind.2) 0

theorem level_of_quoteCall (h : (quoteCall d t).isSome = true) :
    level 0 (tokenize d t) = some 0 := by
  rw [quoteCall_eq, Option.isSome_map] at h
  obtain ⟨⟨name, inner⟩, hc⟩ := Option.isSome_iff_exists.1 h
  obtain ⟨f, is, ht, hf, hi, -⟩ := tokenize_of_callParts hc
  rw [ht, level_callTokens hf hi]

theorem alias_of_cutAtAs (ht : t.Tight) (hc : cutAtAs 0 [] none (tokenize d t) = some (a, b))
    (h : aliasAfterAs d a b = some (e, l)) : ∃ us ms vs, Alias d t e l us ms vs := by
  simp only [aliasAfterAs] at h
  split at h
  · next hal =>
    cases h
    simp only [Bool.and_eq_true, Bool.not_eq_true', List.isEmpty_eq_false_iff,
      Bool.or_eq_true] at hal
    obtain ⟨us, v, vs, hts, rfl, rfl, hv, hd, hl, hh, hn⟩ := exists_of_cutAtAs hc
    obtain ⟨ws, gs, rfl, hgs, htext, hw⟩ := exists_expr ht hts (by simp) hal.1
    obtain ⟨hs, xs, rfl, hhs, hlabel, hx⟩ :=
      exists_label ht (by simpa using hts : tokenize d t = (ws ++ gs ++ [v]) ++ vs) hh hn
    have hlt : Text.trim (textOf (hs ++ xs)) ≠ [] := by
      intro hnil
      rw [hnil] at hal
      simp [isIdentifier, Dialect.opensQuoted] at hal
    refine ⟨ws, gs ++ v :: hs, xs, by simpa using hts, htext, hlabel, hw, Text.tight_trim hlt, ?_, ?_,
      ?_, hx, hal.2.imp_right .inl⟩
    · cases gs with
      | nil =>
        -- The expression ends in no blank, so that there is one behind it.
        have hk := hw.kind_getLast
        rw [List.append_nil, Option.or_none] at hl
        cases hg : ws.getLast? with
        | none => simp [hg] at hl
        | some g => exact absurd (by simpa [hg, isGap] using hl) (hk g hg)
      | cons g gs => exact ⟨g, rfl, hgs g (by simp)⟩
    · simp only [List.mem_append, List.mem_cons]
      rintro u (hu | rfl | hu)
      · exact .inl (hgs u hu)
      · exact .inr (kind_of_isAs hv)
      · exact .inl (hhs u hu)
    · rwa [foldl_depthAfter_append hgs] at hd
  · cases h

theorem alias_of_aliasAtEnd (ht : t.Tight)
    (h : aliasAtEnd d (tokenize d t).reverse = some (e, l)) :
    ∃ us ms vs, Alias d t e l us ms vs := by
  unfold aliasAtEnd at h
  split at h
  · next u gap front hr =>
    dsimp only at h
    split at h
    · next hal =>
      cases h
      simp only [Bool.and_eq_true, Bool.or_eq_true, decide_eq_true_eq] at hal
      obtain ⟨⟨hu, hgap⟩, hexpr⟩ := hal
      have hts : tokenize d t = front.reverse ++ [gap, u] := by
        rw [← List.reverse_reverse (tokenize d t), hr]
        simp
      have hne : Text.trim (textOf front.reverse) ≠ [] := by
        intro hnil
        rw [hnil, isSome_quoteCall, Token.tokenize_nil] at hexpr
        exact absurd hexpr (by decide)
      obtain ⟨ws, gs, hfront, hgs, htext, hw⟩ := exists_expr ht hts (by simp) hne
      rw [hfront] at hts
      -- What may have an alias without `AS` is a field or a call, which leaves no parenthesis open.
      have hlevel : level 0 ws = some 0 := by
        rw [← htext] at hexpr
        rw [← hw.tokenize_textOf]
        rcases hexpr with hq | hc
        · exact level_of_isPath (isPath_of_isQualified hq) d
        · exact level_of_quoteCall hc
      obtain ⟨after, hends⟩ := (Token.separate_tokenize d t).ends_of_mem (u := u) (by simp [hts])
      have htight : u.text.Tight := Text.tight_of_forall hends.ne_nil fun c hc =>
        isBlank_of_isBoundary (hends.isBoundary_of_ident hu c hc)
      refine ⟨ws, gs ++ [gap], [u], by simpa using hts, htext, by simp, hw, htight, ?_, ?_,
        Token.foldl_depthAfter hlevel, cutAtAs_singleton .., .inr (.inr ⟨⟨u, hu, rfl⟩, hexpr⟩)⟩
      · cases gs with
        | nil => exact ⟨gap, rfl, hgap⟩
        | cons g gs => exact ⟨g, rfl, hgs g (by simp)⟩
      · simp only [List.mem_append, List.mem_singleton]
        rintro v (hv | rfl)
        · exact .inl (hgs v hv)
        · exact .inl hgap
    · cases h
  · cases h

/-- An alias is one of the two ways to write it. -/
theorem exists_alias (ht : t.Tight) (h : splitAlias d t = some (e, l)) :
    ∃ us ms vs, Alias d t e l us ms vs := by
  unfold splitAlias at h
  split at h
  · next a b hc => exact alias_of_cutAtAs ht hc h
  · exact alias_of_aliasAtEnd ht h

namespace Alias

theorem tokenize_expr (h : Alias d t e l us ms vs) : tokenize d e = us := by
  rw [← h.expr, h.solid.tokenize_textOf]

theorem separate_label (h : Alias d t e l us ms vs) : Separate d vs [] := by
  have hs := Token.separate_tokenize d t
  rw [h.tokens] at hs
  exact (Token.Separate.append_iff.1 hs).2

theorem tokenize_label (h : Alias d t e l us ms vs) : tokenize d l = vs := by
  rw [← h.label, h.separate_label.tokenize_textOf]

end Alias

/-! ### Aliases as they are written -/

/-- An expression that may get an alias, as a text. -/
structure IsExpr (d : Dialect) (e : Text) : Prop where
  solid : Solid d (tokenize d e)
  depth : (tokenize d e).foldl depthAfter 0 = 0

/-- A text that may be an alias. -/
structure IsLabel (d : Dialect) (l : Text) : Prop where
  tight : l.Tight
  uncut : cutAtAs 0 [] (some blankToken) (tokenize d l) = none

theorem Alias.isExpr (h : Alias d t e l us ms vs) : IsExpr d e where
  solid := h.tokenize_expr ▸ h.solid
  depth := h.tokenize_expr ▸ h.depth

theorem Alias.isLabel (h : Alias d t e l us ms vs) : IsLabel d l where
  tight := h.tight
  uncut := h.tokenize_label ▸ h.uncut

theorem IsExpr.tight (h : IsExpr d e) : e.Tight := by
  have := h.solid.tight
  rwa [Token.textOf_tokenize] at this

/-- The word between an expression and its alias. -/
def asToken : Token :=
  ⟨.ident, "AS"⟩

theorem ends_asToken (d : Dialect) (rest : Text) : asToken.Ends d (' ' :: rest) := by
  refine Solid.ends_word ?_ ?_ rest
  · cases d <;> exact ⟨_, _, rfl, rfl⟩
  · cases d <;> exact ⟨_, rfl, rfl⟩

theorem tokenize_joined (he : Solid d (tokenize d e)) (hl : l.Tight) :
    tokenize d (e ++ " AS " ++ l) =
      tokenize d e ++ [blankToken, asToken, blankToken] ++ tokenize d l := by
  have hs : Separate d (tokenize d e ++ [blankToken, asToken, blankToken] ++ tokenize d l) [] := by
    rw [List.append_assoc]
    refine Token.Separate.append_iff.2 ⟨he.separate ?_, Solid.ends_blank ?_, ends_asToken d _,
      Solid.ends_blank ?_, Token.separate_tokenize d l⟩
    · rintro _ ⟨⟩
      exact .inl rfl
    · exact ⟨'A', rfl, rfl⟩
    · have hh : ∃ c ∈ (textOf (tokenize d l) ++ []).head?, isBlank c = false := by
        rw [List.append_nil, Token.textOf_tokenize]
        exact hl.head
      exact hh
  rw [← hs.tokenize_textOf, Token.textOf_append, Token.textOf_append, Token.textOf_tokenize, Token.textOf_tokenize]
  rfl

theorem splitAlias_joined (he : IsExpr d e) (hl : IsLabel d l) :
    splitAlias d (e ++ " AS " ++ l) =
      if isIdentifier l || d.opensQuoted l then some (e, l) else none := by
  have hts : tokenize d (e ++ " AS " ++ l) =
      (tokenize d e ++ [blankToken]) ++ asToken :: blankToken :: tokenize d l := by
    rw [tokenize_joined he.solid hl.tight]
    simp
  -- The last `AS` outside parentheses is this one, as the label has none.
  have hcut : cutAtAs 0 [] none (tokenize d (e ++ " AS " ++ l)) =
      some ([] ++ textOf (tokenize d e ++ [blankToken]), textOf (blankToken :: tokenize d l)) := by
    rw [hts]
    refine cutAtAs_append rfl ?_ (by simp [isGap, blankToken]) rfl ?_
    · rw [List.foldl_append, he.depth]
      rfl
    · have hn : cutAtAs (depthAfter 0 blankToken) ([] ++ blankToken.text) (some blankToken)
          (tokenize d l) = none :=
        (cutAtAs_eq_none_congr _ _ rfl).1 hl.uncut
      rw [cutAtAs_cons, hn]
      rfl
  have hbefore : Text.trim ([] ++ textOf (tokenize d e ++ [blankToken])) = e := by
    rw [List.nil_append, Token.textOf_append, Token.textOf_tokenize]
    exact he.tight.trim_append (by simp [blankToken, isBlank])
  have hafter : Text.trim (textOf (blankToken :: tokenize d l)) = l := by
    rw [Token.textOf_cons, Token.textOf_tokenize]
    exact hl.tight.append_trim (by simp [blankToken, isBlank])
  have hne : e.isEmpty = false := by
    obtain ⟨c, hc, -⟩ := he.tight.head
    cases e with
    | nil => cases hc
    | cons c cs => rfl
  unfold splitAlias
  rw [hcut]
  dsimp only
  rw [aliasAfterAs, hbefore, hafter]
  simp only [hne, Bool.not_false, Bool.true_and]

/-- What goes on behind its parentheses is no call. -/
theorem isCall_append (hd : us.foldl depthAfter 0 = 0) (hus : us ≠ []) (hvs : vs ≠ [])
    (hv : ∀ v ∈ vs.head?, v.kind ≠ .lParen) : isCall (us ++ vs) = false := by
  by_contra hc
  obtain ⟨f, p, is, r, hts, hf, hp, hr, hi⟩ := isCall_iff.1 (Bool.not_eq_false _ ▸ hc)
  rcases us with _ | ⟨f', _ | ⟨p', ws⟩⟩
  · exact hus rfl
  · obtain ⟨-, rfl⟩ := List.cons_eq_cons.1 hts
    exact hv p rfl hp
  · simp only [List.cons_append, List.cons.injEq] at hts
    obtain ⟨rfl, rfl, hts⟩ := hts
    obtain ⟨zs, z, rfl⟩ := (List.eq_nil_or_concat' vs).resolve_left hvs
    rw [← List.append_assoc] at hts
    obtain ⟨rfl, -⟩ := List.append_inj' hts rfl
    -- The parenthesis behind the name of the function is still open.
    rw [Token.level_append] at hi
    obtain ⟨m, hm, -⟩ := Option.bind_eq_some_iff.1 hi
    have hopen := Token.foldl_depthAfter (Token.level_add hm 1)
    rw [List.foldl_cons, List.foldl_cons, depthAfter_of_ident hf, depthAfter, hp] at hd
    exact absurd (hd.symm.trans hopen) (by omega)

theorem quoteCall_joined (he : IsExpr d e) (hl : l.Tight) :
    quoteCall d (e ++ " AS " ++ l) = none := by
  rw [quoteCall_eq_none, tokenize_joined he.solid hl, List.append_assoc]
  refine isCall_append he.depth (fun hn => he.solid.ne_nil (by rw [hn]; rfl)) (by simp) ?_
  rintro v ⟨⟩
  simp [blankToken]

end SqlComposer.Identifier
