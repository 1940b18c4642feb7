import SqlComposer.Proofs.Chains
import SqlComposer.Proofs.TrimmedTokens

/-!
# Which identifiers of a fragment get quotes

`NeedsQuotes` says of a token, by what stands in front of it and behind it, whether it gets quotes:
it belongs to a field, stands in front of an arrow, or is the alias of something that ends in quotes
or a parenthesis. A fragment with its fields quoted differs from the fragment in these quotes only,
and quoting it again adds no more.
-/

namespace SqlComposer.Identifier

open Token (tokenize textOf)

variable {d : Dialect} {ctx : Context} {t : Token} {ts after : List Token} {m : Token × Bool}
  {before : List (Token × Bool)} {P : List (Token × Bool) → Token × Bool → List Token → Prop}

/-! ### In front of an arrow -/

/-- Whether the next token that is not blank begins with an arrow. -/
def BeforeArrow (after : List Token) : Prop :=
  ∃ gap u rest, after = gap ++ u :: rest ∧ (∀ g ∈ gap, g.kind = .whitespace) ∧
    u.kind ≠ .whitespace ∧ ("->" : Text) <+: u.text

/-- Only an operator begins with an arrow. -/
theorem kind_of_arrow {rest : Text} (h : t.Ends d rest) (ha : ("->" : Text) <+: t.text) :
    t.kind = .operator := by
  obtain ⟨c, cs, ht, he⟩ := h
  obtain ⟨tail, ha⟩ := ha
  have ha : '-' :: '>' :: tail = t.text := ha
  rw [ht] at ha
  cases ha
  rw [show Token.start d '-' = .hyphen by cases d <;> rfl] at he
  exact (congrArg Prod.fst he).symm

theorem arrowFollows_iff (h : ∀ u ∈ ts, ("->" : Text) <+: u.text → u.kind = .operator) :
    arrowFollows ts = true ↔ BeforeArrow ts := by
  induction ts with
  | nil =>
    refine ⟨nofun, ?_⟩
    rintro ⟨gap, u, rest, h, -⟩
    simp at h
  | cons t ts ih =>
    obtain ⟨ht, hts⟩ := List.forall_mem_cons.1 h
    rw [arrowFollows_cons]
    by_cases hw : t.kind = .whitespace
    · rw [if_pos hw, ih hts]
      constructor
      · rintro ⟨gap, u, rest, rfl, hgap, hu⟩
        exact ⟨t :: gap, u, rest, rfl, List.forall_mem_cons.2 ⟨hw, hgap⟩, hu⟩
      · rintro ⟨gap, u, rest, he, hgap, hk, hu⟩
        cases gap with
        | nil =>
          cases he
          exact absurd hw hk
        | cons g gap =>
          cases he
          exact ⟨gap, u, rest, rfl, (List.forall_mem_cons.1 hgap).2, hk, hu⟩
    · rw [if_neg hw, Bool.and_eq_true, decide_eq_true_eq, List.isPrefixOf_iff_prefix]
      constructor
      · rintro ⟨-, ha⟩
        exact ⟨[], t, ts, rfl, by simp, hw, ha⟩
      · rintro ⟨gap, u, rest, he, hgap, -, ha⟩
        cases gap with
        | nil =>
          cases he
          exact ⟨ht ha, ha⟩
        | cons g gap =>
          cases he
          exact absurd (hgap _ List.mem_cons_self) hw

/-! ### Behind the last token that is not blank -/

/-- Whether the last token that is not blank stands as `P` says, with the tokens in front of it and
those behind it. -/
def Behind (P : List (Token × Bool) → Token × Bool → List Token → Prop)
    (before : List (Token × Bool)) (after : List Token) : Prop :=
  ∃ front m gap, before = front ++ m :: gap ∧ (∀ g ∈ gap, g.1.kind = .whitespace) ∧
    m.1.kind ≠ .whitespace ∧ P front m (gap.map Prod.fst ++ after)

theorem not_behind_nil : ¬Behind P [] after := by
  rintro ⟨front, m, gap, h, -⟩
  simp at h

theorem behind_concat (h : m.1.kind ≠ .whitespace) :
    Behind P (before ++ [m]) after ↔ P before m after := by
  constructor
  · rintro ⟨front, n, gap, he, hgap, -, hP⟩
    rcases List.eq_nil_or_concat' gap with rfl | ⟨gap, g, rfl⟩
    · obtain ⟨rfl, rfl⟩ := List.append_singleton_inj.1 he
      exact hP
    · rw [← List.cons_append, ← List.append_assoc] at he
      obtain ⟨-, rfl⟩ := List.append_singleton_inj.1 he
      exact absurd (hgap m (by simp)) h
  · intro hP
    exact ⟨before, m, [], rfl, by simp, h, hP⟩

theorem behind_concat_blank (h : m.1.kind = .whitespace) :
    Behind P (before ++ [m]) after ↔ Behind P before (m.1 :: after) := by
  constructor
  · rintro ⟨front, n, gap, he, hgap, hn, hP⟩
    rcases List.eq_nil_or_concat' gap with rfl | ⟨gap, g, rfl⟩
    · obtain ⟨rfl, rfl⟩ := List.append_singleton_inj.1 he
      exact absurd h hn
    · rw [← List.cons_append, ← List.append_assoc] at he
      obtain ⟨rfl, rfl⟩ := List.append_singleton_inj.1 he
      refine ⟨front, n, gap, rfl, fun g hg => hgap g (List.mem_append_left _ hg), hn, ?_⟩
      simpa using hP
  · rintro ⟨front, n, gap, rfl, hgap, hn, hP⟩
    refine ⟨front, n, gap ++ [m], by simp, ?_, hn, by simpa using hP⟩
    exact List.forall_mem_append.2 ⟨hgap, List.forall_mem_singleton.2 h⟩

/-! ### Tokens that need quotes -/

/-- Whether what ends in a token may have an alias: it ends in a parenthesis, an identifier between
quotes or a field. -/
def EndsNamed (before : List (Token × Bool)) (m : Token × Bool) (after : List Token) : Prop :=
  m.1.kind = .rParen ∨ m.1.kind = .quotedIdent ∨ m.2 = true ∨
    EndsField (before.map Prod.fst) m.1 after

/-- Whether a token is a bare `AS` behind such an end. -/
def IsAliasMark (before : List (Token × Bool)) (m : Token × Bool) (after : List Token) : Prop :=
  isAs m.1 = true ∧ m.2 = false ∧ Behind EndsNamed before (m.1 :: after)

/-- Whether a token gets quotes, with what has got them in front of it. -/
def NeedsQuotes (before : List (Token × Bool)) (t : Token) (after : List Token) : Prop :=
  t.kind = .ident ∧
    (InField (before.map Prod.fst) t after ∨ BeforeArrow after ∨
      isIdentifier t.text = true ∧ Behind IsAliasMark before (t :: after))

/-- Whether a context knows what the tokens in front say about an alias. -/
structure Context.Knows (ctx : Context) (before : List (Token × Bool)) (after : List Token) :
    Prop where
  ends : ctx.last.any isEnd = true ↔ Behind EndsNamed before after
  awaits : ctx.awaitsAlias = true ↔ Behind IsAliasMark before after

namespace Context.Knows

theorem nil (ts : List Token) : Context.Knows {} [] ts where
  ends := iff_of_false (by simp) not_behind_nil
  awaits := iff_of_false (by simp [awaitsAlias_eq]) not_behind_nil

/-- What no token of a field says is kept by the next token alone. -/
theorem single (h : ctx.Knows before (t :: ts)) (hf : ¬EndsField (before.map Prod.fst) t ts) :
    (ctx.push (seen ctx t ts)).Knows (before ++ [(t, isSingled ctx t ts)]) ts := by
  by_cases hw : t.kind = .whitespace
  · have hs : isSingled ctx t ts = false := by simp [isSingled, hw]
    have hpush : ctx.push (seen ctx t ts) = ctx := by simp [seen, hs, push, hw]
    rw [hpush, hs]
    have hm : (t, false).1.kind = .whitespace := hw
    exact ⟨h.ends.trans (behind_concat_blank hm).symm, h.awaits.trans (behind_concat_blank hm).symm⟩
  · have hseen : (seen ctx t ts).kind ≠ .whitespace := by
      rw [seen]
      split
      · simp
      · exact hw
    rw [push, if_neg hseen]
    constructor
    · rw [behind_concat hw, EndsNamed, seen]
      cases isSingled ctx t ts <;> simp [isEnd, hf, or_comm]
    · rw [behind_concat hw, IsAliasMark, awaitsAlias_eq, Bool.and_eq_true, ← h.ends, seen]
      cases isSingled ctx t ts <;> simp [isAs]

/-- Behind a field there may be an alias. -/
theorem field (p : Text) {front : List (Token × Bool)} {u : Token}
    (h : EndsField (front.map Prod.fst) u after) :
    (ctx.push ⟨.quotedIdent, p⟩).Knows (front ++ [(u, decide (u.kind = .ident))]) after := by
  have hw : u.kind ≠ .whitespace := (kind_of_isChainPart h.chainState.2.1).2
  refine ⟨iff_of_true rfl ((behind_concat hw).2 (.inr (.inr (.inr h)))), iff_of_false ?_ ?_⟩
  · simp [awaitsAlias_eq, push, isAs]
  · rw [behind_concat hw]
    rintro ⟨has, hm, -⟩
    have hk : u.kind = .ident := by simpa using (Bool.and_eq_true_iff.1 has).1
    simp [hk] at hm

end Context.Knows

/-! ### Tokens outside fields -/

section Single

variable {xs : List Token}

/-- Where no chain goes on, no field ends. -/
theorem not_endsField (h : Follows (chainState xs) (t :: ts)) : ¬EndsField xs t ts := by
  intro he
  obtain ⟨hdot, hp, hc⟩ := he.chainState
  rw [hdot] at h
  have : isCalled ts = true := h t rfl hp
  rw [hc] at this
  cases this

theorem not_inField (hn : isName t = true) (h : Follows (chainState xs) (t :: ts))
    (hc : 0 < chainLength ts → isCalled ts = true) : ¬InField xs t ts := by
  rw [inField_iff hn]
  rintro ⟨hdot | hpos, hcall⟩
  · rw [hdot] at h
    have : isCalled ts = true := h t rfl (isChainPart_of_isName hn)
    rw [hcall] at this
    cases this
  · rw [hc hpos] at hcall
    cases hcall

theorem follows_concat (h : Follows (chainState xs) (t :: ts))
    (hc : isName t = true → 0 < chainLength ts → isCalled ts = true) :
    Follows (chainState (xs ++ [t])) ts := by
  rw [chainState_concat]
  cases hn : isName t with
  | true =>
    rw [ChainState.next_of_isName _ hn]
    exact hc hn
  | false => exact h.next_of_not_isName hn

end Single

/-! ### Fields in a row of tokens -/

section Field

variable {xs ys zs : List Token}

/-- In front of what follows a chain, no chain goes on. -/
theorem follows_of_isChain (hy : IsChain ys) (hl : chainLength ts = 0) :
    Follows (chainState (xs ++ ys)) ts := by
  rw [(chainState_spec _).1.2 ⟨xs, ys, rfl, hy⟩]
  intro hpos
  rw [hl] at hpos
  cases hpos

/-- Each name of a chain that is no call belongs to a field. -/
theorem inField_of_isChain (hy : IsChain (ys ++ t :: zs)) (ht : isName t = true)
    (hlen : 1 < (ys ++ t :: zs).length) (hc : isCalled ts = false) :
    InField (xs ++ ys) t (zs ++ ts) := by
  obtain ⟨hz, hl⟩ := hy.split (kind_of_isChainPart (isChainPart_of_isName ht)).1
  rw [inField_iff ht]
  refine ⟨?_, by rw [hz.isCalled_append, hc]⟩
  rcases hl with ⟨rfl, -⟩ | ⟨-, z, dot, rfl, hz', hd⟩
  · rw [List.nil_append, List.length_cons] at hlen
    rw [hz.chainLength_append]
    exact .inr (by omega)
  · exact .inl ((chainState_spec _).2.2 ⟨xs, z, dot, by simp, hz', hd⟩)

/-- A chain that is no call and does not go on ends a field. -/
theorem endsField_of_isChain (hy : IsChain (ys ++ [t])) (hlen : 1 < (ys ++ [t]).length)
    (hl : chainLength ts = 0) (hc : isCalled ts = false) : EndsField (xs ++ ys) t ts := by
  have hne : ys ≠ [] := by
    rintro rfl
    simp at hlen
  obtain ⟨x, y, hxy, h⟩ := hy.exists_isField xs (.inl hne) hc
  rw [hl, List.take_zero, List.drop_zero] at h
  exact ⟨x, y, hxy, h⟩

end Field

/-! ### The tokens that get quotes -/

/-- In a field the bare names get quotes. -/
theorem needsQuotes_of_markChain {chain : List Token} {xs ys : List (Token × Bool)} {b : Bool}
    (hy : IsChain chain) (hlen : 1 < chain.length) (hc : isCalled ts = false)
    (h : markChain chain = xs ++ (t, b) :: ys) :
    b = true ↔ NeedsQuotes (before ++ xs) t (ys.map Prod.fst ++ ts) := by
  have hb : b = decide (t.kind = .ident) := by
    have hm : (t, b) ∈ markChain chain := by simp [h]
    obtain ⟨u, -, hu⟩ := List.mem_map.1 hm
    cases hu
    rfl
  have hfst := congrArg (List.map Prod.fst) h
  rw [map_fst_markChain, List.map_append, List.map_cons] at hfst
  subst hfst
  rw [hb, decide_eq_true_eq]
  constructor
  · intro hk
    have ht : isName t = true := by simp [isName, hk]
    refine ⟨hk, .inl ?_⟩
    rw [List.map_append]
    exact inField_of_isChain hy ht hlen hc
  · exact And.left

/-- Behind a field there may be an alias. -/
theorem knows_markChain {chain : List Token} (p : Text) (hy : IsChain chain)
    (hlen : 1 < chain.length) (hl : chainLength ts = 0) (hc : isCalled ts = false) :
    (ctx.push ⟨.quotedIdent, p⟩).Knows (before ++ markChain chain) ts := by
  rcases List.eq_nil_or_concat' chain with rfl | ⟨front, u, rfl⟩
  · exact hy.elim
  · rw [markChain, List.map_append, List.map_singleton, ← List.append_assoc, ← markChain.eq_def]
    refine .field p ?_
    rw [List.map_append, map_fst_markChain]
    exact endsField_of_isChain hy hlen hl hc

/-- A token outside fields gets quotes if it stands in front of an arrow or is an alias. -/
theorem isSingled_iff_needsQuotes (hctx : ctx.Knows before (t :: ts))
    (hf : Follows (chainState (before.map Prod.fst)) (t :: ts))
    (harrow : ∀ u ∈ ts, ("->" : Text) <+: u.text → u.kind = .operator)
    (hc : isName t = true → 0 < chainLength ts → isCalled ts = true) :
    isSingled ctx t ts = true ↔ NeedsQuotes before t ts := by
  rw [isSingled, NeedsQuotes]
  by_cases hk : t.kind = .ident
  · have hi := not_inField (by simp [isName, hk]) hf (hc (by simp [isName, hk]))
    simp [hk, hi, arrowFollows_iff harrow, hctx.awaits]
  · simp [hk]

/-- An element of two rows stands in the second or in the first. -/
theorem append_eq_append_cons {α : Type} {as bs xs ys : List α} {x : α}
    (h : as ++ bs = xs ++ x :: ys) :
    (∃ zs, xs = as ++ zs ∧ bs = zs ++ x :: ys) ∨ ∃ zs, as = xs ++ x :: zs ∧ ys = zs ++ bs := by
  rcases List.append_eq_append_iff.1 h with ⟨zs, hxs, hbs⟩ | ⟨zs, has, hys⟩
  · exact .inl ⟨zs, hxs, hbs⟩
  · cases zs with
    | nil => exact .inl ⟨[], by simpa using has.symm, hys.symm⟩
    | cons z zs =>
      obtain ⟨rfl, rfl⟩ := List.cons_eq_cons.1 hys
      exact .inr ⟨zs, has, rfl⟩

/-- Marking goes by the tokens in front and those behind. -/
theorem mark_iff_needsQuotes (hctx : ctx.Knows before ts)
    (hf : Follows (chainState (before.map Prod.fst)) ts)
    (harrow : ∀ u ∈ ts, ("->" : Text) <+: u.text → u.kind = .operator)
    {xs ys : List (Token × Bool)} {u : Token} {b : Bool} (h : mark ctx ts = xs ++ (u, b) :: ys) :
    b = true ↔ NeedsQuotes (before ++ xs) u (ys.map Prod.fst) := by
  -- The induction goes as marking does; what the context knows about the tokens in front and that
  -- no chain goes on from them is kept.
  induction ctx, ts using mark_induction generalizing before xs with
  | nil ctx => simp at h
  | chain ctx t ts hn hl hc ih =>
    have hlinks := Links.take_chainLength ts
    have hsplit := List.take_append_drop (chainLength ts) ts
    rw [mark_chain hn hl hc] at h
    rw [← hsplit, hlinks.isCalled_append] at hc
    have hdrop := chainLength_drop ts
    have hy : IsChain (t :: ts.take (chainLength ts)) := ⟨hn, hlinks⟩
    have hlen : 1 < (t :: ts.take (chainLength ts)).length := by
      rw [List.length_cons, List.length_take, Nat.min_eq_left (chainLength_le ts)]
      omega
    generalize t :: ts.take (chainLength ts) = chain at h hy hlen
    have hknows : (ctx.push ⟨.quotedIdent, t.text⟩).Knows (before ++ markChain chain)
        (ts.drop (chainLength ts)) := knows_markChain _ hy hlen hdrop hc
    have hfollows : Follows (chainState ((before ++ markChain chain).map Prod.fst))
        (ts.drop (chainLength ts)) := by
      rw [List.map_append, map_fst_markChain]
      exact follows_of_isChain hy hdrop
    have harrow' : ∀ u ∈ ts.drop (chainLength ts), ("->" : Text) <+: u.text → u.kind = .operator :=
      fun u hu => harrow u (List.mem_cons_of_mem _ (List.mem_of_mem_drop hu))
    rcases append_eq_append_cons h with ⟨xs, rfl, hm⟩ | ⟨zs, hzs, rfl⟩
    · rw [← List.append_assoc]
      exact ih hknows hfollows harrow' hm
    · rw [List.map_append, map_fst_mark]
      exact needsQuotes_of_markChain hy hlen hc hzs
  | single ctx t ts hc ih =>
    have hf' : Follows (chainState (before.map Prod.fst ++ [t])) ts := follows_concat hf hc
    obtain ⟨-, harrow'⟩ := List.forall_mem_cons.1 harrow
    rw [mark_single hc] at h
    cases xs with
    | nil =>
      obtain ⟨hu, rfl⟩ := List.cons_eq_cons.1 h
      cases hu
      rw [List.append_nil, map_fst_mark]
      exact isSingled_iff_needsQuotes hctx hf harrow' hc
    | cons m xs =>
      obtain ⟨rfl, hm⟩ := List.cons_eq_cons.1 h
      rw [List.append_cons]
      exact ih (hctx.single (not_endsField hf)) (by simpa using hf') harrow' hm

/-! ### Quoting the fields of a fragment -/

/-- Quoting the fields of a fragment puts quotes around the bare names that need them and changes
nothing else. -/
theorem quoteFields_quotes_exactly (d : Dialect) (fragment : Text) :
    ∃ ms : List (Token × Bool), ms.map Prod.fst = tokenize d fragment ∧
      quoteFields d fragment = ms.flatMap (writeMarked d) ∧
      ∀ before t b after, ms = before ++ (t, b) :: after →
        (b = true ↔ NeedsQuotes before t (after.map Prod.fst)) := by
  refine ⟨mark {} (tokenize d fragment), map_fst_mark _ _, rfl, fun before t b after h => ?_⟩
  have harrow : ∀ u ∈ tokenize d fragment, ("->" : Text) <+: u.text → u.kind = .operator := by
    intro u hu ha
    obtain ⟨rest, he⟩ := (Token.separate_tokenize d fragment).ends_of_mem hu
    exact kind_of_arrow he ha
  exact mark_iff_needsQuotes (.nil _) trivial harrow h

example : quoteFields .mySql "f(a.b) AS n, g.h(i), j -> 'k.l'" =
    "f(\x60a\x60.\x60b\x60) AS \x60n\x60, g.h(i), \x60j\x60 -> 'k.l'".toList := by
  decide +kernel

/-- Quoting the fields of a fragment twice is quoting them once. Where the closing quote is not the
opening one, it has to belong to an identifier. -/
theorem quoteFields_idempotent {fragment : Text}
    (h : d = .sqlServer → (⟨.operator, "]"⟩ : Token) ∉ tokenize d fragment) :
    quoteFields d (quoteFields d fragment) = quoteFields d fragment := by
  have hs := separate_written (Token.separate_tokenize d fragment) (paired_tokenize h)
  have hq : quoteFields d fragment = textOf (written d {} (tokenize d fragment)) := by
    rw [← quoteFields_textOf (Token.separate_tokenize d fragment), Token.textOf_tokenize]
  rw [hq, quoteFields_written hs]

theorem quoteFields_idempotent_open :
    (⟨.operator, "]"⟩ : Token) ∉ tokenize .sqlServer "[Post].id AS key, x.y = 'open" ∧
      quoteFields .sqlServer "[Post].id AS key, x.y = 'open" =
        "[Post].[id] AS [key], [x].[y] = 'open".toList ∧
      quoteFields .sqlServer (quoteFields .sqlServer "[Post].id AS key, x.y = 'open") =
        quoteFields .sqlServer "[Post].id AS key, x.y = 'open" := by
  have hbare :
      (⟨.operator, "]"⟩ : Token) ∉ tokenize .sqlServer "[Post].id AS key, x.y = 'open" := by
    decide +kernel
  exact ⟨hbare, by decide +kernel, quoteFields_idempotent fun _ => hbare⟩

end SqlComposer.Identifier
