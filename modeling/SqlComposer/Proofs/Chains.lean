import SqlComposer.Proofs.QuotedFields

/-!
# Chains of names

A chain is a name with pairs of a dot and a name, or a star, behind it, and a field is a chain of
several parts that is no part of a longer one and no call. Reading tokens from the left, `chainState`
knows whether a chain or a chain and a dot ends there. So both sides of a name are known where it
stands, and `inField_iff` says that they decide whether it belongs to a field.
-/

namespace SqlComposer.Identifier

variable {t u dot part : Token} {ts us x y : List Token}

/-! ### Chains -/

/-- Pairs of a dot and a name, or a star. -/
inductive Links : List Token → Prop
  | nil : Links []
  | cons {dot part : Token} {ts : List Token} :
      dot.kind = .dot → isChainPart part = true → Links ts → Links (dot :: part :: ts)

/-- Whether tokens are a name and such pairs behind it. -/
def IsChain : List Token → Prop
  | [] => False
  | t :: ts => isName t = true ∧ Links ts

theorem kind_of_isChainPart (h : isChainPart u = true) : u.kind ≠ .dot ∧ u.kind ≠ .whitespace := by
  simp only [isChainPart, Bool.or_eq_true, decide_eq_true_eq] at h
  rcases h with (h | h) | h <;> simp [h]

namespace Links

theorem append (hx : Links x) (hy : Links y) : Links (x ++ y) := by
  induction hx with
  | nil => exact hy
  | cons hd hp _ ih => exact cons hd hp ih

/-- A token that is no dot is the second of its pair. -/
theorem split (h : Links (x ++ t :: y)) (ht : t.kind ≠ .dot) :
    isChainPart t = true ∧ Links y ∧ ∃ z dot, x = z ++ [dot] ∧ Links z ∧ dot.kind = .dot := by
  generalize hts : x ++ t :: y = ts at h
  induction h generalizing x with
  | nil => simp at hts
  | @cons dot part ts hd hp h ih =>
    match x with
    | [] =>
      cases hts
      exact absurd hd ht
    | [_] =>
      cases hts
      exact ⟨hp, h, [], dot, rfl, nil, hd⟩
    | _ :: _ :: x =>
      cases hts
      obtain ⟨hp', hy, z, dot', rfl, hz, hd'⟩ := ih rfl
      exact ⟨hp', hy, dot :: part :: z, dot', rfl, cons hd hp hz, hd'⟩

theorem eq_nil_or_concat (h : Links ts) :
    ts = [] ∨ ∃ us dot part, ts = us ++ [dot, part] ∧ Links us ∧ dot.kind = .dot ∧
      isChainPart part = true := by
  induction h with
  | nil => exact .inl rfl
  | @cons dot part ts hd hp _ ih =>
    refine .inr ?_
    rcases ih with rfl | ⟨us, dot', part', rfl, hus, hd', hp'⟩
    · exact ⟨[], dot, part, rfl, nil, hd, hp⟩
    · exact ⟨dot :: part :: us, dot', part', rfl, cons hd hp hus, hd', hp'⟩

/-- The names that go on a chain are the longest row of pairs. -/
theorem take_chainLength (ts : List Token) : Links (ts.take (chainLength ts)) := by
  fun_induction chainLength ts with
  | case1 dot part ts h ih =>
    simp only [Bool.and_eq_true, decide_eq_true_eq] at h
    exact cons h.1 h.2 ih
  | case2 => exact nil
  | case3 => exact nil

theorem chainLength_append (h : Links x) (y : List Token) :
    chainLength (x ++ y) = x.length + chainLength y := by
  induction h with
  | nil => simp
  | cons hd hp _ ih =>
    rw [List.cons_append, List.cons_append, chainLength, if_pos (by simp [hd, hp]), ih,
      List.length_cons, List.length_cons]
    omega

theorem isCalled_append (h : Links x) (y : List Token) : isCalled (x ++ y) = isCalled y := by
  rw [isCalled, h.chainLength_append, List.drop_append, List.drop_eq_nil_of_le (by omega),
    List.nil_append, Nat.add_sub_cancel_left, isCalled]

end Links

theorem chainLength_le (ts : List Token) : chainLength ts ≤ ts.length := by
  fun_induction chainLength ts with
  | case1 dot part ts h ih =>
    rw [List.length_cons, List.length_cons]
    omega
  | case2 => exact Nat.zero_le _
  | case3 => exact Nat.zero_le _

namespace IsChain

theorem singleton (h : isName t = true) : IsChain [t] :=
  ⟨h, .nil⟩

theorem append (h : IsChain x) (hy : Links y) : IsChain (x ++ y) := by
  cases x with
  | nil => exact h.elim
  | cons t ts => exact ⟨h.1, h.2.append hy⟩

theorem concat (h : IsChain x) (hd : dot.kind = .dot) (hp : isChainPart part = true) :
    IsChain (x ++ [dot] ++ [part]) := by
  rw [List.append_assoc]
  exact h.append (.cons hd hp .nil)

/-- What stands in a chain in front of a token that is no dot is nothing, or a chain and a dot. -/
theorem split (h : IsChain (x ++ t :: y)) (ht : t.kind ≠ .dot) :
    Links y ∧ (x = [] ∧ isName t = true ∨
      isChainPart t = true ∧ ∃ z dot, x = z ++ [dot] ∧ IsChain z ∧ dot.kind = .dot) := by
  cases x with
  | nil => exact ⟨h.2, .inl ⟨rfl, h.1⟩⟩
  | cons e x =>
    obtain ⟨hp, hy, z, dot, rfl, hz, hd⟩ := h.2.split ht
    exact ⟨hy, .inr ⟨hp, e :: z, dot, rfl, ⟨h.1, hz⟩, hd⟩⟩

theorem take (h : IsChain (x ++ t :: y)) (ht : t.kind ≠ .dot) : IsChain (x ++ [t]) := by
  obtain ⟨-, ⟨rfl, hn⟩ | ⟨hp, z, dot, rfl, hz, hd⟩⟩ := h.split ht
  · exact singleton hn
  · exact hz.concat hd hp

/-- The last token of a chain is no dot. -/
theorem kind_last (h : IsChain (x ++ [t])) : t.kind ≠ .dot := by
  cases x with
  | nil =>
    intro hd
    simp [IsChain, isName, hd] at h
  | cons e x =>
    rcases h.2.eq_nil_or_concat with he | ⟨us, dot, part, he, -, -, hp⟩
    · simp at he
    · have hl := congrArg List.getLast? he
      simp at hl
      rw [hl]
      exact (kind_of_isChainPart hp).1

end IsChain

/-! ### Reading from the left -/

/-- Where in a chain of names a row of tokens ends. -/
def chainState (ts : List Token) : ChainState :=
  ts.foldl ChainState.next .none

@[simp] theorem chainState_concat (ts : List Token) (t : Token) :
    chainState (ts ++ [t]) = (chainState ts).next t := by
  rw [chainState, List.foldl_append]
  rfl

theorem ChainState.next_eq_part {c : ChainState} :
    c.next t = .part ↔ isName t = true ∨ c = .dot ∧ isChainPart t = true := by
  rw [ChainState.next, isChainPart, ← isName.eq_def]
  by_cases hn : isName t = true
  · simp [hn]
  · by_cases hd : t.kind = .dot
    · have hs : t ≠ ⟨.operator, ['*']⟩ := by
        rintro rfl
        cases hd
      cases c <;> simp [hn, hd, hs]
    · cases c <;> simp [hn, hd]

theorem ChainState.next_eq_dot {c : ChainState} :
    c.next t = .dot ↔ c = .part ∧ t.kind = .dot := by
  rw [ChainState.next, ← isName.eq_def]
  by_cases hn : isName t = true
  · have hd : t.kind ≠ .dot := (kind_of_isChainPart (isChainPart_of_isName hn)).1
    simp [hn, hd]
  · by_cases hd : t.kind = .dot
    · have hs : t ≠ ⟨.operator, ['*']⟩ := by
        rintro rfl
        cases hd
      cases c <;> simp [hn, hd, hs]
    · simp only [hn, hd, and_false, iff_false, decide_false, Bool.false_and, Bool.false_eq_true,
        if_false]
      split <;> simp

/-- The states say what they are named for. -/
theorem chainState_spec (ts : List Token) :
    (chainState ts = .part ↔ ∃ x y, ts = x ++ y ∧ IsChain y) ∧
      (chainState ts = .dot ↔ ∃ x y dot, ts = x ++ y ++ [dot] ∧ IsChain y ∧ dot.kind = .dot) := by
  -- The state is that behind all tokens, so the last one is taken off.
  induction ts using List.reverseRecOn with
  | nil =>
    refine ⟨⟨nofun, ?_⟩, ⟨nofun, ?_⟩⟩
    · rintro ⟨x, y, h, hy⟩
      rw [(List.append_eq_nil_iff.1 h.symm).2] at hy
      exact hy.elim
    · rintro ⟨x, y, dot, h, -⟩
      simp at h
  | append_singleton ts t ih =>
    rw [chainState_concat, ChainState.next_eq_part, ChainState.next_eq_dot, ih.1, ih.2]
    refine ⟨⟨?_, ?_⟩, ⟨?_, ?_⟩⟩
    · rintro (hn | ⟨⟨x, y, dot, rfl, hy, hd⟩, hp⟩)
      · exact ⟨ts, [t], rfl, .singleton hn⟩
      · exact ⟨x, y ++ [dot] ++ [t], by simp, hy.concat hd hp⟩
    · rintro ⟨x, y, h, hy⟩
      rcases List.eq_nil_or_concat' y with rfl | ⟨z, u, rfl⟩
      · exact hy.elim
      · rw [← List.append_assoc] at h
        obtain ⟨rfl, rfl⟩ := List.append_singleton_inj.1 h
        obtain ⟨-, ⟨rfl, hn⟩ | ⟨hp, w, dot, rfl, hw, hd⟩⟩ := hy.split hy.kind_last
        · exact .inl hn
        · exact .inr ⟨⟨x, w, dot, by simp, hw, hd⟩, hp⟩
    · rintro ⟨⟨x, y, rfl, hy⟩, hd⟩
      exact ⟨x, y, t, rfl, hy, hd⟩
    · rintro ⟨x, y, dot, h, hy, hd⟩
      obtain ⟨rfl, rfl⟩ := List.append_singleton_inj.1 h
      exact ⟨⟨x, y, rfl, hy⟩, hd⟩

/-! ### Fields -/

/-- A field between two rows of tokens: a chain of at least two parts that no longer chain contains
and no parenthesis directly follows. -/
structure IsField (before chain after : List Token) : Prop where
  isChain : IsChain chain
  several : 1 < chain.length
  maximal (front l r rest : List Token) : before = front ++ l → after = r ++ rest →
    IsChain (l ++ chain ++ r) → l = [] ∧ r = []
  notCalled : ∀ u ∈ after.head?, u.kind ≠ .lParen

/-- Whether a token with these tokens in front of it and behind it belongs to a field. -/
def InField (before : List Token) (t : Token) (after : List Token) : Prop :=
  ∃ front l r rest, before = front ++ l ∧ after = r ++ rest ∧ IsField front (l ++ t :: r) rest

/-- Whether a field ends in a token with these tokens in front of it and behind it. -/
def EndsField (before : List Token) (t : Token) (after : List Token) : Prop :=
  ∃ front l, before = front ++ l ∧ IsField front (l ++ [t]) after

theorem isCalled_eq_false (h : chainLength ts = 0) :
    isCalled ts = false ↔ ∀ u ∈ ts.head?, u.kind ≠ .lParen := by
  rw [isCalled, h, List.drop_zero]
  cases ts <;> simp

namespace IsField

variable {before chain after : List Token}

theorem chainLength_after (h : IsField before chain after) : chainLength after = 0 := by
  have hext : IsChain ([] ++ chain ++ after.take (chainLength after)) :=
    h.isChain.append (.take_chainLength after)
  have hnil := h.maximal _ _ _ _ (List.append_nil _).symm (List.take_append_drop _ _).symm hext
  rcases List.take_eq_nil_iff.1 hnil.2 with hz | rfl
  · exact hz
  · rfl

theorem isCalled_after (h : IsField before chain after) : isCalled after = false :=
  (isCalled_eq_false h.chainLength_after).2 h.notCalled

end IsField

/-- A chain that ends in a token is part of one that goes on in front of it nowhere. -/
theorem IsChain.exists_longest (front : List Token) {l : List Token} (hl : IsChain (l ++ [t])) :
    ∃ x y, front ++ l = x ++ y ∧ l.length ≤ y.length ∧ IsChain (y ++ [t]) ∧
      ∀ a b, x = a ++ b → IsChain (b ++ y ++ [t]) → b = [] := by
  induction hlen : front.length using Nat.strongRecOn generalizing front l with
  | ind n ih =>
    by_cases hmax : ∀ a b, front = a ++ b → IsChain (b ++ l ++ [t]) → b = []
    · exact ⟨front, l, rfl, le_rfl, hl, hmax⟩
    · simp only [not_forall] at hmax
      obtain ⟨a, b, rfl, hb, hne⟩ := hmax
      have hpos := List.length_pos_iff.2 hne
      have hlt : a.length < n := by
        rw [← hlen, List.length_append]
        omega
      obtain ⟨x, y, hxy, hle, hy⟩ := ih a.length hlt a hb rfl
      rw [List.length_append] at hle
      exact ⟨x, y, by rw [List.append_assoc, hxy], by omega, hy⟩

/-- A chain of several parts that is no call belongs to a field. -/
theorem IsChain.exists_isField (front : List Token) {l after : List Token}
    (hl : IsChain (l ++ [t])) (hgo : l ≠ [] ∨ 0 < chainLength after) (hc : isCalled after = false) :
    ∃ x y, front ++ l = x ++ y ∧
      IsField x (y ++ t :: after.take (chainLength after)) (after.drop (chainLength after)) := by
  have hk : t.kind ≠ .dot := hl.kind_last
  have hr := Links.take_chainLength after
  have hsplit := List.take_append_drop (chainLength after) after
  have htake : (after.take (chainLength after)).length = chainLength after := by
    rw [List.length_take, Nat.min_eq_left (chainLength_le after)]
  -- The chain is taken as far back as it goes, so that nothing in front extends it.
  obtain ⟨x, y, hxy, hle, hy, hlong⟩ := hl.exists_longest front
  refine ⟨x, y, hxy, ?_, ?_, ?_, ?_⟩
  · rw [List.append_cons]
    exact hy.append hr
  · rw [List.length_append, List.length_cons, htake]
    rcases hgo with hne | hpos
    · have := List.length_pos_iff.2 hne
      omega
    · omega
  · intro a b c rest hfront hrest hext
    have hext : IsChain ((b ++ y) ++ t :: (after.take (chainLength after) ++ c)) := by
      simpa using hext
    refine ⟨hlong a b hfront (hext.take hk), ?_⟩
    have hlen := (hext.split hk).1.chainLength_append rest
    rw [List.append_assoc, ← hrest, hsplit, List.length_append, htake] at hlen
    exact List.length_eq_zero_iff.1 (by omega)
  · rw [← hsplit, hr.isCalled_append] at hc
    exact (isCalled_eq_false (chainLength_drop after)).1 hc

/-- A name belongs to a field if a chain goes on in front of it or behind it, and no parenthesis
follows the chain. -/
theorem inField_iff (hn : isName t = true) {before after : List Token} :
    InField before t after ↔
      (chainState before = .dot ∨ 0 < chainLength after) ∧ isCalled after = false := by
  have hk : t.kind ≠ .dot := (kind_of_isChainPart (isChainPart_of_isName hn)).1
  have hdot := (chainState_spec before).2
  constructor
  · rintro ⟨front, l, r, rest, rfl, rfl, h⟩
    obtain ⟨hr, hl⟩ := h.isChain.split hk
    refine ⟨?_, by rw [hr.isCalled_append, h.isCalled_after]⟩
    rcases hl with ⟨rfl, -⟩ | ⟨-, z, dot, rfl, hz, hd⟩
    · refine .inr ?_
      have hlen := h.several
      rw [List.nil_append, List.length_cons] at hlen
      rw [hr.chainLength_append]
      omega
    · exact .inl (hdot.2 ⟨front, z, dot, by simp, hz, hd⟩)
  · rintro ⟨hgo, hc⟩
    obtain ⟨front, l, rfl, hl, hgo⟩ : ∃ front l, before = front ++ l ∧ IsChain (l ++ [t]) ∧
        (l ≠ [] ∨ 0 < chainLength after) := by
      rcases hgo with hd | hpos
      · obtain ⟨x, y, dot, rfl, hy, hd⟩ := hdot.1 hd
        exact ⟨x, y ++ [dot], by simp, hy.concat hd (isChainPart_of_isName hn), .inl (by simp)⟩
      · exact ⟨before, [], by simp, .singleton hn, .inr hpos⟩
    obtain ⟨x, y, hxy, h⟩ := hl.exists_isField front hgo hc
    exact ⟨x, y, _, _, hxy, (List.take_append_drop _ _).symm, h⟩

/-- Where a field ends, a chain goes on in front of the token. -/
theorem EndsField.chainState {before after : List Token} (h : EndsField before t after) :
    chainState before = .dot ∧ isChainPart t = true ∧ isCalled after = false := by
  obtain ⟨front, l, rfl, h⟩ := h
  have hlen := h.several
  obtain ⟨-, ⟨rfl, -⟩ | ⟨hp, z, dot, rfl, hz, hd⟩⟩ := h.isChain.split h.isChain.kind_last
  · exact absurd hlen (by simp)
  · exact ⟨(chainState_spec _).2.2 ⟨front, z, dot, by simp, hz, hd⟩, hp, h.isCalled_after⟩

end SqlComposer.Identifier
