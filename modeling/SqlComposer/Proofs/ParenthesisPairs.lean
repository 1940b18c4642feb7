import Mathlib.Order.Bounds.Basic
import SqlComposer.Proofs.Calls

/-!
# Pairs of parentheses

A parenthesis is closed by the first token behind it up to which as many parentheses are closed as
opened, whatever else stands among the tokens and whether or not all of them have a partner. The
depth that the search counts says how many more have been opened than closed.
-/

namespace SqlComposer

/-! ### Least members -/

/-- Whether an optional number is the least member of a set, and missing only from an empty one. -/
def IsFirst (s : Set Nat) : Option Nat → Prop
  | some i => IsLeast s i
  | none => s = ∅

namespace IsFirst

variable {s t : Set Nat} {o : Option Nat} {i n : Nat}

theorem eq_some_iff (h : IsFirst s o) : o = some i ↔ IsLeast s i := by
  cases o with
  | none =>
    have hs : s = ∅ := h
    subst hs
    exact iff_of_false (fun hi => nomatch hi) fun hi => Set.notMem_empty i hi.1
  | some j =>
    have hj : IsLeast s j := h
    exact ⟨fun hi => Option.some.inj hi ▸ hj, fun hi => congrArg some (hj.unique hi)⟩

theorem eq_none_iff (h : IsFirst s o) : o = none ↔ ∀ i, i ∉ s := by
  rw [← Set.eq_empty_iff_forall_notMem]
  cases o with
  | none => exact iff_of_true rfl h
  | some j => exact iff_of_false (Option.some_ne_none j) (Set.Nonempty.ne_empty ⟨j, h.1⟩)

/-- The least member moves with the set. -/
theorem map_add (h : IsFirst s o) (hn : ∀ i ∈ t, n ≤ i) (hs : ∀ i, i + n ∈ t ↔ i ∈ s) :
    IsFirst t (o.map (· + n)) := by
  have hmem : ∀ i ∈ t, ∃ j ∈ s, i = j + n := fun i hi => by
    obtain ⟨j, rfl⟩ := Nat.exists_eq_add_of_le' (hn i hi)
    exact ⟨j, (hs j).1 hi, rfl⟩
  cases o with
  | none =>
    have hempty : s = ∅ := h
    refine Set.eq_empty_iff_forall_notMem.2 fun i hi => ?_
    obtain ⟨j, hj, -⟩ := hmem i hi
    exact Set.notMem_empty j (hempty ▸ hj)
  | some k =>
    refine ⟨(hs k).2 h.1, fun i hi => ?_⟩
    obtain ⟨j, hj, rfl⟩ := hmem i hi
    exact Nat.add_le_add_right (h.2 hj) n

end IsFirst

namespace Token

variable {t : Token} {ts us : List Token} {start i k j : Nat}

/-! ### Counting parentheses -/

/-- How many parentheses open in a row of tokens. -/
def openings (ts : List Token) : Nat :=
  ts.countP fun t => t.kind = .lParen

/-- How many parentheses close in a row of tokens. -/
def closings (ts : List Token) : Nat :=
  ts.countP fun t => t.kind = .rParen

/-- The indexes behind another one up to which, from that one on, as many parentheses close as
open. -/
def balancedBehind (ts : List Token) (start : Nat) : Set Nat :=
  {i | start < i ∧ i < ts.length ∧
    openings ((ts.drop start).take (i + 1 - start)) =
      closings ((ts.drop start).take (i + 1 - start))}

/-- The indexes up to which `k` parentheses more close than open. -/
def closesBy (k : Nat) (ts : List Token) : Set Nat :=
  {i | i < ts.length ∧ closings (ts.take (i + 1)) = openings (ts.take (i + 1)) + k}

theorem mem_balancedBehind : i ∈ balancedBehind ts start ↔ start < i ∧ i < ts.length ∧
    openings ((ts.drop start).take (i + 1 - start)) =
      closings ((ts.drop start).take (i + 1 - start)) :=
  Iff.rfl

theorem mem_closesBy : i ∈ closesBy k ts ↔
    i < ts.length ∧ closings (ts.take (i + 1)) = openings (ts.take (i + 1)) + k :=
  Iff.rfl

theorem openings_append (ts us : List Token) : openings (ts ++ us) = openings ts + openings us :=
  List.countP_append

theorem closings_append (ts us : List Token) : closings (ts ++ us) = closings ts + closings us :=
  List.countP_append

theorem zero_mem_closesBy : 0 ∈ closesBy (k + 1) (t :: ts) ↔ t.kind = .rParen ∧ k = 0 := by
  rw [mem_closesBy, List.take_succ_cons, List.take_zero, openings, closings,
    List.countP_singleton, List.countP_singleton]
  cases t.kind <;> simp

/-- The depth behind the first token is what the rest has to close. -/
theorem succ_mem_closesBy (hj : k + openings [t] = j + closings [t]) :
    i + 1 ∈ closesBy k (t :: ts) ↔ i ∈ closesBy j ts := by
  rw [mem_closesBy, mem_closesBy, List.length_cons, Nat.add_lt_add_iff_right, List.take_succ_cons,
    ← List.singleton_append, openings_append, closings_append]
  refine and_congr_right fun _ => ?_
  omega

/-- The search finds the first token that closes one parenthesis more than the depth. -/
theorem isFirst_closingFrom (k : Nat) (ts : List Token) :
    IsFirst (closesBy (k + 1) ts) (closingFrom (k + 1) ts) := by
  induction ts generalizing k with
  | nil => exact Set.eq_empty_iff_forall_notMem.2 fun i hi => Nat.not_lt_zero i hi.1
  | cons t ts ih =>
    have hstep : ∀ j, k + 1 + openings [t] = j + 1 + closings [t] →
        ¬(t.kind = .rParen ∧ k = 0) →
        IsFirst (closesBy (k + 1) (t :: ts)) ((closingFrom (j + 1) ts).map (· + 1)) :=
      fun j hj hz => (ih j).map_add
        (fun i hi => Nat.pos_of_ne_zero fun h => hz (zero_mem_closesBy.1 (h ▸ hi)))
        fun i => succ_mem_closesBy hj
    rw [closingFrom]
    cases ht : t.kind with
    | lParen => exact hstep (k + 1) (by simp [openings, closings, ht]) (by simp [ht])
    | rParen =>
      cases k with
      | zero => exact ⟨zero_mem_closesBy.2 ⟨ht, rfl⟩, fun i _ => Nat.zero_le i⟩
      | succ k => exact hstep k (by simp [openings, closings, ht]) (by simp)
    | _ => exact hstep k (by simp [openings, closings, ht]) (by simp [ht])

/-- An opening parenthesis is closed by the first token up to which all is balanced. -/
theorem isFirst_matchingParen (h : ∃ t, ts[start]? = some t ∧ t.kind = .lParen) :
    IsFirst (balancedBehind ts start) (matchingParen ts start) := by
  obtain ⟨t, ht, hopen⟩ := h
  obtain ⟨hlt, rfl⟩ := List.getElem?_eq_some_iff.1 ht
  have hdrop : ts.drop start = ts[start] :: ts.drop (start + 1) := List.drop_eq_getElem_cons hlt
  have hmatch : matchingParen ts start =
      (closingFrom 1 (ts.drop (start + 1))).map (· + (start + 1)) := by
    rw [matchingParen, hdrop, closingFrom, hopen, Option.map_map]
    exact congrArg (Option.map · _) (funext fun n => Nat.add_right_comm n 1 start)
  rw [hmatch]
  refine (isFirst_closingFrom 0 _).map_add (fun i hi => hi.1) fun i => ?_
  have hslice : (ts.drop start).take (i + (start + 1) + 1 - start) =
      ts[start] :: (ts.drop (start + 1)).take (i + 1) := by
    rw [hdrop, show i + (start + 1) + 1 - start = i + 1 + 1 by omega, List.take_succ_cons]
  have hcount : openings [ts[start]] = 1 ∧ closings [ts[start]] = 0 := by
    simp [openings, closings, hopen]
  rw [mem_balancedBehind, mem_closesBy, hslice, ← List.singleton_append, openings_append,
    closings_append, hcount.1, hcount.2, List.length_drop]
  omega

/-! ### Pairs -/

/-- The parenthesis at an index has as its partner the least index behind it up to which as many
close as open, and none if there is no such index. A text is quoted as a call exactly if its tokens
are an identifier and a parenthesis right behind it whose partner is the last token. -/
theorem parens_match_exactly :
    (∀ (ts : List Token) (start : Nat), (∃ t, ts[start]? = some t ∧ t.kind = .lParen) →
      (∀ i, matchingParen ts start = some i ↔ IsLeast (balancedBehind ts start) i) ∧
        (matchingParen ts start = none ↔ ∀ i, i ∉ balancedBehind ts start)) ∧
    ∀ (d : Dialect) (t : Text), (Identifier.quoteCall d t).isSome = true ↔
      ∃ f p us, tokenize d t = f :: p :: us ∧ f.kind = .ident ∧ p.kind = .lParen ∧
        IsLeast (balancedBehind (f :: p :: us) 1) (us.length + 1) := by
  refine ⟨fun ts start h => ?_, fun d t => ?_⟩
  · have hfirst := isFirst_matchingParen h
    exact ⟨fun i => hfirst.eq_some_iff, hfirst.eq_none_iff⟩
  · have hpartner : ∀ {f p : Token} {us : List Token}, p.kind = .lParen →
        (matchingParen (f :: p :: us) 1 = some (us.length + 1) ↔
          IsLeast (balancedBehind (f :: p :: us) 1) (us.length + 1)) :=
      fun hp => (isFirst_matchingParen ⟨_, rfl, hp⟩).eq_some_iff
    rw [Identifier.isSome_quoteCall]
    constructor
    · intro h
      unfold Identifier.isCall at h
      split at h
      · next f p us hts =>
        simp only [Bool.and_eq_true, decide_eq_true_eq, beq_iff_eq] at h
        obtain ⟨⟨hf, hp⟩, hm⟩ := h
        exact ⟨f, p, us, hts, hf, hp, (hpartner hp).1 hm⟩
      · cases h
    · rintro ⟨f, p, us, hts, hf, hp, hleast⟩
      rw [hts, Identifier.isCall, (hpartner hp).2 hleast]
      simp [hf, hp]

/-- Of two parentheses one has no partner, and behind a call stands one that was not opened. -/
theorem parens_match_exactly_unbalanced :
    let ts : List Token := tokenize .mySql "f((a, g(b)) + (c"
    let us : List Token := tokenize .mySql "f(a, (b)) )"
    (∃ t, ts[1]? = some t ∧ t.kind = .lParen) ∧ (∃ t, ts[2]? = some t ∧ t.kind = .lParen) ∧
      (∃ t, us[1]? = some t ∧ t.kind = .lParen) ∧
      (∀ i, i ∉ balancedBehind ts 1) ∧ IsLeast (balancedBehind ts 2) 10 ∧
      IsLeast (balancedBehind us 1) 8 := by
  intro ts us
  have hts₁ : ∃ t, ts[1]? = some t ∧ t.kind = .lParen := ⟨⟨.lParen, ['(']⟩, by decide +kernel, rfl⟩
  have hts₂ : ∃ t, ts[2]? = some t ∧ t.kind = .lParen := ⟨⟨.lParen, ['(']⟩, by decide +kernel, rfl⟩
  have hus : ∃ t, us[1]? = some t ∧ t.kind = .lParen := ⟨⟨.lParen, ['(']⟩, by decide +kernel, rfl⟩
  refine ⟨hts₁, hts₂, hus, ?_, ?_, ?_⟩
  · exact ((parens_match_exactly.1 ts 1 hts₁).2).1 (by decide +kernel)
  · exact ((parens_match_exactly.1 ts 2 hts₂).1 10).1 (by decide +kernel)
  · exact ((parens_match_exactly.1 us 1 hus).1 8).1 (by decide +kernel)

end Token

end SqlComposer
