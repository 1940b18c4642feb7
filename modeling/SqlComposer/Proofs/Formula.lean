import Mathlib.Data.List.Chain
import SqlComposer.Text.Basic

/-!
# Formulas as they are read

A formula joins indivisible leaves by connectives. Written down it is a row of pieces, and how such
a row is read depends on which connectives bind more tightly than others. `Reads` leaves that open:
it admits every reading in which NOT binds more tightly than the connectives. `eval_of_run` says
that rows in which no two different connectives meet have one meaning all the same.
-/

namespace SqlComposer

/-! ### Truth values -/

/-- A truth value; a comparison with NULL is unknown. -/
inductive Truth where
  | yes
  | no
  | unknown
deriving DecidableEq

namespace Truth

def not : Truth → Truth
  | .yes => .no
  | .no => .yes
  | .unknown => .unknown

def and : Truth → Truth → Truth
  | .no, _ => .no
  | _, .no => .no
  | .yes, .yes => .yes
  | _, _ => .unknown

def or : Truth → Truth → Truth
  | .yes, _ => .yes
  | _, .yes => .yes
  | .no, .no => .no
  | _, _ => .unknown

def xor : Truth → Truth → Truth
  | .unknown, _ => .unknown
  | _, .unknown => .unknown
  | .yes, .yes => .no
  | .no, .no => .no
  | _, _ => .yes

end Truth

/-! ### Connectives -/

/-- What a connective does. -/
inductive Connective where
  | and
  | or
  | xor
deriving DecidableEq

def Connective.apply : Connective → Truth → Truth → Truth
  | .and => Truth.and
  | .or => Truth.or
  | .xor => Truth.xor

theorem Connective.apply_assoc (c : Connective) (x y z : Truth) :
    c.apply (c.apply x y) z = c.apply x (c.apply y z) := by
  cases c <;> cases x <;> cases y <;> cases z <;> rfl

/-- A connective as it is written. -/
inductive Joint where
  | and
  | ampersands
  | or
  | bars
  | xor
deriving DecidableEq

namespace Joint

def word : Joint → Text
  | .and => "AND"
  | .ampersands => "&&"
  | .or => "OR"
  | .bars => "||"
  | .xor => "XOR"

def connective : Joint → Connective
  | .and | .ampersands => .and
  | .or | .bars => .or
  | .xor => .xor

end Joint

/-! ### Formulas -/

/-- A formula over texts that are not looked into. -/
inductive Formula where
  | leaf (t : Text)
  | not (f : Formula)
  | join (j : Joint) (f g : Formula)

namespace Formula

/-- The truth value of a formula, given those of its leaves. -/
def eval (v : Text → Truth) : Formula → Truth
  | .leaf t => v t
  | .not f => (f.eval v).not
  | .join j f g => j.connective.apply (f.eval v) (g.eval v)

/-- The leaves of a formula from left to right. -/
def leaves : Formula → List Text
  | .leaf t => [t]
  | .not f => f.leaves
  | .join _ f g => f.leaves ++ g.leaves

/-- The formulas joined from left to right; there is nothing to join in an empty list. -/
def joinAll (j : Joint) : List Formula → Option Formula
  | [] => none
  | f :: fs => some (fs.foldl (join j) f)

end Formula

/-! ### Written formulas -/

/-- A piece of a written formula. -/
inductive Piece where
  | leaf (t : Text)
  | opening
  | closing
  | not
  | joint (j : Joint)
deriving DecidableEq

namespace Piece

def text : Piece → Text
  | .leaf t => t
  | .opening => "("
  | .closing => ")"
  | .not => "NOT "
  | .joint j => ' ' :: j.word ++ [' ']

/-- The text of a row of pieces. -/
def textOf (ps : List Piece) : Text :=
  ps.flatMap text

/-- The leaves in a row of pieces. -/
def leavesOf (ps : List Piece) : List Text :=
  ps.filterMap fun
    | .leaf t => some t
    | _ => none

/-- Whether one piece may stand in front of another: a connective stands between parentheses, of
which the second may be negated. -/
def Precedes (p q : Piece) : Prop :=
  (∀ j, q = .joint j → p = .closing) ∧ (∀ j, p = .joint j → q = .opening ∨ q = .not) ∧
    (p = .not → q = .opening)

end Piece

open Piece (textOf leavesOf)

/-- What a reading takes a row of pieces for. -/
inductive Reading where
  /-- Something that a connective joins as a whole. -/
  | operand
  | formula

/-- Whether a row of pieces can be read as a formula. Nothing is laid down about which connective of
several to apply first. -/
inductive Reads : Reading → List Piece → Formula → Prop
  | leaf (t : Text) : Reads .operand [.leaf t] (.leaf t)
  | enclosed {ps f} : Reads .formula ps f → Reads .operand (.opening :: ps ++ [.closing]) f
  | not {ps f} : Reads .operand ps f → Reads .operand (.not :: ps) (.not f)
  | operand {ps f} : Reads .operand ps f → Reads .formula ps f
  | join {ps qs f g} (j : Joint) : Reads .formula ps f → Reads .formula qs g →
      Reads .formula (ps ++ .joint j :: qs) (.join j f g)

/-! ### Reading from left to right -/

/-- How far the reading of a formula has come, outside of the parentheses that are open. -/
inductive Level where
  /-- Nothing is read but negations, of which the number may be odd. -/
  | fresh (negated : Bool)
  /-- An operand, or several with one and the same connective between them. -/
  | operand (x : Truth) (c : Option Connective)
  /-- A connective behind that, and negations. -/
  | joint (x : Truth) (c : Connective) (negated : Bool)

namespace Level

/-- A truth value, negated if it has to be. -/
def negateIf (negated : Bool) (x : Truth) : Truth :=
  if negated then x.not else x

/-- An operand more. -/
def supply (x : Truth) : Level → Option Level
  | .fresh negated => some (.operand (negateIf negated x) none)
  | .operand _ _ => none
  | .joint y c negated => some (.operand (c.apply y (negateIf negated x)) (some c))

/-- A negation more. -/
def negate : Level → Option Level
  | .fresh negated => some (.fresh (!negated))
  | .operand _ _ => none
  | .joint x c negated => some (.joint x c (!negated))

/-- A connective more, which must be the one that has been there before. -/
def link (c : Connective) : Level → Option Level
  | .operand x none => some (.joint x c false)
  | .operand x (some d) => if c = d then some (.joint x c false) else none
  | _ => none

/-- The value of a formula that has been read to its end. -/
def value? : Level → Option Truth
  | .operand x _ => some x
  | _ => none

end Level

/-- The levels after a piece, the innermost first. -/
def Piece.step (v : Text → Truth) : Piece → List Level → Option (List Level)
  | .leaf t, l :: ls => (l.supply (v t)).map (· :: ls)
  | .opening, ls => some (.fresh false :: ls)
  | .closing, l :: k :: ls => l.value?.bind fun x => (k.supply x).map (· :: ls)
  | .not, l :: ls => l.negate.map (· :: ls)
  | .joint j, l :: ls => (l.link j.connective).map (· :: ls)
  | _, _ => none

/-- The levels after a row of pieces. -/
def Piece.run (v : Text → Truth) : List Piece → List Level → Option (List Level)
  | [], ls => some ls
  | p :: ps, ls => (p.step v ls).bind (run v ps)

open Piece (run)

theorem Piece.run_append (v : Text → Truth) (ps qs : List Piece) (ls : List Level) :
    run v (ps ++ qs) ls = (run v ps ls).bind (run v qs) := by
  induction ps generalizing ls with
  | nil => rfl
  | cons p ps ih =>
    simp only [List.cons_append, run]
    cases p.step v ls <;> simp [ih]

namespace Level

/-- Whether a formula may begin at a level. -/
def Ready : Level → Prop
  | .fresh negated => negated = false
  | .operand _ _ => False
  | .joint _ _ negated => negated = false

/-- Whether a value, read as an operand or as a formula, takes a level to another. -/
def Absorbs (x : Truth) : Reading → Level → Level → Prop
  | .operand, l, k => l.supply x = some k
  | .formula, .fresh _, k => ∃ c, k = .operand x c
  | .formula, .joint y c _, k => k = .operand (c.apply y x) (some c)
  | .formula, .operand _ _, _ => False

theorem ready_fresh : (fresh false).Ready := rfl

theorem supply_of_negate {l k : Level} (h : l.negate = some k) (x : Truth) :
    k.supply x = l.supply x.not := by
  cases l with
  | fresh negated =>
    cases h
    cases negated <;> cases x <;> rfl
  | operand y c => cases h
  | joint y c negated =>
    cases h
    cases negated <;> cases x <;> rfl

theorem absorbs_of_supply {l k : Level} {x : Truth} (hl : l.Ready) (h : l.supply x = some k) :
    Absorbs x .formula l k := by
  cases l with
  | fresh negated =>
    cases hl
    exact ⟨none, (Option.some.inj h).symm⟩
  | operand y c => exact hl.elim
  | joint y c negated =>
    cases hl
    exact (Option.some.inj h).symm

theorem link_eq_some {k m : Level} {c : Connective} (h : k.link c = some m) :
    ∃ x, m = .joint x c false ∧ (k = .operand x none ∨ k = .operand x (some c)) := by
  match k with
  | .fresh _ => cases h
  | .joint _ _ _ => cases h
  | .operand x none => exact ⟨x, (Option.some.inj h).symm, .inl rfl⟩
  | .operand x (some d) =>
    simp only [link] at h
    split at h
    · next hc =>
      subst hc
      exact ⟨x, (Option.some.inj h).symm, .inr rfl⟩
    · cases h

/-- A formula and, behind a connective, another one are absorbed as their join. -/
theorem Absorbs.join {l k m n : Level} {x y : Truth} {c : Connective} (h : Absorbs x .formula l k)
    (hm : k.link c = some m) (hn : Absorbs y .formula m n) :
    Absorbs (c.apply x y) .formula l n := by
  obtain ⟨z, rfl, hk⟩ := link_eq_some hm
  have hn : n = .operand (c.apply z y) (some c) := hn
  subst hn
  match l with
  | .fresh _ =>
    obtain ⟨d, rfl⟩ := h
    have hz : x = z := by
      rcases hk with hk | hk <;> exact (Level.operand.inj hk).1
    subst hz
    exact ⟨some c, rfl⟩
  | .joint w d _ =>
    have h : k = .operand (d.apply w x) (some d) := h
    subst h
    rcases hk with hk | hk
    · cases (Level.operand.inj hk).2
    · obtain ⟨rfl, hc⟩ := Level.operand.inj hk
      cases hc
      exact congrArg (Level.operand · (some c)) (c.apply_assoc w x y)

end Level

theorem Piece.run_cons_eq_some {v : Text → Truth} {p : Piece} {ps : List Piece}
    {ls out : List Level} (h : run v (p :: ps) ls = some out) :
    ∃ ks, p.step v ls = some ks ∧ run v ps ks = some out :=
  Option.bind_eq_some_iff.1 h

theorem Piece.run_append_eq_some {v : Text → Truth} {ps qs : List Piece} {ls out : List Level}
    (h : run v (ps ++ qs) ls = some out) :
    ∃ ks, run v ps ls = some ks ∧ run v qs ks = some out := by
  rw [run_append] at h
  exact Option.bind_eq_some_iff.1 h

/-- Reading from left to right comes to the value of every reading, unless it gets stuck. -/
theorem Reads.absorbs {r : Reading} {ps : List Piece} {f : Formula} (h : Reads r ps f)
    (v : Text → Truth) {l : Level} {ls out : List Level} (hl : r = .formula → l.Ready)
    (ho : run v ps (l :: ls) = some out) : ∃ k, l.Absorbs (f.eval v) r k ∧ out = k :: ls := by
  induction h generalizing l ls out with
  | leaf t =>
    obtain ⟨ks, hs, ho⟩ := Piece.run_cons_eq_some ho
    cases ho
    obtain ⟨k, hk, rfl⟩ := Option.map_eq_some_iff.1 hs
    exact ⟨k, hk, rfl⟩
  | enclosed _ ih =>
    -- The parenthesis opens a level of its own, whose value is the next operand.
    obtain ⟨ks, hs, ho⟩ := Piece.run_cons_eq_some ho
    cases hs
    obtain ⟨ks, hs, ho⟩ := Piece.run_append_eq_some ho
    obtain ⟨_, ⟨c, rfl⟩, rfl⟩ := ih (fun _ => Level.ready_fresh) hs
    obtain ⟨ks, hs, ho⟩ := Piece.run_cons_eq_some ho
    cases ho
    obtain ⟨k, hk, rfl⟩ := Option.map_eq_some_iff.1 hs
    exact ⟨k, hk, rfl⟩
  | not _ ih =>
    obtain ⟨ks, hs, ho⟩ := Piece.run_cons_eq_some ho
    obtain ⟨m, hm, rfl⟩ := Option.map_eq_some_iff.1 hs
    obtain ⟨k, hk, rfl⟩ := ih (fun h => nomatch h) ho
    exact ⟨k, (Level.supply_of_negate hm _).symm.trans hk, rfl⟩
  | operand _ ih =>
    obtain ⟨k, hk, rfl⟩ := ih (fun h => nomatch h) ho
    exact ⟨k, Level.absorbs_of_supply (hl rfl) hk, rfl⟩
  | join j _ _ ihf ihg =>
    obtain ⟨ks, hf, ho⟩ := Piece.run_append_eq_some ho
    obtain ⟨k, hk, rfl⟩ := ihf (fun _ => hl rfl) hf
    obtain ⟨ks, hs, ho⟩ := Piece.run_cons_eq_some ho
    obtain ⟨m, hm, rfl⟩ := Option.map_eq_some_iff.1 hs
    obtain ⟨x, hx, _⟩ := Level.link_eq_some hm
    -- The joint leaves the level ready for the formula on the right.
    have hr : m.Ready := by
      rw [hx]
      rfl
    obtain ⟨n, hn, rfl⟩ := ihg (fun _ => hr) ho
    exact ⟨n, hk.join hm hn, rfl⟩

/-- If reading from left to right does not get stuck, every reading has the value that it comes
to. -/
theorem Reads.eval_of_run {ps : List Piece} {f : Formula} (h : Reads .formula ps f)
    {v : Text → Truth} {x : Truth} {c : Option Connective}
    (ho : run v ps [.fresh false] = some [.operand x c]) : f.eval v = x := by
  obtain ⟨_, ⟨d, rfl⟩, hk⟩ := h.absorbs v (fun _ => Level.ready_fresh) ho
  exact (Level.operand.inj (List.cons_eq_cons.1 hk).1).1.symm

/-! ### Writing formulas -/

namespace Formula

/-- A formula, negated if it has to be. -/
def negateIf (negated : Bool) (f : Formula) : Formula :=
  if negated then f.not else f

@[simp] theorem eval_negateIf (v : Text → Truth) (negated : Bool) (f : Formula) :
    (negateIf negated f).eval v = Level.negateIf negated (f.eval v) := by
  cases negated <;> rfl

@[simp] theorem leaves_negateIf (negated : Bool) (f : Formula) :
    (negateIf negated f).leaves = f.leaves := by
  cases negated <;> rfl

end Formula

namespace Piece

/-- Pieces between parentheses, with a negation in front if there has to be one. -/
def cell (negated : Bool) (ps : List Piece) : List Piece :=
  (if negated then [.not] else []) ++ .opening :: ps ++ [.closing]

/-- Rows of pieces with a connective between neighbours. -/
def chain (j : Joint) (rows : List (List Piece)) : List Piece :=
  [.joint j].intercalate rows

theorem chain_cons_cons (j : Joint) (ps qs : List Piece) (rows : List (List Piece)) :
    chain j (ps :: qs :: rows) = ps ++ .joint j :: chain j (qs :: rows) := by
  simp [chain, List.intercalate]

@[simp] theorem chain_singleton (j : Joint) (ps : List Piece) : chain j [ps] = ps := by
  simp [chain, List.intercalate]

@[simp] theorem leavesOf_append (ps qs : List Piece) :
    leavesOf (ps ++ qs) = leavesOf ps ++ leavesOf qs :=
  List.filterMap_append

@[simp] theorem textOf_append (ps qs : List Piece) : textOf (ps ++ qs) = textOf ps ++ textOf qs :=
  List.flatMap_append

/-- Whether pieces are in order between parentheses. -/
def Guarded (ps : List Piece) : Prop :=
  (.opening :: (ps ++ [.closing])).IsChain Precedes

theorem guarded_leaf (t : Text) : Guarded [.leaf t] := by
  simp [Guarded, Precedes]

/-- Pieces between parentheses are in order behind a parenthesis or a connective. -/
theorem Guarded.isChain_cell {p : Piece} {ps rest : List Piece} (h : Guarded ps) (negated : Bool)
    (hp : p = .opening ∨ ∃ j, p = .joint j) (hr : (Piece.closing :: rest).IsChain Precedes) :
    (p :: (cell negated ps ++ rest)).IsChain Precedes := by
  have hc : (Piece.opening :: ps ++ Piece.closing :: rest).IsChain Precedes :=
    List.isChain_split.2 ⟨h, hr⟩
  have ho : Precedes p .opening ∧ Precedes p .not := by
    rcases hp with rfl | ⟨j, rfl⟩ <;> simp [Precedes]
  cases negated with
  | false => simpa [cell] using List.isChain_cons.2 ⟨by simpa using ho.1, hc⟩
  | true =>
    have hn : (Piece.not :: (Piece.opening :: ps ++ Piece.closing :: rest)).IsChain Precedes :=
      List.isChain_cons.2 ⟨by simp [Precedes], hc⟩
    simpa [cell] using List.isChain_cons.2 ⟨by simpa using ho.2, hn⟩

theorem isChain_closing_closing : [Piece.closing, Piece.closing].IsChain Precedes := by
  simp [Precedes]

theorem Guarded.cell {ps : List Piece} (h : Guarded ps) (negated : Bool) :
    Guarded (cell negated ps) :=
  h.isChain_cell negated (.inl rfl) isChain_closing_closing

/-- Pieces between parentheses are joined in order. -/
theorem guarded_chain (j : Joint) (negated : Bool) {rows : List (List Piece)}
    (h : ∀ ps ∈ rows, Guarded ps) (hn : rows ≠ []) :
    Guarded (chain j (rows.map (Piece.cell negated))) := by
  suffices hs : ∀ p, (p = .opening ∨ ∃ i, p = .joint i) →
      (p :: (chain j (rows.map (Piece.cell negated)) ++ [.closing])).IsChain Precedes from
    hs _ (.inl rfl)
  induction rows with
  | nil => exact absurd rfl hn
  | cons ps rows ih =>
    intro p hp
    have hps := h ps List.mem_cons_self
    cases rows with
    | nil => simpa using hps.isChain_cell negated hp isChain_closing_closing
    | cons qs rows =>
      have ih := ih (fun qs hq => h qs (List.mem_cons_of_mem _ hq)) (List.cons_ne_nil _ _)
        (.joint j) (.inr ⟨j, rfl⟩)
      have hr := hps.isChain_cell negated hp (List.isChain_cons.2 ⟨by simp [Precedes], ih⟩)
      simpa [chain_cons_cons] using hr

end Piece

/-- Whether a row of pieces says the same as a formula wherever it stands between connectives of
one kind. -/
structure Joins (c : Connective) (ps : List Piece) (f : Formula) : Prop where
  leaves : leavesOf ps = f.leaves
  readable : ∃ g, Reads .formula ps g
  first (v : Text → Truth) (ls : List Level) : ∃ d, (d = none ∨ d = some c) ∧
    run v ps (.fresh false :: ls) = some (.operand (f.eval v) d :: ls)
  next (v : Text → Truth) (x : Truth) (ls : List Level) :
    run v ps (.joint x c false :: ls) = some (.operand (c.apply x (f.eval v)) (some c) :: ls)

namespace Joins

variable {c : Connective} {ps : List Piece} {f : Formula}

/-- Every reading has the value of the formula. -/
theorem eval_eq (h : Joins c ps f) {g : Formula} (hg : Reads .formula ps g) (v : Text → Truth) :
    g.eval v = f.eval v := by
  obtain ⟨d, _, hr⟩ := h.first v []
  exact hg.eval_of_run hr

theorem leaf (c : Connective) (t : Text) : Joins c [.leaf t] (.leaf t) where
  leaves := rfl
  readable := ⟨_, .operand (.leaf t)⟩
  first _ _ := ⟨none, .inl rfl, rfl⟩
  next _ _ _ := rfl

theorem run_cell (h : Joins c ps f) (negated : Bool) (v : Text → Truth) {l : Level}
    (ls : List Level) (hl : l.Ready) :
    run v (Piece.cell negated ps) (l :: ls) =
      (l.supply (Level.negateIf negated (f.eval v))).map (· :: ls) := by
  have he : ∀ l, run v (.opening :: ps ++ [.closing]) (l :: ls) =
      (l.supply (f.eval v)).map (· :: ls) := by
    intro l
    obtain ⟨d, _, hr⟩ := h.first v (l :: ls)
    change run v (ps ++ [.closing]) (.fresh false :: l :: ls) = _
    rw [Piece.run_append, hr]
    cases hs : l.supply (f.eval v) <;>
      simp [Piece.run, Piece.step, Level.value?, hs]
  cases negated with
  | false => exact he l
  | true =>
    obtain ⟨k, hk⟩ : ∃ k, l.negate = some k := by
      cases l with
      | fresh negated => exact ⟨_, rfl⟩
      | operand x d => exact hl.elim
      | joint x d negated => exact ⟨_, rfl⟩
    change (Piece.not.step v (l :: ls)).bind (run v (.opening :: ps ++ [.closing])) = _
    rw [Piece.step, hk, Option.map_some, Option.bind_some, he, Level.supply_of_negate hk]
    rfl

/-- What stands between parentheses may stand between any connectives. -/
theorem cell (h : Joins c ps f) (negated : Bool) (d : Connective) :
    Joins d (Piece.cell negated ps) (f.negateIf negated) where
  leaves := by
    rw [Formula.leaves_negateIf, ← h.leaves]
    cases negated <;> simp [Piece.cell, leavesOf]
  readable := by
    obtain ⟨g, hg⟩ := h.readable
    cases negated with
    | false => exact ⟨g, .operand (.enclosed hg)⟩
    | true => exact ⟨.not g, .operand (.not (.enclosed hg))⟩
  first v ls := by
    refine ⟨none, .inl rfl, ?_⟩
    rw [h.run_cell negated v ls Level.ready_fresh, Formula.eval_negateIf]
    rfl
  next v x ls := by
    have hl : (Level.joint x d false).Ready := rfl
    rw [h.run_cell negated v ls hl, Formula.eval_negateIf]
    rfl

variable {j : Joint} {qs : List Piece} {g : Formula}

theorem append (hf : Joins j.connective ps f) (hg : Joins j.connective qs g) :
    Joins j.connective (ps ++ .joint j :: qs) (.join j f g) where
  leaves := by simp [Formula.leaves, ← hf.leaves, ← hg.leaves, leavesOf]
  readable := by
    obtain ⟨f', hf'⟩ := hf.readable
    obtain ⟨g', hg'⟩ := hg.readable
    exact ⟨_, .join j hf' hg'⟩
  first v ls := by
    obtain ⟨d, hd, hr⟩ := hf.first v ls
    have hl : (Level.operand (f.eval v) d).link j.connective =
        some (.joint (f.eval v) j.connective false) := by
      rcases hd with rfl | rfl <;> simp [Level.link]
    refine ⟨some j.connective, .inr rfl, ?_⟩
    rw [Piece.run_append, hr, Option.bind_some, Piece.run, Piece.step, hl, Option.map_some,
      Option.bind_some, hg.next]
    rfl
  next v x ls := by
    have hl : (Level.operand (j.connective.apply x (f.eval v)) (some j.connective)).link
        j.connective = some (.joint (j.connective.apply x (f.eval v)) j.connective false) := by
      simp [Level.link]
    rw [Piece.run_append, hf.next, Option.bind_some, Piece.run, Piece.step, hl, Option.map_some,
      Option.bind_some, hg.next, j.connective.apply_assoc]
    rfl

/-- Rows of pieces with one connective between them say what their formulas say joined. -/
theorem chain {rows : List (List Piece)} {fs : List Formula}
    (h : List.Forall₂ (Joins j.connective) rows fs) (hf : Formula.joinAll j fs = some f) :
    Joins j.connective (Piece.chain j rows) f := by
  cases h with
  | nil => cases hf
  | @cons ps g rows fs hg h =>
    cases hf
    induction h generalizing ps g with
    | nil => simpa using hg
    | @cons qs g' rows fs hg' h ih =>
      have hc : Piece.chain j (ps :: qs :: rows) = Piece.chain j ((ps ++ .joint j :: qs) :: rows) := by
        cases rows <;> simp [Piece.chain_cons_cons]
      rw [hc]
      exact ih (hg.append hg')

end Joins

end SqlComposer
