import SqlComposer.Proofs.BlankMembers
import SqlComposer.Proofs.ConditionMeaning

/-!
# Conditions put together

A condition says what its members say together, and without members it holds of every row. An empty
condition has no members. Merging leaves empty conditions out and nothing else: what is merged says
what its parts say together. So does a condition with a further entry, whether the entry is added to
others, stands alone or comes behind a condition of another kind.
-/

namespace SqlComposer

open Formula (joinAll)
open Piece (textOf)

/-! ### Truth values of conjunctions -/

namespace Truth

/-- The value of a conjunction; an empty one holds. -/
def all : List Truth → Truth
  | [] => .yes
  | x :: xs => x.and (all xs)

theorem and_assoc (x y z : Truth) : (x.and y).and z = x.and (y.and z) :=
  Connective.apply_assoc .and x y z

@[simp] theorem yes_and (x : Truth) : Truth.yes.and x = x := by
  cases x <;> rfl

@[simp] theorem and_yes (x : Truth) : x.and .yes = x := by
  cases x <;> rfl

theorem all_append (xs ys : List Truth) : all (xs ++ ys) = (all xs).and (all ys) := by
  induction xs with
  | nil => exact (yes_and _).symm
  | cons x xs ih => rw [List.cons_append, all, all, ih, and_assoc]

end Truth

namespace Formula

variable {v : Text → Truth}

theorem eval_foldl_join_and (f : Formula) (fs : List Formula) :
    (fs.foldl (join .and) f).eval v = (f.eval v).and (Truth.all (fs.map (eval v))) := by
  induction fs generalizing f with
  | nil => exact (Truth.and_yes _).symm
  | cons g fs ih =>
    rw [List.foldl_cons, ih, List.map_cons, Truth.all, ← Truth.and_assoc]
    rfl

theorem all_toList_joinAll (fs : List Formula) :
    Truth.all ((joinAll .and fs).toList.map (eval v)) = Truth.all (fs.map (eval v)) := by
  cases fs with
  | nil => rfl
  | cons f fs =>
    rw [joinAll, Option.toList_some, List.map_singleton, Truth.all, Truth.all, Truth.and_yes,
      eval_foldl_join_and, List.map_cons, Truth.all]

end Formula

namespace Condition

variable {sc : Scope} {v : Text → Truth}

/-! ### Empty conditions -/

mutual

theorem members_of_isEmpty : ∀ {c : Condition}, c.isEmpty = true → members sc c = pure []
  | .bool b, h => by cases h
  | .raw sql, h => by
    have hs : (Text.trim sql).isEmpty = true := (Text.isEmpty_trim sql).trans h
    simp only [members, hs, if_true]
  | .all cs, h => memberTexts_of_allEmpty h
  | .entries es, h => by
    obtain rfl := List.isEmpty_iff.1 h
    rfl

theorem memberTexts_of_allEmpty :
    ∀ {cs : List Condition}, allEmpty cs = true → memberTexts sc cs = pure []
  | [], _ => rfl
  | c :: cs, h => by
    obtain ⟨hc, hcs⟩ := Bool.and_eq_true_iff.1 h
    rw [memberTexts, members_of_isEmpty hc, memberTexts_of_allEmpty hcs]
    rfl

end

theorem ownClause?_of_isEmpty {c : Condition} (h : c.isEmpty = true) : ownClause? c = none := by
  cases c with
  | raw sql =>
    refine Option.eq_none_iff_forall_ne_some.2 fun t ho => ?_
    have ht : t = Text.trim sql := by
      simp only [ownClause?] at ho
      split at ho <;> cases ho
      rfl
    have hblank := blank_of_ownClause ho
    rw [ht, Text.blank_trim] at hblank
    exact absurd h (Bool.eq_false_iff.1 hblank)
  | bool | all | entries => rfl

/-- An empty condition is written as a text that holds of every row. -/
theorem clause_of_isEmpty {c : Condition} (h : c.isEmpty = true) (head : Text) :
    clause sc head c = pure (head ++ ("1 = 1" : Text)) := by
  rw [clause, ownClause?_of_isEmpty h, members_of_isEmpty h]
  rfl

/-! ### What members say together -/

/-- Whether texts with AND between them have a value, given those of their leaves, however they are
read. Without texts it holds always. -/
def Conjoin : List Text → ((Text → Truth) → Truth) → Prop
  | [], φ => ∀ v, φ v = .yes
  | ms, φ => ∃ f, Denotes (Text.join " AND " ms) f ∧ ∀ v, f.eval v = φ v

theorem conjoin_of_says {rows : List (List Piece)} {fs : List Formula}
    (h : List.Forall₂ Says rows fs) :
    Conjoin (rows.map textOf) fun v => Truth.all (fs.map (Formula.eval v)) := by
  cases h with
  | nil => exact fun _ => rfl
  | @cons ps f rows fs hs ht =>
    have h := List.Forall₂.cons hs ht
    have hj : Joins .and (Piece.chain .and (ps :: rows)) (fs.foldl (.join .and) f) :=
      Joins.chain (j := .and) (h.imp fun _ _ hs => hs.joins) rfl
    refine ⟨fs.foldl (.join .and) f, ⟨ps :: rows, guarded_of_mem h, textOf_chain .and _, hj.leaves,
      hj.readable, fun g hg v => hj.eval_eq hg v⟩, fun v => ?_⟩
    exact Formula.eval_foldl_join_and f fs

/-- The value of a condition: of all its members together. -/
def truth (sc : Scope) (v : Text → Truth) (c : Condition) : Truth :=
  Truth.all ((formulas sc c).map (Formula.eval v))

/-- The value of an entry, if it has a member. -/
def operandTruth (sc : Scope) (v : Text → Truth) (key : Text) (o : Operand) : Truth :=
  Truth.all ((operandFormula sc key o).toList.map (Formula.eval v))

theorem conjoin_members (sc : Scope) (c : Condition) :
    Conjoin (sc.source.eval (members sc c)) fun v => truth sc v c := by
  rw [eval_members]
  exact conjoin_of_says (says_rows c)

theorem conjoin_operandText (sc : Scope) (key : Text) (o : Operand) :
    Conjoin (sc.source.eval (operandText sc key o)).toList fun v => operandTruth sc v key o := by
  rw [eval_operandText_eq, toList_map_textOf]
  exact conjoin_of_says (forall₂_toList (says_operandRow key o))

/-! ### Values of conditions -/

theorem truth_of_isEmpty {c : Condition} (h : c.isEmpty = true) : truth sc v c = .yes := by
  have hc := conjoin_members sc c
  rw [members_of_isEmpty h] at hc
  exact hc v

theorem truth_all (cs : List Condition) :
    truth sc v (.all cs) = Truth.all (cs.map (truth sc v)) := by
  rw [truth, formulas]
  induction cs with
  | nil => rfl
  | cons c cs ih =>
    rw [memberFormulas, List.map_append, Truth.all_append, Formula.all_toList_joinAll, ih,
      List.map_cons, Truth.all, truth]

theorem entryFormulas_append (sc : Scope) (es es' : List (Text × Operand)) :
    entryFormulas sc (es ++ es') = entryFormulas sc es ++ entryFormulas sc es' := by
  induction es with
  | nil => rfl
  | cons e es ih => rw [List.cons_append, entryFormulas, entryFormulas, ih, List.append_assoc]

theorem truth_entry (key : Text) (o : Operand) :
    truth sc v (entry key o) = operandTruth sc v key o := by
  rw [truth, entry, formulas, entryFormulas, entryFormulas, List.append_nil, operandTruth]

/-- Empty conditions do not matter for the value of a conjunction. -/
theorem all_map_truth_filter (cs : List Condition) :
    Truth.all ((cs.filter fun c => !c.isEmpty).map (truth sc v)) =
      Truth.all (cs.map (truth sc v)) := by
  induction cs with
  | nil => rfl
  | cons c cs ih =>
    cases hc : c.isEmpty with
    | true =>
      rw [List.filter_cons_of_neg (by simp [hc]), ih, List.map_cons, Truth.all,
        truth_of_isEmpty hc, Truth.yes_and]
    | false =>
      rw [List.filter_cons_of_pos (by simp [hc]), List.map_cons, List.map_cons, Truth.all,
        Truth.all, ih]

theorem truth_merge (cs : List Condition) :
    truth sc v (merge cs) = Truth.all (cs.map (truth sc v)) := by
  rw [← all_map_truth_filter, merge]
  split
  · next hnone => rw [hnone, empty, truth_all]
  · next c hone => rw [hone, List.map_singleton, Truth.all, Truth.all, Truth.and_yes]
  · exact truth_all _

theorem truth_extend (c : Condition) (key : Text) (o : Operand) :
    truth sc v (c.extend key o) = (truth sc v c).and (operandTruth sc v key o) := by
  have hbehind : ∀ c : Condition,
      truth sc v (if c.isEmpty then entry key o else .all [c, entry key o]) =
        (truth sc v c).and (operandTruth sc v key o) := by
    intro c
    split
    · next h => rw [truth_of_isEmpty h, Truth.yes_and, truth_entry]
    · rw [truth_all, List.map_cons, List.map_singleton, Truth.all, Truth.all, Truth.all,
        Truth.and_yes, truth_entry]
  cases c with
  | entries es =>
    rw [extend, truth, formulas, entryFormulas_append, List.map_append, Truth.all_append,
      ← truth_entry]
    rfl
  | bool b => exact hbehind (.bool b)
  | raw sql => exact hbehind (.raw sql)
  | all cs => exact hbehind (.all cs)

/-- An empty condition has no members, and is written as a text that holds of every row. Merged
conditions say what their parts say together, wherever empty ones stand between them. A condition
with a further entry says what the condition and the entry say together. What a condition or an
entry says is the value of its members, joined by AND, however they are read. -/
theorem merge_extend_conjoin (sc : Scope) :
    (∀ c : Condition, c.isEmpty = true → members sc c = pure [] ∧
      ∀ whereClause, sc.source.conditions c sc.quoting whereClause sc.model =
        pure ((if whereClause then " WHERE " else [] : Text) ++ ("1 = 1" : Text))) ∧
      (∀ c, Conjoin (sc.source.eval (members sc c)) fun v => truth sc v c) ∧
      (∀ key o, Conjoin (sc.source.eval (operandText sc key o)).toList
        fun v => operandTruth sc v key o) ∧
      (∀ cs v, truth sc v (merge cs) = Truth.all (cs.map (truth sc v))) ∧
      (∀ cs cs' : List Condition,
        (cs.filter fun c => !c.isEmpty) = (cs'.filter fun c => !c.isEmpty) →
          merge cs = merge cs') ∧
      ∀ (c : Condition) key o v,
        truth sc v (c.extend key o) = (truth sc v c).and (operandTruth sc v key o) :=
  ⟨fun _ h => ⟨members_of_isEmpty h, fun _ => clause_of_isEmpty h _⟩, conjoin_members sc,
    conjoin_operandText sc, fun cs _ => truth_merge cs, fun cs cs' h => by rw [merge, merge, h],
    fun c key o _ => truth_extend c key o⟩

theorem merge_extend_conjoin_blank :
    let sc : Scope := ⟨{}, false, none⟩
    let blank : Condition := .all [.raw "  ", .entries []]
    let one : Condition := .raw " a = 1"
    let either : Operand := .group (.all [.raw "b", blank, .raw "c"])
    blank.isEmpty = true ∧ members sc blank = pure [] ∧
      merge [blank, one, entry "OR" either] = merge [one, entry "OR" either, blank] ∧
      (∃ f, Denotes "a = 1 AND ((b) OR (c))" f ∧
        ∀ v, f.eval v = (v "a = 1").and ((v "b").or (v "c"))) ∧
      ∀ v, truth sc v (merge [blank, one, entry "OR" either]) =
        truth sc v (one.extend "OR" either) := by
  intro sc blank one either
  obtain ⟨hempty, hmembers, -, hmerge, hplace, hextend⟩ := merge_extend_conjoin sc
  have hblank : blank.isEmpty = true := rfl
  have hone : ∀ v, truth sc v one = v "a = 1" := fun v => Truth.and_yes _
  have heither : ∀ v, operandTruth sc v "OR" either = (v "b").or (v "c") := fun v => Truth.and_yes _
  have hvalue : ∀ v, truth sc v (merge [blank, one, entry "OR" either]) =
      (v "a = 1").and ((v "b").or (v "c")) := by
    intro v
    rw [hmerge, List.map_cons, truth_of_isEmpty hblank, List.map_cons, hone, List.map_singleton,
      truth_entry, heither]
    simp only [Truth.all, Truth.yes_and, Truth.and_yes]
  refine ⟨hblank, (hempty blank hblank).1, hplace _ _ rfl, ?_, fun v => ?_⟩
  · obtain ⟨f, hf, hv⟩ := hmembers (merge [blank, one, entry "OR" either])
    exact ⟨f, hf, fun v => (hv v).trans (hvalue v)⟩
  · rw [hvalue, hextend, hone, heither]

end Condition

end SqlComposer
