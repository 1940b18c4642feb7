import SqlComposer.Proofs.OrderKeys

/-!
# Items of an ORDER BY clause, one after the other

The items of a clause are taken one by one. A key with commas is put back as its parts, so a round
can leave more items than there were. Parts have no commas, so each is a term when its turn comes:
every item takes as many rounds as it has parts, and one more if it is taken apart. What the items
come to is the same as for each of them alone, one behind the other.
-/

namespace SqlComposer

namespace Order

variable {direction : Text}

theorem isDivided_iff {key : Text} :
    isDivided key = true ↔ ',' ∈ key ∧ ¬['(', ',', ')'].Sublist key := by
  rw [isDivided, Bool.and_eq_true, List.contains_iff_mem, Bool.not_eq_true', ← hasGroupedComma_iff,
    Bool.not_eq_true]

/-! ### Rounds -/

namespace Worklist

/-- A worklist takes a number of rounds until no item is left. The terms are those of the clause. -/
inductive Takes (direction : Text) : Worklist → Nat → List Term → Prop where
  | done (ts : List Term) : Takes direction ⟨[], ts⟩ 0 ts
  | round {w w' : Worklist} {n : Nat} {ts : List Term} (next : w.next? direction = some w')
    (rest : Takes direction w' n ts) : Takes direction w (n + 1) ts

theorem takes_run (direction : Text) (w : Worklist) :
    Takes direction w w.rounds (w.run direction) := by
  fun_induction run direction w with
  | case1 w h =>
    obtain ⟨items, ts⟩ := w
    obtain rfl : items = [] := pending_of_next?_eq_none h
    exact .done ts
  | case2 w w' h ih =>
    rw [← rounds_next? h]
    exact .round h ih

/-- There is no other way. -/
theorem takes_iff {w : Worklist} {n : Nat} {ts : List Term} :
    Takes direction w n ts ↔ n = w.rounds ∧ ts = w.run direction := by
  constructor
  · intro h
    induction h with
    | done ts => exact ⟨rfl, by rw [run_eq, allTerms, List.flatMap_nil, List.append_nil]⟩
    | round next _ ih =>
      obtain ⟨rfl, rfl⟩ := ih
      exact ⟨rounds_next? next, by rw [run_eq, run_eq, allTerms_next? next]⟩
  · rintro ⟨rfl, rfl⟩
    exact takes_run direction w

/-- No worklist goes on for ever. -/
theorem wellFounded_next? (direction : Text) :
    WellFounded fun w' w : Worklist => w.next? direction = some w' :=
  Subrelation.wf (fun {w' w} (h : w.next? direction = some w') => by
    have := rounds_next? h
    show w'.rounds < w.rounds
    omega) (measure rounds).wf

end Worklist

theorem collect_append (direction : Text) (xs ys : List Order) :
    collect direction (xs ++ ys) = collect direction xs ++ collect direction ys := by
  rw [collect_eq, collect_eq, collect_eq, List.flatMap_append]

end Order

/-! ### Clauses -/

namespace Source

variable {s : Source} {model : Option Model} {direction : Text}

/-- The terms of items as a clause has them. -/
def orderTerms (s : Source) (items : List Order) (direction : Text) (model : Option Model) :
    List Text :=
  (Order.collect direction items).filterMap fun t => s.eval (Order.writeTerm s.dialect model t)

theorem orderTerms_nil : s.orderTerms [] direction model = [] := by
  rw [orderTerms, Order.collect_eq, List.flatMap_nil, List.filterMap_nil]

theorem orderTerms_append (s : Source) (model : Option Model) (direction : Text)
    (xs ys : List Order) : s.orderTerms (xs ++ ys) direction model =
      s.orderTerms xs direction model ++ s.orderTerms ys direction model := by
  rw [orderTerms, Order.collect_append, List.filterMap_append, orderTerms, orderTerms]

theorem orderTerms_eq_flatMap (s : Source) (model : Option Model) (direction : Text)
    (items : List Order) : s.orderTerms items direction model =
      items.flatMap fun item => s.orderTerms [item] direction model := by
  induction items with
  | nil => exact orderTerms_nil
  | cons item items ih =>
    rw [List.flatMap_cons, ← ih, ← orderTerms_append, List.singleton_append]

theorem eval_order_eq_join (s : Source) (items : List Order) (direction : Text)
    (model : Option Model) : s.eval (s.order items direction model) =
      if (s.orderTerms items direction model).isEmpty then []
      else (" ORDER BY " : Text) ++ Text.join ", " (s.orderTerms items direction model) := by
  rw [eval_order, orderClause, ← Order.collect_eq, List.filterMap_map, List.filterMap_map]
  rfl

theorem orderTerms_directed (key dir : Text) : s.orderTerms [.directed key dir] direction model =
    (Order.keyParts key).filterMap (s.orderTerm model dir) := by
  rw [orderTerms, Order.collect_eq, List.flatMap_singleton, Order.terms, List.filterMap_map]
  exact List.filterMap_congr fun k _ => eval_writeTerm s model dir k

theorem orderTerms_field (key : Text) : s.orderTerms [.field key] direction model =
    s.orderTerms [.directed key direction] direction model := by
  rw [orderTerms, orderTerms, Order.collect_eq, Order.collect_eq, List.flatMap_singleton,
    List.flatMap_singleton, Order.terms, Order.terms]

theorem orderTerms_expression (sql : Text) :
    s.orderTerms [.expression sql] direction model = [sql] := by
  rw [orderTerms, Order.collect_eq, List.flatMap_singleton]
  rfl

/-- Taking items apart ends after the rounds that they need, one way only. The terms of two rows of
items, one behind the other, are those of the first and then those of the second, so they are those
of each item by itself. A key with commas has the terms of its parts, in their order, unless a comma
stands between an opening and a closing parenthesis; then, and without commas, it is one term. A
term is left out if nothing is in front of its direction. -/
theorem order_is_flatMap (s : Source) (model : Option Model) (direction : Text) :
    let terms (items : List Order) : List Text := s.orderTerms items direction model
    (WellFounded fun w' w : Order.Worklist => w.next? direction = some w') ∧
      (∀ items n ts, Order.Worklist.Takes direction ⟨items, []⟩ n ts ↔
        n = Order.totalRounds items ∧ ts = Order.collect direction items) ∧
      (∀ items, s.eval (s.order items direction model) =
        if (terms items).isEmpty then []
        else (" ORDER BY " : Text) ++ Text.join ", " (terms items)) ∧
      (∀ xs ys, terms (xs ++ ys) = terms xs ++ terms ys) ∧
      (∀ items, terms items = items.flatMap fun item => terms [item]) ∧
      (∀ key dir, ',' ∈ key ∧ ¬['(', ',', ')'].Sublist key →
        terms [.directed key dir] =
          ((Text.splitBy (· == ',') key).map Text.trim).filterMap (s.orderTerm model dir)) ∧
      (∀ key dir, ',' ∉ key ∨ ['(', ',', ')'].Sublist key →
        terms [.directed key dir] = (s.orderTerm model dir key).toList) ∧
      (∀ key, terms [.field key] = terms [.directed key direction]) ∧
      ∀ sql, terms [.expression sql] = [sql] := by
  intro terms
  refine ⟨Order.Worklist.wellFounded_next? direction, fun items n ts => Order.Worklist.takes_iff,
    fun items => s.eval_order_eq_join items direction model,
    s.orderTerms_append model direction, s.orderTerms_eq_flatMap model direction,
    fun key dir h => ?_, fun key dir h => ?_, orderTerms_field, orderTerms_expression⟩
  · have hd : Order.isDivided key = true := Order.isDivided_iff.2 h
    rw [show terms _ = _ from orderTerms_directed key dir, Order.keyParts_of_isDivided hd]
  · have hd : Order.isDivided key = false := by
      refine Bool.eq_false_iff.2 fun hd => ?_
      obtain ⟨hcomma, hgrouped⟩ := Order.isDivided_iff.1 hd
      exact h.elim (· hcomma) hgrouped
    rw [show terms _ = _ from orderTerms_directed key dir, Order.keyParts_of_not_isDivided hd,
      List.filterMap_cons]
    cases s.orderTerm model dir key <;> rfl

theorem order_is_flatMap_posts :
    let s : Source := {}
    let terms (items : List Order) : List Text := s.orderTerms items "ASC" none
    let several : Text := "title, Post.id desc, "
    let grouped : Text := "FIELD(id, 3, 1)"
    (',' ∈ several ∧ ¬['(', ',', ')'].Sublist several) ∧ ['(', ',', ')'].Sublist grouped ∧
      terms [.field several, .expression "RAND()", .directed grouped "DESC"] =
        ["\x60title\x60 ASC".toList, "\x60Post\x60.\x60id\x60 desc".toList, "RAND()".toList,
          "FIELD(id, 3, 1) DESC".toList] ∧
      Order.Worklist.Takes "ASC"
        ⟨[.field several, .expression "RAND()", .directed grouped "DESC"], []⟩ 6
        [.key "title" "ASC", .key "Post.id desc" "ASC", .key "" "ASC", .finished "RAND()",
          .key grouped "DESC"] := by
  intro s terms several grouped
  have hseveral : ',' ∈ several ∧ ¬['(', ',', ')'].Sublist several := by decide +kernel
  have hgrouped : ['(', ',', ')'].Sublist grouped := by decide +kernel
  obtain ⟨-, hrounds, -, happend, hitems, hdivided, hwhole, hfield, hsql⟩ :=
    order_is_flatMap s none "ASC"
  refine ⟨hseveral, hgrouped, ?_, (hrounds _ _ _).2 ⟨by decide +kernel, ?_⟩⟩
  · refine (hitems _).trans ?_
    simp only [List.flatMap_cons, List.flatMap_nil, hfield, hsql,
      hdivided several "ASC" hseveral, hwhole grouped "DESC" (.inr hgrouped)]
    decide +kernel
  · rw [Order.collect_eq]
    rfl

end Source

end SqlComposer
