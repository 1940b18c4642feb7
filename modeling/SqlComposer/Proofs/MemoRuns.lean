import Mathlib.Data.List.Induction
import SqlComposer.Memo
import SqlComposer.Proofs.OrderedMap

/-!
# Runs of a memo

Whatever is done with a memo, it is a finite map. Under a method and a key stands the last answer
that was taken for them since the answers were dropped. A memo that is off gives none of its answers
and takes no further ones, but it keeps those that it has.
-/

namespace SqlComposer.Memo

/-! ### Actions and what they say -/

/-- What is done with a memo. -/
inductive Action where
  | put (method key : Text) (a : Answer)
  | get (method key : Text)
  | flush
  | setEnabled (enabled : Bool)
  | withHash (hash : Text → Text)

/-- What an action gives back. -/
inductive Reply where
  | done
  /-- Whether an answer was taken. -/
  | taken (b : Bool)
  | found (a : Option Answer)
deriving DecidableEq

namespace Action

/-- The memo after an action. -/
def apply (m : Memo) : Action → Memo
  | .put method key a => m.put method key a
  | .get _ _ => m
  | .flush => m.flush
  | .setEnabled enabled => { m with enabled }
  | .withHash hash => m.withHash hash

/-- What a memo replies to an action. -/
def reply (m : Memo) : Action → Reply
  | .put method key a => .taken (m.takes method key a)
  | .get method key => .found (m.get? method key)
  | .flush | .setEnabled _ | .withHash _ => .done

/-- Whether all answers are dropped. -/
def drops : Action → Bool
  | .flush | .withHash _ => true
  | .put _ _ _ | .get _ _ | .setEnabled _ => false

/-- The new state of the switch, if it is moved. -/
def switch? : Action → Option Bool
  | .setEnabled enabled => some enabled
  | .put _ _ _ | .get _ _ | .flush | .withHash _ => none

/-- Whether an action is about a method, or about all of them. -/
def concerns (method : Text) : Action → Bool
  | .put method' _ _ | .get method' _ => method' = method
  | .flush | .setEnabled _ | .withHash _ => true

end Action

/-- The memo after actions. -/
def exec (m : Memo) (cs : List Action) : Memo :=
  cs.foldl Action.apply m

/-- The actions with the replies to them. -/
def history (m : Memo) : List Action → List (Action × Reply)
  | [] => []
  | c :: cs => (c, c.reply m) :: history (c.apply m) cs

/-- The entry that an action leaves, if the reply says that the answer was taken. -/
def entryOf : Action × Reply → Option ((Text × Text) × Answer)
  | (.put method key a, .taken true) => some ((method, key), a)
  | _ => none

/-- The answers that were taken since the last time they were dropped, the latest first. -/
def kept (h : List (Action × Reply)) : List ((Text × Text) × Answer) :=
  (h.reverse.takeWhile fun e => !e.1.drops).filterMap entryOf

/-- Whether a memo is on after actions: as it was switched last, or else as it was before. -/
def isOn (enabled : Bool) (cs : List Action) : Bool :=
  (cs.filterMap Action.switch?).getLast?.getD enabled

/-! ### One action -/

variable {m m' : Memo} {cs : List Action} {c : Action} {method method' key : Text} {a : Answer}

theorem put_of_takes (h : m.takes method key a = true) :
    m.put method key a = { m with answers := m.answers.insert (method, key) a } :=
  if_pos h

/-- An answer that is not taken changes nothing. -/
theorem put_of_not_takes (h : m.takes method key a = false) : m.put method key a = m :=
  if_neg (by simp [h])

theorem exec_append_singleton (m : Memo) (cs : List Action) (c : Action) :
    m.exec (cs ++ [c]) = c.apply (m.exec cs) := by
  rw [exec, List.foldl_append]
  rfl

theorem history_append_singleton (m : Memo) (cs : List Action) (c : Action) :
    m.history (cs ++ [c]) = m.history cs ++ [(c, c.reply (m.exec cs))] := by
  induction cs generalizing m with
  | nil => rfl
  | cons c' cs ih => exact congrArg _ (ih (c'.apply m))

/-- An event drops what was kept, or puts its entry in front. -/
theorem kept_append_singleton (h : List (Action × Reply)) (e : Action × Reply) :
    kept (h ++ [e]) = if e.1.drops then [] else (entryOf e).toList ++ kept h := by
  rw [kept, List.reverse_concat, List.takeWhile_cons]
  cases e.1.drops with
  | true => rfl
  | false =>
    simp only [Bool.not_false, if_true, List.filterMap_cons, Bool.false_eq_true, if_false]
    cases entryOf e <;> rfl

theorem isOn_append_singleton (enabled : Bool) (cs : List Action) (c : Action) :
    isOn enabled (cs ++ [c]) = c.switch?.getD (isOn enabled cs) := by
  rw [isOn, List.filterMap_append]
  cases hc : c.switch? with
  | none => simp [hc, isOn]
  | some b => simp [hc]

theorem enabled_put (m : Memo) (method key : Text) (a : Answer) :
    (m.put method key a).enabled = m.enabled := by
  unfold put
  split <;> rfl

theorem accepts_put (m : Memo) (method key : Text) (a : Answer) :
    (m.put method key a).accepts = m.accepts := by
  unfold put
  split <;> rfl

theorem enabled_apply (c : Action) (m : Memo) :
    (c.apply m).enabled = c.switch?.getD m.enabled := by
  cases c with
  | put method key a => exact enabled_put m method key a
  | get | flush | setEnabled | withHash => rfl

/-- The filter stays. -/
theorem accepts_apply (c : Action) (m : Memo) : (c.apply m).accepts = m.accepts := by
  cases c with
  | put method key a => exact accepts_put m method key a
  | get | flush | setEnabled | withHash => rfl

/-! ### The answers as a map -/

/-- Whether a memo holds the first entries of a list, and nothing else. -/
structure Holds (m : Memo) (es : List ((Text × Text) × Answer)) : Prop where
  get? : ∀ k, m.answers.get? k = es.lookup k
  keys : ∀ k, k ∈ m.answers.keys ↔ k ∈ es.map Prod.fst

theorem Holds.of_empty (h : m.answers = ∅) : m.Holds [] where
  get? k := by
    rw [h]
    rfl
  keys k := by
    rw [h]
    rfl

theorem Holds.of_answers {es : List ((Text × Text) × Answer)} (h : m.Holds es)
    (he : m'.answers = m.answers) : m'.Holds es where
  get? k := by rw [he, h.get?]
  keys k := by rw [he, h.keys]

theorem Holds.insert {es : List ((Text × Text) × Answer)} (h : m.Holds es)
    (he : m'.answers = m.answers.insert (method, key) a) :
    m'.Holds (((method, key), a) :: es) where
  get? k := by
    rw [he, OrderedMap.get?_insert, h.get?, List.lookup_cons]
    by_cases hk : k = (method, key)
    · rw [if_pos hk, beq_iff_eq.2 hk]
    · rw [if_neg hk, beq_false_of_ne hk]
  keys k := by
    rw [he, OrderedMap.keys_insert, List.map_cons, List.mem_cons, ← h.keys]
    split
    · next hm => exact ⟨.inr, fun hk => hk.elim (fun hk => hk ▸ hm) id⟩
    · rw [List.mem_append, List.mem_singleton, or_comm]

/-- So many answers as there are keys. -/
theorem Holds.size {es : List ((Text × Text) × Answer)} (h : m.Holds es) :
    m.size = (es.map Prod.fst).eraseDups.length := by
  have hperm : m.answers.keys.Perm (es.map Prod.fst).eraseDups := by
    rw [List.perm_ext_iff_of_nodup m.answers.nodup_keys (nodup_eraseDups _)]
    intro k
    rw [h.keys, List.mem_eraseDups]
  rw [← hperm.length_eq, OrderedMap.keys, List.length_map]
  rfl

/-- What an action leaves of what is held. -/
theorem Holds.apply {es : List ((Text × Text) × Answer)} (h : m.Holds es) (c : Action) :
    (c.apply m).Holds (if c.drops then [] else (entryOf (c, c.reply m)).toList ++ es) := by
  cases c with
  | put method key a =>
    cases ht : m.takes method key a with
    | true =>
      have he : entryOf (.put method key a, Action.reply m (.put method key a)) =
          some ((method, key), a) := by
        rw [Action.reply, ht]
        rfl
      rw [he]
      exact h.insert (congrArg answers (put_of_takes ht))
    | false =>
      have he : entryOf (.put method key a, Action.reply m (.put method key a)) = none := by
        rw [Action.reply, ht]
        rfl
      rw [he]
      exact h.of_answers (congrArg answers (put_of_not_takes ht))
  | get => exact h
  | setEnabled => exact h.of_answers rfl
  | flush | withHash => exact .of_empty rfl

/-- A run holds what was kept on the way. -/
theorem holds_exec (hm : m.answers = ∅) (cs : List Action) :
    (m.exec cs).Holds (kept (m.history cs)) := by
  induction cs using List.reverseRecOn with
  | nil => exact .of_empty hm
  | append_singleton cs c ih =>
    rw [exec_append_singleton, history_append_singleton, kept_append_singleton]
    exact ih.apply c

theorem enabled_exec (m : Memo) (cs : List Action) :
    (m.exec cs).enabled = isOn m.enabled cs := by
  induction cs using List.reverseRecOn with
  | nil => rfl
  | append_singleton cs c ih =>
    rw [exec_append_singleton, isOn_append_singleton, enabled_apply, ih]

theorem accepts_exec (m : Memo) (cs : List Action) : (m.exec cs).accepts = m.accepts := by
  induction cs using List.reverseRecOn with
  | nil => rfl
  | append_singleton cs c ih => rw [exec_append_singleton, accepts_apply, ih]

/-! ### Methods apart -/

/-- Whether two memos cannot be told apart by what is asked of one method. -/
structure SameUnder (method : Text) (m m' : Memo) : Prop where
  enabled : m.enabled = m'.enabled
  accepts : m.accepts = m'.accepts
  get? : ∀ key, m.answers.get? (method, key) = m'.answers.get? (method, key)

namespace SameUnder

theorem takes (h : SameUnder method m m') (method' key : Text) (a : Answer) :
    m.takes method' key a = m'.takes method' key a := by
  rw [Memo.takes, Memo.takes, h.enabled, h.accepts]

theorem apply (h : SameUnder method m m') (c : Action) :
    SameUnder method (c.apply m) (c.apply m') := by
  refine ⟨by rw [enabled_apply, enabled_apply, h.enabled],
    by rw [accepts_apply, accepts_apply, h.accepts], fun key => ?_⟩
  cases c with
  | put method' key' a =>
    have ht := h.takes method' key' a
    simp only [Action.apply]
    cases hm : m.takes method' key' a with
    | true =>
      rw [put_of_takes hm, put_of_takes (ht ▸ hm), OrderedMap.get?_insert, OrderedMap.get?_insert,
        h.get?]
    | false => rw [put_of_not_takes hm, put_of_not_takes (ht ▸ hm), h.get?]
  | get | setEnabled => exact h.get? key
  | flush | withHash => rfl

/-- An action that is about another method is not noticed. -/
theorem apply_left (h : SameUnder method m m') (hc : c.concerns method = false) :
    SameUnder method (c.apply m) m' := by
  cases c with
  | put method' key' a =>
    have hne : method' ≠ method := of_decide_eq_false hc
    refine ⟨(enabled_put m method' key' a).trans h.enabled,
      (accepts_put m method' key' a).trans h.accepts, fun key => ?_⟩
    have hk : (method, key) ≠ (method', key') := fun hk => hne (Prod.mk.inj hk).1.symm
    simp only [Action.apply]
    unfold put
    split
    · rw [OrderedMap.get?_insert, if_neg hk, h.get?]
    · exact h.get? key
  | get => exact h
  | flush | setEnabled | withHash => cases hc

theorem exec (h : SameUnder method m m') (cs : List Action) :
    SameUnder method (m.exec cs) (m'.exec (cs.filter (Action.concerns method))) := by
  induction cs generalizing m m' with
  | nil => exact h
  | cons c cs ih =>
    cases hc : c.concerns method with
    | true =>
      rw [List.filter_cons_of_pos hc]
      exact ih (h.apply c)
    | false =>
      rw [List.filter_cons_of_neg (by simp [hc])]
      exact ih (h.apply_left hc)

end SameUnder

/-- A memo is a finite map over any run. It gives the last answer that was taken for a method and a
key since answers were dropped, unless it is off. It takes an answer if it is on and the filter
accepts the answer, and is left as it is otherwise. It holds one answer for each method and key for
which one was taken, on or off. What it gives for a method does not depend on what is done about
other methods. -/
theorem exec_is_map (enabled : Bool) (hash : Text → Text)
    (accepts : Option (Text → Text → Answer → Bool)) (cs : List Action) :
    let start : Memo := { enabled, hash, accepts }
    let m := start.exec cs
    let entries := kept (start.history cs)
    (∀ method key, m.get? method key =
      if isOn enabled cs then entries.lookup (method, key) else none) ∧
    (∀ method key a,
      (Action.put method key a).reply m =
        .taken (isOn enabled cs && accepts.all fun f => f method key a) ∧
      ((Action.put method key a).reply m = .taken false → (Action.put method key a).apply m = m)) ∧
    m.size = (entries.map Prod.fst).eraseDups.length ∧
    ∀ method key, m.get? method key =
      (start.exec (cs.filter (Action.concerns method))).get? method key := by
  intro start m entries
  have hholds : m.Holds entries := holds_exec rfl cs
  have hon : m.enabled = isOn enabled cs := enabled_exec start cs
  have haccepts : m.accepts = accepts := accepts_exec start cs
  refine ⟨fun method key => ?_, fun method key a => ⟨?_, fun ht => ?_⟩, hholds.size,
    fun method key => ?_⟩
  · rw [Memo.get?, hon, hholds.get?]
  · rw [Action.reply, takes, hon, haccepts]
    cases accepts <;> rfl
  · exact put_of_not_takes (Reply.taken.inj ht)
  · have hsame : SameUnder method m (start.exec (cs.filter (Action.concerns method))) :=
      SameUnder.exec ⟨rfl, rfl, fun _ => rfl⟩ cs
    rw [Memo.get?, Memo.get?, hsame.enabled, hsame.get?]

end SqlComposer.Memo
