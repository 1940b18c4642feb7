import SqlComposer.Model
import SqlComposer.Source

/-!
# Ordering and grouping

The ORDER BY and GROUP BY clauses, and selected aggregates. Virtual fields are replaced by their
expressions.
-/

namespace SqlComposer

open CharClass

namespace Order

/-- A field in ascending order. -/
def asc (key : Text) : Order :=
  .directed key "ASC"

/-- A field in descending order. -/
def desc (key : Text) : Order :=
  .directed key "DESC"

/-- A term of a clause: finished SQL, or a key and the direction it has unless it says its own. -/
inductive Term where
  | finished (sql : Text)
  | key (key direction : Text)

/-- Whether there is a comma between the first opening and the last closing parenthesis. Such a key
is not taken apart. -/
def hasGroupedComma (key : Text) : Bool :=
  match Text.cutFirst (· == '(') key with
  | some (_, rest) =>
    match Text.cutLast (· == ')') rest with
    | some (inner, _) => inner.contains ','
    | none => false
  | none => false

/-- The keys between the commas of a key. -/
def keyParts (key : Text) : List Text :=
  if key.contains ',' && !hasGroupedComma key then (Text.splitBy (· == ',') key).map Text.trim
  else [key]

/-- The terms of an item, in the order in which they are written. -/
def terms (direction : Text) : Order → List Term
  | .expression sql => [.finished sql]
  | .field key => (keyParts key).map fun k => .key k direction
  | .directed key dir => (keyParts key).map fun k => .key k dir

/-! ### Taking items apart -/

/-- Whether a key is taken apart at its commas. -/
def isDivided (key : Text) : Bool :=
  key.contains ',' && !hasGroupedComma key

theorem keyParts_of_isDivided {key : Text} (h : isDivided key = true) :
    keyParts key = (Text.splitBy (· == ',') key).map Text.trim :=
  if_pos h

theorem keyParts_of_not_isDivided {key : Text} (h : isDivided key = false) : keyParts key = [key] :=
  if_neg (Bool.eq_false_iff.1 h)

/-- The parts of a key that is taken apart have no commas. -/
theorem not_mem_of_mem_keyParts {key k : Text} (h : isDivided key = true) (hk : k ∈ keyParts key) :
    ',' ∉ k := by
  rw [keyParts_of_isDivided h] at hk
  obtain ⟨w, hw, rfl⟩ := List.mem_map.1 hk
  intro hc
  have := Text.eq_false_of_mem_splitBy hw ',' ((Text.trim_sublist w).subset hc)
  cases this

theorem isDivided_of_not_mem {key : Text} (h : ',' ∉ key) : isDivided key = false := by
  have hc : key.contains ',' = false := Bool.eq_false_iff.2 fun hc => h (List.contains_iff_mem.1 hc)
  rw [isDivided, hc, Bool.false_and]

/-- A key without commas is the only one. -/
theorem keyParts_of_not_mem {key : Text} (h : ',' ∉ key) : keyParts key = [key] :=
  keyParts_of_not_isDivided (isDivided_of_not_mem h)

/-- How many rounds an item takes: one, and one for each of its parts if it is taken apart. -/
def rounds : Order → Nat
  | .expression _ => 1
  | .field key | .directed key _ => if isDivided key then (keyParts key).length + 1 else 1

/-- How many rounds a row of items takes. -/
def totalRounds : List Order → Nat
  | [] => 0
  | item :: items => item.rounds + totalRounds items

theorem totalRounds_append_of_one {items : List Order} (h : ∀ item ∈ items, item.rounds = 1)
    (rest : List Order) : totalRounds (items ++ rest) = items.length + totalRounds rest := by
  induction items with
  | nil => exact (Nat.zero_add _).symm
  | cons item items ih =>
    obtain ⟨hitem, hitems⟩ := List.forall_mem_cons.1 h
    rw [List.cons_append, totalRounds, hitem, ih hitems, List.length_cons]
    omega

/-- The items of a clause that are left, the next one first, and the terms that the others came
to. -/
structure Worklist where
  pending : List Order
  terms : List Term := []

namespace Worklist

/-- With a key next, its parts come in its place if it is taken apart. Otherwise it is a term. -/
def takeKey (key direction : Text) (rest : List Order) (ts : List Term) : Worklist :=
  if isDivided key then ⟨(keyParts key).map (.directed · direction) ++ rest, ts⟩
  else ⟨rest, ts ++ [.key key direction]⟩

/-- The worklist after one round, if there is an item left. -/
def next? (direction : Text) : Worklist → Option Worklist
  | ⟨[], _⟩ => none
  | ⟨.expression sql :: rest, ts⟩ => some ⟨rest, ts ++ [.finished sql]⟩
  | ⟨.field key :: rest, ts⟩ => some (takeKey key direction rest ts)
  | ⟨.directed key dir :: rest, ts⟩ => some (takeKey key dir rest ts)

/-- How many rounds are left. -/
def rounds (w : Worklist) : Nat :=
  totalRounds w.pending

theorem rounds_takeKey (key direction : Text) (rest : List Order) (ts : List Term) :
    (takeKey key direction rest ts).rounds + 1 =
      (if isDivided key then (keyParts key).length + 1 else 1) + totalRounds rest := by
  cases hd : isDivided key with
  | false => simp [takeKey, rounds, hd, Nat.add_comm]
  | true =>
    have hone : ∀ item ∈ (keyParts key).map (Order.directed · direction), item.rounds = 1 := by
      intro item hitem
      obtain ⟨k, hk, rfl⟩ := List.mem_map.1 hitem
      simp [Order.rounds, isDivided_of_not_mem (not_mem_of_mem_keyParts hd hk)]
    simp only [takeKey, hd, if_true, rounds, totalRounds_append_of_one hone, List.length_map]
    omega

/-- Each round leaves one less. -/
theorem rounds_next? {direction : Text} {w w' : Worklist} (h : w.next? direction = some w') :
    w'.rounds + 1 = w.rounds := by
  match w, h with
  | ⟨.expression sql :: rest, ts⟩, h =>
    cases h
    simp [rounds, totalRounds, Order.rounds, Nat.add_comm]
  | ⟨.field key :: rest, ts⟩, h =>
    cases h
    exact (rounds_takeKey key direction rest ts).trans (by simp [rounds, totalRounds, Order.rounds])
  | ⟨.directed key dir :: rest, ts⟩, h =>
    cases h
    exact (rounds_takeKey key dir rest ts).trans (by simp [rounds, totalRounds, Order.rounds])

/-- The terms when no item is left. -/
def run (direction : Text) (w : Worklist) : List Term :=
  match _h : w.next? direction with
  | none => w.terms
  | some w' => w'.run direction
termination_by w.rounds
decreasing_by
  have := rounds_next? _h
  omega

/-- The terms so far and those of the items that are left. -/
def allTerms (direction : Text) (w : Worklist) : List Term :=
  w.terms ++ w.pending.flatMap (Order.terms direction)

theorem allTerms_takeKey (direction key dir : Text) (rest : List Order) (ts : List Term) :
    (takeKey key dir rest ts).allTerms direction =
      ts ++ ((keyParts key).map fun k => .key k dir) ++ rest.flatMap (Order.terms direction) := by
  cases hd : isDivided key with
  | false => simp [takeKey, allTerms, hd, keyParts_of_not_isDivided hd]
  | true =>
    have hone : ∀ k ∈ keyParts key, Order.terms direction (.directed k dir) = [.key k dir] := by
      intro k hk
      rw [Order.terms, keyParts_of_not_mem (not_mem_of_mem_keyParts hd hk), List.map_singleton]
    have hparts : ((keyParts key).map (.directed · dir)).flatMap (Order.terms direction) =
        (keyParts key).map fun k => .key k dir := by
      rw [List.flatMap_map, List.flatMap_def, List.map_congr_left hone, ← List.flatMap_def,
        ← List.map_eq_flatMap]
    simp [takeKey, allTerms, hd, hparts]

/-- A round moves no term. -/
theorem allTerms_next? {direction : Text} {w w' : Worklist} (h : w.next? direction = some w') :
    w'.allTerms direction = w.allTerms direction := by
  match w, h with
  | ⟨.expression sql :: rest, ts⟩, h =>
    cases h
    simp [allTerms, Order.terms]
  | ⟨.field key :: rest, ts⟩, h =>
    cases h
    exact (allTerms_takeKey direction key direction rest ts).trans (by simp [allTerms, Order.terms])
  | ⟨.directed key dir :: rest, ts⟩, h =>
    cases h
    exact (allTerms_takeKey direction key dir rest ts).trans (by simp [allTerms, Order.terms])

theorem pending_of_next?_eq_none {direction : Text} {w : Worklist} (h : w.next? direction = none) :
    w.pending = [] := by
  match w, h with
  | ⟨[], _⟩, _ => rfl

/-- What is left comes behind the terms, item by item. -/
theorem run_eq (direction : Text) (w : Worklist) : w.run direction = w.allTerms direction := by
  fun_induction run direction w with
  | case1 w h => simp [allTerms, pending_of_next?_eq_none h]
  | case2 w w' h ih => rw [ih, allTerms_next? h]

end Worklist

/-- The terms of a row of items. -/
def collect (direction : Text) (items : List Order) : List Term :=
  Worklist.run direction ⟨items, []⟩

theorem collect_eq (direction : Text) (items : List Order) :
    collect direction items = items.flatMap (terms direction) :=
  Worklist.run_eq direction ⟨items, []⟩

/-! ### Writing terms -/

/-- A key without the direction it ends in, and that direction with all that follows it. -/
def cutDirection (key : Text) : Option (Text × Text) :=
  let lower := Text.asciiLower key
  let at? (d : Text) := (Text.breakAt d lower).map fun r => r.1.length
  let place :=
    match at? " asc", at? " desc" with
    | some i, some j => some (min i j)
    | some i, none => some i
    | none, j => j
  place.map fun n => (key.take n, Text.trim (key.drop n))

/-- A trimmed key: the expression of a virtual field in parentheses, a qualified name or a name. -/
def writeKey (d : Dialect) (model : Option Model) (key : Text) : Render Text :=
  let key :=
    match model.bind fun m => m.virtualField key with
    | some sql => "(" ++ Identifier.quoteFields d sql ++ ")"
    | none => key
  let key := if key.head? != some '.' && key.contains '.' then Identifier.quoteFields d key else key
  if key.any isBlank || key.contains '.' then pure key else Render.ask key

/-- A term as it is written, unless it is blank. -/
def writeTerm (d : Dialect) (model : Option Model) : Term → Render (Option Text)
  | .finished sql => pure (some sql)
  | .key key direction =>
    let parts := (cutDirection key).getD (key, direction)
    let key := Text.trim parts.1
    if key.isEmpty then pure none
    else do
      let written ← writeKey d model key
      pure (some (Text.trimEnd (written ++ " " ++ Text.trim parts.2)))

end Order

/-- The name of an aggregate that nothing else names. -/
def defaultAggregateName (function field : Text) : Text :=
  if Text.sameLetters function "count" then "count"
  else if field == ['*'] then Text.asciiLower function
  else Text.afterLastDot field

namespace Source

/-- An ORDER BY clause, empty without terms. -/
def order (s : Source) (items : List Order) (direction : Text) (model : Option Model) :
    Render Text := do
  let terms := Order.collect direction items
  let written ← Render.each (Order.writeTerm s.dialect model) terms
  let terms := written.filterMap id
  pure (if terms.isEmpty then [] else " ORDER BY " ++ Text.join ", " terms)

/-- A GROUP BY clause, empty without fields. -/
def group (s : Source) (items : List Text) (model : Option Model) : Text :=
  let fields := (items.flatMap (Token.splitTopLevel s.dialect)).map fun f =>
    match model.bind fun m => m.virtualField f with
    | some sql => "(" ++ sql ++ ")"
    | none => f
  if fields.isEmpty then []
  else " GROUP BY " ++ Identifier.quoteFields s.dialect (Text.join ", " fields)

/-- An aggregate of a field under a name; of all rows if no field is given. -/
def calculate (s : Source) (m : Model) (function : Text) (field name : Option Text) :
    Render Text := do
  let field := field.getD ['*']
  let argument ←
    match m.virtualField field with
    | some sql => pure (Identifier.quoteFields s.dialect sql)
    | none => Render.ask field
  let label ← Render.ask (name.getD (defaultAggregateName function field))
  pure (Text.asciiUpper function ++ "(" ++ argument ++ ") AS " ++ label)

end Source

end SqlComposer
