import SqlComposer.Proofs.SplitTopLevel
import SqlComposer.Proofs.VirtualNames
import SqlComposer.Selection.Order

/-!
# Virtual fields in clauses

The builders of clauses each cut their text in a way of their own before they look a field up: at
commas, in front of a direction, behind the last dot. Whatever is cut off, a virtual field gives the
same text in both spellings.
-/

namespace SqlComposer

open CharClass Identifier

/-! ### Terms of an ORDER BY clause -/

theorem Text.breakAt_append {needle a : Text} (hn : needle ≠ [])
    (ha : ∀ c ∈ a, needle.head? ≠ some c) (t : Text) :
    breakAt needle (a ++ t) = (breakAt needle t).map fun r => (a ++ r.1, r.2) := by
  induction a with
  | nil => simp
  | cons c cs ih =>
    obtain ⟨hc, hcs⟩ := List.forall_mem_cons.1 ha
    obtain ⟨e, es, rfl⟩ := List.exists_cons_of_ne_nil hn
    have he : (e == c) = false := beq_false_of_ne fun he => hc (by rw [he]; rfl)
    rw [List.cons_append, breakAt, List.isPrefixOf, he, Bool.false_and, if_neg Bool.false_ne_true,
      ih hcs, Option.map_map]
    rfl

namespace Order

open Model (NamesVirtual Spells)

variable {d : Dialect} {m : Model} {v f tail dir k k' : Text}

/-- The smaller of two numbers that need not be there. -/
def smaller : Option Nat → Option Nat → Option Nat
  | some i, some j => some (min i j)
  | some i, none => some i
  | none, j => j

theorem smaller_map (n : Nat) (i j : Option Nat) :
    smaller (i.map (n + ·)) (j.map (n + ·)) = (smaller i j).map (n + ·) := by
  cases i <;> cases j <;> simp [smaller, Nat.add_min_add_left]

/-- The place of the first direction in a text in lower case. -/
def directionPlace (lower : Text) : Option Nat :=
  smaller ((Text.breakAt " asc" lower).map fun r => r.1.length)
    ((Text.breakAt " desc" lower).map fun r => r.1.length)

theorem cutDirection_eq (key : Text) : cutDirection key =
    (directionPlace (Text.asciiLower key)).map fun n => (key.take n, Text.trim (key.drop n)) := rfl

theorem directionPlace_append {a : Text} (ha : ∀ c ∈ a, isBlank c = false) (t : Text) :
    directionPlace (a ++ t) = (directionPlace t).map (a.length + ·) := by
  have hbreak : ∀ w : Text, (Text.breakAt (' ' :: w) (a ++ t)).map (fun r => r.1.length) =
      ((Text.breakAt (' ' :: w) t).map fun r => r.1.length).map (a.length + ·) := by
    intro w
    have hhead : ∀ c ∈ a, (' ' :: w).head? ≠ some c := by
      rintro c hc ⟨⟩
      cases ha _ hc
    rw [Text.breakAt_append (List.cons_ne_nil _ _) hhead, Option.map_map, Option.map_map]
    simp [Function.comp_def]
  have hasc : (Text.breakAt " asc" (a ++ t)).map (fun r => r.1.length) = _ := hbreak "asc"
  have hdesc : (Text.breakAt " desc" (a ++ t)).map (fun r => r.1.length) = _ := hbreak "desc"
  rw [directionPlace, hasc, hdesc, smaller_map]
  rfl

theorem cutDirection_of_place {a : Text} (h : directionPlace (Text.asciiLower (a ++ tail)) =
    (directionPlace (Text.asciiLower tail)).map (a.length + ·)) :
    cutDirection (a ++ tail) = (cutDirection tail).map fun r => (a ++ r.1, r.2) := by
  rw [cutDirection_eq, cutDirection_eq, h, Option.map_map, Option.map_map]
  congr 1
  funext n
  simp only [Function.comp_apply, List.take_length_add_append, List.drop_length_add_append]

/-- A direction is looked for behind the field. -/
theorem cutDirection_append (hf : ∀ c ∈ f, isBlank c = false) (tail : Text) :
    cutDirection (f ++ tail) = (cutDirection tail).map fun r => (f ++ r.1, r.2) := by
  have hlower : ∀ c ∈ Text.asciiLower f, isBlank c = false := by
    intro c hc
    obtain ⟨a, ha, rfl⟩ := List.mem_map.1 hc
    rw [Key.isBlank_toLower, hf a ha]
  have hlength : (Text.asciiLower f).length = f.length := List.length_map _
  refine cutDirection_of_place ?_
  rw [Text.asciiLower_append, directionPlace_append hlower, hlength]

/-- What may stand behind a field in a term: blanks and a direction, or blanks alone. -/
def IsDirection (tail : Text) : Prop :=
  Text.blank ((cutDirection tail).getD (tail, [])).1 = true

instance (tail : Text) : Decidable (IsDirection tail) :=
  inferInstanceAs (Decidable (_ = true))

/-- Whether two keys are the same but for the spelling of a virtual field. -/
inductive KeyRespells (m : Model) (v : Text) : Text → Text → Prop where
  | same (k : Text) : KeyRespells m v k k
  | field {f f' tail : Text} (hf : m.Spells v f) (hf' : m.Spells v f') (ht : IsDirection tail) :
      KeyRespells m v (f ++ tail) (f' ++ tail)

/-- Whether two items are the same but for the spellings of a virtual field between their commas. -/
inductive Respells (m : Model) (v : Text) : Order → Order → Prop where
  | same (item : Order) : Respells m v item item
  | field {k k' : Text} (h : List.Forall₂ (KeyRespells m v) (keyParts k) (keyParts k')) :
      Respells m v (.field k) (.field k')
  | directed {k k' : Text} (dir : Text)
      (h : List.Forall₂ (KeyRespells m v) (keyParts k) (keyParts k')) :
      Respells m v (.directed k dir) (.directed k' dir)

/-- A key is cut behind the field. -/
theorem getD_cutDirection_append (hf : ∀ c ∈ f, isBlank c = false) (tail dir : Text) :
    (cutDirection (f ++ tail)).getD (f ++ tail, dir) =
      (f ++ ((cutDirection tail).getD (tail, dir)).1,
        ((cutDirection tail).getD (tail, dir)).2) := by
  rw [cutDirection_append hf]
  cases cutDirection tail <;> rfl

theorem IsDirection.blank (h : IsDirection tail) (dir : Text) :
    ∀ c ∈ ((cutDirection tail).getD (tail, dir)).1, isBlank c = true := by
  rw [IsDirection] at h
  cases hc : cutDirection tail with
  | none =>
    rw [hc] at h
    exact List.all_eq_true.1 h
  | some r =>
    rw [hc] at h
    exact List.all_eq_true.1 h

/-- A term is written alike in all spellings of its virtual field. -/
theorem writeTerm_spelt (d : Dialect) (hv : m.NamesVirtual v) {f f' : Text} (hf : m.Spells v f)
    (hf' : m.Spells v f') (ht : IsDirection tail) (dir : Text) :
    writeTerm d (some m) (.key (f ++ tail) dir) = writeTerm d (some m) (.key (f' ++ tail) dir) := by
  obtain ⟨sql, hsql⟩ := Spells.exists_virtualField hv
  have hkey : ∀ f, m.Spells v f → writeKey d (some m) f = writeKey d (some m) v := by
    intro f hf
    have hvirtual : ∀ f, m.Spells v f → ((some m).bind fun m => m.virtualField f) = some sql := hsql
    rw [writeKey, writeKey, hvirtual f hf, hvirtual v (.inl rfl)]
  have hterm : ∀ f, m.Spells v f → writeTerm d (some m) (.key (f ++ tail) dir) =
      writeKey d (some m) v >>= fun written => pure (some (Text.trimEnd
        (written ++ " " ++ Text.trim ((cutDirection tail).getD (tail, dir)).2))) := by
    intro f hf
    have hp := hf.isPath hv
    have htrim := hp.tight.trim_append (ht.blank dir)
    have hne : f.isEmpty = false := List.isEmpty_eq_false_iff.2 hp.ne_nil
    rw [writeTerm, getD_cutDirection_append fun c hc => isBlank_of_isPathChar (hp.isPathChar hc)]
    simp only [htrim, hne, hkey f hf]
    rfl
  rw [hterm f hf, hterm f' hf']

theorem KeyRespells.writeTerm_eq (d : Dialect) (hv : m.NamesVirtual v) (dir : Text)
    (h : KeyRespells m v k k') :
    writeTerm d (some m) (.key k dir) = writeTerm d (some m) (.key k' dir) := by
  cases h with
  | same => rfl
  | field hf hf' ht => exact writeTerm_spelt d hv hf hf' ht dir

theorem map_writeTerm_of_forall₂ (d : Dialect) (hv : m.NamesVirtual v) (dir : Text)
    {ks ks' : List Text} (h : List.Forall₂ (KeyRespells m v) ks ks') :
    (ks.map fun k => writeTerm d (some m) (.key k dir)) =
      ks'.map fun k => writeTerm d (some m) (.key k dir) := by
  induction h with
  | nil => rfl
  | cons hk _ ih => rw [List.map_cons, List.map_cons, hk.writeTerm_eq d hv, ih]

theorem Respells.map_writeTerm (d : Dialect) (hv : m.NamesVirtual v) (dir : Text)
    {item item' : Order} (h : Respells m v item item') :
    (terms dir item).map (writeTerm d (some m)) = (terms dir item').map (writeTerm d (some m)) := by
  cases h with
  | same => rfl
  | field h =>
    rw [terms, terms, List.map_map, List.map_map]
    exact map_writeTerm_of_forall₂ d hv dir h
  | directed own h =>
    rw [terms, terms, List.map_map, List.map_map]
    exact map_writeTerm_of_forall₂ d hv own h

end Order

/-! ### Clauses -/

/-- A path is the only piece of itself. -/
theorem isPiece_of_isPath (d : Dialect) {f : Text} (hf : IsPath f) : IsPiece d f where
  ne_nil := hf.ne_nil
  trimmed := hf.trim
  undivided us c vs hts hc := by
    have hm := Key.kind_of_mem (d := d) hf (u := c) (by simp [hts])
    rw [hc] at hm
    exact absurd hm (by decide)

namespace Source

open Model (NamesVirtual Spells)

variable {m : Model} {v : Text}

theorem eval_conditions_spelt (s : Source) (hv : m.NamesVirtual v) {c c' : Condition}
    (h : c.Respells m v c') (quoting whereClause : Bool) :
    s.eval (s.conditions c quoting whereClause (some m)) =
      s.eval (s.conditions c' quoting whereClause (some m)) :=
  h.eval_clause ⟨s, quoting, some m⟩ rfl hv _

theorem eval_having_spelt (s : Source) (hv : m.NamesVirtual v) {c c' : Condition}
    (h : c.Respells m v c') (quoting : Bool) :
    s.eval (s.having (some c) quoting (some m)) = s.eval (s.having (some c') quoting (some m)) := by
  rw [having, having, h.isEmpty]
  cases c'.isEmpty with
  | true => rfl
  | false => exact h.eval_clause ⟨s, quoting, some m⟩ rfl hv _

/-- An ORDER BY clause of the terms that are not blank. -/
def orderClause (written : List (Option Text)) : Text :=
  let terms := written.filterMap id
  if terms.isEmpty then [] else " ORDER BY " ++ Text.join ", " terms

theorem eval_order (s : Source) (items : List Order) (direction : Text) (model : Option Model) :
    s.eval (s.order items direction model) =
      orderClause (((items.flatMap (Order.terms direction)).map
        (Order.writeTerm s.dialect model)).map s.eval) := by
  rw [order, Order.collect_eq, eval_bind, eval_each, List.map_map]
  rfl

theorem eval_order_spelt (s : Source) (hv : m.NamesVirtual v) {items items' : List Order}
    (h : List.Forall₂ (Order.Respells m v) items items') (direction : Text) :
    s.eval (s.order items direction (some m)) = s.eval (s.order items' direction (some m)) := by
  have hterms : (items.flatMap (Order.terms direction)).map (Order.writeTerm s.dialect (some m)) =
      (items'.flatMap (Order.terms direction)).map (Order.writeTerm s.dialect (some m)) := by
    induction h with
    | nil => rfl
    | cons hi _ ih =>
      rw [List.flatMap_cons, List.flatMap_cons, List.map_append, List.map_append,
        hi.map_writeTerm s.dialect hv, ih]
  rw [eval_order, eval_order, hterms]

/-- A field of a GROUP BY clause, in front of the quotes. -/
def groupField (model : Option Model) (f : Text) : Text :=
  match model.bind fun m => m.virtualField f with
  | some sql => "(" ++ sql ++ ")"
  | none => f

theorem group_eq (s : Source) (items : List Text) (model : Option Model) :
    s.group items model =
      let fields := (items.flatMap (Token.splitTopLevel s.dialect)).map (groupField model)
      if fields.isEmpty then []
      else " GROUP BY ".toList ++ quoteFields s.dialect (Text.join ", " fields) :=
  rfl

theorem map_groupField_spelt (hv : m.NamesVirtual v) {ps ps' : List Text}
    (h : List.Forall₂ (m.Respells v) ps ps') :
    ps.map (groupField (some m)) = ps'.map (groupField (some m)) := by
  obtain ⟨sql, hsql⟩ := Spells.exists_virtualField hv
  have hfield : ∀ f, m.Spells v f → groupField (some m) f = "(" ++ sql ++ ")" := fun f hf => by
    rw [groupField, Option.bind_some, hsql f hf]
  induction h with
  | nil => rfl
  | cons hp _ ih =>
    rw [List.map_cons, List.map_cons, ih]
    rcases hp with rfl | ⟨hf, hf'⟩
    · rfl
    · rw [hfield _ hf, hfield _ hf']

theorem group_spelt (s : Source) (hv : m.NamesVirtual v) {items items' : List Text}
    (h : List.Forall₂ (m.Respells v) (items.flatMap (Token.splitTopLevel s.dialect))
      (items'.flatMap (Token.splitTopLevel s.dialect))) :
    s.group items (some m) = s.group items' (some m) := by
  rw [group_eq, group_eq, map_groupField_spelt hv h]

theorem calculate_spelt (s : Source) (hv : m.NamesVirtual v) {f f' : Text} (hf : m.Spells v f)
    (hf' : m.Spells v f') (function : Text) (name : Option Text) :
    s.calculate m function (some f) name = s.calculate m function (some f') name := by
  obtain ⟨sql, hsql⟩ := Spells.exists_virtualField hv
  have hname : ∀ f, m.Spells v f → defaultAggregateName function f =
      if Text.sameLetters function "count" then "count".toList else v := by
    intro f hf
    have hstar : (f == ['*']) = false := beq_false_of_ne fun he =>
      (hf.isPath hv).not_mem (c := '*') (by decide) (by simp [he])
    rw [defaultAggregateName, hstar, if_neg Bool.false_ne_true, hf.afterLastDot hv]
  simp only [calculate, Option.getD_some, hsql f hf, hsql f' hf', hname f hf, hname f' hf']

/-- It is the same for every clause whether a virtual field is qualified by the alias of its model
or not: in conditions at any depth and under any operator, negations among them, unless a list of
one value is compared; in terms of an order with a direction or without; between the commas of a
group; and in an aggregate, which goes by the same name. A spelling alone is one term and one
piece. -/
theorem virtualField_spellings (s : Source) {m : Model} {v : Text} (hv : m.NamesVirtual v) :
    (∀ c c', c.Respells m v c' → ∀ quoting,
      (∀ whereClause, s.eval (s.conditions c quoting whereClause (some m)) =
        s.eval (s.conditions c' quoting whereClause (some m))) ∧
      s.eval (s.having (some c) quoting (some m)) = s.eval (s.having (some c') quoting (some m))) ∧
    (∀ items items', List.Forall₂ (Order.Respells m v) items items' → ∀ direction,
      s.eval (s.order items direction (some m)) = s.eval (s.order items' direction (some m))) ∧
    (∀ items items', List.Forall₂ (m.Respells v) (items.flatMap (Token.splitTopLevel s.dialect))
        (items'.flatMap (Token.splitTopLevel s.dialect)) →
      s.group items (some m) = s.group items' (some m)) ∧
    (∀ f f', m.Spells v f → m.Spells v f' → ∀ function name,
      s.eval (s.calculate m function (some f) name) =
        s.eval (s.calculate m function (some f') name)) ∧
    ∀ f, m.Spells v f → Token.splitTopLevel s.dialect f = [f] ∧
      ∀ tail, ',' ∉ tail → Order.keyParts (f ++ tail) = [f ++ tail] := by
  refine ⟨fun c c' h quoting => ⟨s.eval_conditions_spelt hv h quoting, ?_⟩,
    fun items items' h => s.eval_order_spelt hv h, fun items items' h => s.group_spelt hv h,
    fun f f' hf hf' function name => ?_, fun f hf => ⟨?_, fun tail ht => ?_⟩⟩
  · exact s.eval_having_spelt hv h quoting
  · rw [s.calculate_spelt hv hf hf']
  · exact (isPiece_of_isPath s.dialect (hf.isPath hv)).splitTopLevel_eq
  · have hcomma : ',' ∉ f := (hf.isPath hv).not_mem (by decide)
    exact Order.keyParts_of_not_mem (by simp [hcomma, ht])

theorem virtualField_spellings_posts :
    let s : Source := {}
    let posts : Model := { name := "Post", virtualFields := .ofList [("two", "Post.x + 1")] }
    let having (f : Text) : Text :=
      s.eval (s.having (some (.entries [(f ++ " NOT", .compare (.many []))])) true (some posts))
    let order (f : Text) : Text := s.eval (s.order [.field (f ++ "  desc")] "ASC" (some posts))
    let group (f : Text) : Text := s.group [f] (some posts)
    let largest (f : Text) : Text := s.eval (s.calculate posts "max" (some f) none)
    posts.NamesVirtual "two" ∧
      having "two" = " HAVING NOT ((\x60Post\x60.\x60x\x60 + 1) IS NULL)".toList ∧
      having "Post.two" = having "two" ∧
      order "two" = " ORDER BY (\x60Post\x60.\x60x\x60 + 1) desc".toList ∧
      order "Post.two" = order "two" ∧
      group "two" = " GROUP BY (\x60Post\x60.\x60x\x60 + 1)".toList ∧
      group "Post.two" = group "two" ∧
      largest "two" = "MAX(\x60Post\x60.\x60x\x60 + 1) AS \x60two\x60".toList ∧
      largest "Post.two" = largest "two" := by
  intro s posts having order group largest
  have hv : posts.NamesVirtual "two" := ⟨by decide, by decide, by decide, by decide⟩
  have hf : posts.Spells "two" "two" := .inl rfl
  have hf' : posts.Spells "two" "Post.two" := .inr rfl
  obtain ⟨hcondition, horder, hgroup, hlargest, hparts⟩ := virtualField_spellings s hv
  have htail : Key.Tail (" ".toList ++ "NOT".toList) :=
    .operator (by simp) (by simp [isBlank]) (.inl (by decide))
  have hmany : ∀ w, Comparand.many [] ≠ .many [w] := by simp
  have hkeys : List.Forall₂ (Order.KeyRespells posts "two")
      (Order.keyParts "Post.two  desc") (Order.keyParts "two  desc") := by
    have hdesc : ',' ∉ "  desc".toList := by decide
    rw [show "Post.two  desc".toList = "Post.two".toList ++ "  desc".toList from rfl,
      show "two  desc".toList = "two".toList ++ "  desc".toList from rfl,
      (hparts _ hf').2 _ hdesc, (hparts _ hf).2 _ hdesc]
    exact .cons (.field hf' hf (by decide)) .nil
  have hpieces : List.Forall₂ (posts.Respells "two")
      (["Post.two".toList].flatMap (Token.splitTopLevel s.dialect))
      (["two".toList].flatMap (Token.splitTopLevel s.dialect)) := by
    rw [List.flatMap_singleton, List.flatMap_singleton, (hparts _ hf').1, (hparts _ hf).1]
    exact .cons (.inr ⟨hf', hf⟩) .nil
  refine ⟨hv, by decide +kernel, ?_, by decide +kernel, ?_, by decide +kernel, ?_,
    by decide +kernel, ?_⟩
  · exact (hcondition _ _ (.entries (.compare hf' hf htail hmany .nil)) true).2
  · exact horder _ _ (.cons (.field hkeys) .nil) _
  · exact hgroup _ _ hpieces
  · exact hlargest _ _ hf' hf _ _

end Source

end SqlComposer
