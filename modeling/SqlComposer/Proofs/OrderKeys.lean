import SqlComposer.Proofs.VirtualClauses

/-!
# Keys of an ORDER BY clause

A key is taken apart at its commas, unless one stands between an opening and a closing parenthesis;
then all of it is one term. Other clauses are cut at the commas outside parentheses, wherever
further ones are. A key whose commas are all outside, or all inside, comes to the same terms.
-/

namespace SqlComposer

open CharClass

/-! ### Commas between parentheses -/

/-- Parentheses are open only behind one that opens. -/
theorem Token.exists_lParen {us : List Token} (h : us.foldl depthAfter 0 ≠ 0) :
    ∃ u ∈ us, u.kind = .lParen := by
  by_contra hn
  push Not at hn
  refine h ?_
  clear h
  induction us with
  | nil => rfl
  | cons u us ih =>
    obtain ⟨hu, hus⟩ := List.forall_mem_cons.1 hn
    have hk : depthAfter 0 u = 0 := by
      cases hkind : u.kind <;> simp_all [depthAfter]
    rw [List.foldl_cons, hk, ih hus]

namespace Order

open Token (tokenize textOf depthAfter)

variable {d : Dialect} {key : Text}

/-- A comma is grouped if it stands behind an opening and in front of a closing parenthesis, whether
these belong together or not. -/
theorem hasGroupedComma_iff : hasGroupedComma key = true ↔ ['(', ',', ')'].Sublist key := by
  constructor
  · intro h
    rw [hasGroupedComma] at h
    split at h
    · next front rest hfirst =>
      split at h
      · next inner back hlast =>
        obtain ⟨o, ho, -, rfl⟩ := Text.eq_append_of_cutFirst hfirst
        obtain ⟨c, hc, -, rfl⟩ := Text.eq_append_of_cutLast hlast
        obtain rfl := beq_iff_eq.1 ho
        obtain rfl := beq_iff_eq.1 hc
        have hcomma : [','].Sublist inner :=
          List.singleton_sublist.2 (List.contains_iff_mem.1 h)
        have hclose : [')'].Sublist (')' :: back) := List.singleton_sublist.2 List.mem_cons_self
        exact ((hcomma.append hclose).cons_cons '(').trans (List.sublist_append_right front _)
      · cases h
    · cases h
  · intro h
    obtain ⟨x, y, rfl, hx, hy⟩ := List.cons_sublist_iff.1 h
    obtain ⟨front, u, rfl, hfront⟩ := List.eq_append_cons_of_mem hx
    obtain ⟨v, w, rfl, hv, hw⟩ := List.cons_sublist_iff.1 hy
    -- The first that opens stands in front of the comma, and the last that closes behind it.
    have hfirst : Text.cutFirst (· == '(') (front ++ '(' :: u ++ (v ++ w)) =
        some (front, u ++ (v ++ w)) := by
      rw [List.append_assoc, List.cons_append]
      exact Text.cutFirst_append (fun e he => beq_false_of_ne fun h => hfront (h ▸ he)) rfl
    obtain ⟨⟨inner, back⟩, hcut⟩ : ∃ r, Text.cutLast (· == ')') w = some r := by
      refine Option.ne_none_iff_exists'.1 fun hnone => ?_
      have := Text.cutLast_eq_none_iff.1 hnone ')' (List.singleton_sublist.1 hw)
      cases this
    obtain ⟨c, hc, hback, rfl⟩ := Text.eq_append_of_cutLast hcut
    have hlast : Text.cutLast (· == ')') (u ++ (v ++ (inner ++ c :: back))) =
        some (u ++ (v ++ inner), back) := by
      rw [← List.append_assoc v, ← List.append_assoc u]
      exact Text.cutLast_append hc hback
    rw [hasGroupedComma, hfirst]
    simp only [hlast]
    simp [hv]

/-- Blanks around a key do not matter. -/
theorem hasGroupedComma_trim (h : hasGroupedComma key = true) :
    hasGroupedComma (Text.trim key) = true := by
  have hblank : ∀ c ∈ ['(', ',', ')'], isBlank c = false := by simp [isBlank]
  exact hasGroupedComma_iff.2 (Text.sublist_trim hblank (hasGroupedComma_iff.1 h))

/-! ### Commas of tokens -/

/-- Whether a comma stands inside parentheses, and one closes behind it. -/
def EnclosesComma (d : Dialect) (key : Text) : Prop :=
  ∃ us c vs, tokenize d key = us ++ c :: vs ∧ c.kind = .comma ∧ us.foldl depthAfter 0 ≠ 0 ∧
    ∃ v ∈ vs, v.kind = .rParen

theorem EnclosesComma.hasGroupedComma (h : EnclosesComma d key) :
    Order.hasGroupedComma key = true := by
  obtain ⟨us, c, vs, hts, hc, hdepth, v, hv, hvclose⟩ := h
  have hends : ∀ u ∈ us ++ c :: vs, ∃ after, u.Ends d after := fun u hu =>
    (hts ▸ Token.separate_tokenize d key).ends_of_mem hu
  obtain ⟨o, ho, hoopen⟩ := Token.exists_lParen hdepth
  obtain ⟨_, hoends⟩ := hends o (by simp [ho])
  obtain ⟨_, hcends⟩ := hends c (by simp)
  obtain ⟨_, hvends⟩ := hends v (by simp [hv])
  have hfront : '(' ∈ textOf us :=
    List.mem_flatMap.2 ⟨o, ho, by rw [hoends.eq_sign hoopen rfl]; exact List.mem_cons_self⟩
  have hback : ')' ∈ textOf vs :=
    List.mem_flatMap.2 ⟨v, hv, by rw [hvends.eq_sign hvclose rfl]; exact List.mem_cons_self⟩
  rw [hasGroupedComma_iff, ← Token.textOf_tokenize d key, hts, hcends.eq_sign hc rfl,
    Token.textOf_append, Token.textOf_cons]
  exact (List.singleton_sublist.2 hfront).append
    ((List.Sublist.refl [',']).append (List.singleton_sublist.2 hback))

end Order

namespace Token

variable {d : Dialect}

/-- Whether all commas in tokens that begin at a depth of parentheses are tokens at depth zero, none
of them in a string or a quoted name. -/
def CommasOutside (k : Nat) : List Token → Prop
  | [] => True
  | t :: ts => (',' ∈ t.text → t.kind = .comma ∧ k = 0) ∧ CommasOutside (depthAfter k t) ts

instance decidableCommasOutside : (k : Nat) → (ts : List Token) → Decidable (CommasOutside k ts)
  | _, [] => .isTrue trivial
  | k, t :: ts =>
    have := decidableCommasOutside (depthAfter k t) ts
    inferInstanceAs (Decidable
      ((',' ∈ t.text → t.kind = .comma ∧ k = 0) ∧ CommasOutside (depthAfter k t) ts))

/-- Then a fragment is cut at every comma. -/
theorem splitFrom_of_commasOutside {ts : List Token} (hs : Separate d ts []) {k : Nat}
    (h : CommasOutside k ts) {p : Text} (hp : ',' ∉ p) :
    splitFrom k p ts = Text.splitBy (· == ',') (p ++ textOf ts) := by
  have hwhole : ∀ t : Text, ',' ∉ t → Text.splitBy (· == ',') t = [t] := by
    intro t ht
    have hc : ∀ c ∈ t, (c == ',') = false := fun c hc => beq_false_of_ne fun he => ht (he ▸ hc)
    rw [Text.splitBy_eq, Text.cutFirst_eq_none_iff.2 hc]
  induction ts generalizing k p with
  | nil => rw [splitFrom, textOf_nil, List.append_nil, hwhole p hp]
  | cons t ts ih =>
    by_cases ht : ',' ∈ t.text
    · obtain ⟨hk, rfl⟩ := h.1 ht
      have htext : t.text = [','] := by rw [hs.1.eq_sign hk rfl]
      have hdepth : depthAfter 0 t = 0 := by rw [depthAfter, hk]
      rw [splitFrom, if_pos ⟨hk, rfl⟩, ih hs.2 (hdepth ▸ h.2) List.not_mem_nil, textOf_cons, htext,
        List.singleton_append, Text.splitBy_append_cons rfl, hwhole p hp]
      rfl
    · have hk : ¬(t.kind = .comma ∧ k = 0) := fun hk => by
        rw [hs.1.eq_sign hk.1 rfl] at ht
        exact ht List.mem_cons_self
      rw [splitFrom, if_neg hk, ih hs.2 h.2 (by simp [hp, ht]), textOf_cons, List.append_assoc]

end Token

/-! ### Directions between blanks -/

namespace Order

variable {key : Text}

/-- A fragment is found inside the text. -/
theorem length_breakAt_le {needle t : Text} {n : Nat}
    (h : (Text.breakAt needle t).map (fun r => r.1.length) = some n) : n ≤ t.length := by
  obtain ⟨r, hr, rfl⟩ := Option.map_eq_some_iff.1 h
  obtain ⟨hsplit, -⟩ := Text.breakAt_eq_some hr
  rw [hsplit, List.length_append]
  exact Nat.le_add_right _ _

theorem directionPlace_le {t : Text} {n : Nat} (h : directionPlace t = some n) : n ≤ t.length := by
  rw [directionPlace] at h
  cases hasc : (Text.breakAt " asc" t).map fun r => r.1.length with
  | none =>
    rw [hasc] at h
    exact length_breakAt_le h
  | some i =>
    have hi := length_breakAt_le hasc
    rw [hasc] at h
    cases hdesc : (Text.breakAt " desc" t).map fun r => r.1.length with
    | none =>
      rw [hdesc] at h
      cases h
      exact hi
    | some j =>
      rw [hdesc] at h
      cases h
      exact (Nat.min_le_left i j).trans hi

/-- A direction begins with the blank in front, or it is the one of the rest. -/
theorem directionPlace_cons (c : Char) (t : Text) : directionPlace (c :: t) = some 0 ∨
    directionPlace (c :: t) = (directionPlace t).map (1 + ·) := by
  have hplace : ∀ needle : Text,
      (Text.breakAt needle (c :: t)).map (fun r => r.1.length) = some 0 ∨
        (Text.breakAt needle (c :: t)).map (fun r => r.1.length) =
          ((Text.breakAt needle t).map fun r => r.1.length).map (1 + ·) := by
    intro needle
    rw [Text.breakAt]
    split
    · exact .inl rfl
    · refine .inr ?_
      rw [Option.map_map, Option.map_map]
      simp [Function.comp_def, Nat.add_comm]
  rw [directionPlace, directionPlace, ← smaller_map]
  rcases hplace " asc" with hasc | hasc <;> rcases hplace " desc" with hdesc | hdesc <;>
    rw [hasc, hdesc]
  · exact .inl rfl
  · refine .inl ?_
    cases (Text.breakAt " desc" t).map fun r => r.1.length <;> simp [smaller]
  · refine .inl ?_
    cases (Text.breakAt " asc" t).map fun r => r.1.length <;> simp [smaller]
  · exact .inr rfl

theorem directionPlace_append_or (a t : Text) :
    directionPlace (a ++ t) = (directionPlace t).map (a.length + ·) ∨
      ∃ n < a.length, directionPlace (a ++ t) = some n := by
  induction a with
  | nil => exact .inl (by simp)
  | cons c a ih =>
    rw [List.cons_append]
    rcases directionPlace_cons c (a ++ t) with h | h
    · exact .inr ⟨0, Nat.zero_lt_succ _, h⟩
    · rcases ih with ih | ⟨n, hn, ih⟩
      · refine .inl ?_
        rw [h, ih, Option.map_map]
        congr 1
        funext n
        simp only [Function.comp_apply, List.length_cons]
        omega
      · exact .inr ⟨1 + n, by simp [Nat.add_comm, hn], by rw [h, ih]; rfl⟩

theorem directionPlace_append_blank {b : Text} (hb : ∀ c ∈ b, isBlank c = true) (t : Text) :
    directionPlace (t ++ b) = directionPlace t := by
  have hplace : ∀ needle : Text, needle.getLast? = some 'c' →
      (Text.breakAt needle (t ++ b)).map (fun r => r.1.length) =
        (Text.breakAt needle t).map fun r => r.1.length := by
    intro needle hn
    rw [Text.breakAt_append_blank ⟨'c', hn, by decide⟩ hb, Option.map_map]
    rfl
  rw [directionPlace, hplace " asc" rfl, hplace " desc" rfl, directionPlace]

/-- Blanks at the end of a key do not matter for its direction. -/
theorem cutDirection_append_blank {b : Text} (hb : ∀ c ∈ b, isBlank c = true) (t : Text) :
    cutDirection (t ++ b) = cutDirection t := by
  have hlower : ∀ c ∈ Text.asciiLower b, isBlank c = true := by
    intro c hc
    obtain ⟨a, ha, rfl⟩ := List.mem_map.1 hc
    rw [Key.isBlank_toLower, hb a ha]
  rw [cutDirection_eq, cutDirection_eq, Text.asciiLower_append, directionPlace_append_blank hlower]
  refine Option.map_congr fun n hn => ?_
  have hle : n ≤ t.length := (directionPlace_le hn).trans_eq (List.length_map _)
  rw [List.take_append_of_le_length hle, List.drop_append_of_le_length hle,
    Text.trim_append_blank hb]

/-- Nor do blanks in front, unless the direction begins with one of them. -/
theorem cutDirection_blank_append {b : Text} (hb : ∀ c ∈ b, isBlank c = true) {t : Text}
    (h : ∀ r ∈ cutDirection (b ++ t), Text.blank r.1 = false) :
    cutDirection (b ++ t) = (cutDirection t).map fun r => (b ++ r.1, r.2) := by
  refine cutDirection_of_place ?_
  have hlength : (Text.asciiLower b).length = b.length := List.length_map _
  rw [Text.asciiLower_append]
  rcases directionPlace_append_or (Text.asciiLower b) (Text.asciiLower t) with hp | ⟨n, hn, hp⟩
  · rw [hp, hlength]
  · have hcut := h ((b ++ t).take n, Text.trim ((b ++ t).drop n))
      (by rw [cutDirection_eq, Text.asciiLower_append, hp]; rfl)
    have hblank : Text.blank ((b ++ t).take n) = true := by
      rw [List.take_append_of_le_length (by omega)]
      exact List.all_eq_true.2 fun c hc => hb c (List.mem_of_mem_take hc)
    rw [hblank] at hcut
    cases hcut

/-- A term is written alike with blanks around it, unless its direction begins with one of them. -/
theorem writeTerm_trim (d : Dialect) (model : Option Model) (direction : Text)
    (h : ∀ r ∈ cutDirection key, Text.blank r.1 = false) :
    writeTerm d model (.key key direction) =
      writeTerm d model (.key (Text.trim key) direction) := by
  obtain ⟨a, b, hkey, ha, hb⟩ := Text.exists_trim key
  have hcut : cutDirection key = (cutDirection (Text.trim key)).map fun r => (a ++ r.1, r.2) := by
    have hfront : cutDirection key = cutDirection (a ++ Text.trim key) := by
      conv_lhs => rw [hkey, cutDirection_append_blank hb]
    rw [hfront] at h ⊢
    exact cutDirection_blank_append ha h
  rw [writeTerm, writeTerm, hcut]
  cases cutDirection (Text.trim key) with
  | none => simp only [Option.map_none, Option.getD_none, Text.trim_trim]
  | some r => simp only [Option.map_some, Option.getD_some, Text.trim_append_of_blank ha]

/-! ### Terms of a key -/

/-- Whether the commas of a key are between its terms: all are outside parentheses, strings and
quoted names, and none is between two pairs of parentheses. -/
structure IsTermList (d : Dialect) (key : Text) : Prop where
  several : ',' ∈ key
  ungrouped : hasGroupedComma key = false
  outside : Token.CommasOutside 0 (Token.tokenize d key)

/-- Whether a key is one term: no comma is outside parentheses, one is inside if there are any, and
something is in front of its direction. -/
structure IsTerm (d : Dialect) (key : Text) : Prop where
  undivided : Token.Undivided 0 (Token.tokenize d key)
  enclosed : ',' ∈ key → EnclosesComma d key
  led : ∀ r ∈ cutDirection key, Text.blank r.1 = false

theorem keyParts_of_hasGroupedComma (h : hasGroupedComma key = true) : keyParts key = [key] :=
  keyParts_of_not_isDivided (by rw [isDivided, h, Bool.not_true, Bool.and_false])

theorem IsTermList.keyParts_eq (h : IsTermList d key) :
    keyParts key = (Text.splitBy (· == ',') key).map Text.trim := by
  have hc : key.contains ',' = true := List.contains_iff_mem.2 h.several
  exact keyParts_of_isDivided (by rw [isDivided, hc, h.ungrouped, Bool.not_false, Bool.and_true])

/-- The parts of a key with several terms are the pieces at its commas, empty ones apart. -/
theorem IsTermList.splitTopLevel_eq (h : IsTermList d key) :
    Token.splitTopLevel d key = (keyParts key).filter fun p => !p.isEmpty := by
  rw [Token.splitTopLevel, Token.splitFrom_of_commasOutside (Token.separate_tokenize d key)
    h.outside List.not_mem_nil, Token.textOf_tokenize, List.nil_append, h.keyParts_eq]

theorem IsTerm.keyParts_eq (h : IsTerm d key) : keyParts key = [key] := by
  by_cases hc : ',' ∈ key
  · exact keyParts_of_hasGroupedComma (h.enclosed hc).hasGroupedComma
  · exact keyParts_of_not_mem hc

theorem IsTerm.splitTopLevel_eq (h : IsTerm d key) :
    Token.splitTopLevel d key = [Text.trim key].filter fun p => !p.isEmpty := by
  rw [Token.splitTopLevel, Token.splitFrom_of_undivided h.undivided, Token.textOf_tokenize,
    List.nil_append, List.map_singleton]

/-- The pieces of a key at its commas are terms, whose commas are not taken apart again. -/
theorem keyParts_of_mem_splitTopLevel (h : IsTermList d key ∨ IsTerm d key) {p : Text}
    (hp : p ∈ Token.splitTopLevel d key) : keyParts p = [p] := by
  rcases h with h | h
  · rw [h.splitTopLevel_eq, h.keyParts_eq] at hp
    obtain ⟨w, hw, rfl⟩ := List.mem_map.1 (List.mem_filter.1 hp).1
    refine keyParts_of_not_mem fun hc => ?_
    exact Text.not_mem_of_mem_splitBy hw (Text.mem_of_mem_trim hc)
  · rw [h.splitTopLevel_eq] at hp
    obtain rfl := List.mem_singleton.1 (List.mem_filter.1 hp).1
    by_cases hc : ',' ∈ key
    · exact keyParts_of_hasGroupedComma (hasGroupedComma_trim (h.enclosed hc).hasGroupedComma)
    · exact keyParts_of_not_mem fun hm => hc (Text.mem_of_mem_trim hm)

end Order

/-! ### Clauses -/

namespace Source

variable {s : Source} {model : Option Model} {direction key : Text}

/-- A term with its direction: the first one in it with all that follows, or else the one of the
clause. There is none if nothing is in front of the direction. -/
def orderTerm (s : Source) (model : Option Model) (direction key : Text) : Option Text :=
  let parts := (Order.cutDirection key).getD (key, direction)
  if Text.blank parts.1 then none
  else
    some (Text.trimEnd (s.eval (Order.writeKey s.dialect model (Text.trim parts.1)) ++ " " ++
      Text.trim parts.2))

theorem eval_writeTerm (s : Source) (model : Option Model) (direction key : Text) :
    s.eval (Order.writeTerm s.dialect model (.key key direction)) =
      s.orderTerm model direction key := by
  simp only [Order.writeTerm, orderTerm, Text.isEmpty_trim]
  split
  · rfl
  · rw [eval_bind]
    rfl

theorem map_eval_writeTerm (s : Source) (model : Option Model) (direction : Text)
    (keys : List Text) :
    ((keys.map fun k => .key k direction).map (Order.writeTerm s.dialect model)).map s.eval =
      keys.map (s.orderTerm model direction) := by
  rw [List.map_map, List.map_map]
  exact List.map_congr_left fun k _ => eval_writeTerm s model direction k

/-- Empty terms are left out. -/
theorem orderClause_filter {written : Text → Option Text} (h : written [] = none)
    (keys : List Text) :
    orderClause ((keys.filter fun p => !p.isEmpty).map written) =
      orderClause (keys.map written) := by
  have hkept : ((keys.filter fun p => !p.isEmpty).map written).filterMap id =
      (keys.map written).filterMap id := by
    induction keys with
    | nil => rfl
    | cons p keys ih =>
      cases p with
      | nil => rw [List.filter_cons_of_neg (by simp), ih, List.map_cons, h]; rfl
      | cons c cs =>
        rw [List.filter_cons_of_pos (by simp), List.map_cons, List.map_cons, List.filterMap_cons,
          List.filterMap_cons, ih]
  rw [orderClause, orderClause, hkept]

theorem eval_order_field : s.eval (s.order [.field key] direction model) =
    orderClause ((Order.keyParts key).map (s.orderTerm model direction)) := by
  rw [eval_order, List.flatMap_singleton, Order.terms, map_eval_writeTerm]

/-- Fields that are terms each become one term of the clause. -/
theorem eval_order_fields {keys : List Text} (h : ∀ p ∈ keys, Order.keyParts p = [p]) :
    s.eval (s.order (keys.map .field) direction model) =
      orderClause (keys.map (s.orderTerm model direction)) := by
  have hterms : (keys.map Order.field).flatMap (Order.terms direction) =
      keys.map fun p => .key p direction := by
    induction keys with
    | nil => rfl
    | cons p keys ih =>
      obtain ⟨hp, hkeys⟩ := List.forall_mem_cons.1 h
      rw [List.map_cons, List.flatMap_cons, ih hkeys, Order.terms, hp]
      rfl
  rw [eval_order, hterms, map_eval_writeTerm]

end Source

end SqlComposer
