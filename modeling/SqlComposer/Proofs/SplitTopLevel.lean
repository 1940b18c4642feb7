import SqlComposer.Proofs.Parentheses
import SqlComposer.Proofs.TrimmedTokens

/-!
# Fragments between commas

The commas outside parentheses cut a fragment into pieces. Pieces that no such comma divides, joined
by commas, are cut apart again: a token that ends in front of anything ends in front of a comma.
-/

namespace SqlComposer

open CharClass

namespace Token

variable {d : Dialect} {c : Token} {ts us vs : List Token} {s : Text} {k : Nat}

/-! ### Tokens in front of commas -/

/-- The comma between two pieces. -/
def commaToken : Token :=
  ⟨.comma, [',']⟩

theorem ends_comma (d : Dialect) (rest : Text) : commaToken.Ends d rest :=
  .of_sign rfl d rest

theorem takes_comma (d : Dialect) (c : Char) : (start d c).takes ',' = false := by
  have he : (',' == d.endQuote) = false := by cases d <;> rfl
  fun_cases start d c
  case case4 hc =>
    have hc : c = '\'' ∨ c = '"' := by simpa using hc
    rcases hc with rfl | rfl <;> rfl
  all_goals first | exact he | rfl

theorem Separate.in_front_of_comma (h : Separate d us s) (hs : s ≠ []) (rest : Text) :
    Separate d us (',' :: rest) := by
  induction us with
  | nil => trivial
  | cons u us ih =>
    refine ⟨h.1.swap hs (by rintro _ ⟨⟩; rfl) fun _ e _ c hc => ?_, ih h.2⟩
    cases hc
    exact takes_comma d e

/-! ### Commas outside parentheses -/

/-- Whether no comma of tokens that begin at a depth of parentheses stands at depth zero. -/
def Undivided (k : Nat) : List Token → Prop
  | [] => True
  | t :: ts => (t.kind = .comma → k ≠ 0) ∧ Undivided (depthAfter k t) ts

theorem undivided_append :
    Undivided k (us ++ vs) ↔ Undivided k us ∧ Undivided (us.foldl depthAfter k) vs := by
  induction us generalizing k with
  | nil => simp [Undivided]
  | cons u us ih => simp [Undivided, ih, and_assoc]

instance decidableUndivided : (k : Nat) → (ts : List Token) → Decidable (Undivided k ts)
  | _, [] => .isTrue trivial
  | k, t :: ts =>
    have := decidableUndivided (depthAfter k t) ts
    inferInstanceAs (Decidable ((t.kind = .comma → k ≠ 0) ∧ Undivided (depthAfter k t) ts))

/-- The tokens in front of each comma leave a parenthesis open. -/
theorem undivided_iff :
    Undivided k ts ↔
      ∀ us c vs, ts = us ++ c :: vs → c.kind = .comma → us.foldl depthAfter k ≠ 0 := by
  constructor
  · rintro h us c vs rfl
    exact (undivided_append.1 h).2.1
  · intro h
    induction ts generalizing k with
    | nil => trivial
    | cons t ts ih =>
      refine ⟨h [] t ts rfl, ih fun us c vs hts => ?_⟩
      exact h (t :: us) c vs (by rw [hts, List.cons_append])

theorem depthAfter_of_kind (k : Nat) {t u : Token} (h : t.kind = u.kind) :
    depthAfter k t = depthAfter k u := by
  simp only [depthAfter, h]

/-- The kinds decide. -/
theorem undivided_of_kind (h : us.map kind = vs.map kind) (hv : Undivided k vs) :
    Undivided k us := by
  induction us generalizing k vs with
  | nil => trivial
  | cons u us ih =>
    obtain ⟨v, vs, rfl⟩ : ∃ v vs', vs = v :: vs' := by
      cases vs with
      | nil => cases h
      | cons v vs => exact ⟨v, vs, rfl⟩
    obtain ⟨hu, hus⟩ := List.cons.inj h
    exact ⟨hu ▸ hv.1, depthAfter_of_kind k hu ▸ ih hus hv.2⟩

theorem Undivided.tail_of_whitespace (h : Undivided k (us ++ vs))
    (hu : ∀ u ∈ us, u.kind = .whitespace) : Undivided k vs := by
  have := (undivided_append.1 h).2
  rwa [foldl_depthAfter_of_whitespace hu] at this

/-- The first comma outside parentheses, if there is one. -/
theorem undivided_or (k : Nat) (ts : List Token) :
    Undivided k ts ∨
      ∃ us c vs, ts = us ++ c :: vs ∧ c.kind = .comma ∧ Undivided k us ∧
        us.foldl depthAfter k = 0 := by
  induction ts generalizing k with
  | nil => exact .inl trivial
  | cons t ts ih =>
    by_cases ht : t.kind = .comma ∧ k = 0
    · exact .inr ⟨[], t, ts, rfl, ht.1, trivial, ht.2⟩
    · have ht : t.kind = .comma → k ≠ 0 := fun hk h0 => ht ⟨hk, h0⟩
      rcases ih (depthAfter k t) with h | ⟨us, c, vs, rfl, hc, hus, h0⟩
      · exact .inl ⟨ht, h⟩
      · exact .inr ⟨t :: us, c, vs, rfl, hc, ⟨ht, hus⟩, h0⟩

/-! ### Pieces -/

theorem splitFrom_of_undivided (h : Undivided k ts) (p : Text) :
    splitFrom k p ts = [p ++ textOf ts] := by
  induction ts generalizing k p with
  | nil => simp [splitFrom]
  | cons t ts ih =>
    rw [splitFrom, if_neg fun ht => h.1 ht.1 ht.2, ih h.2, textOf_cons, List.append_assoc]

/-- What stands in front of the first comma outside parentheses is a piece. -/
theorem splitFrom_append (hus : Undivided k us) (h0 : us.foldl depthAfter k = 0)
    (hc : c.kind = .comma) (p : Text) (vs : List Token) :
    splitFrom k p (us ++ c :: vs) = (p ++ textOf us) :: splitFrom 0 [] vs := by
  induction us generalizing k p with
  | nil =>
    rw [List.nil_append, splitFrom, if_pos ⟨hc, h0⟩, textOf_nil, List.append_nil]
  | cons u us ih =>
    rw [List.cons_append, splitFrom, if_neg fun hu => hus.1 hu.1 hu.2, ih hus.2 h0, textOf_cons,
      List.append_assoc]

/-- Blanks in front of the first piece are trimmed with it. -/
theorem map_trim_splitFrom {b : Text} (hb : ∀ c ∈ b, isBlank c = true) (k : Nat) (p : Text)
    (ts : List Token) :
    (splitFrom k (b ++ p) ts).map Text.trim = (splitFrom k p ts).map Text.trim := by
  induction ts generalizing k p with
  | nil => simp [splitFrom, Text.trim_append_of_blank hb]
  | cons t ts ih =>
    simp only [splitFrom]
    split_ifs with ht
    · simp [Text.trim_append_of_blank hb]
    · rw [List.append_assoc]
      exact ih _ _

theorem splitTopLevel_cons_blank {g : Text} (hg : ∃ c ∈ g.head?, isBlank c = false) :
    splitTopLevel d (' ' :: g) = splitTopLevel d g := by
  have ht : tokenize d (' ' :: g) = blankToken :: tokenize d g :=
    (Solid.ends_blank hg).tokenize_append
  have hs : splitFrom 0 [] (blankToken :: tokenize d g) =
      splitFrom 0 ([' '] ++ []) (tokenize d g) := rfl
  rw [splitTopLevel, ht, hs, map_trim_splitFrom (by simp [isBlank]), splitTopLevel]

end Token

/-! ### Items -/

open Token (tokenize textOf splitTopLevel Separate commaToken Undivided depthAfter)

/-- Whether a fragment is one piece of itself. -/
structure IsPiece (d : Dialect) (f : Text) : Prop where
  ne_nil : f ≠ []
  trimmed : Text.trim f = f
  undivided : ∀ us c vs, tokenize d f = us ++ c :: vs → c.kind = .comma → us.foldl depthAfter 0 ≠ 0

/-- Whether a fragment is one piece wherever it stands between commas: it is closed, and so are its
parentheses. -/
structure IsItem (d : Dialect) (f : Text) : Prop extends IsPiece d f where
  closed : tokenize d (f ++ [',']) = tokenize d f ++ [commaToken]
  depth : (tokenize d f).foldl depthAfter 0 = 0

/-- Items, and behind them a piece that need not be closed. -/
inductive Items (d : Dialect) : List Text → Prop where
  | nil : Items d []
  | last {f : Text} (h : IsPiece d f) : Items d [f]
  | cons {f : Text} {fs : List Text} (h : IsItem d f) (hs : Items d fs) : Items d (f :: fs)

variable {d : Dialect} {f : Text} {fs : List Text}

theorem IsPiece.tight (h : IsPiece d f) : f.Tight :=
  h.trimmed ▸ Text.tight_trim (h.trimmed.symm ▸ h.ne_nil)

theorem IsPiece.splitTopLevel_eq (h : IsPiece d f) : splitTopLevel d f = [f] := by
  rw [splitTopLevel, Token.splitFrom_of_undivided (Token.undivided_iff.2 h.undivided),
    Token.textOf_tokenize]
  simp [h.trimmed, h.ne_nil]

/-- An item in front of a comma is the first piece. -/
theorem IsItem.splitTopLevel_append (h : IsItem d f) (rest : Text) :
    splitTopLevel d (f ++ ',' :: rest) = f :: splitTopLevel d rest := by
  have hs : Separate d (tokenize d f) [','] := by
    have := Token.separate_tokenize d (f ++ [','])
    rw [h.closed] at this
    exact (Token.Separate.append_iff.1 this).1
  have ht : tokenize d (f ++ ',' :: rest) = tokenize d f ++ commaToken :: tokenize d rest := by
    have := (hs.in_front_of_comma (by simp) rest).tokenize_append
    rw [Token.textOf_tokenize] at this
    rw [this]
    exact congrArg _ (Token.ends_comma d rest).tokenize_append
  rw [splitTopLevel, ht,
    Token.splitFrom_append (Token.undivided_iff.2 h.undivided) h.depth rfl, Token.textOf_tokenize]
  simp [h.trimmed, h.ne_nil, splitTopLevel]

namespace Items

theorem isPiece (h : Items d fs) : ∀ f ∈ fs, IsPiece d f := by
  induction h with
  | nil => rintro _ ⟨⟩
  | last h => simpa using h
  | cons h _ ih => exact List.forall_mem_cons.2 ⟨h.toIsPiece, ih⟩

theorem of_isItem (h : ∀ f ∈ fs, IsItem d f) : Items d fs := by
  induction fs with
  | nil => exact .nil
  | cons f fs ih =>
    obtain ⟨hf, hfs⟩ := List.forall_mem_cons.1 h
    exact .cons hf (ih hfs)

/-- Cutting at commas undoes joining by them. -/
theorem splitTopLevel_join (h : Items d fs) : splitTopLevel d (Text.join ", " fs) = fs := by
  induction h with
  | nil => simp [Text.join, splitTopLevel, Token.splitFrom, Text.trim, Text.trimStart, Text.trimEnd]
  | last h => rw [Text.join_singleton, h.splitTopLevel_eq]
  | @cons f fs h hs ih =>
    cases fs with
    | nil => rw [Text.join_singleton, h.splitTopLevel_eq]
    | cons g gs =>
      have hg : ∃ c ∈ (Text.join ", " (g :: gs)).head?, isBlank c = false := by
        obtain ⟨c, hc, hb⟩ := (hs.isPiece g List.mem_cons_self).tight.head
        refine ⟨c, ?_, hb⟩
        cases gs with
        | nil => rwa [Text.join_singleton]
        | cons g' gs =>
          rw [Text.join_cons_cons, List.append_assoc, List.head?_append, Option.mem_def.1 hc]
          rfl
      have hj : Text.join ", " (f :: g :: gs) = f ++ ',' :: ' ' :: Text.join ", " (g :: gs) := by
        rw [Text.join_cons_cons, List.append_assoc]
        rfl
      rw [hj, h.splitTopLevel_append, Token.splitTopLevel_cons_blank hg, ih]

end Items

/-! ### The pieces of a fragment -/

variable {ts us : List Token} {s : Text}

/-- What is in front of a comma outside parentheses is an item, once it is trimmed. -/
theorem isItem_trim (h : Separate d us s) (hs : s ≠ []) (hu : Undivided 0 us)
    (h0 : us.foldl depthAfter 0 = 0) (hn : Text.trim (textOf us) ≠ []) :
    IsItem d (Text.trim (textOf us)) := by
  obtain ⟨as, ws, bs, rfl, hblank, htext, hws⟩ := Token.exists_trim h hs
  obtain ⟨has, hbs⟩ := List.forall_mem_append.1 hblank
  have hsolid : Solid d ws := hws.resolve_left fun hw => hn (by rw [← htext, hw]; rfl)
  have htokens : tokenize d (Text.trim (textOf (as ++ ws ++ bs))) = ws :=
    htext ▸ hsolid.tokenize_textOf
  refine ⟨⟨hn, Text.trim_trim _, ?_⟩, ?_, ?_⟩
  · rw [htokens, ← Token.undivided_iff]
    exact (Token.undivided_append.1 hu).1.tail_of_whitespace has
  · have hsep : Separate d ws [' '] := hsolid.separate (by rintro _ ⟨⟩; exact .inl rfl)
    rw [htokens, ← htext, (hsep.in_front_of_comma (by simp) []).tokenize_append]
    exact congrArg _ (Token.ends_comma d []).tokenize_text
  · rw [List.foldl_append, List.foldl_append, Token.foldl_depthAfter_of_whitespace has,
      Token.foldl_depthAfter_of_whitespace hbs] at h0
    rw [htokens, h0]

/-- So is what is behind the last one a piece. -/
theorem isPiece_trim (h : Separate d ts []) (hu : Undivided 0 ts)
    (hn : Text.trim (textOf ts) ≠ []) : IsPiece d (Text.trim (textOf ts)) := by
  refine ⟨hn, Text.trim_trim _, ?_⟩
  obtain ⟨as, us, rfl, has, hstart, -⟩ := Token.exists_trimStart h
  obtain ⟨ws, hws, hend, hkinds, -⟩ := (Token.Separate.append_iff.1 h).2.exists_trimEnd
  have htokens : tokenize d (Text.trim (textOf (as ++ us))) = ws := by
    rw [Text.trim, ← hstart, ← hend, hws.tokenize_textOf]
  rw [htokens, ← Token.undivided_iff]
  rw [List.prefix_iff_eq_take, List.length_map, ← List.map_take] at hkinds
  refine Token.undivided_of_kind hkinds ?_
  have := hu.tail_of_whitespace has
  rw [← List.take_append_drop ws.length us] at this
  exact (Token.undivided_append.1 this).1

theorem items_splitFrom (h : Separate d ts []) :
    Items d (((Token.splitFrom 0 [] ts).map Text.trim).filter fun p => !p.isEmpty) := by
  induction hl : ts.length using Nat.strongRecOn generalizing ts with
  | ind n ih =>
    rcases Token.undivided_or 0 ts with hu | ⟨us, c, vs, rfl, hc, hu, h0⟩
    · rw [Token.splitFrom_of_undivided hu, List.nil_append]
      by_cases hn : Text.trim (textOf ts) = []
      · simpa [hn] using Items.nil
      · simpa [hn] using Items.last (isPiece_trim h hu hn)
    · rw [Token.splitFrom_append hu h0 hc, List.nil_append, List.map_cons, List.filter_cons]
      obtain ⟨hus, hcomma, hvs⟩ := Token.Separate.append_iff.1 h
      have ih := ih vs.length (by rw [← hl, List.length_append, List.length_cons]; omega) hvs rfl
      split_ifs with hn
      · exact .cons (isItem_trim hus (by simp [hcomma.ne_nil]) hu h0 (by simpa using hn)) ih
      · exact ih

theorem items_splitTopLevel (d : Dialect) (t : Text) : Items d (splitTopLevel d t) :=
  items_splitFrom (Token.separate_tokenize d t)

/-- Cutting at the commas outside parentheses undoes joining by commas: items are found again, and
so are the pieces of any fragment, each of which is one piece of itself. -/
theorem Token.splitTopLevel_inverts_join (d : Dialect) :
    (∀ fs, (∀ f ∈ fs, IsItem d f) → splitTopLevel d (Text.join ", " fs) = fs) ∧
      ∀ t, (∀ p ∈ splitTopLevel d t, splitTopLevel d p = [p]) ∧
        splitTopLevel d (Text.join ", " (splitTopLevel d t)) = splitTopLevel d t := by
  refine ⟨fun fs h => (Items.of_isItem h).splitTopLevel_join, fun t => ⟨fun p hp => ?_, ?_⟩⟩
  · exact ((items_splitTopLevel d t).isPiece p hp).splitTopLevel_eq
  · exact (items_splitTopLevel d t).splitTopLevel_join

/-- A call and a string keep their commas. -/
theorem Token.splitTopLevel_inverts_join_call :
    let fs : List Text := ["id", "f(a, 1e)", "'x, y' AS z-"]
    (∀ f ∈ fs, IsItem .mySql f) ∧ splitTopLevel .mySql (Text.join ", " fs) = fs := by
  intro fs
  have hitem : ∀ f ∈ fs, IsItem .mySql f := by
    have hd : ∀ f ∈ fs, f ≠ [] ∧ Text.trim f = f ∧ Undivided 0 (tokenize .mySql f) ∧
        tokenize .mySql (f ++ [',']) = tokenize .mySql f ++ [commaToken] ∧
        (tokenize .mySql f).foldl depthAfter 0 = 0 := by decide +kernel
    intro f hf
    obtain ⟨hn, ht, hu, hc, h0⟩ := hd f hf
    exact ⟨⟨hn, ht, Token.undivided_iff.1 hu⟩, hc, h0⟩
  exact ⟨hitem, (Token.splitTopLevel_inverts_join .mySql).1 fs hitem⟩

end SqlComposer
