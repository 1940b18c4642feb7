import SqlComposer.Proofs.FieldKey

/-!
# Where keys are cut

A key is cut in front of one of its tokens, a blank or a comparison sign outside parentheses, and
nothing but blanks is lost. So a path and an operator behind it are found again: behind a blank, or
side by side if the operator begins with a comparison sign.
-/

namespace SqlComposer

open CharClass Identifier

/-! ### Pieces in front of a comparison sign -/

namespace Token

open Key (isComparisonSign)

variable {d : Dialect} {e : Char} {f g : Text → Nat} {us : List Token}

/-- A comparison sign belongs to no class without comparison signs. -/
theorem of_isComparisonSign {p : Char → Bool} (hp : ['<', '>', '=', '!'].any p = false)
    (he : isComparisonSign e = true) : p e = false := by
  simp only [List.any_cons, List.any_nil, Bool.or_eq_false_iff] at hp
  simp only [isComparisonSign, Bool.or_eq_true, beq_iff_eq] at he
  obtain ⟨hless, hgreater, heq, hnot, -⟩ := hp
  rcases he with ((rfl | rfl) | rfl) | rfl <;> assumption

/-- Whether `f` measures a piece at the front of a text that ends in front of `e`, whatever stands
behind it. -/
def EndsAt (e : Char) (f : Text → Nat) : Prop :=
  ∀ x rest, f (x ++ e :: rest) = f x

namespace EndsAt

theorem seq (hf : EndsAt e f) (hg : EndsAt e g) (hle : Delimits f) :
    EndsAt e fun t => f t + g (t.drop (f t)) := by
  intro x rest
  dsimp only
  rw [hf, List.drop_append_of_le_length (hle.le x), hg]

theorem span {p : Char → Bool} (he : p e = false) : EndsAt e (spanLength p) :=
  fun _ _ => spanLength_append fun _ _ hc => by cases hc; exact he

/-- What stands at the front of a text stays there. -/
theorem head?_any {p : Char → Bool} (he : p e = false) (x rest : Text) :
    (x ++ e :: rest).head?.any p = x.head?.any p := by
  cases x with
  | nil => simpa using he
  | cons c cs => rfl

theorem ident (he : isComparisonSign e = true) : EndsAt e identLength := by
  have hcontinue : isIdentContinue e = false := of_isComparisonSign (by decide) he
  have hhyphen : (e == '-') = false := of_isComparisonSign (p := (· == '-')) (by decide) he
  intro x rest
  induction x with
  | nil => simp [identLength, hcontinue, hhyphen]
  | cons c cs ih =>
    rw [List.cons_append, identLength, identLength, ih, head?_any hcontinue]

theorem digits (he : isComparisonSign e = true) : EndsAt e (spanLength Char.isDigit) :=
  span (of_isComparisonSign (by decide) he)

theorem fraction (he : isComparisonSign e = true) : EndsAt e fractionLength := by
  have hdigit : e.isDigit = false := of_isComparisonSign (by decide) he
  have hdot : (e == '.') = false := of_isComparisonSign (p := (· == '.')) (by decide) he
  intro x rest
  cases x with
  | nil =>
    have hne : e ≠ '.' := ne_of_beq_false hdot
    simp [fractionLength, hne]
  | cons c cs =>
    by_cases hc : c = '.'
    · subst hc
      rw [List.cons_append, fractionLength, fractionLength, head?_any hdigit, digits he]
    · simp [fractionLength, hc]

/-- An optional sign and digits. -/
theorem signed (he : isComparisonSign e = true) (x rest : Text) :
    Delimits.digitsLength (Delimits.signLength (x ++ e :: rest)) (x ++ e :: rest) =
      Delimits.digitsLength (Delimits.signLength x) x := by
  have hdigit : e.isDigit = false := of_isComparisonSign (by decide) he
  have hsign : (e == '+' || e == '-') = false :=
    of_isComparisonSign (p := fun c => c == '+' || c == '-') (by decide) he
  have hlength : Delimits.signLength x ≤ x.length := by
    cases x with
    | nil => exact Nat.le_refl _
    | cons c cs =>
      unfold Delimits.signLength
      split_ifs <;> simp
  have hs : Delimits.signLength (x ++ e :: rest) = Delimits.signLength x := by
    rw [Delimits.signLength, head?_any (p := fun c => c == '+' || c == '-') hsign,
      Delimits.signLength]
  rw [hs, Delimits.digitsLength, Delimits.digitsLength, List.drop_append_of_le_length hlength,
    head?_any hdigit, digits he]

theorem exponent (he : isComparisonSign e = true) : EndsAt e exponentLength := by
  have hmark : (e == 'e' || e == 'E') = false :=
    of_isComparisonSign (p := fun c => c == 'e' || c == 'E') (by decide) he
  intro x rest
  cases x with
  | nil =>
    rw [List.nil_append, Delimits.exponentLength_cons, hmark]
    rfl
  | cons c cs =>
    rw [List.cons_append, Delimits.exponentLength_cons, Delimits.exponentLength_cons, signed he]

theorem number (he : isComparisonSign e = true) : EndsAt e numberLength :=
  ((digits he).seq (fraction he) (.span _)).seq (exponent he) ((Delimits.span _).seq .fraction)

end EndsAt

theorem eq_hyphen_of_start {c : Char} : start d c = .hyphen → c = '-' := by
  fun_cases start d c <;> intro h <;> cases h
  exact beq_iff_eq.1 (by assumption)

/-- What a character of a name begins ends in front of a comparison sign, unless it is a hyphen that
stands directly in front of it. -/
theorem extent_append_comparison (he : isComparisonSign e = true) {c : Char} {x : Text}
    (hc : isPathChar c = true) (hx : ∀ a ∈ x, isPathChar a = true) (hhyphen : c = '-' → x ≠ [])
    (rest : Text) : (start d c).extent (x ++ e :: rest) = (start d c).extent x := by
  have hs := start_of_isPathChar d hc
  simp only [List.mem_cons, List.not_mem_nil, or_false] at hs
  rcases hs with hs | hs | hs | hs | hs <;> rw [hs]
  · have hcontinue : isIdentContinue e = false := of_isComparisonSign (by decide) he
    rw [Start.extent, Start.extent, EndsAt.number he,
      List.drop_append_of_le_length (Delimits.number.le x), EndsAt.head?_any hcontinue,
      EndsAt.ident he]
  · rw [Start.extent, Start.extent, EndsAt.ident he]
  · rfl
  · obtain ⟨a, as, rfl⟩ := List.exists_cons_of_ne_nil (hhyphen (eq_hyphen_of_start hs))
    have ha : a ≠ '>' := ne_of_beq_false (beq_of_isPathChar (hx a List.mem_cons_self) (by decide))
    simp [Start.extent, ha]
  · rfl

/-- Tokens of names end in front of a comparison sign if a letter, a number or an underscore stands
in front of it. -/
theorem Separate.append_comparison (he : isComparisonSign e = true) (h : Separate d us [])
    (hpath : ∀ c ∈ textOf us, isPathChar c = true)
    (hlast : ∀ c ∈ (textOf us).getLast?, isIdentContinue c = true) (rest : Text) :
    Separate d us (e :: rest) := by
  induction us with
  | nil => trivial
  | cons u us ih =>
    obtain ⟨⟨c, cs, ht, hextent⟩, hus⟩ := h
    rw [textOf_cons, ht] at hpath hlast
    rw [List.append_nil] at hextent
    have hrest : ∀ a ∈ cs ++ textOf us, isPathChar a = true :=
      fun a ha => hpath a (List.mem_cons_of_mem _ ha)
    have hhyphen : c = '-' → cs ++ textOf us ≠ [] := by
      rintro rfl hn
      have := hlast '-' (by rw [List.cons_append, hn]; rfl)
      exact absurd this (by decide)
    refine ⟨⟨c, cs, ht, ?_⟩, ih hus (fun a ha => hrest a (List.mem_append_right _ ha)) ?_⟩
    · rw [← List.append_assoc,
        extent_append_comparison he (hpath c List.mem_cons_self) hrest hhyphen, hextent]
    · intro a ha
      exact hlast a (by rw [List.getLast?_append, Option.mem_def.1 ha]; rfl)

end Token

namespace Key

variable {d : Dialect} {key f gap op : Text} {n k p : Nat} {cuts : Cuts} {ts : List Token}

/-! ### Places of cuts -/

/-- Whether a place is one at which a key may be cut. -/
def Cuts.Has (cuts : Cuts) (n : Nat) : Prop :=
  cuts.first = some n ∨ cuts.lastBlank = some n

/-- Whether a key may be cut in front of a token. -/
def Divides (t : Token) : Prop :=
  t.kind = .whitespace ∨ isComparison t = true

/-- The places are in front of tokens at which a key may be cut, outside parentheses. -/
theorem of_has_cutsFrom (h : (cutsFrom k p cuts ts).Has n) :
    cuts.Has n ∨ ∃ us t vs, ts = us ++ t :: vs ∧ us.foldl Token.depthAfter k = 0 ∧ Divides t ∧
      n = p + (Token.textOf us).length := by
  induction ts generalizing k p cuts with
  | nil => exact .inl h
  | cons t ts ih =>
    rw [cutsFrom] at h
    rcases ih h with h | ⟨us, u, vs, rfl, hdepth, hu, rfl⟩
    · have hhere : k = 0 → Divides t → n = p → ∃ us u vs, t :: ts = us ++ u :: vs ∧
          us.foldl Token.depthAfter k = 0 ∧ Divides u ∧ n = p + (Token.textOf us).length :=
        fun hk ht hn => ⟨[], t, ts, rfl, hk, ht, hn⟩
      have hfirst : ∀ {o : Option Nat}, o.or (some p) = some n → o = some n ∨ n = p := by
        rintro (_ | m) hm
        · exact .inr (Option.some.inj hm).symm
        · exact .inl hm
      split at h
      · next hblank =>
        simp only [Bool.and_eq_true, decide_eq_true_eq] at hblank
        rcases h with h | h
        · exact (hfirst h).imp .inl (hhere hblank.2 (.inl hblank.1))
        · exact .inr (hhere hblank.2 (.inl hblank.1) (Option.some.inj h).symm)
      · split at h
        · next hsign =>
          simp only [Bool.and_eq_true, decide_eq_true_eq] at hsign
          rcases h with h | h
          · exact (hfirst h).imp .inl (hhere hsign.2 (.inr hsign.1))
          · exact .inl (.inr h)
        · exact .inl h
    · refine .inr ⟨t :: us, u, vs, rfl, hdepth, hu, ?_⟩
      rw [Token.textOf_cons, List.length_append, Nat.add_assoc]

/-- A key is cut at one of the places, or not at all. -/
theorem split_cases (d : Dialect) (key : Text) :
    split d key = (Text.trim key, []) ∨
      ∃ n, (cutsFrom 0 0 {} (Token.tokenize d (Text.trim key))).Has n ∧
        split d key = cutAt n (Text.trim key) := by
  rw [split]
  dsimp only
  split
  · exact .inl rfl
  · next first hfirst =>
    right
    split
    · next last hlast =>
      split
      · exact ⟨last, .inr hlast, rfl⟩
      · exact ⟨first, .inl hfirst, rfl⟩
    · exact ⟨first, .inl hfirst, rfl⟩

/-- A key that is cut is cut in front of a token. -/
theorem split_eq_cutAt_token (d : Dialect) (key : Text) :
    split d key = (Text.trim key, []) ∨
      ∃ us t vs, Token.tokenize d (Text.trim key) = us ++ t :: vs ∧
        us.foldl Token.depthAfter 0 = 0 ∧ Divides t ∧
        split d key = cutAt (Token.textOf us).length (Text.trim key) := by
  refine (split_cases d key).imp_right ?_
  rintro ⟨n, hn, hs⟩
  rcases of_has_cutsFrom hn with hn | ⟨us, t, vs, hts, hdepth, ht, rfl⟩
  · rcases hn with hn | hn <;> cases hn
  · exact ⟨us, t, vs, hts, hdepth, ht, by rw [hs, Nat.zero_add]⟩

/-- The field and the operator of a key with the blanks between them are the key. -/
theorem exists_split (d : Dialect) (key : Text) :
    ∃ gap, (∀ c ∈ gap, isBlank c = true) ∧
      Text.trim key = (split d key).1 ++ gap ++ (split d key).2 ∧
      Text.trim (split d key).1 = (split d key).1 ∧
      Text.trim (split d key).2 = (split d key).2 := by
  rcases split_cases d key with hs | ⟨n, -, hs⟩
  · rw [hs]
    exact ⟨[], by simp, by simp, Text.trim_trim _, rfl⟩
  · have ht : Text.trim ((Text.trim key).take n ++ (Text.trim key).drop n) =
        (Text.trim key).take n ++ (Text.trim key).drop n := by
      rw [List.take_append_drop, Text.trim_trim]
    obtain ⟨gap, hgap, hk⟩ := Text.exists_gap ht
    rw [List.take_append_drop] at hk
    rw [hs]
    exact ⟨gap, hgap, hk, Text.trim_trim _, Text.trim_trim _⟩

/-! ### A path and a comparison sign -/

theorem exists_sign (hop : op.head?.any isComparisonSign = true) :
    ∃ e rest, op = e :: rest ∧ isComparisonSign e = true := by
  cases op with
  | nil => cases hop
  | cons e rest => exact ⟨e, rest, rfl, hop⟩

theorem tokenize_append_comparison (hf : IsPath f)
    (hlast : ∀ c ∈ f.getLast?, Token.isIdentContinue c = true)
    (hop : op.head?.any isComparisonSign = true) :
    Token.tokenize d (f ++ op) = Token.tokenize d f ++ Token.tokenize d op := by
  obtain ⟨e, rest, rfl, he⟩ := exists_sign hop
  have htext := Token.textOf_tokenize d f
  have h := (Token.separate_tokenize d f).append_comparison he
    (fun c hc => hf.isPathChar (htext ▸ hc)) (fun c hc => hlast c (htext ▸ hc)) rest
  have := h.tokenize_append
  rwa [htext] at this

/-- A text that begins with a comparison sign begins with such a token. -/
theorem exists_comparison (d : Dialect) (hop : op.head?.any isComparisonSign = true) :
    ∃ t ts, Token.tokenize d op = t :: ts ∧ isComparison t = true := by
  obtain ⟨e, rest, rfl, he⟩ := exists_sign hop
  have hstart : Token.start d e = .comparison := by
    simp only [isComparisonSign, Bool.or_eq_true, beq_iff_eq] at he
    rcases he with ((rfl | rfl) | rfl) | rfl <;> cases d <;> rfl
  have hsigns : ∀ c ∈ rest.take ((Token.start d e).extent rest).2, isComparisonSign c = true := by
    intro c hc
    rw [hstart, Token.Start.extent, Token.spanLength,
      ← List.prefix_iff_eq_take.1 (List.takeWhile_prefix _)] at hc
    rw [isComparisonSign, List.mem_takeWhile_imp hc]
    rfl
  refine ⟨_, _, Token.tokenize_cons d e rest, ?_⟩
  rw [Token.extent_eq, isComparison, List.all_cons, he, List.all_eq_true.2 hsigns, hstart]
  rfl

/-- An operator that begins with a comparison sign may stand directly behind a path. -/
theorem split_append_comparison (hf : IsPath f)
    (hlast : ∀ c ∈ f.getLast?, Token.isIdentContinue c = true)
    (hop : Text.trim op = op) (hsign : op.head?.any isComparisonSign = true) :
    split d (f ++ op) = (f, op) := by
  have hknown : isKnownOperator op = true := by
    rw [isKnownOperator, hop, hsign]
    rfl
  have htight : op.Tight := by
    have hn : Text.trim op ≠ [] := by
      rw [hop]
      rintro rfl
      cases hsign
    exact hop ▸ Text.tight_trim hn
  have ht : Text.trim (f ++ op) = f ++ op := by
    have := (hf.tight.append htight []).trim
    rwa [List.append_nil] at this
  -- No token of the path is a place to cut at, so the first place is behind it.
  have hc : (cutsFrom 0 0 {} (Token.tokenize d (f ++ op))).first = some f.length := by
    obtain ⟨t, ts, hts, hcomparison⟩ := exists_comparison d hsign
    have hkind : t.kind ≠ .whitespace := by
      rw [isComparison, Bool.and_eq_true, decide_eq_true_eq] at hcomparison
      simp [hcomparison.1]
    rw [tokenize_append_comparison hf hlast hsign,
      cutsFrom_append_of_inert fun u hu => inert_of_mem hf hu, Token.textOf_tokenize, Nat.zero_add,
      hts, cutsFrom]
    exact first_cutsFrom (by simp [hkind, hcomparison]) _ _ _
  have hcut : cutAt f.length (f ++ op) = (f, op) := by
    rw [cutAt, List.take_left, List.drop_left, hf.trim, hop]
  rw [split_eq_cutAt_first ht hc (by rw [hcut]; exact .inl hknown), hcut]

/-- A key is cut in front of a token outside parentheses, a blank or a comparison sign, or not at
all, and only blanks are lost between the field and the operator. So a path and a known operator
behind blanks are found again, and so are a path that ends in a letter, a number or an underscore and
an operator directly behind it that begins with a comparison sign. -/
theorem split_in_front_of_token (d : Dialect) :
    (∀ key, ∃ gap, (∀ c ∈ gap, isBlank c = true) ∧
      Text.trim key = (split d key).1 ++ gap ++ (split d key).2) ∧
    (∀ key, (split d key).2 ≠ [] → ∃ us t vs,
      Token.tokenize d (Text.trim key) = us ++ t :: vs ∧
      us.foldl Token.depthAfter 0 = 0 ∧ Divides t ∧
      split d key = (Text.trim (Token.textOf us), Text.trim (Token.textOf (t :: vs)))) ∧
    (∀ f gap op, IsPath f → gap ≠ [] → (∀ c ∈ gap, isBlank c = true) → Text.trim op = op →
      isKnownOperator op = true → split d (f ++ gap ++ op) = (f, op)) ∧
    ∀ f op, IsPath f → (∀ c ∈ f.getLast?, Token.isIdentContinue c = true) → Text.trim op = op →
      op.head?.any isComparisonSign = true → split d (f ++ op) = (f, op) := by
  refine ⟨fun key => ?_, fun key hop => ?_, fun f gap op hf hg hb hop ho => ?_,
    fun f op => split_append_comparison⟩
  · obtain ⟨gap, hgap, hk, -⟩ := exists_split d key
    exact ⟨gap, hgap, hk⟩
  · obtain hs | ⟨us, t, vs, hts, hdepth, ht, hs⟩ := split_eq_cutAt_token d key
    · exact absurd (by rw [hs]) hop
    · have hkey : Text.trim key = Token.textOf us ++ Token.textOf (t :: vs) := by
        rw [← Token.textOf_append, ← hts, Token.textOf_tokenize]
      exact ⟨us, t, vs, hts, hdepth, ht, by rw [hs, cutAt, hkey, List.take_left, List.drop_left]⟩
  · have hn : Text.trim op ≠ [] := by
      rw [← List.isEmpty_eq_false_iff, Text.isEmpty_trim]
      exact blank_of_isKnownOperator ho
    exact split_append_of_isOperator hf hg hb (hop ▸ Text.tight_trim hn) (.inl ho)

/-- A word behind a blank, a sign behind no blank, and a call that is not cut in the middle. -/
theorem split_in_front_of_token_post_id :
    split .mySql "Post.id NOT IN" = ("Post.id".toList, "NOT IN".toList) ∧
      split .mySql "Post.id>=" = ("Post.id".toList, ">=".toList) ∧
      ∃ us t vs, Token.tokenize .mySql "LENGTH(title, 2) <" = us ++ t :: vs ∧
        us.foldl Token.depthAfter 0 = 0 ∧ Divides t ∧
        split .mySql "LENGTH(title, 2) <" =
          (Text.trim (Token.textOf us), Text.trim (Token.textOf (t :: vs))) := by
  have hpath : IsPath "Post.id".toList := by
    unfold IsPath
    decide
  obtain ⟨-, hcut, hblank, hsign⟩ := split_in_front_of_token .mySql
  exact ⟨hblank _ [' '] _ hpath (by decide) (by simp; rfl) (by decide) (by decide),
    hsign _ _ hpath (by rintro _ ⟨⟩; rfl) (by decide) (by decide),
    hcut "LENGTH(title, 2) <".toList (by decide +kernel)⟩

end Key

end SqlComposer
