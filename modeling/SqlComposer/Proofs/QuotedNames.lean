import SqlComposer.Proofs.Aliases
import SqlComposer.Proofs.Memory
import SqlComposer.Proofs.TrimmedTokens

/-!
# Quoting names twice

What a name becomes between quotes is a name that has its quotes: it stays as it is.
-/

namespace SqlComposer

open CharClass
open Token (tokenize textOf level depthAfter)

variable {d : Dialect} {t w y e l rest : Text}

namespace Identifier

/-! ### `DISTINCT` -/

/-- The part of a text in front of its first blank. -/
def firstWord (t : Text) : Text :=
  t.takeWhile fun c => !isBlank c

/-- Whether a text begins with the keyword `DISTINCT` or is this keyword. -/
def isDistinct (t : Text) : Bool :=
  Text.sameLetters (firstWord t) "DISTINCT"

/-- What stands behind a blank does not matter. -/
theorem isDistinct_append {b : Text} (hb : ∀ c ∈ b.head?, isBlank c = true) :
    isDistinct (e ++ b) = isDistinct e := by
  have hw : firstWord (e ++ b) = firstWord e := by
    induction e with
    | nil =>
      cases b with
      | nil => rfl
      | cons c cs => simp [firstWord, hb c rfl]
    | cons c cs ih =>
      rw [firstWord, firstWord, List.cons_append, List.takeWhile_cons, List.takeWhile_cons]
      split
      · exact congrArg _ ih
      · rfl
  rw [isDistinct, hw, isDistinct]

theorem isNameChar_of_sameLetters (h : Text.sameLetters w "DISTINCT" = true) :
    ∀ c ∈ w, isNameChar c = true := by
  have hupper := List.all_eq_true.1
    (by decide +kernel : (List.range' 65 26).all (fun n => isNameChar (Char.ofNat n)) = true)
  have hlower := List.all_eq_true.1
    (by decide +kernel : (Text.asciiLower "DISTINCT").all isNameChar = true)
  intro c hc
  have hmem : c.toLower ∈ Text.asciiLower "DISTINCT" := by
    rw [← beq_iff_eq.1 h]
    exact List.mem_map_of_mem hc
  unfold Char.toLower at hmem
  split at hmem
  · next hc =>
    have hn := hupper c.toNat (List.mem_range'_1.2 ?_)
    · rwa [Char.ofNat_toNat] at hn
    · obtain ⟨h1, h2⟩ := hc
      have h1 : 65 ≤ c.toNat := h1
      have h2 : c.toNat ≤ 90 := h2
      omega
  · exact hlower c hmem

theorem isWord_of_sameLetters (h : Text.sameLetters w "DISTINCT" = true) : isWord w = true := by
  have hn : w ≠ [] := by
    rintro rfl
    revert h
    decide
  simpa [isWord, hn] using isNameChar_of_sameLetters h

theorem isWord_of_isDistinct (hb : ∀ c ∈ t, isBlank c = false) (h : isDistinct t = true) :
    isWord t = true := by
  have hall : firstWord t = t :=
    List.takeWhile_eq_self_iff.2 fun c hc => by rw [hb c hc]; rfl
  rw [isDistinct, hall] at h
  exact isWord_of_sameLetters h

/-- A text whose first word contains another character than those of names is not distinct. -/
theorem isDistinct_eq_false {c : Char} (hc : c ∈ firstWord t) (hn : isNameChar c = false) :
    isDistinct t = false := by
  by_contra h
  rw [isNameChar_of_sameLetters (Bool.not_eq_false _ ▸ h) c hc] at hn
  cases hn

theorem afterDistinct_eq_none (h : isDistinct t = false) : afterDistinct t = none := by
  rw [afterDistinct]
  split
  · next a b hc =>
    rw [isDistinct, firstWord, Text.takeWhile_of_cutFirst hc] at h
    rw [h]
    rfl
  · rfl

theorem isEmpty_trim_of_cutFirst {a b : Text} (ht : t.Tight)
    (hc : Text.cutFirst isBlank t = some (a, b)) : (Text.trim b).isEmpty = false := by
  obtain ⟨c, hb, -, rfl⟩ := Text.eq_append_of_cutFirst hc
  obtain ⟨e, he, hn⟩ := ht.last
  rw [Text.isEmpty_trim]
  by_contra h
  have hall : ∀ f ∈ b, isBlank f = true := List.all_eq_true.1 (Bool.not_eq_false _ ▸ h)
  have hm : e ∈ c :: b := by
    rw [List.getLast?_append_of_ne_nil _ (by simp)] at he
    exact List.mem_of_getLast? he
  rcases List.mem_cons.1 hm with rfl | hm
  · rw [hb] at hn
    cases hn
  · rw [hall e hm] at hn
    cases hn

/-- A text that is no word and has nothing behind `DISTINCT` does not begin with it. -/
theorem isDistinct_of_afterDistinct (ht : t.Tight) (h : afterDistinct t = none)
    (hw : isWord t = false) : isDistinct t = false := by
  by_contra hd
  have hd : isDistinct t = true := Bool.not_eq_false _ ▸ hd
  cases hc : Text.cutFirst isBlank t with
  | none =>
    rw [isWord_of_isDistinct (Text.cutFirst_eq_none_iff.1 hc) hd] at hw
    cases hw
  | some r =>
    obtain ⟨a, b⟩ := r
    rw [isDistinct, firstWord, Text.takeWhile_of_cutFirst hc] at hd
    rw [afterDistinct, hc] at h
    simp only [hd, isEmpty_trim_of_cutFirst ht hc, Bool.not_false, Bool.and_self, if_true] at h
    cases h

theorem afterDistinct_distinct (hy : y.Tight) : afterDistinct ("DISTINCT " ++ y) = some y := by
  have hc : Text.cutFirst isBlank ("DISTINCT " ++ y) = some ("DISTINCT".toList, y) := rfl
  have hn : y.isEmpty = false := by
    obtain ⟨c, hc, -⟩ := hy.head
    cases y with
    | nil => cases hc
    | cons e es => rfl
  rw [afterDistinct, hc]
  simp only [hy.trim, hn]
  rfl

theorem tight_of_afterDistinct (h : afterDistinct t = some rest) : rest.Tight := by
  unfold afterDistinct at h
  split at h
  · split at h
    · next hd =>
      cases h
      refine Text.tight_trim fun hn => ?_
      rw [hn] at hd
      exact absurd (Bool.and_eq_true_iff.1 hd).2 (by decide)
    · cases h
  · cases h

theorem paired_of_afterDistinct (hp : Paired d (tokenize d t)) (h : afterDistinct t = some rest) :
    Paired d (tokenize d rest) := by
  unfold afterDistinct at h
  split at h
  · next a b hc =>
    split at h
    · next hd =>
      cases h
      obtain ⟨c, hb, -, rfl⟩ := Text.eq_append_of_cutFirst hc
      have ha : isWord a = true := isWord_of_sameLetters (Bool.and_eq_true_iff.1 hd).1
      -- The blank ends the word, so the tokens of the rest are tokens of the whole.
      have ht : tokenize d (a ++ c :: b) = tokenize d a ++ tokenize d (c :: b) := by
        refine Token.tokenize_append_boundary (fun u hu => ?_) ?_
        · exact (Key.inert_of_mem (isPath_of_isWord ha) hu).bare
        · rintro _ ⟨⟩
          exact isBoundary_of_isBlank hb
      have htrim : Text.trim b = Text.trim (c :: b) := by
        rw [Text.trim, Text.trim, Text.trimStart, Text.trimStart, List.dropWhile_cons, if_pos hb]
      rw [htrim]
      refine paired_trim fun u hu => hp u ?_
      rw [ht]
      exact List.mem_append_right _ hu
    · cases h
  · cases h

/-! ### Texts that keep their form -/

theorem form_of_opensQuoted (ht : t.Tight) (h : d.opensQuoted t = true) : form d t = .known t := by
  rw [form, ht.trim, trimmedForm, h, Bool.or_true, if_pos rfl]

theorem isDistinct_of_opensQuoted (h : d.opensQuoted t = true) : isDistinct t = false := by
  obtain ⟨cs, rfl⟩ := List.head?_eq_some_iff.1 (beq_iff_eq.1 h)
  refine isDistinct_eq_false (c := d.startQuote) ?_ (isNameChar_startQuote d)
  have hb : isBlank d.startQuote = false := by cases d <;> rfl
  simp [firstWord, hb]

theorem opensQuoted_quote (d : Dialect) (t : Text) : d.opensQuoted (d.quote t) = true :=
  beq_self_eq_true (some d.startQuote)

theorem opensQuoted_append (h : d.opensQuoted t = true) (b : Text) :
    d.opensQuoted (t ++ b) = true := by
  rw [Dialect.opensQuoted, List.head?_append, beq_iff_eq.1 h]
  exact beq_self_eq_true _

theorem tight_quote (d : Dialect) (t : Text) : (d.quote t).Tight where
  head := ⟨d.startQuote, rfl, by cases d <;> rfl⟩
  last := ⟨d.endQuote, List.getLast?_concat, by cases d <;> rfl⟩

theorem isWord_eq_false {c : Char} (hc : c ∈ t) (hn : isNameChar c = false) : isWord t = false := by
  by_contra h
  rw [isNameChar_of_isWord (Bool.not_eq_false _ ▸ h) c hc] at hn
  cases hn

theorem isNameChar_eq_false {c : Char} (h : isBlank c = true ∨ c = '(') : isNameChar c = false := by
  rcases h with h | rfl
  · exact isNameChar_of_isBlank h
  · rfl

/-- A blank and a parenthesis stand in no path. -/
theorem pathForm_eq_none {c : Char} (hc : c ∈ t) (hb : isBlank c = true ∨ c = '(') :
    pathForm d t = none := by
  have hn := isNameChar_eq_false hb
  have hne : c ≠ '.' ∧ c ≠ '*' := by
    rcases hb with hb | rfl
    · constructor <;> rintro rfl <;> cases hb
    · decide
  rw [pathForm]
  split
  · next head rest h =>
    obtain ⟨e, he, -, rfl⟩ := Text.eq_append_of_cutFirst h
    split
    · rfl
    · next hw =>
      have hr : c ∈ rest := by
        rcases List.mem_append.1 hc with hc | hc
        · exact absurd (isWord_eq_false hc hn) (by simpa using hw)
        · refine (List.mem_cons.1 hc).resolve_left fun h => hne.1 ?_
          rw [h, beq_iff_eq.1 he]
      have hstar : (rest == ['*']) = false := by
        refine beq_false_of_ne ?_
        rintro rfl
        exact hne.2 (List.mem_singleton.1 hr)
      have hplain : isPlainPath d rest = false := by
        by_contra hp
        have hall := List.all_eq_true.1 (Bool.and_eq_true_iff.1 (Bool.not_eq_false _ ▸ hp)).2 c hr
        rcases hb with hb | rfl
        · rw [hb] at hall
          cases hall
        · cases hall
      rw [hstar, hplain]
      rfl
  · rfl

theorem tight_of_opensQuoted (h : d.opensQuoted y = true) (hy : ∀ c ∈ y, isBlank c = false) :
    y.Tight := by
  refine Text.tight_of_forall ?_ hy
  rintro rfl
  cases h

theorem isBlank_of_mem_quote {c : Char} (hw : ∀ c ∈ w, isBlank c = false) (hc : c ∈ d.quote w) :
    isBlank c = false := by
  rcases List.mem_append.1 hc with hc | hc
  · rcases List.mem_cons.1 hc with rfl | hc
    · cases d <;> rfl
    · exact hw c hc
  · rw [List.mem_singleton.1 hc]
    cases d <;> rfl

theorem isBlank_of_mem_quotePath {c : Char} (ht : ∀ c ∈ t, isBlank c = false)
    (hc : c ∈ quotePath d t) : isBlank c = false := by
  rcases Text.mem_join hc with hc | ⟨p, hp, hc⟩
  · rw [List.mem_singleton.1 hc]
    rfl
  · obtain ⟨v, hv, rfl⟩ := List.mem_map.1 hp
    have hv : ∀ c ∈ v, isBlank c = false := fun c hc => ht c (Text.mem_of_mem_splitBy hv c hc)
    split at hc
    · exact hv c hc
    · exact isBlank_of_mem_quote hv hc

theorem isBlank_of_isPlainPath (h : isPlainPath d rest = true) : ∀ c ∈ rest, isBlank c = false := by
  intro c hc
  by_contra hb
  have hall := List.all_eq_true.1 (Bool.and_eq_true_iff.1 h).2 c hc
  simp [hb] at hall

theorem exists_quotePath (hw : isWord w = true) (hc : Text.cutFirst (· == '.') t = some (w, rest)) :
    ∃ b, quotePath d t = d.quote w ++ b := by
  obtain ⟨v, vs, hv⟩ := List.exists_cons_of_ne_nil (Text.splitBy_ne_nil (· == '.') rest)
  rw [quotePath, Text.splitBy_eq, hc]
  simp only [List.map_cons, hv, opensQuoted_of_isWord d hw, Bool.false_eq_true, if_false,
    Text.join_cons_cons, List.append_assoc]
  exact ⟨_, rfl⟩

/-- A path is written with a quote in front and without blanks. -/
theorem pathForm_eq_some (h : pathForm d t = some y) : d.opensQuoted y = true ∧ y.Tight := by
  suffices h : d.opensQuoted y = true ∧ ∀ c ∈ y, isBlank c = false from
    ⟨h.1, tight_of_opensQuoted h.1 h.2⟩
  unfold pathForm at h
  split at h
  · next head rest hc =>
    split at h
    · cases h
    · next hw =>
      have hw : isWord head = true := by simpa using hw
      have hhead : ∀ c ∈ head, isBlank c = false := fun c hc =>
        isBlank_of_isNameChar (isNameChar_of_isWord hw c hc)
      split at h
      · cases h
        refine ⟨opensQuoted_append (opensQuoted_quote d head) _, fun c hc => ?_⟩
        rcases List.mem_append.1 hc with hc | hc
        · exact isBlank_of_mem_quote hhead hc
        · have hs : ∀ c ∈ ['.', '*'], isBlank c = false :=
            List.forall_mem_cons.2 ⟨rfl, List.forall_mem_singleton.2 rfl⟩
          exact hs c hc
      · split at h
        · next hp =>
          cases h
          obtain ⟨b, hb⟩ := exists_quotePath hw hc
          refine ⟨hb ▸ opensQuoted_append (opensQuoted_quote d head) b, fun c hm => ?_⟩
          obtain ⟨e, he, -, rfl⟩ := Text.eq_append_of_cutFirst hc
          have ht : ∀ c ∈ head ++ e :: rest, isBlank c = false := by
            refine List.forall_mem_append.2 ⟨hhead, List.forall_mem_cons.2 ⟨?_, ?_⟩⟩
            · rw [beq_iff_eq.1 he]
              rfl
            · exact isBlank_of_isPlainPath hp
          exact isBlank_of_mem_quotePath ht hm
        · cases h
  · cases h

theorem form_of_afterDistinct (d : Dialect) (ht : t.Tight) (hw : isWord t = false)
    (h : afterDistinct t = some rest) : form d t = .distinct rest := by
  have hd : isDistinct t = true := by
    by_contra hd
    rw [afterDistinct_eq_none (Bool.not_eq_true _ ▸ hd)] at h
    cases h
  have he : t.isEmpty = false := by
    cases t with
    | nil => cases hd
    | cons c cs => rfl
  have hstar : (t == ['*']) = false := by
    refine beq_false_of_ne ?_
    rintro rfl
    cases hd
  have ho : d.opensQuoted t = false := by
    by_contra ho
    rw [isDistinct_of_opensQuoted (Bool.not_eq_false _ ▸ ho)] at hd
    cases hd
  rw [form, ht.trim, trimmedForm, he, hstar, ho, hw, h]
  rfl

/-- How a text that is not distinct is written: as it is, between quotes, as a path, as a call, or
with an alias. -/
theorem form_cases (d : Dialect) (ht : t.Tight) (hd : isDistinct t = false) :
    form d t = .known t ∨ form d t = .known (d.quote t) ∨
      (∃ y, form d t = .known y ∧ pathForm d t = some y) ∨
      (∃ c, form d t = .known c ∧ quoteCall d t = some c) ∨
      ∃ e l, form d t = .aliased e l ∧ splitAlias d t = some (e, l) := by
  rw [form, ht.trim, trimmedForm]
  split
  · exact .inl rfl
  split
  · exact .inr (.inl rfl)
  rw [afterDistinct_eq_none hd]
  cases hp : pathForm d t with
  | some y => exact .inr (.inr (.inl ⟨y, rfl, rfl⟩))
  | none =>
  dsimp only
  rw [compoundForm]
  cases hc : quoteCall d t with
  | some c => exact .inr (.inr (.inr (.inl ⟨c, rfl, rfl⟩)))
  | none =>
  cases hs : splitAlias d t with
  | some r => exact .inr (.inr (.inr (.inr ⟨r.1, r.2, rfl, rfl⟩)))
  | none =>
  dsimp only
  split
  · exact .inr (.inl rfl)
  · exact .inl rfl

/-- A text with a character that stands in no name and no path is a call, an alias, or spaced
words. -/
theorem form_of_mem {c : Char} (ht : t.Tight) (hd : isDistinct t = false)
    (ho : d.opensQuoted t = false) (hc : c ∈ t) (hb : isBlank c = true ∨ c = '(') :
    form d t = compoundForm d t := by
  have hn := isNameChar_eq_false hb
  have he : t.isEmpty = false := by
    cases t with
    | nil => cases hc
    | cons e es => rfl
  have hstar : (t == ['*']) = false := by
    refine beq_false_of_ne ?_
    rintro rfl
    rw [List.mem_singleton.1 hc] at hb
    revert hb
    decide
  rw [form, ht.trim, trimmedForm, he, hstar, ho, isWord_eq_false hc hn, afterDistinct_eq_none hd,
    pathForm_eq_none hc hb]
  rfl

variable {f : Token} {is us ms vs : List Token}

/-! ### Calls -/

theorem IsQuotedCall.mem (h : IsQuotedCall d t f is) : '(' ∈ t := by
  rw [h.text, textOf_callTokens]
  simp

theorem IsQuotedCall.tight (h : IsQuotedCall d t f is) : t.Tight :=
  h.text ▸ h.solid.tight

theorem IsQuotedCall.isDistinct (h : IsQuotedCall d t f is) : isDistinct t = false := by
  refine isDistinct_eq_false (c := '(') ?_ rfl
  have hf : ∀ c ∈ f.text, (!isBlank c) = true := by
    intro c hc
    have hs : Token.Separate d (callTokens f is) [] := h.solid.separate (by rintro _ ⟨⟩)
    rw [isBlank_of_isBoundary (hs.1.isBoundary_of_ident h.kind c hc)]
    rfl
  rw [h.text, textOf_callTokens, firstWord, List.append_assoc, List.append_assoc,
    List.takeWhile_append_of_pos hf]
  exact List.mem_append_right _ List.mem_cons_self

theorem IsQuotedCall.isExpr (h : IsQuotedCall d t f is) : IsExpr d t where
  solid := by
    rw [h.text, h.solid.tokenize_textOf]
    exact h.solid
  depth := by
    rw [h.text, h.solid.tokenize_textOf]
    exact Token.foldl_depthAfter (level_callTokens h.kind h.level)

theorem IsQuotedCall.form_eq (h : IsQuotedCall d t f is) : form d t = .known t := by
  cases ho : d.opensQuoted t with
  | true => exact form_of_opensQuoted h.tight ho
  | false => rw [form_of_mem h.tight h.isDistinct ho h.mem (.inr rfl), compoundForm, h.stays]

/-! ### Aliases -/

/-- How an expression with an alias is written, once it has the quotes that it needs. -/
theorem form_joined (he : IsExpr d e) (hl : IsLabel d l) (hd : isDistinct e = false)
    (ho : d.opensQuoted e = false) :
    form d (e ++ " AS " ++ l) =
      if isIdentifier l || d.opensQuoted l then .aliased e l
      else if (e ++ " AS " ++ l).all fun c => isNameChar c || c == ' ' then
        .known (d.quote (e ++ " AS " ++ l))
      else .known (e ++ " AS " ++ l) := by
  have hc : ' ' ∈ e ++ " AS " ++ l := by simp
  have hn := he.tight.ne_nil (List.prefix_refl e).isInfix
  have hd' : isDistinct (e ++ " AS " ++ l) = false := by
    rw [List.append_assoc, isDistinct_append (by rintro _ ⟨⟩; rfl), hd]
  have ho' : d.opensQuoted (e ++ " AS " ++ l) = false := by
    rw [Dialect.opensQuoted, List.append_assoc, List.head?_append_of_ne_nil _ hn]
    exact ho
  rw [form_of_mem (he.tight.append hl.tight _) hd' ho' hc (.inl rfl), compoundForm,
    quoteCall_joined he hl.tight, splitAlias_joined he hl]
  dsimp only
  split_ifs <;> rfl

/-- An expression and its alias that stay as they are, with `AS` between them. -/
theorem quoteName_joined (he : IsExpr d e) (hl : IsLabel d l) (hd : isDistinct e = false)
    (ho : d.opensQuoted e = false) (hse : d.quoteName e = e) (hsl : d.quoteName l = l)
    (hc : ∃ c ∈ l, isNameChar c = false ∧ c ≠ ' ') :
    d.quoteName (e ++ " AS " ++ l) = e ++ " AS " ++ l := by
  have hf := form_joined he hl hd ho
  split at hf
  · rw [Dialect.quoteName_of_aliased hf, hse, hsl]
  · obtain ⟨c, hc, hn, hs⟩ := hc
    rw [if_neg] at hf
    · exact Dialect.quoteName_of_known hf
    · intro hall
      have := List.all_eq_true.1 hall c (List.mem_append_right _ hc)
      simp [hn, hs] at this

/-- What an alias becomes between quotes: an alias that stays as it is. -/
structure SteadyLabel (d : Dialect) (l y : Text) : Prop where
  label : IsLabel d y
  stays : d.quoteName y = y
  mem : ∃ c ∈ y, isNameChar c = false ∧ c ≠ ' '
  expr : IsExpr d l → IsExpr d y

theorem quoteName_of_opensQuoted (ht : t.Tight) (h : d.opensQuoted t = true) :
    d.quoteName t = t :=
  Dialect.quoteName_of_known (form_of_opensQuoted ht h)

theorem mem_of_opensQuoted (h : d.opensQuoted t = true) :
    ∃ c ∈ t, isNameChar c = false ∧ c ≠ ' ' :=
  ⟨d.startQuote, List.mem_of_head? (beq_iff_eq.1 h), isNameChar_startQuote d,
    by cases d <;> decide⟩

theorem steadyLabel_of_opensQuoted (hl : IsLabel d l) (h : d.opensQuoted l = true) :
    SteadyLabel d l l :=
  ⟨hl, quoteName_of_opensQuoted hl.tight h, mem_of_opensQuoted h, id⟩

theorem beq_endQuote_of_isBoundary {c : Char} (h : isBoundary c = false) :
    (c == d.endQuote) = false := by
  refine beq_false_of_ne ?_
  rintro rfl
  revert h
  cases d <;> decide

/-- Words between quotes with dots between them. -/
theorem steadyLabel_path {ps : List Text} (hn : ps ≠ [])
    (h : ∀ p ∈ ps, ∀ c ∈ p, isBoundary c = false) :
    SteadyLabel d l (Text.join ['.'] (ps.map d.quote)) := by
  have hs : Solid d (Token.pathTokens d ps) :=
    solid_pathTokens hn fun p hp c hc => beq_endQuote_of_isBoundary (h p hp c hc)
  rw [← Token.textOf_pathTokens]
  have ho : d.opensQuoted (textOf (Token.pathTokens d ps)) = true :=
    beq_iff_eq.2 (Token.head?_pathTokens hn)
  refine ⟨⟨hs.tight, ?_⟩, quoteName_of_opensQuoted hs.tight ho, mem_of_opensQuoted ho,
    fun _ => ⟨?_, ?_⟩⟩
  all_goals rw [hs.tokenize_textOf]
  · refine cutAtAs_of_kind fun u hu => ?_
    rcases Token.kind_of_mem_pathTokens hu with hk | hk <;> simp [hk]
  · exact hs
  · refine Token.foldl_depthAfter (Token.level_of_kind (fun u hu => ?_) 0)
    rcases Token.kind_of_mem_pathTokens hu with hk | hk <;> simp [hk]

theorem steadyLabel_of_isWord (h : isWord l = true) : SteadyLabel d l (d.quoteName l) := by
  rw [d.quoteName_of_isPath (isPath_of_isWord h), splitBy_of_isWord h]
  refine steadyLabel_path (by simp) fun p hp c hc => ?_
  rw [List.mem_singleton.1 hp] at hc
  exact isBoundary_of_isNameChar (isNameChar_of_isWord h c hc)

theorem pathForm_of_isBoundary (hb : ∀ c ∈ t, isBoundary c = false) (h : pathForm d t = some y) :
    y = Text.join ['.'] ((Text.splitBy (· == '.') t).map d.quote) := by
  have hpath : quotePath d t = Text.join ['.'] ((Text.splitBy (· == '.') t).map d.quote) := by
    rw [quotePath]
    refine congrArg _ (List.map_congr_left fun w hw => if_neg fun ho => ?_)
    have hq := hb _ (Text.mem_of_mem_splitBy hw _ (List.mem_of_head? (beq_iff_eq.1 ho)))
    cases d <;> cases hq
  unfold pathForm at h
  split at h
  · next head rest hc =>
    obtain ⟨e, -, -, rfl⟩ := Text.eq_append_of_cutFirst hc
    split_ifs at h with hw hs
    · have hstar : isBoundary '*' = false := hb _ (by simp [beq_iff_eq.1 hs])
      cases hstar
    · exact (Option.some.inj h).symm.trans hpath
  · cases h

theorem splitAlias_of_tokenize {u : Token} (h : tokenize d t = [u]) : splitAlias d t = none := by
  rw [splitAlias, h, cutAtAs_singleton]
  rfl

/-- A word with dots or signs in it, as a number may begin it. -/
theorem steadyLabel_of_token {u : Token} (hl : IsLabel d l) (hk : u.kind = .ident)
    (ht : tokenize d l = [u]) : SteadyLabel d l (d.quoteName l) := by
  have hb : ∀ c ∈ l, isBoundary c = false := by
    have hs := Token.separate_tokenize d l
    have htext := Token.textOf_tokenize d l
    rw [ht] at hs htext
    rw [← htext, Token.textOf_cons, Token.textOf_nil, List.append_nil]
    exact hs.1.isBoundary_of_ident hk
  cases hw : isWord l with
  | true => exact steadyLabel_of_isWord hw
  | false =>
  have hd : isDistinct l = false := by
    by_contra hd
    rw [isWord_of_isDistinct (fun c hc => isBlank_of_isBoundary (hb c hc))
      (Bool.not_eq_false _ ▸ hd)] at hw
    cases hw
  rcases form_cases d hl.tight hd with hf | hf | ⟨y, hf, hy⟩ | ⟨c, -, hc⟩ | ⟨e, l', -, hs⟩
  · -- It stays as it is, since it has a character that no word has.
    rw [Dialect.quoteName_of_known hf]
    refine ⟨hl, Dialect.quoteName_of_known hf, ?_, id⟩
    have hn : l.isEmpty = false := by
      rw [List.isEmpty_eq_false_iff]
      exact hl.tight.ne_nil (List.prefix_refl l).isInfix
    rw [isWord, hn, Bool.not_false, Bool.true_and, List.all_eq_false] at hw
    obtain ⟨c, hc, hcn⟩ := hw
    refine ⟨c, hc, Bool.eq_false_iff.2 hcn, ?_⟩
    rintro rfl
    cases hb _ hc
  · -- It is put between quotes as a whole.
    rw [Dialect.quoteName_of_known hf]
    have hp : SteadyLabel d l (Text.join ['.'] ([l].map d.quote)) :=
      steadyLabel_path (by simp) (by simpa using hb)
    rwa [List.map_singleton, Text.join_singleton] at hp
  · -- It is put between quotes part by part.
    rw [Dialect.quoteName_of_known hf, pathForm_of_isBoundary hb hy]
    exact steadyLabel_path (Text.splitBy_ne_nil _ _) fun p hp c hc =>
      hb c (Text.mem_of_mem_splitBy hp c hc)
  · -- One token is no call, and has no alias.
    rw [quoteCall_eq_none.2 (by rw [ht]; rfl)] at hc
    cases hc
  · rw [splitAlias_of_tokenize ht] at hs
    cases hs

theorem Alias.quoteName_label (h : Alias d t e l us ms vs) : SteadyLabel d l (d.quoteName l) := by
  rcases h.named with hi | ho | ⟨⟨u, hk, rfl⟩, -⟩
  · exact steadyLabel_of_isWord (isWord_of_isIdentifier hi)
  · rw [quoteName_of_opensQuoted h.tight ho]
    exact steadyLabel_of_opensQuoted h.isLabel ho
  · exact steadyLabel_of_token h.isLabel hk h.tokenize_label

/-- The alias of an operand is one. -/
theorem Alias.isExpr_label (h : Alias d t e l us ms vs) (ht : IsExpr d t) : IsExpr d l where
  solid := by
    rw [h.tokenize_label]
    refine ⟨h.label ▸ h.tight.head, fun hr => ?_⟩
    have hs := ht.solid.separate hr
    rw [h.tokens] at hs
    exact (Token.Separate.append_iff.1 hs).2
  depth := by
    have hm : ms.foldl depthAfter 0 = 0 :=
      Token.foldl_depthAfter (Token.level_of_kind
        (fun u hu => by rcases h.between u hu with hk | hk <;> simp [hk]) 0)
    have hd := ht.depth
    rwa [h.tokens, List.foldl_append, List.foldl_append, h.depth, hm, ← h.tokenize_label] at hd

theorem IsExpr.joined (he : IsExpr d e) (hl : IsExpr d l) : IsExpr d (e ++ " AS " ++ l) where
  solid := by
    rw [tokenize_joined he.solid hl.tight]
    exact he.solid.join_word hl.solid (ends_asToken d) ⟨'A', rfl, rfl⟩
  depth := by
    rw [tokenize_joined he.solid hl.tight, List.foldl_append, List.foldl_append, he.depth]
    exact hl.depth

/-- An alias does not matter for what a text begins with. -/
theorem Alias.isDistinct_expr (h : Alias d t e l us ms vs) : isDistinct t = isDistinct e := by
  have ht := Token.textOf_tokenize d t
  have hs := Token.separate_tokenize d t
  obtain ⟨g, hg, hk⟩ := h.gap
  obtain ⟨gs, hgs⟩ := List.head?_eq_some_iff.1 hg
  rw [h.tokens, List.append_assoc, hgs, List.cons_append] at hs ht
  have hg := (Token.Separate.append_iff.1 hs).2.1
  rw [Token.textOf_append, h.expr] at ht
  rw [← ht]
  refine isDistinct_append fun c hc => ?_
  rw [Token.head?_textOf_cons hg] at hc
  exact (hg.isBlank_head hc).2 hk

/-! ### Names that have their quotes -/

/-- What a name becomes between quotes: it stays as it is, and as the expression of an alias it is
found again. -/
structure Steady (d : Dialect) (t y : Text) : Prop where
  tight : y.Tight
  stays : d.quoteName y = y
  isDistinct : isDistinct y = false
  expr : IsExpr d t → d.opensQuoted y = true ∨ IsExpr d y

theorem steady_of_opensQuoted (hy : y.Tight) (h : d.opensQuoted y = true) : Steady d t y :=
  ⟨hy, quoteName_of_opensQuoted hy h, isDistinct_of_opensQuoted h, fun _ => .inl h⟩

theorem steady_joined (he : Steady d e y) (hx : IsExpr d e) {z : Text} (hl : SteadyLabel d l z)
    (ht : IsExpr d t → IsExpr d l) : Steady d t (y ++ " AS " ++ z) := by
  have htight := he.tight.append hl.label.tight " AS "
  -- Behind a quote that opens it the whole text stays; else its alias is found again.
  cases ho : d.opensQuoted y with
  | true =>
    rw [List.append_assoc] at htight ⊢
    exact steady_of_opensQuoted htight (opensQuoted_append ho _)
  | false =>
  have hy : IsExpr d y := (he.expr hx).resolve_left (Bool.eq_false_iff.1 ho)
  refine ⟨htight, quoteName_joined hy hl.label he.isDistinct ho he.stays hl.stays hl.mem, ?_, ?_⟩
  · rw [List.append_assoc, isDistinct_append (by rintro _ ⟨⟩; rfl), he.isDistinct]
  · exact fun h => .inr (hy.joined (hl.expr (ht h)))

theorem steady_quoteName (ht : t.Tight) (hp : Paired d (tokenize d t)) (hd : isDistinct t = false) :
    Steady d t (d.quoteName t) := by
  -- Of an alias only the expression can be an alias again, and it is shorter.
  induction hn : t.length using Nat.strongRecOn generalizing t with
  | ind n ih =>
  rcases form_cases d ht hd with hf | hf | ⟨y, hf, hy⟩ | ⟨c, hf, hc⟩ | ⟨e, l, hf, hs⟩
  · have hk := Dialect.quoteName_of_known hf
    rw [hk]
    exact ⟨ht, hk, hd, .inr⟩
  · rw [Dialect.quoteName_of_known hf]
    exact steady_of_opensQuoted (tight_quote d t) (opensQuoted_quote d t)
  · rw [Dialect.quoteName_of_known hf]
    exact steady_of_opensQuoted (pathForm_eq_some hy).2 (pathForm_eq_some hy).1
  · rw [Dialect.quoteName_of_known hf]
    obtain ⟨f, is, hq⟩ := exists_quoteCall hp hc
    exact ⟨hq.tight, Dialect.quoteName_of_known hq.form_eq, hq.isDistinct, fun _ => .inr hq.isExpr⟩
  · rw [Dialect.quoteName_of_aliased hf]
    obtain ⟨us, ms, vs, ha⟩ := exists_alias ht hs
    refine steady_joined (ih e.length ?_ ha.isExpr.tight ?_ ?_ rfl) ha.isExpr ha.quoteName_label
      ha.isExpr_label
    · exact hn ▸ (length_splitAlias hs).1
    · rw [ha.tokenize_expr]
      refine fun u hu => hp u ?_
      rw [ha.tokens]
      simp [hu]
    · rw [← ha.isDistinct_expr, hd]

end Identifier

namespace Dialect

open Identifier

/-- The blanks around a name do not matter. -/
theorem quoteName_trim (d : Dialect) (t : Text) : d.quoteName (Text.trim t) = d.quoteName t := by
  have hf : form d (Text.trim t) = form d t := by rw [form, form, Text.trim_trim]
  cases h : form d t with
  | known text => rw [quoteName_of_known h, quoteName_of_known (hf.trans h)]
  | distinct rest => rw [quoteName_of_distinct h, quoteName_of_distinct (hf.trans h)]
  | aliased expr label => rw [quoteName_of_aliased h, quoteName_of_aliased (hf.trans h)]

theorem quoteName_distinct (hy : y.Tight) (hs : d.quoteName y = y) :
    d.quoteName ("DISTINCT " ++ y) = "DISTINCT " ++ y ∧ Text.Tight ("DISTINCT " ++ y) := by
  have ht : Text.Tight ("DISTINCT " ++ y) :=
    Text.Tight.append (a := "DISTINCT") ⟨⟨'D', rfl, rfl⟩, ⟨'T', rfl, rfl⟩⟩ hy " "
  have hw : isWord ("DISTINCT " ++ y) = false := isWord_eq_false (c := ' ') (by simp) rfl
  have hf := form_of_afterDistinct d ht hw (afterDistinct_distinct hy)
  exact ⟨by rw [quoteName_of_distinct hf, hs], ht⟩

theorem quoteName_stays (ht : t.Tight) (hp : Paired d (tokenize d t)) :
    d.quoteName (d.quoteName t) = d.quoteName t ∧ (d.quoteName t).Tight := by
  induction hn : t.length using Nat.strongRecOn generalizing t with
  | ind n ih =>
  cases hw : isWord t with
  | true =>
    have hl := steadyLabel_of_isWord (d := d) hw
    exact ⟨hl.stays, hl.label.tight⟩
  | false =>
  cases hd : afterDistinct t with
  | none =>
    have hs := steady_quoteName ht hp (isDistinct_of_afterDistinct ht hd hw)
    exact ⟨hs.stays, hs.tight⟩
  | some rest =>
    obtain ⟨hs, hy⟩ := ih rest.length (hn ▸ length_afterDistinct hd) (tight_of_afterDistinct hd)
      (paired_of_afterDistinct hp hd) rfl
    rw [quoteName_of_distinct (form_of_afterDistinct d ht hw hd)]
    exact quoteName_distinct hy hs

/-- A name between quotes stays as it is, unless a closing quote that opens nothing stands alone. -/
theorem quoteName_quoteName (h : d = .sqlServer → (⟨.operator, "]"⟩ : Token) ∉ tokenize d t) :
    d.quoteName (d.quoteName t) = d.quoteName t := by
  rw [← quoteName_trim d t]
  by_cases hn : Text.trim t = []
  · have he : d.quoteName [] = [] := quoteName_of_known rfl
    rw [hn, he, he]
  · exact (quoteName_stays (Text.tight_trim hn) (paired_trim (paired_tokenize h))).1

end Dialect

namespace DataSource

/-- With its memory off, or with one in which no two descriptions have the same key, a data source
leaves a name that it has put between quotes as it is. -/
theorem run_ask_idempotent {ds : DataSource}
    (hm : ds.memo.enabled = false ∨
      ∃ pool cs, (∀ ds ∈ pool, ds.memo.Fresh) ∧ (∀ c ∈ cs, c.2.Fresh) ∧ ds ∈ Command.exec pool cs)
    {t : Text} (ht : ds.source.dialect = .sqlServer →
      (⟨.operator, "]"⟩ : Token) ∉ tokenize ds.source.dialect t) :
    let once := ds.run fun _ => Render.ask t
    (once.2.run fun _ => Render.ask once.1).1 = once.1 := by
  intro once
  have hname := ds.source.dialect.quoteName_quoteName ht
  rcases hm with hm | ⟨pool, cs, hp, hc, hds⟩
  · have h := (transparent_of_disabled ds.source).run (Render.ask t) ds.memo hm
    have h1 : once.1 = ds.source.dialect.quoteName t := h.1
    have h2 : once.2.memo.enabled = false := h.2
    rw [run_of_disabled h2, h1]
    exact hname
  · have hf := Command.faithful_exec (fun ds hd => (hp ds hd).faithful _) hc ds hds
    obtain ⟨h1, h2⟩ := hf.run fun _ => Render.ask t
    have h1 : once.1 = ds.source.dialect.quoteName t := h1
    have h2 : once.2.Faithful := h2
    rw [(h2.run _).1, h1]
    exact hname

/-- A name with an alias, asked for twice under quotes that open and close with different
characters. -/
theorem run_ask_idempotent_alias :
    let ds := ((ofSource {}).setDialect .sqlServer).2
    let once := ds.run fun _ => Render.ask "Post.id AS key"
    ds ∈ Command.exec [ofSource {}] [(0, .setDialect .sqlServer)] ∧
      (⟨.operator, "]"⟩ : Token) ∉ tokenize .sqlServer "Post.id AS key" ∧
      (once.2.run fun _ => Render.ask once.1).1 = once.1 := by
  intro ds once
  have hp : ∀ ds ∈ [ofSource {}], ds.memo.Fresh :=
    List.forall_mem_singleton.2 ⟨rfl, Function.injective_id⟩
  have hc : ∀ c ∈ [(0, Command.setDialect .sqlServer)], c.2.Fresh := by simp [Command.Fresh]
  have hds : ds ∈ Command.exec [ofSource {}] [(0, .setDialect .sqlServer)] := List.mem_cons_self
  have ht : (⟨.operator, "]"⟩ : Token) ∉ tokenize .sqlServer "Post.id AS key" := fun hu =>
    absurd (Token.mem_of_mem_tokenize hu (c := ']') (by decide)) (by decide)
  exact ⟨hds, ht, run_ask_idempotent (.inr ⟨_, _, hp, hc, hds⟩) fun _ => ht⟩

end DataSource

end SqlComposer
