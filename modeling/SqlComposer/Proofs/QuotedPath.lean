import SqlComposer.Proofs.QuotedNames

/-!
# Parts of a path among the tokens

A path is written part by part between quotes, and a quote inside a part is written as it is. Among
the tokens a doubled closing quote stands for itself, and any other ends the identifier. So a path is
read back part by part exactly if the closing quotes inside its parts are doubled.
-/

namespace SqlComposer

open CharClass

/-! ### Texts with separators -/

namespace Text

theorem length_le_count_join (c : Char) (w : Text) (ws : List Text) :
    ws.length ≤ (join [c] (w :: ws)).count c := by
  induction ws generalizing w with
  | nil => exact Nat.zero_le _
  | cons v vs ih =>
    have := ih v
    rw [join_cons_cons, List.count_append, List.count_append, List.count_singleton_self,
      List.length_cons]
    omega

/-- So many separators stand in a text if they stand between its items only. -/
theorem count_join_eq_length_iff (c : Char) (w : Text) (ws : List Text) :
    (join [c] (w :: ws)).count c = ws.length ↔ ∀ v ∈ w :: ws, c ∉ v := by
  induction ws generalizing w with
  | nil => simp [List.count_eq_zero]
  | cons v vs ih =>
    have hle := length_le_count_join c v vs
    rw [List.forall_mem_cons, ← ih v, ← List.count_eq_zero, join_cons_cons, List.count_append,
      List.count_append, List.count_singleton_self, List.length_cons]
    omega

/-- Where separators stand nowhere else, the items are determined. -/
theorem join_inj {c : Char} {vs ws : List Text} (hl : vs.length = ws.length)
    (hw : ∀ w ∈ ws, c ∉ w) (h : join [c] vs = join [c] ws) : vs = ws := by
  cases ws with
  | nil => exact List.length_eq_zero_iff.1 hl
  | cons w ws =>
    obtain ⟨v, vs, rfl⟩ := List.exists_cons_of_length_eq_add_one hl
    have hv : ∀ v' ∈ v :: vs, c ∉ v' := by
      rw [← count_join_eq_length_iff, h, (count_join_eq_length_iff c w ws).2 hw]
      exact (Nat.add_right_cancel hl).symm
    rw [← List.splitOn_intercalate c hv (by simp), ← List.splitOn_intercalate c hw (by simp)]
    exact congrArg (List.splitOn c) h

end Text

namespace Token

variable {d : Dialect} {t w b : Text} {e : Char} {rest : Text}

/-! ### Doubled quotes -/

/-- A text in which each closing quote is doubled. -/
def doubled (e : Char) (t : Text) : Text :=
  t.flatMap fun c => if c = e then [e, e] else [c]

theorem doubled_cons_self (e : Char) (t : Text) : doubled e (e :: t) = e :: e :: doubled e t := by
  simp [doubled]

theorem doubled_cons_of_ne {c : Char} (hc : c ≠ e) (t : Text) :
    doubled e (c :: t) = c :: doubled e t := by
  simp [doubled, hc]

/-- Whether a text that stands in front of `rest` is what follows an opening quote: an identifier
with its closing quotes doubled, and behind it a closing quote, or nothing if `rest` is empty. -/
def IsQuoteBody (e : Char) (rest cs : Text) : Prop :=
  ∃ t, cs = doubled e t ++ [e] ∨ rest = [] ∧ cs = doubled e t

theorem isQuoteBody_nil : IsQuoteBody e rest [] ↔ rest = [] := by
  constructor
  · rintro ⟨t, h | ⟨h, -⟩⟩
    · simp at h
    · exact h
  · exact fun h => ⟨[], .inr ⟨h, rfl⟩⟩

theorem isQuoteBody_singleton (e : Char) (rest : Text) : IsQuoteBody e rest [e] :=
  ⟨[], .inl rfl⟩

theorem isQuoteBody_cons_of_ne {c : Char} (hc : c ≠ e) (cs : Text) :
    IsQuoteBody e rest (c :: cs) ↔ IsQuoteBody e rest cs := by
  constructor
  · rintro ⟨_ | ⟨x, t⟩, h⟩
    · rcases h with h | ⟨-, h⟩
      · exact absurd (List.cons.inj h).1 hc
      · cases h
    · have hx : x ≠ e := by
        rintro rfl
        rw [doubled_cons_self] at h
        rcases h with h | ⟨-, h⟩ <;> exact hc (List.cons.inj h).1
      rw [doubled_cons_of_ne hx] at h
      exact ⟨t, h.imp (fun h => (List.cons.inj h).2) fun h => ⟨h.1, (List.cons.inj h.2).2⟩⟩
  · rintro ⟨t, h⟩
    refine ⟨c :: t, ?_⟩
    rw [doubled_cons_of_ne hc]
    exact h.imp (fun h => by rw [h, List.cons_append]) fun h => ⟨h.1, by rw [h.2]⟩

theorem isQuoteBody_cons_cons {x : Char} {cs : Text} :
    IsQuoteBody e rest (e :: x :: cs) ↔ x = e ∧ IsQuoteBody e rest cs := by
  constructor
  · rintro ⟨_ | ⟨y, t⟩, h⟩
    · rcases h with h | ⟨-, h⟩ <;> cases h
    · have hy : y = e := by
        by_contra hy
        rw [doubled_cons_of_ne hy] at h
        rcases h with h | ⟨-, h⟩ <;> exact hy (List.cons.inj h).1.symm
      rw [hy, doubled_cons_self] at h
      rcases h with h | ⟨hr, h⟩
      · obtain ⟨hx, h⟩ := List.cons.inj (List.cons.inj h).2
        exact ⟨hx, t, .inl h⟩
      · obtain ⟨hx, h⟩ := List.cons.inj (List.cons.inj h).2
        exact ⟨hx, t, .inr ⟨hr, h⟩⟩
  · rintro ⟨rfl, t, h⟩
    refine ⟨x :: t, ?_⟩
    rw [doubled_cons_self]
    exact h.imp (fun h => by rw [h, List.cons_append, List.cons_append]) fun h => ⟨h.1, by rw [h.2]⟩

theorem quotedLength_cons {c : Char} (hc : c ≠ e) (cs : Text) :
    quotedLength e false (c :: cs) = quotedLength e false cs + 1 := by
  cases cs with
  | nil => rfl
  | cons x cs => simp [quotedLength, hc]

/-- What is read behind an opening quote. -/
theorem quotedLength_eq_length_iff {cs : Text} (hr : ∀ c ∈ rest.head?, c ≠ e) :
    quotedLength e false (cs ++ rest) = cs.length ↔ IsQuoteBody e rest cs := by
  induction hn : cs.length using Nat.strongRecOn generalizing cs with
  | ind n ih =>
    subst hn
    cases cs with
    | nil =>
      rw [isQuoteBody_nil, List.nil_append, List.length_nil]
      cases rest with
      | nil => simp [quotedLength]
      | cons x r => simp [(Delimits.quotedLength_pos e false x r).ne']
    | cons c cs =>
      by_cases hc : c = e
      · subst hc
        cases cs with
        | nil =>
          refine iff_of_true ?_ (isQuoteBody_singleton c rest)
          cases rest with
          | nil => rfl
          | cons x r => simp [quotedLength, hr x rfl]
        | cons x cs =>
          rw [isQuoteBody_cons_cons, ← ih cs.length (by simp only [List.length_cons]; omega) rfl]
          by_cases hx : x = c
          · simp [quotedLength, hx]
          · simp [quotedLength, hx]
      · rw [List.cons_append, quotedLength_cons hc, isQuoteBody_cons_of_ne hc,
          ← ih cs.length (by simp) rfl, List.length_cons, Nat.add_right_cancel_iff]

/-! ### Identifiers with dots between them -/

/-- Whether a text is an identifier between quotes, with the closing quotes inside it doubled. -/
def IsQuoted (d : Dialect) (w : Text) : Prop :=
  ∃ t, w = d.quote (doubled d.endQuote t)

/-- Whether a text is such an identifier without the closing quote at its end. -/
def IsUnclosed (d : Dialect) (w : Text) : Prop :=
  ∃ t, w = d.startQuote :: doubled d.endQuote t

theorem ends_quotedIdent_iff (hw : d.opensQuoted w = true) (hr : ∀ c ∈ rest.head?, c ≠ d.endQuote) :
    (⟨.quotedIdent, w⟩ : Token).Ends d rest ↔ IsQuoted d w ∨ rest = [] ∧ IsUnclosed d w := by
  obtain ⟨cs, rfl⟩ := List.head?_eq_some_iff.1 (beq_iff_eq.1 hw)
  have hends : (⟨.quotedIdent, d.startQuote :: cs⟩ : Token).Ends d rest ↔
      quotedLength d.endQuote false (cs ++ rest) = cs.length := by
    constructor
    · rintro ⟨c, cs', ht, hx⟩
      obtain ⟨rfl, rfl⟩ := List.cons.inj ht
      rw [start_startQuote] at hx
      exact (Prod.mk.inj hx).2
    · intro hl
      refine ⟨d.startQuote, cs, rfl, ?_⟩
      rw [start_startQuote, Start.extent, hl]
  rw [hends, quotedLength_eq_length_iff hr]
  constructor
  · rintro ⟨t, rfl | ⟨hrest, rfl⟩⟩
    · exact .inl ⟨t, rfl⟩
    · exact .inr ⟨hrest, t, rfl⟩
  · rintro (⟨t, ht⟩ | ⟨hrest, t, ht⟩)
    · exact ⟨t, .inl (List.cons.inj ht).2⟩
    · exact ⟨t, .inr ⟨hrest, (List.cons.inj ht).2⟩⟩

/-- The kinds of so many identifiers between quotes with dots between them. -/
def dottedKinds (n : Nat) : List TokenKind :=
  (List.replicate n .quotedIdent).intersperse .dot

theorem map_kind_dotted (ws : List Text) : (dotted ws).map kind = dottedKinds ws.length := by
  induction ws with
  | nil => rfl
  | cons w ws ih =>
    cases ws with
    | nil => rfl
    | cons v vs => exact congrArg (fun ks => .quotedIdent :: .dot :: ks) ih

/-- The kinds decide but for the texts of the identifiers. -/
theorem exists_dotted {us : List Token} {n : Nat} (h : Separate d us rest)
    (hk : us.map kind = dottedKinds n) : ∃ ws, ws.length = n ∧ us = dotted ws := by
  induction n generalizing us with
  | zero => exact ⟨[], rfl, List.map_eq_nil_iff.1 hk⟩
  | succ n ih =>
    cases n with
    | zero =>
      obtain ⟨u, rfl, hu⟩ := List.map_eq_singleton_iff.1 hk
      exact ⟨[u.text], rfl, by rw [dotted, ← hu]; rfl⟩
    | succ n =>
      obtain ⟨u, us, rfl, hu, hk⟩ := List.map_eq_cons_iff.1 hk
      obtain ⟨v, us, rfl, hv, hk⟩ := List.map_eq_cons_iff.1 hk
      obtain ⟨ws, hl, rfl⟩ := ih h.2.2 hk
      obtain ⟨w, ws, rfl⟩ := List.exists_cons_of_length_eq_add_one hl
      refine ⟨u.text :: w :: ws, by rw [List.length_cons, hl], ?_⟩
      rw [h.2.1.eq_sign hv rfl]
      have hu : u = ⟨.quotedIdent, u.text⟩ := by rw [← hu]
      rw [hu]
      rfl

/-- Whether each text is an identifier between quotes, of which the last may be left open. -/
def AreQuoted (d : Dialect) (ws : List Text) : Prop :=
  (∀ w ∈ ws.dropLast, IsQuoted d w) ∧ ∀ w ∈ ws.getLast?, IsQuoted d w ∨ IsUnclosed d w

theorem separate_dotted_iff {ws : List Text} (h : ∀ w ∈ ws, d.opensQuoted w = true) :
    Separate d (dotted ws) [] ↔ AreQuoted d ws := by
  induction ws with
  | nil => simp [dotted, Separate, AreQuoted]
  | cons w ws ih =>
    obtain ⟨hw, hws⟩ := List.forall_mem_cons.1 h
    cases ws with
    | nil =>
      have hnil : ∀ c ∈ ([] : Text).head?, c ≠ d.endQuote := by simp
      have hends := ends_quotedIdent_iff hw hnil
      simp only [dotted, List.map_cons, List.map_nil, List.intersperse_singleton, Separate,
        textOf_nil, List.append_nil, hends]
      simp [AreQuoted]
    | cons v vs =>
      have hd : dotted (w :: v :: vs) = ⟨.quotedIdent, w⟩ :: dotToken :: dotted (v :: vs) := rfl
      have hdot : ∀ c ∈ ('.' :: textOf (dotted (v :: vs))).head?, c ≠ d.endQuote := by
        rintro _ ⟨⟩
        cases d <;> decide
      have htext : textOf (dotToken :: dotted (v :: vs)) ++ [] = '.' :: textOf (dotted (v :: vs)) := by
        rw [List.append_nil]
        rfl
      have hends : dotToken.Ends d (textOf (dotted (v :: vs)) ++ []) := .of_sign rfl d _
      rw [hd, Separate, Separate, htext, ends_quotedIdent_iff hw hdot, ih hws, and_iff_right hends]
      simp [AreQuoted, and_assoc]

end Token

/-! ### Paths -/

namespace Identifier

open Token (tokenize AreQuoted IsQuoted IsUnclosed dotted dottedKinds)

variable {d : Dialect} {t head rest : Text}

/-- The parts of a path as they are written. -/
def writtenParts (d : Dialect) (t : Text) : List Text :=
  (Text.splitBy (· == '.') t).map fun part => if d.opensQuoted part then part else d.quote part

theorem opensQuoted_of_mem_writtenParts : ∀ w ∈ writtenParts d t, d.opensQuoted w = true := by
  refine List.forall_mem_map.2 fun p _ => ?_
  split_ifs with hp
  · exact hp
  · exact opensQuoted_quote d p

theorem not_mem_of_mem_writtenParts : ∀ w ∈ writtenParts d t, '.' ∉ w := by
  refine List.forall_mem_map.2 fun p hp => ?_
  have hn := Text.not_mem_of_mem_splitBy hp
  split_ifs
  · exact hn
  · have hq : '.' ≠ d.startQuote ∧ '.' ≠ d.endQuote := by cases d <;> decide
    simp [Dialect.quote, hn, hq]

/-- A word, a dot and a row without blanks, stars, parentheses, commas and strings is written as a
path. -/
theorem form_of_isPlainPath (hc : Text.cutFirst (· == '.') t = some (head, rest))
    (hw : isWord head = true) (hp : isPlainPath d rest = true) : form d t = .known (quotePath d t) := by
  obtain ⟨e, he, -, ht⟩ := Text.eq_append_of_cutFirst hc
  have he : e = '.' := beq_iff_eq.1 he
  subst he
  have hdot : '.' ∈ t := by simp [ht]
  have hblank : ∀ c ∈ t, isBlank c = false := by
    rw [ht]
    refine List.forall_mem_append.2 ⟨fun c hc => ?_, List.forall_mem_cons.2 ⟨rfl, ?_⟩⟩
    · exact isBlank_of_isNameChar (isNameChar_of_isWord hw c hc)
    · exact isBlank_of_isPlainPath hp
  have htight : t.Tight := Text.tight_of_forall (List.ne_nil_of_mem hdot) hblank
  have hstar : (rest == ['*']) = false := by
    refine beq_false_of_ne ?_
    rintro rfl
    cases hp
  have hpath : pathForm d t = some (quotePath d t) := by
    rw [pathForm, hc]
    simp [hw, hstar, hp]
  have hopens : d.opensQuoted t = false := by
    have := opensQuoted_of_isWord d hw
    rw [ht]
    cases head with
    | nil => cases hw
    | cons c cs => exact this
  have hdistinct : afterDistinct t = none := by
    have hcut : Text.cutFirst isBlank t = none := Text.cutFirst_eq_none_iff.2 hblank
    rw [afterDistinct, hcut]
  have hne : (t == ['*']) = false := by
    refine beq_false_of_ne ?_
    rintro rfl
    simp at hdot
  have hempty : t.isEmpty = false := List.isEmpty_eq_false_iff.2 (List.ne_nil_of_mem hdot)
  rw [form, htight.trim, trimmedForm, hempty, hne, hopens, isWord_eq_false hdot rfl, hdistinct, hpath]
  rfl

/-- The tokens of a path as it is written are its parts with dots between them, one for each part,
if and only if each part is an identifier with the closing quotes inside it doubled; only the last
may be left open. -/
theorem tokenize_quoteName_path_iff (hc : Text.cutFirst (· == '.') t = some (head, rest))
    (hw : isWord head = true) (hp : isPlainPath d rest = true) :
    let ws := writtenParts d t
    d.quoteName t = Text.join ['.'] ws ∧
      ((tokenize d (d.quoteName t)).map Token.kind = dottedKinds ws.length ↔ AreQuoted d ws) ∧
      (tokenize d (d.quoteName t) = dotted ws ↔ AreQuoted d ws) := by
  intro ws
  have hname : d.quoteName t = Text.join ['.'] ws :=
    Dialect.quoteName_of_known (form_of_isPlainPath hc hw hp)
  have hsep : Token.Separate d (dotted ws) [] ↔ AreQuoted d ws :=
    Token.separate_dotted_iff opensQuoted_of_mem_writtenParts
  have htokens : tokenize d (d.quoteName t) = dotted ws ↔ AreQuoted d ws := by
    rw [← hsep, hname, ← Token.textOf_dotted]
    refine ⟨fun h => ?_, fun h => h.tokenize_textOf⟩
    have hs := Token.separate_tokenize d (Token.textOf (dotted ws))
    rwa [h] at hs
  refine ⟨hname, ⟨fun hk => htokens.1 ?_, fun h => ?_⟩, htokens⟩
  · -- As many dots separate the tokens as the parts, so no token contains one.
    obtain ⟨vs, hl, hvs⟩ := Token.exists_dotted (Token.separate_tokenize d _) hk
    have htext := Token.textOf_tokenize d (d.quoteName t)
    rw [hvs, Token.textOf_dotted, hname] at htext
    rw [hvs, Text.join_inj hl not_mem_of_mem_writtenParts htext]
  · rw [htokens.2 h, Token.map_kind_dotted]

/-- Doubled quotes in a part, and a last part that is left open. -/
theorem tokenize_quoteName_path_iff_doubled :
    let t : Text := "Post.user``id.`x"
    let ws : List Text := ["`Post`", "`user``id`", "`x"]
    Text.cutFirst (· == '.') t = some ("Post".toList, "user``id.`x".toList) ∧
      isWord "Post" = true ∧ isPlainPath .mySql "user``id.`x" = true ∧ writtenParts .mySql t = ws ∧
      tokenize .mySql (Dialect.quoteName .mySql t) = dotted ws := by
  intro t ws
  have hc : Text.cutFirst (· == '.') t = some ("Post".toList, "user``id.`x".toList) := by decide
  have hw : isWord "Post" = true := by decide +kernel
  have hp : isPlainPath .mySql "user``id.`x" = true := by decide
  have hparts : writtenParts .mySql t = ws := by decide
  have hquoted : AreQuoted .mySql ws := by
    refine ⟨List.forall_mem_cons.2 ⟨⟨"Post", rfl⟩, List.forall_mem_singleton.2 ⟨"user`id", rfl⟩⟩, ?_⟩
    rintro _ ⟨⟩
    exact .inr ⟨"x", rfl⟩
  have h := (tokenize_quoteName_path_iff hc hw hp).2.2
  rw [hparts] at h
  exact ⟨hc, hw, hp, hparts, h.2 hquoted⟩

/-- A quote inside a part is not doubled, and ends its identifier. -/
theorem quote_ends_part :
    let t : Text := "a.b`c"
    Text.trim t = t ∧ Text.cutFirst (· == '.') t = some ("a".toList, "b`c".toList) ∧
      isWord "a" = true ∧ isPlainPath .mySql "b`c" = true ∧
      Dialect.quoteName .mySql t = "`a`.`b`c`" ∧
      (tokenize .mySql (Dialect.quoteName .mySql t)).map Token.kind =
        [.quotedIdent, .dot, .quotedIdent, .ident, .quotedIdent] ∧
      (tokenize .mySql (Dialect.quoteName .mySql t)).map Token.kind ≠ dottedKinds 2 := by
  decide +kernel

end Identifier

end SqlComposer
