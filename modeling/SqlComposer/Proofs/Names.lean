import SqlComposer.Identifier
import SqlComposer.Proofs.TokenBoundary
import SqlComposer.Proofs.Trim

/-!
# Names between quotes

A name, with its qualifiers in front and dots between them, contains no blanks and no quotes. So it
is written part by part between quotes, and each part is one token of what is written.
-/

namespace SqlComposer

open CharClass

namespace Text

theorem cutFirst_eq_none_iff {p : Char → Bool} {t : Text} :
    cutFirst p t = none ↔ ∀ c ∈ t, p c = false := by
  induction t with
  | nil => simp [cutFirst]
  | cons c cs ih => cases hc : p c <;> simp [cutFirst, hc, ih]

theorem cutFirst_append {p : Char → Bool} {a b : Text} {c : Char} (ha : ∀ e ∈ a, p e = false)
    (hc : p c = true) : cutFirst p (a ++ c :: b) = some (a, b) := by
  induction a with
  | nil => simp [cutFirst, hc]
  | cons e es ih =>
    obtain ⟨he, hes⟩ := List.forall_mem_cons.1 ha
    simp [cutFirst, he, ih hes]

theorem cutLast_eq_none_iff {p : Char → Bool} {t : Text} :
    cutLast p t = none ↔ ∀ c ∈ t, p c = false := by
  induction t with
  | nil => simp [cutLast]
  | cons c cs ih =>
    rw [List.forall_mem_cons, ← ih, cutLast]
    cases cutLast p cs <;> simp

theorem cutLast_append {p : Char → Bool} {a b : Text} {c : Char} (hc : p c = true)
    (hb : ∀ e ∈ b, p e = false) : cutLast p (a ++ c :: b) = some (a, b) := by
  induction a with
  | nil => simp [cutLast, cutLast_eq_none_iff.2 hb, hc]
  | cons e es ih => simp [cutLast, ih]

theorem eq_append_of_cutLast {p : Char → Bool} {t a b : Text} (h : cutLast p t = some (a, b)) :
    ∃ c, p c = true ∧ (∀ e ∈ b, p e = false) ∧ t = a ++ c :: b := by
  induction t generalizing a with
  | nil => cases h
  | cons c cs ih =>
    rw [cutLast] at h
    split at h
    · next r hcs =>
      cases h
      obtain ⟨e, he, hb, rfl⟩ := ih hcs
      exact ⟨e, he, hb, rfl⟩
    · next hcs =>
      split at h
      · next hc =>
        cases h
        exact ⟨c, hc, cutLast_eq_none_iff.1 hcs, rfl⟩
      · cases h

theorem before?_append (x tail : Text) : before? tail (x ++ tail) = some x := by
  have hs : tail <:+ x ++ tail := List.suffix_append x tail
  rw [before?, if_pos (List.isSuffixOf_iff_suffix.2 hs), List.length_append, Nat.add_sub_cancel,
    List.take_left]

theorem before?_eq_none {tail t : Text} (h : ¬tail <:+ t) : before? tail t = none := by
  rw [before?, if_neg (by rwa [List.isSuffixOf_iff_suffix])]

/-- The pieces between characters, one after another. -/
theorem splitBy_eq (p : Char → Bool) (t : Text) :
    splitBy p t =
      match cutFirst p t with
      | none => [t]
      | some (a, b) => a :: splitBy p b := by
  induction t with
  | nil => rfl
  | cons c cs ih =>
    cases hc : p c with
    | true => simp only [splitBy, cutFirst, hc, if_true]
    | false =>
      simp only [splitBy, cutFirst, hc, Bool.false_eq_true, if_false, ih]
      cases cutFirst p cs <;> rfl

theorem eq_append_of_cutFirst {p : Char → Bool} {t a b : Text} (h : cutFirst p t = some (a, b)) :
    ∃ c, p c = true ∧ (∀ e ∈ a, p e = false) ∧ t = a ++ c :: b := by
  induction t generalizing a with
  | nil => cases h
  | cons c cs ih =>
    rw [cutFirst] at h
    split at h
    · next hc =>
      cases h
      exact ⟨c, hc, by simp, rfl⟩
    · next hc =>
      obtain ⟨r, hr, he⟩ := Option.map_eq_some_iff.1 h
      cases he
      obtain ⟨e, he, ha, rfl⟩ := ih hr
      exact ⟨e, he, List.forall_mem_cons.2 ⟨by simpa using hc, ha⟩, rfl⟩

theorem splitBy_ne_nil (p : Char → Bool) (t : Text) : splitBy p t ≠ [] := by
  rw [splitBy_eq]
  cases cutFirst p t <;> simp

theorem splitBy_append_cons {p : Char → Bool} {c : Char} (hc : p c = true) (a b : Text) :
    splitBy p (a ++ c :: b) = splitBy p a ++ splitBy p b := by
  induction a with
  | nil => simp [splitBy, hc]
  | cons e a ih =>
    rw [List.cons_append, splitBy, splitBy, ih]
    split_ifs
    · rfl
    · obtain ⟨w, ws, hw⟩ := List.exists_cons_of_ne_nil (splitBy_ne_nil p a)
      simp only [hw, List.cons_append]

theorem mem_splitBy {p : Char → Bool} {t : Text} {c : Char} (h : c ∈ t) :
    p c = true ∨ ∃ w ∈ splitBy p t, c ∈ w := by
  induction t with
  | nil => cases h
  | cons e es ih =>
    rw [splitBy]
    split
    · next he =>
      rcases List.mem_cons.1 h with rfl | h
      · exact .inl he
      · exact (ih h).imp_right (Exists.imp fun w hw => hw.imp_left (List.mem_cons_of_mem _))
    · split
      · next hs =>
        rw [hs] at ih
        rcases List.mem_cons.1 h with rfl | h
        · exact .inr ⟨_, List.mem_cons_self, List.mem_cons_self⟩
        · exact .inl ((ih h).resolve_right (by simp))
      · next w ws hs =>
        rw [hs] at ih
        rcases List.mem_cons.1 h with rfl | h
        · exact .inr ⟨_, List.mem_cons_self, List.mem_cons_self⟩
        · refine (ih h).imp_right fun hw => ?_
          obtain ⟨v, hv, hc⟩ := hw
          rcases List.mem_cons.1 hv with rfl | hv
          · exact ⟨_, List.mem_cons_self, List.mem_cons_of_mem _ hc⟩
          · exact ⟨v, List.mem_cons_of_mem _ hv, hc⟩

theorem takeWhile_of_cutFirst {p : Char → Bool} {t a b : Text} (h : cutFirst p t = some (a, b)) :
    t.takeWhile (fun c => !p c) = a := by
  obtain ⟨c, hc, ha, rfl⟩ := eq_append_of_cutFirst h
  rw [List.takeWhile_append_of_pos fun e he => by rw [ha e he]; rfl]
  simp [hc]

theorem mem_of_mem_splitBy {p : Char → Bool} {t w : Text} (hw : w ∈ splitBy p t) :
    ∀ c ∈ w, c ∈ t := by
  induction t generalizing w with
  | nil =>
    rw [List.mem_singleton.1 hw]
    exact fun _ h => h
  | cons e es ih =>
    rw [splitBy] at hw
    split at hw
    · rcases List.mem_cons.1 hw with rfl | hw
      · rintro _ ⟨⟩
      · exact fun c hc => List.mem_cons_of_mem _ (ih hw c hc)
    · split at hw
      · next hs => exact absurd hs (splitBy_ne_nil p es)
      · next v vs hs =>
        rw [hs] at ih
        rcases List.mem_cons.1 hw with rfl | hw
        · intro c hc
          rcases List.mem_cons.1 hc with rfl | hc
          · exact List.mem_cons_self
          · exact List.mem_cons_of_mem _ (ih List.mem_cons_self c hc)
        · exact fun c hc => List.mem_cons_of_mem _ (ih (List.mem_cons_of_mem _ hw) c hc)

theorem not_mem_of_mem_splitBy {c : Char} {t w : Text} (h : w ∈ splitBy (· == c) t) : c ∉ w :=
  fun hc => absurd (beq_self_eq_true c) (Bool.eq_false_iff.1 (eq_false_of_mem_splitBy h c hc))

theorem mem_join {sep : Text} {parts : List Text} {c : Char} (h : c ∈ join sep parts) :
    c ∈ sep ∨ ∃ p ∈ parts, c ∈ p := by
  induction parts with
  | nil => cases h
  | cons p ps ih =>
    cases ps with
    | nil =>
      rw [join_singleton] at h
      exact .inr ⟨p, List.mem_cons_self, h⟩
    | cons q qs =>
      rw [join_cons_cons] at h
      rcases List.mem_append.1 h with h | h
      · rcases List.mem_append.1 h with h | h
        · exact .inr ⟨p, List.mem_cons_self, h⟩
        · exact .inl h
      · exact (ih h).imp_right fun ⟨v, hv, hc⟩ => ⟨v, List.mem_cons_of_mem _ hv, hc⟩

end Text

namespace Identifier

/-! ### Characters of names -/

/-- A character of a name or a dot. -/
def isPathChar (c : Char) : Bool :=
  isNameChar c || c == '.'

theorem isBoundary_of_isNameChar {c : Char} (h : isNameChar c = true) : isBoundary c = false := by
  simp only [isNameChar, Bool.or_eq_true, beq_iff_eq] at h
  rcases h with (h | rfl) | rfl
  · exact isBoundary_of_isAlphanumeric h
  · rfl
  · rfl

theorem isBlank_of_isNameChar {c : Char} (h : isNameChar c = true) : isBlank c = false :=
  isBlank_of_isBoundary (isBoundary_of_isNameChar h)

theorem isNameChar_of_isBlank {c : Char} (h : isBlank c = true) : isNameChar c = false := by
  by_contra hn
  rw [isBlank_of_isNameChar (Bool.not_eq_false _ ▸ hn)] at h
  cases h

theorem isBlank_of_isPathChar {c : Char} (h : isPathChar c = true) : isBlank c = false := by
  rcases Bool.or_eq_true_iff.1 h with h | h
  · exact isBlank_of_isNameChar h
  · rw [beq_iff_eq.1 h]
    rfl

theorem isPathChar_of_isNameChar {c : Char} (h : isNameChar c = true) : isPathChar c = true := by
  rw [isPathChar, h, Bool.true_or]

theorem beq_of_isPathChar {c e : Char} (h : isPathChar c = true) (he : isPathChar e = false) :
    (c == e) = false := by
  refine beq_false_of_ne fun hc => ?_
  rw [hc, he] at h
  cases h

theorem isPathChar_startQuote (d : Dialect) : isPathChar d.startQuote = false := by
  cases d <;> decide

theorem isNameChar_startQuote (d : Dialect) : isNameChar d.startQuote = false :=
  (Bool.or_eq_false_iff.1 (isPathChar_startQuote d)).1

theorem isPathChar_endQuote (d : Dialect) : isPathChar d.endQuote = false := by
  cases d <;> decide

/-- What a character of a name begins. -/
theorem start_of_isPathChar (d : Dialect) {c : Char} (h : isPathChar c = true) :
    Token.start d c ∈ [Token.Start.digit, .letter, .single .dot, .hyphen, .other] := by
  have hq := beq_of_isPathChar h (isPathChar_startQuote d)
  have hn := fun e => beq_of_isPathChar (e := e) h
  rw [Token.start, isBlank_of_isPathChar h, hq, hn '\x60' (by decide), hn '\'' (by decide),
    hn '"' (by decide), hn '(' (by decide), hn ')' (by decide), hn ',' (by decide),
    hn '\x7b' (by decide), hn '<' (by decide), hn '>' (by decide), hn '=' (by decide),
    hn '!' (by decide), hn '|' (by decide), hn '&' (by decide), hn ':' (by decide)]
  simp only [Bool.or_self, Bool.false_eq_true, if_false]
  split_ifs <;> simp

theorem bare_of_isPathChar (d : Dialect) {c : Char} (h : isPathChar c = true) :
    (Token.start d c).isBare = true := by
  have hs := start_of_isPathChar d h
  simp only [List.mem_cons, List.not_mem_nil, or_false] at hs
  rcases hs with hs | hs | hs | hs | hs <;> rw [hs] <;> rfl

theorem kind_of_isPathChar (d : Dialect) {c : Char} (h : isPathChar c = true) (rest : Text) :
    ((Token.start d c).extent rest).1 ∈ [TokenKind.ident, .number, .dot, .operator] := by
  have hs := start_of_isPathChar d h
  simp only [List.mem_cons, List.not_mem_nil, or_false] at hs
  rcases hs with hs | hs | hs | hs | hs <;> rw [hs]
  · simp only [Token.Start.extent]
    split_ifs <;> simp
  · simp [Token.Start.extent]
  · simp [Token.Start.extent]
  · simp only [Token.Start.extent]
    split_ifs <;> simp
  · simp [Token.Start.extent]

theorem ne_nil_of_isWord {t : Text} (h : isWord t = true) : t ≠ [] := by
  rintro rfl
  cases h

theorem isNameChar_of_isWord {t : Text} (h : isWord t = true) : ∀ c ∈ t, isNameChar c = true :=
  List.all_eq_true.1 (Bool.and_eq_true_iff.1 h).2

theorem beq_endQuote_of_isWord (d : Dialect) {t : Text} (h : isWord t = true) :
    ∀ c ∈ t, (c == d.endQuote) = false := fun c hc =>
  beq_of_isPathChar (isPathChar_of_isNameChar (isNameChar_of_isWord h c hc)) (isPathChar_endQuote d)

theorem isNameChar_of_isIdentStart {c : Char} (h : Token.isIdentStart c = true) :
    isNameChar c = true := by
  simp only [Token.isIdentStart, Bool.or_eq_true] at h
  simp only [isNameChar, isAlphanumeric, Bool.or_eq_true]
  tauto

theorem isWord_of_isIdentifier {t : Text} (h : isIdentifier t = true) : isWord t = true := by
  cases t with
  | nil => cases h
  | cons c cs =>
    obtain ⟨hc, hcs⟩ := Bool.and_eq_true_iff.1 h
    simp [isWord, isNameChar_of_isIdentStart hc, hcs]

theorem opensQuoted_of_isWord (d : Dialect) {t : Text} (h : isWord t = true) :
    d.opensQuoted t = false := by
  cases t with
  | nil => cases h
  | cons c cs =>
    have hc := isPathChar_of_isNameChar (isNameChar_of_isWord h c List.mem_cons_self)
    have := beq_of_isPathChar hc (isPathChar_startQuote d)
    simpa [Dialect.opensQuoted] using this

/-! ### Paths -/

/-- Whether a text is words with dots between them. -/
def IsPath (t : Text) : Prop :=
  ∀ w ∈ Text.splitBy (· == '.') t, isWord w = true

theorem splitBy_of_isWord {t : Text} (h : isWord t = true) : Text.splitBy (· == '.') t = [t] := by
  have hc : Text.cutFirst (· == '.') t = none := by
    refine Text.cutFirst_eq_none_iff.2 fun c hc => beq_false_of_ne ?_
    rintro rfl
    exact absurd (isNameChar_of_isWord h _ hc) (by decide)
  rw [Text.splitBy_eq, hc]

theorem isPath_of_isWord {t : Text} (h : isWord t = true) : IsPath t := by
  intro w hw
  rw [splitBy_of_isWord h, List.mem_singleton] at hw
  rwa [hw]

/-- A path and a word in front of it. -/
theorem isPath_append {w t : Text} (hw : isWord w = true) (ht : IsPath t) :
    IsPath (w ++ '.' :: t) := by
  have hdot : ∀ c ∈ w, (c == '.') = false := by
    refine fun c hc => beq_false_of_ne ?_
    rintro rfl
    exact absurd (isNameChar_of_isWord hw _ hc) (by decide)
  intro v hv
  rw [Text.splitBy_eq, Text.cutFirst_append hdot rfl] at hv
  rcases List.mem_cons.1 hv with rfl | hv
  · exact hw
  · exact ht v hv

theorem isPath_of_isQualified {t : Text} (h : isQualified t = true) : IsPath t := by
  intro w hw
  unfold isQualified at h
  split at h
  · next first next rest hs =>
    obtain ⟨hf, hr⟩ := Bool.and_eq_true_iff.1 h
    rw [hs] at hw
    rcases List.mem_cons.1 hw with rfl | hw
    · exact isWord_of_isIdentifier hf
    · exact List.all_eq_true.1 hr w hw
  · cases h

theorem IsPath.isPathChar {t : Text} (h : IsPath t) {c : Char} (hc : c ∈ t) :
    isPathChar c = true := by
  rcases Text.mem_splitBy (p := (· == '.')) hc with hd | ⟨w, hw, hc⟩
  · rw [Identifier.isPathChar, hd, Bool.or_true]
  · exact isPathChar_of_isNameChar (isNameChar_of_isWord (h w hw) c hc)

theorem IsPath.not_mem {t : Text} (h : IsPath t) {c : Char}
    (hc : Identifier.isPathChar c = false) : c ∉ t := by
  intro hm
  simp [h.isPathChar hm] at hc

theorem IsPath.ne_nil {t : Text} (h : IsPath t) : t ≠ [] := by
  rintro rfl
  exact absurd (h [] (by simp [Text.splitBy])) (by decide)

theorem IsPath.tight {t : Text} (h : IsPath t) : t.Tight :=
  Text.tight_of_forall h.ne_nil fun _ hc => isBlank_of_isPathChar (h.isPathChar hc)

/-- Nothing is trimmed from a path. -/
theorem IsPath.trim {t : Text} (h : IsPath t) : Text.trim t = t :=
  h.tight.trim

theorem IsPath.cutFirst_isBlank {t : Text} (h : IsPath t) : Text.cutFirst isBlank t = none :=
  Text.cutFirst_eq_none_iff.2 fun _ hc => isBlank_of_isPathChar (h.isPathChar hc)

theorem isPlainPath_of_isPath (d : Dialect) {t : Text} (h : IsPath t) : isPlainPath d t = true := by
  have hn := h.ne_nil
  have hc : ∀ c ∈ t, (!(isBlank c || c == '*' || c == '(' || c == ')' || c == '\'' || c == ',' ||
      (c == '"' && d.startQuote != '"'))) = true := by
    intro c hc
    have hp := h.isPathChar hc
    have hne := fun e => beq_of_isPathChar (e := e) hp
    rw [isBlank_of_isPathChar hp, hne '*' (by decide), hne '(' (by decide), hne ')' (by decide),
      hne '\'' (by decide), hne ',' (by decide), hne '"' (by decide)]
    rfl
  simpa [isPlainPath, hn] using List.all_eq_true.2 hc

theorem quotePath_of_isPath (d : Dialect) {t : Text} (h : IsPath t) :
    quotePath d t = Text.join ['.'] ((Text.splitBy (· == '.') t).map d.quote) := by
  rw [quotePath]
  refine congrArg _ (List.map_congr_left fun w hw => ?_)
  rw [opensQuoted_of_isWord d (h w hw), if_neg Bool.false_ne_true]

theorem pathForm_of_isPath (d : Dialect) {t : Text} (h : IsPath t) (hw : isWord t = false) :
    pathForm d t = some (quotePath d t) := by
  have hs := Text.splitBy_eq (· == '.') t
  rw [pathForm]
  cases hc : Text.cutFirst (· == '.') t with
  | none =>
    rw [hc] at hs
    rw [h t (by simp [hs])] at hw
    cases hw
  | some r =>
    obtain ⟨a, b⟩ := r
    rw [hc] at hs
    have ha : isWord a = true := h a (by simp [hs])
    have hb : IsPath b := fun w hw => h w (by simp [hs, hw])
    have hstar : (b == ['*']) = false := by
      refine beq_false_of_ne ?_
      rintro rfl
      exact absurd (hb.isPathChar List.mem_cons_self) (by decide)
    simp [ha, hstar, isPlainPath_of_isPath d hb]

end Identifier

open Identifier in
/-- A path is written part by part between quotes. -/
theorem Dialect.quoteName_of_isPath (d : Dialect) {t : Text} (h : IsPath t) :
    d.quoteName t = Text.join ['.'] ((Text.splitBy (· == '.') t).map d.quote) := by
  have hn := h.ne_nil
  have hstar : t ≠ ['*'] := by
    rintro rfl
    exact absurd (h.isPathChar List.mem_cons_self) (by decide)
  have ho : d.opensQuoted t = false := by
    cases t with
    | nil => exact absurd rfl hn
    | cons c cs =>
      have := beq_of_isPathChar (h.isPathChar List.mem_cons_self) (isPathChar_startQuote d)
      simpa [Dialect.opensQuoted] using this
  refine quoteName_of_known ?_
  rw [form, h.trim, trimmedForm]
  cases hw : isWord t with
  | true => simp [hn, hstar, ho, splitBy_of_isWord hw]
  | false =>
    have hd : afterDistinct t = none := by
      rw [afterDistinct, h.cutFirst_isBlank]
    simp [hn, hstar, ho, hd, pathForm_of_isPath d h hw, quotePath_of_isPath d h]

/-! ### Tokens between quotes -/

namespace Token

theorem quotedLength_append {close : Char} {p : Text} (h : ∀ c ∈ p, (c == close) = false)
    {rest : Text}
    (hr : ∀ c ∈ rest.head?, (c == close) = false) :
    quotedLength close false (p ++ close :: rest) = p.length + 1 := by
  induction p with
  | nil =>
    cases rest with
    | nil => rfl
    | cons e es => simp [quotedLength, hr e rfl]
  | cons c cs ih =>
    obtain ⟨hc, hcs⟩ := List.forall_mem_cons.1 h
    obtain ⟨e, es, he⟩ : ∃ e es, cs ++ close :: rest = e :: es := by
      cases cs <;> exact ⟨_, _, rfl⟩
    rw [List.cons_append, he, quotedLength, ← he, ih hcs]
    simp [hc]

variable {d : Dialect}

theorem start_startQuote (d : Dialect) : start d d.startQuote = .quote d.endQuote := by
  cases d <;> rfl

/-- An identifier between quotes. -/
def quoted (d : Dialect) (p : Text) : Token :=
  ⟨.quotedIdent, d.quote p⟩

theorem ends_quoted {p rest : Text} (h : ∀ c ∈ p, (c == d.endQuote) = false)
    (hr : ∀ c ∈ rest.head?, (c == d.endQuote) = false) : (quoted d p).Ends d rest := by
  refine ⟨d.startQuote, p ++ [d.endQuote], rfl, ?_⟩
  rw [start_startQuote, Start.extent, List.append_assoc, List.singleton_append,
    quotedLength_append h hr, List.length_append]
  rfl

def dotToken : Token :=
  ⟨.dot, ['.']⟩

/-- Quoted identifiers with these texts, and dots between them. -/
def dotted (ws : List Text) : List Token :=
  (ws.map (Token.mk .quotedIdent)).intersperse dotToken

theorem textOf_dotted (ws : List Text) : textOf (dotted ws) = Text.join ['.'] ws := by
  induction ws with
  | nil => rfl
  | cons w ws ih =>
    cases ws with
    | nil => simp [dotted]
    | cons v vs =>
      have hd : dotted (w :: v :: vs) = ⟨.quotedIdent, w⟩ :: dotToken :: dotted (v :: vs) := rfl
      rw [hd, textOf_cons, textOf_cons, ih, Text.join_cons_cons, List.append_assoc]
      rfl

/-- Identifiers between quotes with dots between them. -/
def pathTokens (d : Dialect) : List Text → List Token
  | [] => []
  | [p] => [quoted d p]
  | p :: ps => quoted d p :: ⟨.dot, ['.']⟩ :: pathTokens d ps

theorem pathTokens_eq (d : Dialect) (ps : List Text) : pathTokens d ps = dotted (ps.map d.quote) := by
  induction ps with
  | nil => rfl
  | cons p ps ih =>
    cases ps with
    | nil => rfl
    | cons q qs =>
      rw [pathTokens, ih]
      · rfl
      · exact List.cons_ne_nil q qs

theorem textOf_pathTokens (d : Dialect) (ps : List Text) :
    textOf (pathTokens d ps) = Text.join ['.'] (ps.map d.quote) := by
  rw [pathTokens_eq, textOf_dotted]

theorem head?_pathTokens {ps : List Text} (h : ps ≠ []) :
    (textOf (pathTokens d ps)).head? = some d.startQuote := by
  match ps with
  | [] => exact absurd rfl h
  | [p] => rfl
  | p :: q :: ps => rfl

theorem kind_of_mem_pathTokens {ps : List Text} {u : Token} (h : u ∈ pathTokens d ps) :
    u.kind = .quotedIdent ∨ u.kind = .dot := by
  induction ps with
  | nil => cases h
  | cons p ps ih =>
    cases ps with
    | nil =>
      rw [List.mem_singleton.1 h]
      exact .inl rfl
    | cons q qs =>
      rcases List.mem_cons.1 h with rfl | h
      · exact .inl rfl
      · rcases List.mem_cons.1 h with rfl | h
        · exact .inr rfl
        · exact ih h

theorem separate_pathTokens {ps : List Text} (h : ∀ p ∈ ps, ∀ c ∈ p, (c == d.endQuote) = false)
    {rest : Text} (hr : ∀ c ∈ rest.head?, (c == d.endQuote) = false) :
    Separate d (pathTokens d ps) rest := by
  induction ps with
  | nil => trivial
  | cons p ps ih =>
    obtain ⟨hp, hps⟩ := List.forall_mem_cons.1 h
    cases ps with
    | nil => exact ⟨ends_quoted hp hr, trivial⟩
    | cons q qs =>
      refine ⟨ends_quoted hp ?_, .of_sign rfl d _, ih hps⟩
      have hd : ('.' == d.endQuote) = false := by cases d <;> decide
      simpa using hd

end Token

open Identifier in
/-- A path is written with a quote in front. -/
theorem Dialect.head?_quoteName (d : Dialect) {t : Text} (h : IsPath t) :
    (d.quoteName t).head? = some d.startQuote := by
  rw [d.quoteName_of_isPath h, ← Token.textOf_pathTokens,
    Token.head?_pathTokens (Text.splitBy_ne_nil _ t)]

end SqlComposer
