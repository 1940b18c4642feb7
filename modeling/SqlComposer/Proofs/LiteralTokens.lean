import Mathlib.Algebra.Group.Nat.Even
import Mathlib.Data.List.DropRight
import SqlComposer.Proofs.StringLiterals

/-!
# Where a literal ends

A string literal is written by the rule of the dialect, and read among the tokens by one rule for
all dialects, in which a backslash escapes. Under MySQL the two agree. Elsewhere a backslash is
written as it is, so an odd row of them in front of a quote makes the reader pass over that quote,
and only texts without such rows are read back as they were written.
-/

namespace SqlComposer

namespace Text

/-! ### Rows of backslashes -/

/-- The length of the row of backslashes at the end of a text. -/
def finalBackslashes (t : Text) : Nat :=
  (t.rtakeWhile (· == '\\')).length

/-- Whether every row of backslashes in front of a quote, or at the end of a text, has an even
length. If the literal of the text is not followed by anything, those in front of nothing but quotes
do not count. -/
def PairsBackslashes (followed : Prop) (t : Text) : Prop :=
  ∀ a b, t = a ++ b → (∀ c ∈ b.head?, c = '\'') → (followed ∨ ∃ c ∈ b, c ≠ '\'') →
    Even (finalBackslashes a)

theorem finalBackslashes_append (p a : Text) :
    finalBackslashes (p ++ a) =
      if finalBackslashes a = a.length then finalBackslashes p + a.length
      else finalBackslashes a := by
  simp only [finalBackslashes, List.rtakeWhile, List.length_reverse, List.reverse_append,
    List.takeWhile_append]
  split_ifs with h
  · rw [List.length_append, List.length_reverse, Nat.add_comm]
  · rfl

theorem even_finalBackslashes_append {p : Text} (hp : Even (finalBackslashes p)) (a : Text) :
    Even (finalBackslashes (p ++ a)) ↔ Even (finalBackslashes a) := by
  rw [finalBackslashes_append]
  split_ifs with h
  · rw [h, Nat.even_add]
    exact iff_true_left hp
  · rfl

variable {followed : Prop}

/-- What holds of a text holds of it behind a piece that is read on its own. -/
theorem pairsBackslashes_append {p : Text} (hp : Even (finalBackslashes p))
    (h : ∀ a b, p = a ++ b → b ≠ [] → (∀ c ∈ b.head?, c = '\'') → Even (finalBackslashes a))
    (t : Text) : PairsBackslashes followed (p ++ t) ↔ PairsBackslashes followed t := by
  constructor
  · intro ht a b hab hb hf
    rw [← even_finalBackslashes_append hp]
    exact ht (p ++ a) b (by rw [hab, List.append_assoc]) hb hf
  · intro ht a b hab hb hf
    rcases List.append_eq_append_iff.1 hab with ⟨a', rfl, ht'⟩ | ⟨c, rfl, rfl⟩
    · rw [even_finalBackslashes_append hp]
      exact ht a' b ht' hb hf
    · cases c with
      | nil => rwa [List.append_nil] at hp
      | cons c cs => exact h a (c :: cs) rfl (List.cons_ne_nil _ _) hb

theorem pairsBackslashes_cons {c : Char} (hc : c ≠ '\\') (t : Text) :
    PairsBackslashes followed (c :: t) ↔ PairsBackslashes followed t := by
  have hp : finalBackslashes [c] = 0 := by simp [finalBackslashes, hc]
  refine pairsBackslashes_append (p := [c]) (hp ▸ Even.zero) (fun a b hab hb _ => ?_) t
  cases a with
  | nil => exact Even.zero
  | cons x a => simp_all

theorem pairsBackslashes_escape {c : Char} (hc : c ≠ '\'') (t : Text) :
    PairsBackslashes followed ('\\' :: c :: t) ↔ PairsBackslashes followed t := by
  have hp : Even (finalBackslashes ['\\', c]) := by
    by_cases h : c = '\\'
    · subst h
      decide
    · simp [finalBackslashes, List.rtakeWhile, h]
  refine pairsBackslashes_append (p := ['\\', c]) hp (fun a b hab hb hq => ?_) t
  rcases a with _ | ⟨x, _ | ⟨y, a⟩⟩
  · exact Even.zero
  · obtain ⟨-, rfl⟩ := List.cons.inj hab
    exact absurd (hq c rfl) hc
  · simp_all

/-- A backslash at the end takes the closing quote, unless nothing follows. -/
theorem pairsBackslashes_backslash : PairsBackslashes followed ['\\'] ↔ ¬followed := by
  constructor
  · intro h hf
    exact absurd (h ['\\'] [] rfl (by simp) (.inl hf)) (by decide)
  · rintro hf a b hab hb (h | ⟨c, hc, hq⟩)
    · exact absurd h hf
    · cases a with
      | nil => exact Even.zero
      | cons x a => simp_all

/-- A backslash takes a quote of the text: that does no harm in front of nothing but quotes if
nothing follows. -/
theorem pairsBackslashes_quote (t : Text) :
    PairsBackslashes followed ('\\' :: '\'' :: t) ↔ ¬followed ∧ ∀ c ∈ t, c = '\'' := by
  constructor
  · intro h
    have hodd : ¬Even (finalBackslashes ['\\']) := by decide
    have hn := fun hf => hodd (h ['\\'] ('\'' :: t) rfl (by simp) hf)
    refine ⟨fun hf => hn (.inl hf), fun c hc => ?_⟩
    by_contra hq
    exact hn (.inr ⟨c, List.mem_cons_of_mem _ hc, hq⟩)
  · rintro ⟨hf, ht⟩ a b hab hb (h | ⟨c, hc, hq⟩)
    · exact absurd h hf
    · rcases a with _ | ⟨x, a⟩
      · exact Even.zero
      · have hm : c ∈ '\'' :: t := by
          rw [(List.cons.inj hab).2]
          exact List.mem_append_right a hc
        rcases List.mem_cons.1 hm with h | h
        · exact absurd h hq
        · exact absurd (ht c h) hq

end Text

/-! ### Reading doubled quotes with escapes -/

namespace Token

open Text (PairsBackslashes pairsBackslashes_cons pairsBackslashes_escape pairsBackslashes_backslash
  pairsBackslashes_quote)

variable {d : Dialect} {rest : Text}

theorem escape_cons (d : Dialect) (c : Char) (cs : Text) :
    d.escape (c :: cs) = d.escapeChar c ++ d.escape cs :=
  List.flatMap_cons

/-- Where backslashes do not escape, only quotes are written in another way. -/
theorem escapeChar_of_ne (hd : d ≠ .mySql) (c : Char) :
    d.escapeChar c = if c = '\'' then "''".toList else [c] := by
  cases d with
  | mySql => exact absurd rfl hd
  | _ => simp [Dialect.escapeChar]

theorem quotedLength_eq_zero_iff (close : Char) (escapes : Bool) :
    quotedLength close escapes rest = 0 ↔ rest = [] := by
  cases rest with
  | nil => simp [quotedLength]
  | cons c cs => simpa using Nat.ne_of_gt (Delimits.quotedLength_pos close escapes c cs)

/-- A quote that a backslash took leaves its double behind: only quotes can follow it, or the
literal ends too early, and then it does not end with its closing quote. -/
theorem quotedLength_taken (hd : d ≠ .mySql) (t : Text) :
    quotedLength '\'' true ('\'' :: d.escape t ++ '\'' :: rest) = (d.escape t).length + 2 ↔
      rest = [] ∧ ∀ c ∈ t, c = '\'' := by
  induction t with
  | nil => simp [Dialect.escape, quotedLength, quotedLength_eq_zero_iff]
  | cons c cs ih =>
    rw [escape_cons, escapeChar_of_ne hd]
    split_ifs with hc
    · subst hc
      simp [quotedLength, ← ih]
    · simp [quotedLength, hc]

theorem quotedLength_cons_of_ne (hd : d ≠ .mySql) {c : Char} (hc : c ≠ '\\') (t : Text) :
    quotedLength '\'' true (d.escape (c :: t) ++ '\'' :: rest) =
      (d.escapeChar c).length + quotedLength '\'' true (d.escape t ++ '\'' :: rest) := by
  obtain ⟨e, es, he⟩ : ∃ e es, d.escape t ++ '\'' :: rest = e :: es := by
    cases d.escape t <;> exact ⟨_, _, rfl⟩
  rw [escape_cons, escapeChar_of_ne hd, List.append_assoc, he]
  split_ifs with hq
  · subst hq
    simp [quotedLength, Nat.add_comm]
  · simp [quotedLength, hc, hq, Nat.add_comm]

theorem quotedLength_doubled_nil (d : Dialect) (hr : ∀ c ∈ rest.head?, c ≠ '\'') :
    quotedLength '\'' true (d.escape [] ++ '\'' :: rest) = (d.escape []).length + 1 ↔
      PairsBackslashes (rest ≠ []) [] := by
  have hnil : PairsBackslashes (rest ≠ []) [] := by
    intro a b hab _ _
    rw [(List.append_eq_nil_iff.1 hab.symm).1]
    exact Even.zero
  refine iff_of_true ?_ hnil
  cases rest with
  | nil => rfl
  | cons e es => simp [Dialect.escape, quotedLength, hr e rfl]

/-- Another character than a backslash is read alone. -/
theorem quotedLength_doubled_cons (hd : d ≠ .mySql) {c : Char} (hc : c ≠ '\\') {t : Text}
    (h : quotedLength '\'' true (d.escape t ++ '\'' :: rest) = (d.escape t).length + 1 ↔
      PairsBackslashes (rest ≠ []) t) :
    quotedLength '\'' true (d.escape (c :: t) ++ '\'' :: rest) = (d.escape (c :: t)).length + 1 ↔
      PairsBackslashes (rest ≠ []) (c :: t) := by
  rw [pairsBackslashes_cons hc, ← h, quotedLength_cons_of_ne hd hc, escape_cons,
    List.length_append, Nat.add_assoc, Nat.add_left_cancel_iff]

/-- The inside of a literal is read to its closing quote and no further exactly if no backslash
takes a quote. -/
theorem quotedLength_doubled (hd : d ≠ .mySql) (hr : ∀ c ∈ rest.head?, c ≠ '\'') (t : Text) :
    quotedLength '\'' true (d.escape t ++ '\'' :: rest) = (d.escape t).length + 1 ↔
      PairsBackslashes (rest ≠ []) t := by
  -- A backslash is read with the character behind it.
  induction t using List.twoStepInduction with
  | nil => exact quotedLength_doubled_nil d hr
  | singleton c =>
    by_cases hb : c = '\\'
    · subst hb
      rw [pairsBackslashes_backslash, not_not, escape_cons, escapeChar_of_ne hd]
      simp [Dialect.escape, quotedLength, quotedLength_eq_zero_iff]
    · exact quotedLength_doubled_cons hd hb (quotedLength_doubled_nil d hr)
  | cons_cons c e es ih ih' =>
    by_cases hb : c = '\\'
    · subst hb
      rw [escape_cons, escapeChar_of_ne hd, escape_cons, escapeChar_of_ne hd]
      by_cases he : e = '\''
      · subst he
        rw [pairsBackslashes_quote, not_not, ← quotedLength_taken hd]
        simp [quotedLength]
      · rw [pairsBackslashes_escape he, ← ih]
        simp [quotedLength, he]
    · exact quotedLength_doubled_cons hd hb (ih' e)

/-! ### The literal of a text -/

/-- A literal is read first, and as it was written, exactly if its inside is read to the closing
quote and no further. -/
theorem tokenize_literal_iff (d : Dialect) (body rest : Text) :
    tokenize d ('\'' :: body ++ '\'' :: rest) =
        ⟨.str, '\'' :: body ++ ['\'']⟩ :: tokenize d rest ↔
      quotedLength '\'' true (body ++ '\'' :: rest) = body.length + 1 := by
  have hs : start d '\'' = .literal '\'' := by cases d <;> rfl
  have hle := (Delimits.quoted '\'' true).le (body ++ '\'' :: rest)
  rw [List.cons_append, tokenize_cons, extent_eq, hs, Start.extent]
  constructor
  · intro h
    have ht := congrArg (List.length ∘ Token.text) (List.cons.inj h).1
    simp at ht hle
    omega
  · intro h
    have ht : body ++ '\'' :: rest = (body ++ ['\'']) ++ rest := by simp
    rw [h, ht, List.take_left' (by simp), List.drop_left' (by simp)]
    rfl

end Token

open Token Text in
/-- A text that is written as a literal is read back as it, with the tokens of what follows behind
it, exactly under MySQL or if the backslashes in it stand in pairs. -/
theorem Source.tokenize_quoteString_iff (s : Source) (he : s.escaper = none) (t rest : Text)
    (hr : ∀ c ∈ rest.head?, c ≠ '\'') :
    tokenize s.dialect (s.quoteString t ++ rest) =
        ⟨.str, s.quoteString t⟩ :: tokenize s.dialect rest ↔
      s.dialect = .mySql ∨ PairsBackslashes (rest ≠ []) t := by
  have hq : s.quoteString t = '\'' :: s.dialect.escape t ++ ['\''] := by
    rw [Source.quoteString, Source.escape, he]
  have ha : s.quoteString t ++ rest = '\'' :: s.dialect.escape t ++ '\'' :: rest := by simp [hq]
  rw [ha, hq, tokenize_literal_iff]
  by_cases hd : s.dialect = .mySql
  · rw [hd]
    have hr : ∀ c ∈ rest.head?, (c == '\'') = false := fun c hc => beq_false_of_ne (hr c hc)
    exact iff_of_true (quotedLength_escape t hr) (.inl rfl)
  · rw [quotedLength_doubled hd hr, or_iff_right hd]

open Token Text in
/-- Under PostgreSQL two backslashes in front of a quote are read as they were written. -/
theorem Source.tokenize_quoteString_iff_paired :
    let s : Source := { dialect := .postgreSql }
    let t : Text := "\\\\'s"
    let rest : Text := " = x"
    PairsBackslashes (rest ≠ []) t ∧
      tokenize s.dialect (s.quoteString t ++ rest) =
        ⟨.str, s.quoteString t⟩ :: tokenize s.dialect rest := by
  intro s t rest
  have hp : PairsBackslashes (rest ≠ []) t := by
    refine (pairsBackslashes_escape (by decide) _).2 ?_
    refine (pairsBackslashes_cons (by decide) _).2 ((pairsBackslashes_cons (by decide) _).2 ?_)
    intro a b hab _ _
    rw [(List.append_eq_nil_iff.1 hab.symm).1]
    exact Even.zero
  have hr : ∀ c ∈ rest.head?, c ≠ '\'' := by
    rintro _ ⟨⟩
    decide
  exact ⟨hp, (s.tokenize_quoteString_iff rfl t rest hr).2 (.inr hp)⟩

open Token in
/-- Under PostgreSQL a backslash at the end of a text takes the closing quote of its literal, which
then goes on to the end of the fragment. A backslash in front of a quote ends the literal too early.
-/
theorem Source.backslash_takes_quote :
    let s : Source := { dialect := .postgreSql }
    let rest : Text := " = x"
    (s.quoteString "a\\" = "'a\\'" ∧
      tokenize s.dialect (s.quoteString "a\\" ++ rest) = [⟨.str, "'a\\' = x"⟩] ∧
      tokenize s.dialect (s.quoteString "a\\" ++ rest) ≠
        ⟨.str, s.quoteString "a\\"⟩ :: tokenize s.dialect rest) ∧
    (s.quoteString "\\'b" = "'\\''b'" ∧
      (tokenize s.dialect (s.quoteString "\\'b" ++ rest)).head? = some ⟨.str, "'\\''"⟩) := by
  intro s rest
  have hlong : (⟨.str, "'a\\' = x"⟩ : Token).Ends s.dialect [] := ⟨'\'', "a\\' = x", rfl, rfl⟩
  have hshort : (⟨.str, "'\\''"⟩ : Token).Ends s.dialect ("b'" ++ rest) :=
    ⟨'\'', "\\''", rfl, rfl⟩
  refine ⟨⟨rfl, hlong.tokenize_text, fun h => ?_⟩, rfl, ?_⟩
  · have ht := (List.cons.inj (hlong.tokenize_text.symm.trans h)).1
    exact absurd (congrArg Token.text ht) (by decide)
  · exact congrArg List.head? hshort.tokenize_append

end SqlComposer
