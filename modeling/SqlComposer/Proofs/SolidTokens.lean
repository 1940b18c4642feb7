import SqlComposer.Proofs.Names

/-!
# Tokens of operands

Tokens that begin and end with no blank, each of them closed, are found again wherever their text
stands in front of a blank or a closing parenthesis. So are the tokens of a part of a fragment, once
it is trimmed.
-/

namespace SqlComposer

open CharClass

/-- A blank between tokens. -/
def Token.blankToken : Token :=
  ⟨.whitespace, [' ']⟩

open Token (blankToken Separate textOf)

namespace Token
variable {d : Dialect} {u : Token} {us ts : List Token} {rest s : Text}

/-! ### Blanks at the ends of tokens -/

theorem Ends.ne_nil (h : u.Ends d rest) : u.text ≠ [] := by
  obtain ⟨c, cs, ht, _⟩ := h
  simp [ht]

theorem kind_of_isBlank {c : Char} (rest : Text) :
    ((start d c).extent rest).1 = .whitespace ↔ isBlank c = true := by
  fun_cases start d c <;> simp_all [Start.extent]
  all_goals split_ifs <;> simp

/-- A token begins with a blank if it is one. -/
theorem Ends.isBlank_head (h : u.Ends d rest) {c : Char} (hc : c ∈ u.text.head?) :
    isBlank c = true ↔ u.kind = .whitespace := by
  obtain ⟨e, cs, ht, he⟩ := h
  rw [ht] at hc
  cases hc
  rw [← kind_of_isBlank (d := d) (cs ++ rest), he]

theorem Ends.isBlank_head_eq_false (h : u.Ends d rest) (hk : u.kind ≠ .whitespace) {c : Char}
    (hc : c ∈ u.text.head?) : isBlank c = false :=
  Bool.eq_false_iff.2 fun hb => hk ((h.isBlank_head hc).1 hb)

theorem isBlank_of_start_quote {c close : Char} :
    start d c = .quote close ∨ start d c = .literal close →
      isBlank close = false ∧ close ≠ ')' := by
  have he : isBlank d.endQuote = false ∧ d.endQuote ≠ ')' := by cases d <;> decide
  fun_cases start d c <;> rintro (h | h) <;> cases h
  · exact he
  · exact ⟨rfl, by decide⟩
  · rename_i hc
    have hc : c = '\'' ∨ c = '"' := by simpa using hc
    rcases hc with rfl | rfl <;> exact ⟨rfl, by decide⟩

/-- What begins with no blank is closed in front of a blank and of a closing parenthesis. -/
theorem takes_eq_false {c e : Char} (hc : isBlank c = false) (he : e = ' ' ∨ e = ')') :
    (start d c).takes e = false := by
  cases hs : start d c with
  | blank =>
    have := (kind_of_isBlank (d := d) (c := c) []).1 (by rw [hs]; rfl)
    simp [hc] at this
  | quote close =>
    obtain ⟨hb, hp⟩ := isBlank_of_start_quote (.inl hs)
    rcases he with rfl | rfl
    · exact beq_false_of_ne fun h => by simp [← h] at hb; cases hb
    · exact beq_false_of_ne hp.symm
  | literal close =>
    obtain ⟨hb, hp⟩ := isBlank_of_start_quote (.inr hs)
    rcases he with rfl | rfl
    · exact beq_false_of_ne fun h => by simp [← h] at hb; cases hb
    · exact beq_false_of_ne hp.symm
  | _ => rfl

theorem quotedLength_getLast? (close : Char) (escapes : Bool) {a s : Text} (hs : s ≠ [])
    (hl : quotedLength close escapes (a ++ s) = a.length) : a.getLast? = some close := by
  have hlast : ∀ c c' {cs : Text}, cs.getLast? = some close →
      (c :: c' :: cs).getLast? = some close := by
    intro c c' cs h
    rw [List.getLast?_cons, List.getLast?_cons, h]
    rfl
  induction ha : a.length using Nat.strongRecOn generalizing a with
  | ind n ih =>
    obtain ⟨e, es, rfl⟩ := List.exists_cons_of_ne_nil hs
    rcases a with _ | ⟨c, _ | ⟨c', cs⟩⟩
    · have := Delimits.quotedLength_pos close escapes e es
      simp only [List.nil_append, List.length_nil] at hl
      omega
    · have hp := Delimits.quotedLength_pos close escapes e es
      simp only [List.singleton_append, List.length_singleton] at hl
      rw [quotedLength] at hl
      split_ifs at hl with h1 h2 h3
      · omega
      · omega
      · simp [beq_iff_eq.1 h2]
      · omega
    · simp only [List.cons_append, List.length_cons] at hl ha
      rw [quotedLength] at hl
      split_ifs at hl with h1 h2 h3
      · exact hlast _ _ (ih cs.length (by omega) (by omega) rfl)
      · exact hlast _ _ (ih cs.length (by omega) (by omega) rfl)
      · omega
      · rw [List.getLast?_cons_cons]
        exact ih (c' :: cs).length (by simp; omega) (by simp; omega) rfl

theorem spanLength_getLast? {p : Char → Bool} {a s : Text}
    (hl : spanLength p (a ++ s) + 1 = a.length) : ∃ e ∈ a.getLast?, p e = false := by
  induction a with
  | nil => cases hl
  | cons c cs ih =>
    by_cases hc : p c = true
    · have hl : spanLength p (cs ++ s) + 1 = cs.length := by simpa [spanLength, hc] using hl
      obtain ⟨e, he, hp⟩ := ih hl
      exact ⟨e, by rw [List.getLast?_cons, Option.mem_def.1 he]; rfl, hp⟩
    · have hl : cs = [] := by simpa [spanLength, hc] using hl.symm
      subst hl
      exact ⟨c, rfl, by simpa using hc⟩

theorem markerLength_getLast? {a s : Text} (hs : s ≠ []) (hl : markerLength (a ++ s) = a.length) :
    ∃ e ∈ a.getLast?, (e != '\x7d') = false := by
  have hpos := List.length_pos_iff.2 hs
  simp only [markerLength] at hl
  split_ifs at hl with h1
  · exact spanLength_getLast? hl
  · rw [List.length_append] at h1
    omega

/-- A token that is no blank and closed ends with no blank. -/
theorem Ends.isBlank_getLast (h : u.Ends d s) (hs : s ≠ []) (hk : u.kind ≠ .whitespace) {e : Char}
    (he : e ∈ u.text.getLast?) : isBlank e = false := by
  have hhead := fun {c} => h.isBlank_head_eq_false hk (c := c)
  obtain ⟨c, cs, ht, hx⟩ := h
  have hc : isBlank c = false := hhead (by rw [ht]; rfl)
  have hend : ∀ close, cs.getLast? = some close → isBlank close = false → isBlank e = false := by
    intro close hcs hb
    rw [ht, List.getLast?_cons, hcs] at he
    cases he
    exact hb
  have hbare : (start d c).isBare = true → isBlank e = false := by
    intro hbare
    have hn := Start.skipsNone hbare (cs ++ s)
    simp only [hx, List.take_left] at hn
    rw [ht] at he
    rcases List.mem_cons.1 (List.mem_of_getLast? he) with rfl | he
    · exact hc
    · exact isBlank_of_isBoundary (hn e he)
  -- A bare token has no blanks in it, and any other one ends in the character that closes it.
  cases hst : start d c with
  | blank =>
    have := (kind_of_isBlank (d := d) (c := c) []).1 (by rw [hst]; rfl)
    simp [hc] at this
  | quote close =>
    rw [hst] at hx
    exact hend close (quotedLength_getLast? close false hs (Prod.mk.inj hx).2)
      (isBlank_of_start_quote (.inl hst)).1
  | literal close =>
    rw [hst] at hx
    exact hend close (quotedLength_getLast? close true hs (Prod.mk.inj hx).2)
      (isBlank_of_start_quote (.inr hst)).1
  | brace =>
    rw [hst] at hx
    simp only [Start.extent] at hx
    split_ifs at hx
    · obtain ⟨f, hf, hfc⟩ := markerLength_getLast? hs (Prod.mk.inj hx).2
      have hf' : f = '\x7d' := by simpa using hfc
      exact hend f hf (by rw [hf']; rfl)
    · have hcs : cs = [] := List.length_eq_zero_iff.1 (Prod.mk.inj hx).2.symm
      rw [ht, hcs] at he
      cases he
      exact hc
  | sign f => exact hbare (isBare_of_sign hst)
  | digit | letter | single _ | hyphen | comparison | other => exact hbare (by rw [hst]; rfl)

/-- A blank token consists of blanks. -/
theorem Ends.isBlank_of_whitespace (h : u.Ends d rest) (hk : u.kind = .whitespace) :
    ∀ c ∈ u.text, isBlank c = true := by
  obtain ⟨c, cs, ht, hx⟩ := h.cut (a := []) (b := rest)
  have hc : isBlank c = true := by
    rw [← kind_of_isBlank (d := d) (cs ++ []), hx]
    exact hk
  have hs : start d c = .blank := by rw [start, if_pos hc]
  rw [hs, List.append_nil, Start.extent] at hx
  have hspan : spanLength isBlank cs = cs.length := (Prod.mk.inj hx).2
  have hcs : cs.takeWhile isBlank = cs := (List.takeWhile_prefix isBlank).eq_of_length hspan
  rw [ht]
  refine List.forall_mem_cons.2 ⟨hc, fun e he => ?_⟩
  rw [← hcs] at he
  exact List.mem_takeWhile_imp he

end Token

/-! ### Operands -/

/-- Whether a text begins with a closing parenthesis or a blank, if it is not empty. -/
def Closes (rest : Text) : Prop :=
  ∀ c ∈ rest.head?, c = ' ' ∨ c = ')'

/-- Whether tokens are found again in their text wherever it stands as an operand. -/
structure Solid (d : Dialect) (ts : List Token) : Prop where
  head : ∃ c ∈ (Token.textOf ts).head?, isBlank c = false
  separate {rest : Text} (h : Closes rest) : Token.Separate d ts rest

namespace Solid

variable {d : Dialect} {ts us : List Token} {rest s : Text}

theorem ends_blank (h : ∃ c ∈ rest.head?, isBlank c = false) : blankToken.Ends d rest := by
  obtain ⟨c, hc, hb⟩ := h
  refine ⟨' ', [], rfl, ?_⟩
  have hs : Token.start d ' ' = .blank := rfl
  cases rest with
  | nil => cases hc
  | cons e es =>
    cases hc
    rw [hs, List.nil_append, Token.Start.extent, Token.spanLength, List.takeWhile_cons_of_neg]
    · rfl
    · simp [hb]

theorem ends_word {u : Token} (h : u.Ends d []) (hu : u.Bare d) (rest : Text) :
    u.Ends d (' ' :: rest) :=
  h.append_boundary hu (by rintro _ ⟨⟩; rfl)

theorem head_append (h : Solid d ts) (rest : Text) :
    ∃ c ∈ (Token.textOf ts ++ rest).head?, isBlank c = false := by
  obtain ⟨c, hc, hb⟩ := h.head
  refine ⟨c, ?_, hb⟩
  rw [List.head?_append, Option.mem_def.1 hc]
  rfl

/-- Operands with a word between them. -/
theorem join_word (ht : Solid d ts) (hu : Solid d us) {w : Token}
    (hw : ∀ rest, w.Ends d (' ' :: rest)) (hb : ∃ c ∈ w.text.head?, isBlank c = false) :
    Solid d (ts ++ [blankToken, w, blankToken] ++ us) where
  head := by
    rw [List.append_assoc, Token.textOf_append]
    exact ht.head_append _
  separate hr := by
    rw [List.append_assoc]
    refine Token.Separate.append_iff.2 ⟨ht.separate ?_, ends_blank ?_, hw _,
      ends_blank (hu.head_append _), hu.separate hr⟩
    · rintro _ ⟨⟩
      exact .inl rfl
    · obtain ⟨c, hc, hb⟩ := hb
      refine ⟨c, ?_, hb⟩
      refine Option.mem_def.2 ?_
      simp [Option.mem_def.1 hc]

theorem alone (h : Solid d ts) : Token.Separate d ts [] :=
  h.separate (by rintro _ ⟨⟩)

/-- Such tokens are what their text is cut into. -/
theorem tokenize_textOf (h : Solid d ts) : Token.tokenize d (Token.textOf ts) = ts :=
  h.alone.tokenize_textOf

/-- Closed tokens that do not end in a blank. -/
theorem of_separate (h : Separate d us s) (hs : s ≠ [])
    (hh : ∃ c ∈ (textOf us).head?, isBlank c = false)
    (hl : ∀ u ∈ us.getLast?, u.kind ≠ .whitespace) : Solid d us where
  head := hh
  separate {rest} hr := by
    clear hh
    have hb : ∀ c ∈ rest.head?, isBoundary c = true := fun c hc => by
      rcases hr c hc with rfl | rfl <;> rfl
    induction us with
    | nil => trivial
    | cons u us ih =>
      refine ⟨h.1.swap hs hb fun hn e he c hc => ?_, ih h.2 ?_⟩
      · have hus : us = [] := by
          cases us with
          | nil => rfl
          | cons v vs =>
            have := h.2.1.ne_nil
            simp_all
        subst hus
        exact Token.takes_eq_false (h.1.isBlank_head_eq_false (hl u rfl) he) (hr c hc)
      · cases us with
        | nil => rintro _ ⟨⟩
        | cons v vs => exact hl

/-- Such tokens end in no blank, since it would go on with a blank. -/
theorem kind_getLast (h : Solid d ts) : ∀ u ∈ ts.getLast?, u.kind ≠ .whitespace := by
  intro u hu hk
  obtain ⟨vs, rfl⟩ := List.getLast?_eq_some_iff.1 hu
  have hs : Separate d (vs ++ [u]) [' '] := h.separate (by rintro _ ⟨⟩; exact .inl rfl)
  have he := (Separate.append_iff.1 hs).2.1
  have hb := he.isBlank_of_whitespace hk
  obtain ⟨c, cs, ht, hx⟩ := he
  rw [ht] at hb
  obtain ⟨hc, hcs⟩ := List.forall_mem_cons.1 hb
  have hst : Token.start d c = .blank := by rw [Token.start, if_pos hc]
  have hl : Token.spanLength isBlank (cs ++ [' ']) = cs.length := by
    rw [hst] at hx
    exact (Prod.mk.inj hx).2
  rw [Token.spanLength, List.takeWhile_append_of_pos hcs] at hl
  simp [isBlank] at hl

theorem ne_nil (h : Solid d ts) : textOf ts ≠ [] := by
  obtain ⟨c, hc, -⟩ := h.head
  intro he
  rw [he] at hc
  cases hc

theorem tight (h : Solid d ts) : (textOf ts).Tight where
  head := h.head
  last := by
    have hs : Separate d ts [' '] := h.separate (by rintro _ ⟨⟩; exact .inl rfl)
    rcases List.eq_nil_or_concat' ts with rfl | ⟨us, u, rfl⟩
    · exact absurd rfl h.ne_nil
    · have he := (Separate.append_iff.1 hs).2.1
      obtain ⟨c, hc⟩ : ∃ c, u.text.getLast? = some c :=
        ⟨_, List.getLast?_eq_some_getLast he.ne_nil⟩
      refine ⟨c, ?_, he.isBlank_getLast (by simp) (h.kind_getLast u (by simp)) hc⟩
      rw [Token.textOf_append, Token.textOf_cons, Token.textOf_nil, List.append_nil,
        List.getLast?_append_of_ne_nil _ he.ne_nil]
      exact hc

end Solid

/-! ### Trimmed tokens -/

namespace Token

variable {d : Dialect} {ts : List Token} {s : Text}

theorem exists_trimStart (h : Separate d ts s) :
    ∃ as us, ts = as ++ us ∧ (∀ u ∈ as, u.kind = .whitespace) ∧
      textOf us = Text.trimStart (textOf ts) ∧ ∀ u ∈ us.head?, u.kind ≠ .whitespace := by
  induction ts with
  | nil => exact ⟨[], [], rfl, by simp, rfl, by simp⟩
  | cons t ts ih =>
    by_cases hk : t.kind = .whitespace
    · obtain ⟨as, us, rfl, has, ht, hu⟩ := ih h.2
      refine ⟨t :: as, us, rfl, List.forall_mem_cons.2 ⟨hk, has⟩, ?_, hu⟩
      rw [ht, textOf_cons, Text.trimStart, Text.trimStart,
        List.dropWhile_append_of_pos (h.1.isBlank_of_whitespace hk)]
    · refine ⟨[], t :: ts, rfl, by simp, ?_, by simpa using hk⟩
      obtain ⟨c, cs, hc, _⟩ := h.1
      have hb := h.1.isBlank_head_eq_false hk (by rw [hc]; rfl)
      rw [textOf_cons, hc, List.cons_append, Text.trimStart,
        List.dropWhile_cons_of_neg (by simp [hb])]

theorem exists_trimEnd (h : Separate d ts s) (hs : s ≠ []) :
    ∃ us bs, ts = us ++ bs ∧ (∀ u ∈ bs, u.kind = .whitespace) ∧
      textOf us = Text.trimEnd (textOf ts) ∧ ∀ u ∈ us.getLast?, u.kind ≠ .whitespace := by
  induction ts using List.reverseRecOn generalizing s with
  | nil => exact ⟨[], [], rfl, by simp, rfl, by simp⟩
  | append_singleton ts t ih =>
    obtain ⟨hts, ht, -⟩ := Separate.append_iff.1 h
    by_cases hk : t.kind = .whitespace
    · obtain ⟨us, bs, rfl, hbs, htext, hu⟩ := ih hts (by simp [ht.ne_nil])
      refine ⟨us, bs ++ [t], by simp, ?_, ?_, hu⟩
      · rintro u hu
        rcases List.mem_append.1 hu with hu | hu
        · exact hbs u hu
        · exact List.mem_singleton.1 hu ▸ hk
      · rw [htext, textOf_append (us ++ bs), Text.trimEnd_append_of_blank]
        simpa using ht.isBlank_of_whitespace hk
    · refine ⟨ts ++ [t], [], by simp, by simp, ?_, by simpa using hk⟩
      refine (Text.trimEnd_of_getLast? fun c hc => ?_).symm
      rw [textOf_append, List.getLast?_append_of_ne_nil _ (by simp [ht.ne_nil])] at hc
      exact ht.isBlank_getLast (by simpa using hs) hk (by simpa using hc)

/-- The tokens of a part of a fragment without the blanks around it. -/
theorem exists_trim (h : Separate d ts s) (hs : s ≠ []) :
    ∃ as us bs, ts = as ++ us ++ bs ∧ (∀ u ∈ as ++ bs, u.kind = .whitespace) ∧
      textOf us = Text.trim (textOf ts) ∧ (us = [] ∨ Solid d us) := by
  obtain ⟨as, vs, rfl, has, hvs, hh⟩ := exists_trimStart h
  have hv := (Separate.append_iff.1 h).2
  obtain ⟨us, bs, rfl, hbs, hus, hl⟩ := exists_trimEnd hv hs
  refine ⟨as, us, bs, by simp, List.forall_mem_append.2 ⟨has, hbs⟩, ?_, ?_⟩
  · rw [hus, hvs, Text.trim]
  · cases us with
    | nil => exact .inl rfl
    | cons u us =>
      refine .inr (.of_separate (Separate.append_iff.1 hv).1 (by simp [hs]) ?_ hl)
      obtain ⟨c, cs, hc, _⟩ := hv.1
      exact ⟨c, by rw [textOf_cons, hc]; rfl,
        hv.1.isBlank_head_eq_false (hh u rfl) (by rw [hc]; rfl)⟩

end Token

end SqlComposer
