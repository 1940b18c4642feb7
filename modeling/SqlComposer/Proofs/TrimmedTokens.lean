import SqlComposer.Proofs.QuotedFields

/-!
# Tokens of a trimmed text

The blanks at the ends of a text are tokens of their own or the end of a token that is never closed.
Without them the other tokens stay what they are.
-/

namespace SqlComposer

open CharClass

namespace Token

variable {d : Dialect} {u : Token} {ts : List Token}

/-! ### Tokens without their end -/

/-- Quotes that close nowhere but at the end still do when the end is cut off. -/
theorem quotedLength_take {close : Char} {escapes : Bool} {t : Text}
    (h : quotedLength close escapes t = t.length) (n : Nat) :
    quotedLength close escapes (t.take n) = (t.take n).length := by
  fun_induction quotedLength close escapes t generalizing n with
  | case1 => simp [quotedLength]
  | case2 => rcases n with _ | n <;> simp [quotedLength]
  | case3 c e cs he ih =>
    rcases n with _ | _ | n
    · simp [quotedLength]
    · simp [quotedLength]
    · simpa [quotedLength, he] using ih (by simpa using h) n
  | case4 c e cs he hc hd ih =>
    rcases n with _ | _ | n
    · simp [quotedLength]
    · simp [quotedLength]
    · simpa [quotedLength, he, hc, hd] using ih (by simpa using h) n
  | case5 => simp at h
  | case6 c e cs he hc ih =>
    rcases n with _ | _ | n
    · simp [quotedLength]
    · simp [quotedLength]
    · simpa [quotedLength, he, hc] using ih (by simpa using h) (n + 1)

theorem spanLength_take (p : Char → Bool) (t : Text) (n : Nat) :
    spanLength p (t.take n) = min n (spanLength p t) := by
  rw [spanLength, ← List.take_takeWhile, List.length_take, spanLength]

theorem markerLength_take {t : Text} (h : markerLength t = t.length) (n : Nat) :
    markerLength (t.take n) = (t.take n).length := by
  have hle := (Delimits.span (· != '\x7d')).le t
  simp only [markerLength, spanLength_take, List.length_take] at h ⊢
  split_ifs at h ⊢ <;> omega

/-- A token at the end of a text stays one when the blanks at its end are cut off. -/
theorem Ends.trimEnd (h : u.Ends d []) (hk : u.kind ≠ .whitespace) :
    (⟨u.kind, Text.trimEnd u.text⟩ : Token).Ends d [] := by
  have hhead := fun {c} => h.isBlank_head_eq_false hk (c := c)
  obtain ⟨c, cs, ht, he⟩ := h
  rw [List.append_nil] at he
  have hc : isBlank c = false := hhead (by rw [ht]; rfl)
  obtain ⟨n, hn⟩ := Text.exists_take_trimEnd cs
  refine ⟨c, Text.trimEnd cs, by rw [ht, Text.trimEnd_cons hc], ?_⟩
  rw [List.append_nil]
  have hbare : (start d c).isBare = true →
      (start d c).extent (Text.trimEnd cs) = (u.kind, (Text.trimEnd cs).length) := by
    intro hbare
    have hcs := Start.skipsNone hbare cs
    simp only [he, List.take_length] at hcs
    rwa [Text.trimEnd_of_getLast? fun e hm =>
      isBlank_of_isBoundary (hcs e (List.mem_of_getLast? hm))]
  -- A bare token ends in no blank; one that nothing closes may lose blanks at its end.
  cases hst : start d c with
  | blank =>
    have := (kind_of_isBlank (d := d) (c := c) []).1 (by rw [hst]; rfl)
    simp [hc] at this
  | quote close | literal close =>
    rw [hst, Start.extent, Prod.mk.injEq] at he
    rw [Start.extent, hn, quotedLength_take he.2, he.1]
  | brace =>
    rw [hst] at he
    simp only [Start.extent] at he ⊢
    split_ifs at he with hd
    · rw [Prod.mk.injEq] at he
      rw [if_pos ?_, hn, markerLength_take he.2, he.1]
      obtain ⟨es, rfl⟩ := List.head?_eq_some_iff.1 (beq_iff_eq.1 hd)
      rw [Text.trimEnd_cons rfl]
      rfl
    · rw [Prod.mk.injEq] at he
      rw [List.length_eq_zero_iff.1 he.2.symm, ← he.1]
      rfl
  | sign f =>
    rw [← hst]
    exact hbare (isBare_of_sign hst)
  | digit | letter | single _ | hyphen | comparison | other =>
    rw [← hst]
    exact hbare (by rw [hst]; rfl)

/-- The tokens of a text that ends in blanks and those of the text without them begin alike. -/
theorem Separate.exists_trimEnd (h : Separate d ts []) :
    ∃ us, Separate d us [] ∧ textOf us = Text.trimEnd (textOf ts) ∧
      us.map kind <+: ts.map kind ∧
      ∀ u ∈ us, ∃ t ∈ ts, u.kind = t.kind ∧ u.text.head? = t.text.head? := by
  induction ts using List.reverseRecOn with
  | nil => exact ⟨[], trivial, rfl, List.prefix_rfl, by rintro _ ⟨⟩⟩
  | append_singleton ts t ih =>
    obtain ⟨hts, ht, -⟩ := Separate.append_iff.1 h
    have htail : textOf [t] = t.text := List.append_nil _
    rw [htail] at hts
    rw [textOf_append, htail]
    by_cases hk : t.kind = .whitespace
    · obtain ⟨us, hus, htext, hkinds, hm⟩ := ih (hts.cut (a := []))
      refine ⟨us, hus, ?_, ?_, fun u hu => ?_⟩
      · rw [htext, Text.trimEnd_append_of_blank (ht.isBlank_of_whitespace hk)]
      · rw [List.map_append]
        exact hkinds.trans (List.prefix_append _ _)
      · obtain ⟨t, ht, hkt⟩ := hm u hu
        exact ⟨t, List.mem_append_left _ ht, hkt⟩
    · -- What is left of the last token ends the others as the token did.
      have hend := ht.trimEnd hk
      obtain ⟨b, hb, -⟩ := Text.exists_trimEnd t.text
      rw [hb] at hts
      obtain ⟨c, hc⟩ : ∃ c, c ∈ t.text.head? :=
        ⟨_, List.head?_eq_some_head ht.ne_nil⟩
      obtain ⟨cs, hcs⟩ := List.head?_eq_some_iff.1 hc
      have hn := ht.isBlank_head_eq_false hk hc
      have htext : Text.trimEnd (textOf ts ++ t.text) = textOf ts ++ Text.trimEnd t.text := by
        rw [hcs, Text.trimEnd_cons hn, List.append_cons, Text.trimEnd_append ⟨c, by simp, hn⟩,
          ← List.append_cons]
      refine ⟨ts ++ [⟨t.kind, Text.trimEnd t.text⟩],
        Separate.append_iff.2 ⟨?_, hend, trivial⟩, ?_, ?_, ?_⟩
      · rw [textOf_cons, textOf_nil, List.append_nil, List.append_nil]
        rw [List.append_nil] at hts
        exact hts.cut
      · rw [htext, textOf_append, textOf_cons, textOf_nil, List.append_nil]
      · rw [List.map_append, List.map_append]
        exact List.prefix_rfl
      · intro u hu
        rcases List.mem_append.1 hu with hu | hu
        · exact ⟨u, List.mem_append_left _ hu, rfl, rfl⟩
        · rw [List.mem_singleton.1 hu]
          refine ⟨t, by simp, rfl, ?_⟩
          rw [hcs, Text.trimEnd_cons hn]
          rfl

theorem exists_of_mem_tokenize_trim {t : Text} (hu : u ∈ tokenize d (Text.trim t)) :
    ∃ v ∈ tokenize d t, u.kind = v.kind ∧ u.text.head? = v.text.head? := by
  obtain ⟨as, us, hts, -, htext, -⟩ := exists_trimStart (separate_tokenize d t)
  have hs := separate_tokenize d t
  rw [hts] at hs
  obtain ⟨vs, hvs, hv, -, hm⟩ := (Separate.append_iff.1 hs).2.exists_trimEnd
  rw [htext, textOf_tokenize, ← Text.trim.eq_def] at hv
  rw [← hv, hvs.tokenize_textOf] at hu
  obtain ⟨v, hv, hk⟩ := hm u hu
  exact ⟨v, hts ▸ List.mem_append_right _ hv, hk⟩

end Token

namespace Identifier

open Token (tokenize)

variable {d : Dialect} {t : Text}

theorem paired_trim (h : Paired d (tokenize d t)) : Paired d (tokenize d (Text.trim t)) := by
  intro u hu he
  obtain ⟨v, hv, hk, ht⟩ := Token.exists_of_mem_tokenize_trim hu
  rw [hk]
  exact h v hv (ht ▸ he)

/-- Where the closing quote opens nothing it stands alone as an operator. -/
theorem paired_tokenize (h : d = .sqlServer → (⟨.operator, "]"⟩ : Token) ∉ tokenize d t) :
    Paired d (tokenize d t) := by
  intro u hu he
  obtain ⟨rest, c, cs, ht, hx⟩ := (Token.separate_tokenize d t).ends_of_mem hu
  have hc : c = d.endQuote := by
    rw [ht] at he
    exact Option.some.inj he
  subst hc
  cases d with
  | mySql | postgreSql | sqlite => exact (congrArg Prod.fst hx).symm
  | sqlServer =>
    have hx : (TokenKind.operator, 0) = (u.kind, cs.length) := hx
    obtain ⟨hk, hl⟩ := Prod.mk.inj hx
    obtain ⟨kind, text⟩ := u
    obtain rfl : TokenKind.operator = kind := hk
    obtain rfl : cs = [] := List.length_eq_zero_iff.1 hl.symm
    obtain rfl : text = [']'] := ht
    exact absurd hu (h rfl)

end Identifier

end SqlComposer
