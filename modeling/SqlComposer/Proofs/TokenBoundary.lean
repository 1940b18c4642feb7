import SqlComposer.Proofs.Token
import Mathlib.Data.List.TakeWhile

/-!
# Tokens in front of blanks, parentheses, commas and quotes

A token that is no literal, no marker and not quoted contains behind its first character no blanks,
parentheses, stars, commas or quotes, and so it ends where one of them begins. A token between quotes ends
there too, once it is closed.
-/

namespace SqlComposer

namespace CharClass

/-- The code points of blanks. -/
def blanks : List Nat :=
  [9, 10, 11, 12, 13, 0x20, 0x85, 0xA0, 0x1680, 0x2000, 0x2001, 0x2002, 0x2003, 0x2004, 0x2005,
   0x2006, 0x2007, 0x2008, 0x2009, 0x200A, 0x2028, 0x2029, 0x202F, 0x205F, 0x3000]

theorem toNat_mem_blanks {c : Char} (h : isBlank c = true) : c.toNat ∈ blanks := by
  simp only [isBlank, Bool.or_eq_true, Bool.and_eq_true, decide_eq_true_eq, beq_iff_eq] at h
  simp only [blanks, List.mem_cons, List.not_mem_nil, or_false]
  omega

/-- A character of a class without blanks is no blank. -/
theorem isBlank_of {p : Char → Bool} (hp : ∀ n ∈ blanks, p (Char.ofNat n) = false) {c : Char}
    (h : p c = true) : isBlank c = false := by
  by_contra hb
  have := hp _ (toNat_mem_blanks (Bool.not_eq_false _ ▸ hb))
  rw [Char.ofNat_toNat, h] at this
  cases this

/-- A blank, a parenthesis, a star, a comma, or a quote around identifiers. -/
def isBoundary (c : Char) : Bool :=
  isBlank c || [40, 41, 42, 44, 0x60, 34, 91, 93].contains c.toNat

theorem isBoundary_of_isBlank {c : Char} (h : isBlank c = true) : isBoundary c = true := by
  rw [isBoundary, h, Bool.true_or]

theorem isBlank_of_isBoundary {c : Char} (h : isBoundary c = false) : isBlank c = false :=
  (Bool.or_eq_false_iff.1 h).1

/-- A character of a class without boundaries is none. -/
theorem isBoundary_of {p : Char → Bool}
    (hp : ∀ n ∈ blanks ++ [40, 41, 42, 44, 0x60, 34, 91, 93], p (Char.ofNat n) = false) {c : Char}
    (h : p c = true) : isBoundary c = false := by
  by_contra hb
  have hm : c.toNat ∈ blanks ++ [40, 41, 42, 44, 0x60, 34, 91, 93] := by
    rcases Bool.or_eq_true_iff.1 (Bool.not_eq_false _ ▸ hb) with hb | hb
    · exact List.mem_append_left _ (toNat_mem_blanks hb)
    · exact List.mem_append_right _ (List.contains_iff_mem.1 hb)
  have := hp _ hm
  rw [Char.ofNat_toNat, h] at this
  cases this

theorem isBoundary_of_isAlphanumeric {c : Char} (h : isAlphanumeric c = true) :
    isBoundary c = false :=
  isBoundary_of (by decide +kernel) h

theorem isBoundary_of_isDigit {c : Char} (h : c.isDigit = true) : isBoundary c = false :=
  isBoundary_of (by decide) h

end CharClass

namespace Token

open CharClass

theorem isBoundary_of_isIdentContinue {c : Char} (h : isIdentContinue c = true) :
    isBoundary c = false := by
  rcases Bool.or_eq_true_iff.1 h with h | h
  · exact isBoundary_of_isAlphanumeric h
  · rw [beq_iff_eq.1 h]
    rfl

/-! ### Pieces without boundaries -/

/-- Whether `f` measures a piece at the front of a text that contains no boundaries. -/
def SkipsNone (f : Text → Nat) : Prop :=
  ∀ t : Text, ∀ c ∈ t.take (f t), isBoundary c = false

namespace SkipsNone

variable {f g : Text → Nat}

theorem seq (hf : SkipsNone f) (hg : SkipsNone g) : SkipsNone fun t => f t + g (t.drop (f t)) := by
  intro t c hc
  rw [List.take_add] at hc
  rcases List.mem_append.1 hc with hc | hc
  · exact hf t c hc
  · exact hg _ c hc

/-- Such a piece ends in front of a boundary. -/
theorem le (hf : SkipsNone f) {a b : Text} (hb : ∀ c ∈ b.head?, isBoundary c = true)
    (hl : f (a ++ b) ≤ (a ++ b).length) : f (a ++ b) ≤ a.length := by
  by_contra hn
  cases b with
  | nil => simp_all
  | cons c cs =>
    have hm : c ∈ (a ++ c :: cs).take (f (a ++ c :: cs)) := by
      obtain ⟨k, hk⟩ : ∃ k, f (a ++ c :: cs) = a.length + (k + 1) := ⟨f (a ++ c :: cs) - a.length - 1, by omega⟩
      rw [hk, List.take_length_add_append, List.take_succ_cons]
      simp
    have := hf _ c hm
    simp [hb c rfl] at this

theorem span {p : Char → Bool} (hp : ∀ c, p c = true → isBoundary c = false) :
    SkipsNone (spanLength p) := by
  intro t c hc
  rw [spanLength, ← List.prefix_iff_eq_take.1 (List.takeWhile_prefix p)] at hc
  exact hp c (List.mem_takeWhile_imp hc)

theorem ident : SkipsNone identLength := by
  intro t
  fun_induction identLength t with
  | case1 => simp
  | case2 c cs h ih =>
    rw [List.take_succ_cons]
    exact List.forall_mem_cons.2 ⟨isBoundary_of_isIdentContinue h, ih⟩
  | case3 c cs _ h ih =>
    have hc : c = '-' := by simp_all
    rw [List.take_succ_cons]
    exact List.forall_mem_cons.2 ⟨by rw [hc]; rfl, ih⟩
  | case4 => simp

theorem digits : SkipsNone (spanLength Char.isDigit) :=
  span fun _ => isBoundary_of_isDigit

theorem fraction : SkipsNone fractionLength := by
  intro t
  unfold fractionLength
  split
  · split
    · rw [List.take_succ_cons]
      exact List.forall_mem_cons.2 ⟨rfl, digits _⟩
    · simp
  · simp

/-- An optional sign and digits. -/
theorem signed (t : Text) :
    ∀ c ∈ t.take (Delimits.digitsLength (Delimits.signLength t) t), isBoundary c = false := by
  intro c hc
  unfold Delimits.digitsLength at hc
  split_ifs at hc
  · rw [Nat.add_comm, List.take_add] at hc
    rcases List.mem_append.1 hc with hc | hc
    · cases t with
      | nil => simp at hc
      | cons s ds =>
        unfold Delimits.signLength at hc
        split_ifs at hc with hs
        · have hs : s = '+' ∨ s = '-' := by simpa using hs
          rw [show c = s by simpa using hc]
          rcases hs with rfl | rfl <;> rfl
        · simp at hc
    · exact digits _ c hc
  · simp at hc

theorem exponent : SkipsNone exponentLength := by
  intro t c hc
  cases t with
  | nil => cases hc
  | cons e ds =>
    rw [Delimits.exponentLength_cons] at hc
    split_ifs at hc with he
    · simp at hc
    · rw [List.take_succ_cons] at hc
      rcases List.mem_cons.1 hc with rfl | hc
      · have he : c = 'e' ∨ c = 'E' := by simpa using he
        rcases he with rfl | rfl <;> rfl
      · exact signed ds c hc
    · simp at hc

theorem number : SkipsNone numberLength :=
  (digits.seq fraction).seq exponent

end SkipsNone

/-! ### Bare tokens -/

/-- Whether what begins so contains no boundaries. -/
def Start.isBare : Start → Bool
  | .blank | .quote _ | .literal _ | .brace => false
  | .sign c => !isBoundary c
  | _ => true

theorem Start.isBare_sign (c : Char) : (Start.sign c).isBare = !isBoundary c := rfl

theorem Start.skipsNone {s : Start} (h : s.isBare = true) : SkipsNone fun t => (s.extent t).2 := by
  intro t c hc
  cases s with
  | blank | quote _ | literal _ | brace => cases h
  | digit =>
    simp only [extent] at hc
    split_ifs at hc
    · exact (SkipsNone.number.seq .ident) t c hc
    · exact SkipsNone.number t c hc
  | letter => exact SkipsNone.ident t c hc
  | single kind => cases hc
  | hyphen =>
    rcases t with _ | ⟨a, _ | ⟨b, r⟩⟩ <;> simp only [extent] at hc <;> split_ifs at hc <;>
      simp_all <;> rcases hc with rfl | rfl <;> rfl
  | comparison =>
    refine SkipsNone.span (fun e he => ?_) t c hc
    have he : (e = '<' ∨ e = '>') ∨ e = '=' := by simpa using he
    rcases he with (rfl | rfl) | rfl <;> rfl
  | sign e =>
    simp only [extent] at hc
    split_ifs at hc with he
    · cases t with
      | nil => cases hc
      | cons a r =>
        have hca : c = a := by simpa using hc
        have hae : a = e := by simpa using he
        have hb : (!isBoundary e) = true := h
        rw [hca, hae]
        simpa using hb
    · cases hc
  | other => cases hc

/-- Such a token ends in front of a boundary where it ends in front of anything else. -/
theorem Start.extent_swap_of_isBare {s : Start} {x t b : Text} (h : s.isBare = true)
    (hl : (s.extent (x ++ t)).2 ≤ x.length) (hb : ∀ c ∈ b.head?, isBoundary c = true) :
    s.extent (x ++ b) = s.extent (x ++ t) := by
  have ht := s.extent_take _ _ hl
  have hxb := s.extent_take (x ++ b) x.length ((skipsNone h).le hb (s.extent_le _))
  rw [List.take_left] at ht hxb
  rw [← ht, ← hxb]

/-- Whether a token contains no boundaries. -/
def Bare (d : Dialect) (u : Token) : Prop :=
  ∃ c ∈ u.text.head?, (start d c).isBare = true

variable {d : Dialect} {u : Token} {us : List Token} {a b rest : Text}

/-- A token without boundaries ends where one begins. -/
theorem Ends.append_boundary (h : u.Ends d rest) (hu : u.Bare d)
    (hb : ∀ c ∈ b.head?, isBoundary c = true) : u.Ends d (rest ++ b) := by
  obtain ⟨c, cs, ht, he⟩ := h
  obtain ⟨e, hc, hs⟩ := hu
  rw [ht] at hc
  cases hc
  have hl : ((start d c).extent (cs ++ rest ++ [])).2 ≤ (cs ++ rest).length :=
    ((start d c).extent_le _).trans_eq (by rw [List.append_nil])
  refine ⟨c, cs, ht, ?_⟩
  rw [← List.append_assoc, Start.extent_swap_of_isBare hs hl hb, List.append_nil, he]

theorem Separate.append_boundary (h : Separate d us rest) (hu : ∀ u ∈ us, u.Bare d)
    (hb : ∀ c ∈ b.head?, isBoundary c = true) : Separate d us (rest ++ b) := by
  induction us with
  | nil => trivial
  | cons u us ih =>
    obtain ⟨hu, hus⟩ := List.forall_mem_cons.1 hu
    refine ⟨?_, ih h.2 hus⟩
    rw [← List.append_assoc]
    exact h.1.append_boundary hu hb

/-- Tokens without boundaries are found again in front of one. -/
theorem tokenize_append_boundary (ha : ∀ u ∈ tokenize d a, u.Bare d)
    (hb : ∀ c ∈ b.head?, isBoundary c = true) :
    tokenize d (a ++ b) = tokenize d a ++ tokenize d b := by
  have h := (separate_tokenize d a).append_boundary ha hb
  rw [List.nil_append] at h
  simpa only [textOf_tokenize] using h.tokenize_append

/-! ### Closed tokens -/

/-- Whether what begins so goes on with a character, wherever the token stands. -/
def Start.takes (s : Start) (c : Char) : Bool :=
  match s with
  | .blank => isBlank c
  | .quote close | .literal close => c == close
  | _ => false

theorem spanLength_append {p : Char → Bool} {a : Text}
    (hb : spanLength p a = a.length → ∀ c ∈ b.head?, p c = false) :
    spanLength p (a ++ b) = spanLength p a := by
  induction a with
  | nil =>
    cases b with
    | nil => rfl
    | cons c cs => simp [spanLength, hb rfl c rfl]
  | cons c cs ih =>
    by_cases hc : p c = true
    · simpa [spanLength, hc] using ih (by simpa [spanLength, hc] using hb)
    · simp [spanLength, hc]

/-- A run that ends in front of something ends there in front of anything else that does not go on
with it. -/
theorem spanLength_swap {p : Char → Bool} {a s : Text} (hl : spanLength p (a ++ s) ≤ a.length)
    (hb : spanLength p (a ++ s) = a.length → ∀ c ∈ b.head?, p c = false) :
    spanLength p (a ++ b) = spanLength p (a ++ s) := by
  have ha := (Delimits.span p).take (a ++ s) a.length hl
  rw [List.take_left] at ha
  rw [← ha] at hb ⊢
  exact spanLength_append hb

/-- A piece that ends in front of something ends there in front of anything else, except that at
the end the closing quote must not be doubled. -/
theorem quotedLength_swap (close : Char) (escapes : Bool) {a s : Text} (hs : s ≠ [])
    (hl : quotedLength close escapes (a ++ s) ≤ a.length)
    (hb : quotedLength close escapes (a ++ s) = a.length → ∀ c ∈ b.head?, (c == close) = false) :
    quotedLength close escapes (a ++ b) = quotedLength close escapes (a ++ s) := by
  -- An escape or a doubled quote takes two characters, hence the induction on the length.
  induction ha : a.length using Nat.strongRecOn generalizing a with
  | ind n ih =>
    obtain ⟨e, es, rfl⟩ := List.exists_cons_of_ne_nil hs
    rcases a with _ | ⟨c, _ | ⟨c', cs⟩⟩
    · have := Delimits.quotedLength_pos close escapes e es
      simp only [List.nil_append, List.length_nil] at hl
      omega
    · have hp := Delimits.quotedLength_pos close escapes e es
      have hq : quotedLength close escapes (c :: e :: es) =
          if escapes && c == '\\' then quotedLength close escapes es + 2
          else if c == close then
            if e == close then quotedLength close escapes es + 2 else 1
          else quotedLength close escapes (e :: es) + 1 := by rw [quotedLength]
      simp only [List.singleton_append, List.length_singleton] at hl hb ⊢
      rw [hq] at hl hb ⊢
      split_ifs at hl hb ⊢ with h1 h2 h3
      · omega
      · omega
      · cases b with
        | nil => rfl
        | cons f fs => rw [quotedLength, if_neg h1, if_pos h2, if_neg (by simp [hb rfl f rfl])]
      · omega
    · simp only [List.cons_append, List.length_cons] at hl hb ha ⊢
      rw [quotedLength] at hl hb ⊢
      rw [quotedLength.eq_3 close escapes c c' (cs ++ e :: es)]
      split_ifs at hl hb ⊢ with h1 h2 h3
      · rw [ih cs.length (by omega) (by omega) (fun h => hb (by omega)) rfl]
      · rw [ih cs.length (by omega) (by omega) (fun h => hb (by omega)) rfl]
      · rfl
      · rw [← List.cons_append, ih (c' :: cs).length (by simp; omega) (by simp; omega)
          (fun h => hb (by simp at h; omega)) rfl]
        rfl

theorem markerLength_pos {e : Char} (h : (e != '\x7d') = true) (es : Text) :
    0 < markerLength (e :: es) := by
  simp only [markerLength, spanLength, List.takeWhile_cons, h, if_true, List.length_cons]
  split_ifs <;> omega

theorem markerLength_swap (b : Text) {a s : Text} (hs : s ≠ [])
    (hl : markerLength (a ++ s) ≤ a.length) : markerLength (a ++ b) = markerLength (a ++ s) := by
  have hpos := List.length_pos_iff.2 hs
  have hle := (Delimits.span (· != '\x7d')).le (a ++ s)
  simp only [markerLength] at hl ⊢
  split_ifs at hl with h1
  · have hb := spanLength_swap (p := (· != '\x7d')) (a := a) (s := s) (b := b) (by omega)
      fun h => by omega
    rw [hb, if_pos (by rw [List.length_append]; omega), if_pos h1]
  · rw [List.length_append] at *
    omega

theorem start_eq_sign {c e : Char} :
    start d c = .sign e → (c == '|' || c == '&' || c == ':') = true ∧ e = c := by
  fun_cases start d c <;> intro h <;> cases h
  exact ⟨by assumption, rfl⟩

theorem isBare_of_sign {c e : Char} (h : start d c = .sign e) : (start d c).isBare = true := by
  obtain ⟨hc, rfl⟩ := start_eq_sign h
  rw [h, Start.isBare_sign,
    isBoundary_of (p := fun c => c == '|' || c == '&' || c == ':') (by decide) hc, Bool.not_false]

namespace Start

variable {s : Start} {x t : Text}

/-- What a brace begins does not depend on what is behind it, unless this is the dollar sign of a
marker. -/
theorem extent_swap_brace (ht : t ≠ []) (hl : (brace.extent (x ++ t)).2 ≤ x.length)
    (hb : ∀ c ∈ b.head?, isBoundary c = true) : brace.extent (x ++ b) = brace.extent (x ++ t) := by
  cases x with
  | nil =>
    -- The brace stands alone, so no dollar sign follows: a marker would have been longer.
    have htd : ¬(t.head? == some '$') = true := fun h => by
      obtain ⟨e, es, rfl⟩ := List.exists_cons_of_ne_nil ht
      obtain rfl : e = '$' := by simpa using h
      have hpos := markerLength_pos (e := '$') (by decide) es
      have hl : markerLength ('$' :: es) ≤ 0 := hl
      omega
    have hbd : ¬(b.head? == some '$') = true := fun h =>
      absurd (hb '$' (by simpa using h)) (by decide)
    simp only [List.nil_append, extent, if_neg htd, if_neg hbd]
  | cons e es =>
    simp only [extent] at hl ⊢
    by_cases he : ((e :: es ++ t).head? == some '$') = true
    · have heb : ((e :: es ++ b).head? == some '$') = true := he
      rw [if_pos he] at hl
      rw [if_pos he, if_pos heb, markerLength_swap b ht hl]
    · have heb : ¬((e :: es ++ b).head? == some '$') = true := he
      rw [if_neg he, if_neg heb]

/-- A token that ends in front of something ends there in front of a boundary, too, unless it goes on
with this very character. -/
theorem extent_swap (hs : ∀ e, s = .sign e → s.isBare = true) (ht : t ≠ [])
    (hl : (s.extent (x ++ t)).2 ≤ x.length) (hb : ∀ c ∈ b.head?, isBoundary c = true)
    (hn : (s.extent (x ++ t)).2 = x.length → ∀ c ∈ b.head?, s.takes c = false) :
    s.extent (x ++ b) = s.extent (x ++ t) := by
  cases s with
  | blank => exact congrArg (Prod.mk _) (spanLength_swap hl hn)
  | quote close => exact congrArg (Prod.mk _) (quotedLength_swap close false ht hl hn)
  | literal close => exact congrArg (Prod.mk _) (quotedLength_swap close true ht hl hn)
  | brace => exact extent_swap_brace ht hl hb
  | sign e => exact extent_swap_of_isBare (hs e rfl) hl hb
  | digit | letter | single _ | hyphen | comparison | other => exact extent_swap_of_isBare rfl hl hb

end Start

/-- A token that ends in front of something ends in front of a boundary, too, unless it goes on with
this very character. -/
theorem Ends.swap {a s : Text} (h : u.Ends d (a ++ s)) (hs : s ≠ [])
    (hb : ∀ c ∈ b.head?, isBoundary c = true)
    (hn : a = [] → ∀ e ∈ u.text.head?, ∀ c ∈ b.head?, (start d e).takes c = false) :
    u.Ends d (a ++ b) := by
  obtain ⟨c, cs, ht, he⟩ := h
  refine ⟨c, cs, ht, ?_⟩
  rw [← List.append_assoc] at he ⊢
  have hlen : ((start d c).extent (cs ++ a ++ s)).2 = cs.length := congrArg Prod.snd he
  rw [← he]
  refine Start.extent_swap (fun _ => isBare_of_sign) hs ?_ hb fun hl => ?_
  · rw [hlen, List.length_append]
    exact Nat.le_add_right _ _
  · rw [hlen, List.length_append] at hl
    exact hn (List.length_eq_zero_iff.1 (by omega)) c (by rw [ht]; rfl)

end Token

end SqlComposer
