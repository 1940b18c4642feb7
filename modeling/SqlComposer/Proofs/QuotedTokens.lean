import SqlComposer.Proofs.SolidTokens

/-!
# Tokens that get quotes

Identifiers put between quotes are found again as tokens between quotes, except that two such tokens
side by side are read as one, in which the quotes between them stand for one quote.
-/

namespace SqlComposer.Token

open CharClass

variable {d : Dialect} {t u : Token} {ts us : List Token} {rest s : Text}

/-! ### Tokens side by side -/

/-- Whether two tokens side by side are read as one: the quote that closes the first opens the
second. -/
def joins (d : Dialect) (t u : Token) : Bool :=
  t.kind = .quotedIdent && u.kind = .quotedIdent && t.text.getLast? == some d.endQuote &&
    u.text.head? == some d.endQuote

/-- A token in front of others. -/
def attach (d : Dialect) (t : Token) : List Token → List Token
  | [] => [t]
  | u :: us => if joins d t u then ⟨.quotedIdent, t.text ++ u.text⟩ :: us else t :: u :: us

/-- Tokens as they are read side by side. -/
def glue (d : Dialect) (ts : List Token) : List Token :=
  ts.foldr (attach d) []

@[simp] theorem glue_nil (d : Dialect) : glue d [] = [] := rfl

@[simp] theorem glue_cons (d : Dialect) (t : Token) (ts : List Token) :
    glue d (t :: ts) = attach d t (glue d ts) := rfl

theorem joins_eq_true (h : joins d t u = true) :
    t.kind = .quotedIdent ∧ u.kind = .quotedIdent ∧ t.text.getLast? = some d.endQuote ∧
      u.text.head? = some d.endQuote := by
  simpa [joins, and_assoc] using h

theorem attach_of_kind (h : t.kind ≠ .quotedIdent) (us : List Token) : attach d t us = t :: us := by
  cases us with
  | nil => rfl
  | cons u us => rw [attach, if_neg fun hj => h (joins_eq_true hj).1]

theorem attach_eq_cons (d : Dialect) (t : Token) (us : List Token) :
    ∃ v vs, attach d t us = v :: vs ∧ (v = t ∨ t.kind = .quotedIdent ∧ v.kind = .quotedIdent) := by
  cases us with
  | nil => exact ⟨t, [], rfl, .inl rfl⟩
  | cons u us =>
    rw [attach]
    split
    · next hj => exact ⟨_, _, rfl, .inr ⟨(joins_eq_true hj).1, rfl⟩⟩
    · exact ⟨_, _, rfl, .inl rfl⟩

@[simp] theorem textOf_attach (d : Dialect) (t : Token) (us : List Token) :
    textOf (attach d t us) = t.text ++ textOf us := by
  cases us with
  | nil => rfl
  | cons u us =>
    rw [attach]
    split <;> simp

@[simp] theorem textOf_glue (d : Dialect) (ts : List Token) : textOf (glue d ts) = textOf ts := by
  induction ts with
  | nil => rfl
  | cons t ts ih => rw [glue_cons, textOf_attach, ih, textOf_cons]

/-! ### Closed quotes -/

/-- A quote behind a closed one is doubled: the text goes on behind it. -/
theorem quotedLength_double {close : Char} {b y : Text} (hy : y ≠ [])
    (h : quotedLength close false (b ++ close :: y) = b.length + 1) (z : Text) :
    quotedLength close false (b ++ close :: close :: z) =
      b.length + 2 + quotedLength close false z := by
  induction hb : b.length using Nat.strongRecOn generalizing b with
  | ind n ih =>
    rcases b with _ | ⟨c, _ | ⟨c', cs⟩⟩
    · subst hb
      simp [quotedLength]
      omega
    · obtain ⟨e, es, rfl⟩ := List.exists_cons_of_ne_nil hy
      have hpos := Delimits.quotedLength_pos close false e es
      have hn : (c == close) = false := by
        cases hc : c == close with
        | false => rfl
        | true => simp [quotedLength, hc] at h; omega
      subst hb
      simp [quotedLength, hn]
      omega
    · subst hb
      simp only [List.cons_append, List.length_cons, quotedLength, Bool.false_and,
        Bool.false_eq_true, if_false] at h ih ⊢
      split_ifs at h ⊢ with h1 h2
      · rw [ih cs.length (by omega) (by omega) rfl]
        omega
      · omega
      · have := ih (cs.length + 1) (by omega) (b := c' :: cs) (by simpa using h) (by simp)
        simp only [List.cons_append] at this
        omega

/-- Whether a token is an identifier between quotes which a further quote does not leave closed. -/
def Closed (d : Dialect) (t : Token) : Prop :=
  ∃ b, t.text = d.startQuote :: b ++ [d.endQuote] ∧ ∀ z,
    quotedLength d.endQuote false (b ++ d.endQuote :: d.endQuote :: z) =
      b.length + 2 + quotedLength d.endQuote false z

theorem closed_quoted {p : Text} (h : ∀ c ∈ p, (c == d.endQuote) = false) :
    Closed d (quoted d p) := by
  refine ⟨p, rfl, quotedLength_double (y := [' ']) (by simp) ?_⟩
  refine quotedLength_append h ?_
  rintro _ ⟨⟩
  cases d <;> rfl

theorem start_eq_quote {c close : Char} : start d c = .quote close →
    c = d.startQuote ∧ close = d.endQuote ∨ c = '\x60' ∧ close = '\x60' ∧ c ≠ d.startQuote := by
  fun_cases start d c <;> intro h <;> cases h
  · exact .inl ⟨by simp_all, rfl⟩
  · exact .inr ⟨by simp_all, rfl, by simp_all⟩

/-- What begins a token between quotes. -/
theorem start_of_quotedIdent {c : Char} (h : ((start d c).extent s).1 = .quotedIdent) :
    ∃ close, start d c = .quote close := by
  cases hs : start d c with
  | quote close => exact ⟨close, rfl⟩
  | single k =>
    have hk := start_eq_single_iff.1 hs
    rw [hs] at h
    have h : k = .quotedIdent := h
    simp [h, sign?] at hk
  | _ =>
    rw [hs] at h
    simp only [Start.extent] at h
    first
    | cases h
    | split_ifs at h

/-- A token between quotes that is closed. -/
theorem Ends.closed (h : t.Ends d s) (hs : s ≠ []) (hk : t.kind = .quotedIdent)
    (hl : t.text.getLast? = some d.endQuote) : Closed d t := by
  obtain ⟨c, cs, ht, he⟩ := h
  obtain ⟨close, hc⟩ := start_of_quotedIdent (s := cs ++ s) (by rw [he]; exact hk)
  rw [hc] at he
  have hq : quotedLength close false (cs ++ s) = cs.length := (Prod.mk.inj he).2
  have hlast := quotedLength_getLast? close false hs hq
  have hclose : close = d.endQuote := by
    rw [ht, List.getLast?_cons, hlast] at hl
    exact Option.some.inj hl
  obtain ⟨b, rfl⟩ := List.getLast?_eq_some_iff.1 hlast
  have hstart : c = d.startQuote := by
    rcases start_eq_quote hc with ⟨h, _⟩ | ⟨h, h', hn⟩
    · exact h
    · rw [h'] at hclose
      cases d <;> simp_all [Dialect.startQuote, Dialect.endQuote]
  subst hclose hstart
  exact ⟨b, ht, quotedLength_double hs (by simpa using hq)⟩

/-- A token between quotes goes on in one that its last quote opens. -/
theorem Ends.merge (ht : Closed d t) (hu : u.Ends d rest) (hk : u.kind = .quotedIdent)
    (hh : u.text.head? = some d.endQuote) :
    (⟨.quotedIdent, t.text ++ u.text⟩ : Token).Ends d rest := by
  obtain ⟨e, es, hu, he⟩ := hu
  rw [hu] at hh
  cases hh
  obtain ⟨close, hc⟩ := start_of_quotedIdent (s := es ++ rest) (by rw [he]; exact hk)
  have hq : d.endQuote = d.startQuote ∧ close = d.endQuote := by
    rcases start_eq_quote hc with ⟨h, h'⟩ | ⟨h, _, hn⟩
    · exact ⟨h, h'⟩
    · cases d <;> simp_all [Dialect.startQuote, Dialect.endQuote]
  rw [hc, hq.2] at he
  obtain ⟨b, hb, hd⟩ := ht
  refine ⟨d.startQuote, b ++ d.endQuote :: d.endQuote :: es, by simp [hb, hu], ?_⟩
  have hl : quotedLength d.endQuote false (es ++ rest) = es.length := (Prod.mk.inj he).2
  rw [start_startQuote, Start.extent, List.append_assoc, List.cons_append, List.cons_append, hd, hl]
  simp
  omega

theorem separate_attach (hus : Separate d us rest)
    (hends : (∀ u ∈ us.head?, joins d t u = false) → t.Ends d (textOf us ++ rest))
    (hjoins : ∀ u ∈ us.head?, joins d t u = true → Closed d t) :
    Separate d (attach d t us) rest := by
  cases us with
  | nil => exact ⟨hends (by rintro _ ⟨⟩), trivial⟩
  | cons u us =>
    rw [attach]
    split
    · next hj =>
      obtain ⟨-, hk, -, hh⟩ := joins_eq_true hj
      exact ⟨hus.1.merge (hjoins u rfl hj) hk hh, hus.2⟩
    · next hj =>
      refine ⟨hends ?_, hus⟩
      rintro _ ⟨⟩
      exact Bool.eq_false_iff.2 hj

/-! ### Marked tokens -/

/-- A marked token gets quotes. -/
def marked (d : Dialect) (m : Token × Bool) : Token :=
  if m.2 then quoted d m.1.text else m.1

theorem text_marked (d : Dialect) (m : Token × Bool) :
    (marked d m).text = Identifier.writeMarked d m := by
  rw [marked, Identifier.writeMarked]
  split <;> rfl

/-- Marking changes nothing in front of the first marked token. -/
theorem exists_common (d : Dialect) (ms : List (Token × Bool)) (s rest : Text)
    (hn : ∀ m ∈ ms, m.1.text ≠ []) :
    ∃ x y z, textOf (ms.map Prod.fst) ++ s = x ++ y ∧ textOf (ms.map (marked d)) ++ rest = x ++ z ∧
      (y = s ∧ z = rest ∧ (x = [] → ms = []) ∨
        y ≠ [] ∧ z.head? = some d.startQuote ∧ (x = [] → ∃ m ∈ ms.head?, m.2 = true)) := by
  induction ms with
  | nil => exact ⟨[], s, rest, rfl, rfl, .inl ⟨rfl, rfl, fun _ => rfl⟩⟩
  | cons m ms ih =>
    obtain ⟨hm, hms⟩ := List.forall_mem_cons.1 hn
    cases hb : m.2 with
    | true =>
      refine ⟨[], _, _, rfl, rfl, .inr ⟨by simp [hm], ?_, fun _ => ⟨m, rfl, hb⟩⟩⟩
      simp [marked, hb, quoted, Dialect.quote]
    | false =>
      obtain ⟨x, y, z, hy, hz, ho⟩ := ih hms
      have hx : m.1.text ++ x ≠ [] := by simp [hm]
      refine ⟨m.1.text ++ x, y, z, by simp [hy], by simp [marked, hb, hz], ?_⟩
      exact ho.imp (fun h => ⟨h.1, h.2.1, fun he => absurd he hx⟩)
        fun h => ⟨h.1, h.2.1, fun he => absurd he hx⟩

theorem start_eq_literal {c close : Char} :
    start d c = .literal close → close ≠ d.startQuote := by
  fun_cases start d c <;> intro h <;> cases h
  simp_all

/-- What goes on with the quote that opens an identifier is an identifier that this quote closed. -/
theorem Ends.of_takes_startQuote (h : t.Ends d s) (hs : s ≠ []) {e : Char} (he : e ∈ t.text.head?)
    (ht : (start d e).takes d.startQuote = true) :
    t.kind = .quotedIdent ∧ t.text.getLast? = some d.endQuote ∧ d.startQuote = d.endQuote := by
  obtain ⟨c, cs, hc, hx⟩ := h
  rw [hc] at he
  cases he
  cases hst : start d e with
  | blank =>
    rw [hst] at ht
    have : isBlank d.startQuote = true := ht
    cases d <;> cases this
  | literal close =>
    rw [hst] at ht
    exact absurd (beq_iff_eq.1 ht).symm (start_eq_literal hst)
  | quote close =>
    rw [hst] at ht hx
    have hclose : close = d.endQuote := by
      rcases start_eq_quote hst with ⟨_, h⟩ | ⟨h, h', hn⟩
      · exact h
      · exact absurd (h.trans (h'.symm.trans (beq_iff_eq.1 ht).symm)) hn
    have hl := quotedLength_getLast? close false hs (Prod.mk.inj hx).2
    refine ⟨(Prod.mk.inj hx).1.symm, ?_, (beq_iff_eq.1 ht).trans hclose⟩
    rw [hc, List.getLast?_cons, hl, hclose]
    rfl
  | _ =>
    rw [hst] at ht
    cases ht

theorem isIdentContinue_of_isIdentStart {c : Char} (h : isIdentStart c = true) :
    isIdentContinue c = true := by
  simp only [isIdentStart, isIdentContinue, isAlphanumeric, Bool.or_eq_true] at h ⊢
  tauto

/-- What begins a bare identifier. -/
theorem start_of_ident {c : Char} (h : ((start d c).extent s).1 = .ident) :
    isBoundary c = false ∧ (start d c).isBare = true := by
  revert h
  fun_cases start d c <;> intro h
  case case5 hd => exact ⟨isBoundary_of_isDigit hd, rfl⟩
  case case6 hl =>
    exact ⟨isBoundary_of_isIdentContinue (isIdentContinue_of_isIdentStart hl), rfl⟩
  all_goals
    simp only [Start.extent] at h
    first
    | cases h
    | split_ifs at h

/-- The characters of a bare identifier. -/
theorem Ends.isBoundary_of_ident (h : t.Ends d s) (hk : t.kind = .ident) :
    ∀ c ∈ t.text, isBoundary c = false := by
  obtain ⟨c, cs, hc, hx⟩ := h
  have hs := start_of_ident (d := d) (c := c) (s := cs ++ s) (by rw [hx]; exact hk)
  have hn := Start.skipsNone hs.2 (cs ++ s)
  simp only [hx, List.take_left] at hn
  rw [hc]
  exact List.forall_mem_cons.2 ⟨hs.1, hn⟩

theorem kind_of_mem_glue {e : Char} (h : ∀ t ∈ ts, t.text.head? = some e → t.kind = .quotedIdent) :
    ∀ u ∈ glue d ts, u.text.head? = some e → u.kind = .quotedIdent := by
  induction ts with
  | nil => rintro _ ⟨⟩
  | cons t ts ih =>
    obtain ⟨ht, hts⟩ := List.forall_mem_cons.1 h
    have ih := ih hts
    intro u hu
    rw [glue_cons] at hu
    cases hg : glue d ts with
    | nil =>
      rw [hg] at hu
      exact List.mem_singleton.1 hu ▸ ht
    | cons v vs =>
      rw [hg] at hu ih
      rw [attach] at hu
      split at hu
      · rcases List.mem_cons.1 hu with rfl | hu
        · exact fun _ => rfl
        · exact ih u (List.mem_cons_of_mem _ hu)
      · rcases List.mem_cons.1 hu with rfl | hu
        · exact ht
        · exact ih u hu

theorem head?_textOf_cons (h : t.Ends d rest) (us : List Token) :
    (textOf (t :: us)).head? = t.text.head? := by
  rw [textOf_cons, List.head?_append_of_ne_nil _ h.ne_nil]

/-- The quotes of a dialect in front of what closes an operand. -/
theorem head?_ne_quote {c : Char} (hr : Closes rest) (hc : c ∈ rest.head?) :
    c ≠ d.endQuote ∧ isBoundary c = true := by
  rcases hr c hc with rfl | rfl <;> cases d <;> decide

variable {ms : List (Token × Bool)}

/-- Whether marked tokens that stand in front of `s` may stand in front of `rest`: both are the end
of the fragment, or `rest` closes the last of them. -/
def Stops (ms : List (Token × Bool)) (s rest : Text) : Prop :=
  s = [] ∧ rest = [] ∨
    s ≠ [] ∧ Closes rest ∧ ∀ m ∈ ms.getLast?, m.1.kind ≠ .whitespace

theorem Stops.tail {m : Token × Bool} (h : Stops (m :: ms) s rest) : Stops ms s rest := by
  refine h.imp_right fun ⟨hs, hr, hl⟩ => ⟨hs, hr, fun n hn => hl n ?_⟩
  rw [List.getLast?_cons, Option.mem_def.1 hn]
  rfl

theorem Stops.ne_endQuote (h : Stops ms s rest) : ∀ c ∈ rest.head?, c ≠ d.endQuote := by
  rcases h with ⟨-, rfl⟩ | ⟨-, hr, -⟩
  · rintro _ ⟨⟩
  · exact fun c hc => (head?_ne_quote hr hc).1

theorem kind_of_mem_marked
    (hq : ∀ m ∈ ms, m.1.text.head? = some d.endQuote → m.1.kind = .quotedIdent) :
    ∀ u ∈ glue d (ms.map (marked d)), u.text.head? = some d.endQuote → u.kind = .quotedIdent := by
  refine kind_of_mem_glue fun t ht => ?_
  obtain ⟨m, hm, rfl⟩ := List.mem_map.1 ht
  rw [marked]
  split
  · exact fun _ => rfl
  · exact hq m hm

theorem getLast?_quoted (d : Dialect) (p : Text) :
    (quoted d p).text.getLast? = some d.endQuote :=
  List.getLast?_concat

/-- A bare identifier between quotes in front of marked tokens. -/
theorem separate_attach_quoted {p : Text} (hp : ∀ c ∈ p, isBoundary c = false)
    (hus : Separate d us rest) (hr : ∀ c ∈ rest.head?, c ≠ d.endQuote)
    (hq : ∀ u ∈ us, u.text.head? = some d.endQuote → u.kind = .quotedIdent) :
    Separate d (attach d (quoted d p) us) rest := by
  have hp : ∀ c ∈ p, (c == d.endQuote) = false := fun c hc => by
    refine beq_false_of_ne fun he => ?_
    have hb := hp c hc
    rw [he] at hb
    cases d <;> cases hb
  refine separate_attach hus (fun hj => ends_quoted hp fun c hc => ?_) fun _ _ _ => closed_quoted hp
  refine beq_false_of_ne fun he => ?_
  subst he
  cases us with
  | nil => exact hr _ hc rfl
  | cons u us =>
    have hu : u.text.head? = some d.endQuote := by
      rw [← head?_textOf_cons hus.1 us]
      rwa [List.head?_append_of_ne_nil _ (by simp [hus.1.ne_nil])] at hc
    have hn := hj u rfl
    rw [joins, hq u List.mem_cons_self hu, hu, getLast?_quoted] at hn
    simp [quoted] at hn

/-- A token goes on ending where a quote opens an identifier behind it, unless the two are read
together. -/
theorem Ends.swap_startQuote {x y z : Text} (ht : t.Ends d (x ++ y)) (hy : y ≠ [])
    (hz : z.head? = some d.startQuote)
    (hn : x = [] → t.kind = .quotedIdent → t.text.getLast? = some d.endQuote →
      d.startQuote ≠ d.endQuote) : t.Ends d (x ++ z) := by
  have hstart : ∀ c ∈ z.head?, c = d.startQuote := fun c hc =>
    Option.some.inj (hc.symm.trans hz)
  refine ht.swap hy (fun c hc => ?_) fun hx e he c hc => ?_
  · rw [hstart c hc]
    cases d <;> rfl
  · rw [hstart c hc]
    by_contra htk
    obtain ⟨hkt, hlt, hse⟩ :=
      ht.of_takes_startQuote (by simp [hy]) he (Bool.not_eq_false _ ▸ htk)
    exact hn hx hkt hlt hse

/-- A token that gets no quotes in front of marked tokens. -/
theorem separate_attach_unmarked {m : Token × Bool}
    (ht : m.1.Ends d (textOf (ms.map Prod.fst) ++ s)) (hs : Stops (m :: ms) s rest)
    (hne : ∀ n ∈ ms, n.1.text ≠ []) (hus : Separate d (glue d (ms.map (marked d))) rest) :
    Separate d (attach d m.1 (glue d (ms.map (marked d)))) rest := by
  refine separate_attach hus (fun hj => ?_) fun u hu hj => ?_
  · obtain ⟨x, y, z, hy, hz, ⟨rfl, rfl, hms⟩ | ⟨hyn, hq, hms⟩⟩ := exists_common d ms s rest hne
    · rw [hy] at ht
      rw [textOf_glue, hz]
      rcases hs with ⟨rfl, rfl⟩ | ⟨hyn, hr, hl⟩
      · exact ht
      · refine ht.swap hyn (fun c hc => (head?_ne_quote (d := d) hr hc).2) fun hx e he c hc => ?_
        rw [hms hx] at hl
        exact takes_eq_false (ht.isBlank_head_eq_false (hl m rfl) he) (hr c hc)
    · rw [hy] at ht
      rw [textOf_glue, hz]
      refine ht.swap_startQuote hyn hq fun hx hkt hlt hse => ?_
      -- The next token begins with this quote, so that it is read together with this one.
      obtain ⟨n, hn, hb⟩ := hms hx
      obtain ⟨ms', rfl⟩ : ∃ ms', ms = n :: ms' := by
        cases ms with
        | nil => cases hn
        | cons n' ms' => exact ⟨ms', by rw [Option.mem_some_iff.1 hn]⟩
      obtain ⟨v, vs, hv, hkv⟩ := attach_eq_cons d (marked d n) (glue d (ms'.map (marked d)))
      rw [List.map_cons, glue_cons, hv] at hj hus
      have hvq : v.kind = .quotedIdent := by
        rcases hkv with rfl | ⟨_, h⟩
        · simp [marked, hb, quoted]
        · exact h
      have hvh : v.text.head? = some d.endQuote := by
        rw [← head?_textOf_cons hus.1 vs, ← hv, ← glue_cons, ← List.map_cons (f := marked d),
          textOf_glue, ← hse, ← hq]
        rw [hx, List.nil_append] at hz
        rw [← hz, List.head?_append_of_ne_nil]
        simp [marked, hb, quoted, Dialect.quote]
      have := hj v rfl
      simp [joins, hkt, hlt, hvq, hvh] at this
  · obtain ⟨hkt, -, hl, -⟩ := joins_eq_true hj
    obtain ⟨n, ms', rfl⟩ : ∃ n ms', ms = n :: ms' := by
      cases ms with
      | nil => cases hu
      | cons n ms' => exact ⟨n, ms', rfl⟩
    exact ht.closed (by simp [hne n]) hkt hl

/-- Marked tokens are read as they are written. -/
theorem separate_glue (h : Separate d (ms.map Prod.fst) s) (hs : Stops ms s rest)
    (hm : ∀ m ∈ ms, m.2 = true → m.1.kind = .ident)
    (hq : ∀ m ∈ ms, m.1.text.head? = some d.endQuote → m.1.kind = .quotedIdent) :
    Separate d (glue d (ms.map (marked d))) rest := by
  induction ms with
  | nil => trivial
  | cons m ms ih =>
    have hus := ih h.2 hs.tail (fun n hn => hm n (List.mem_cons_of_mem _ hn))
      fun n hn => hq n (List.mem_cons_of_mem _ hn)
    rw [List.map_cons, glue_cons]
    cases hb : m.2 with
    | true =>
      have hp := h.1.isBoundary_of_ident (hm m List.mem_cons_self hb)
      rw [marked, if_pos hb]
      exact separate_attach_quoted hp hus hs.ne_endQuote
        (kind_of_mem_marked fun n hn => hq n (List.mem_cons_of_mem _ hn))
    | false =>
      have hn : ∀ n ∈ ms, n.1.text ≠ [] := fun n hn =>
        (h.2.ends_of_mem (List.mem_map_of_mem hn)).choose_spec.ne_nil
      rw [marked, if_neg (by simp [hb])]
      exact separate_attach_unmarked h.1 hs hn hus

end SqlComposer.Token
