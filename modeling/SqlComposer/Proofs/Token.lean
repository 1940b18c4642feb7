import SqlComposer.Token
import Mathlib.Tactic.SplitIfs
import Mathlib.Tactic.ByContra
import Mathlib.Data.List.Chain

/-!
# Tokens delimit themselves

How far a token reaches is decided by the token and at most what ends it: text that is cut behind a
token leaves it as it is. So the tokens of a fragment are adjacent slices of it, and each of them is
found again in its own text. `Separate` says of any row of tokens that cutting its text gives the
row back.
-/

namespace SqlComposer.Token

open CharClass

/-! ### Pieces at the front of a text -/

/-- Whether `f` measures a piece at the front of a text that is the same if the text is cut behind
it. -/
structure Delimits (f : Text → Nat) : Prop where
  le (t : Text) : f t ≤ t.length
  take (t : Text) (n : Nat) (h : f t ≤ n) : f (t.take n) = f t

namespace Delimits

variable {f g : Text → Nat}

/-- A piece and the piece behind it. -/
theorem seq (hf : Delimits f) (hg : Delimits g) :
    Delimits fun t => f t + g (t.drop (f t)) where
  le t := by
    have h := hg.le (t.drop (f t))
    rw [List.length_drop] at h
    have := hf.le t
    omega
  take t n h := by
    have hg' : g (t.drop (f t)) ≤ n - f t := by omega
    rw [hf.take t n (by omega), List.drop_take, hg.take _ _ hg']

/-- Recursion on the text, which may look at shorter texts. -/
theorem of_cons (hle : ∀ t, f t ≤ t.length)
    (h : ∀ c cs, (∀ ds : Text, ds.length ≤ cs.length → ∀ n, f ds ≤ n → f (ds.take n) = f ds) →
      ∀ n, f (c :: cs) ≤ n + 1 → f (c :: cs.take n) = f (c :: cs)) : Delimits f where
  le := hle
  take t := by
    induction ht : t.length using Nat.strongRecOn generalizing t with
    | ind k ih =>
      intro n hn
      cases t with
      | nil => rw [List.take_nil]
      | cons c cs =>
        cases n with
        | zero => rw [List.take_zero, Nat.le_zero.1 hn, Nat.le_zero.1 (hle [])]
        | succ n =>
          refine h c cs (fun ds hd m => ih _ ?_ ds rfl m) n hn
          rw [← ht, List.length_cons]
          omega

theorem span (p : Char → Bool) : Delimits (spanLength p) := by
  refine of_cons (fun t => (List.takeWhile_sublist p).length_le) fun c cs ih n h => ?_
  by_cases hc : p c
  · simp only [spanLength, List.takeWhile_cons, hc, if_true, List.length_cons,
      Nat.add_le_add_iff_right] at h ih ⊢
    rw [ih cs (Nat.le_refl _) n h]
  · simp [spanLength, hc]

theorem identLength_pos {c : Char} (cs : Text) (h : isIdentContinue c) :
    0 < identLength (c :: cs) := by
  simp [identLength, h]

theorem head?_take {t : Text} {n : Nat} (h : n ≠ 0) : (t.take n).head? = t.head? := by
  rw [List.head?_take, if_neg h]

/-- A cut leaves the first character or none, so it meets no test that was not met before. -/
theorem not_head?_take {p : Option Char → Bool} {t : Text} (h0 : p none = false)
    (h : ¬p t.head?) (n : Nat) : ¬p (t.take n).head? := by
  rw [List.head?_take]
  split_ifs
  · simp [h0]
  · exact h

theorem ident : Delimits identLength := by
  refine of_cons (fun t => ?_) fun c cs ih n h => ?_
  · fun_induction identLength t with
    | case1 => simp
    | case2 c cs _ ih => simpa using ih
    | case3 c cs _ _ ih => simpa using ih
    | case4 => simp
  · unfold identLength at h ⊢
    split_ifs at h with h1 h2
    · rw [if_pos h1, if_pos h1, ih cs (Nat.le_refl _) n (by omega)]
    · have hn : n ≠ 0 := by
        rintro rfl
        cases cs with
        | nil => simp at h2
        | cons e es =>
          simp only [Bool.and_eq_true, List.head?_cons, Option.any_some] at h2
          have := identLength_pos es h2.2
          omega
      rw [if_neg h1, if_neg h1, head?_take hn, if_pos h2, if_pos h2, ih cs (Nat.le_refl _) n (by omega)]
    · have h2' : ¬(c == '-' && (cs.take n).head?.any isIdentContinue) :=
        not_head?_take (p := fun e => c == '-' && e.any isIdentContinue) (by simp) h2 n
      rw [if_neg h1, if_neg h1, if_neg h2, if_neg h2']

theorem quotedLength_pos (close : Char) (escapes : Bool) (c : Char) (cs : Text) :
    0 < quotedLength close escapes (c :: cs) := by
  cases cs with
  | nil => simp [quotedLength]
  | cons d ds =>
    unfold quotedLength
    split_ifs <;> omega

theorem quoted (close : Char) (escapes : Bool) : Delimits (quotedLength close escapes) := by
  refine of_cons (fun t => ?_) fun c cs ih n h => ?_
  · fun_induction quotedLength close escapes t with
    | case1 => simp
    | case2 => simp
    | case3 c d cs _ ih => simpa using ih
    | case4 c d cs _ _ _ ih => simpa using ih
    | case5 => simp
    | case6 c d cs _ _ ih => simpa using ih
  · cases cs with
    | nil => rw [List.take_nil]
    | cons d ds =>
      have hd := quotedLength_pos close escapes d ds
      unfold quotedLength at h
      cases n with
      | zero =>
        split_ifs at h with h1 h2 h3
        · omega
        · omega
        · simp [quotedLength, h1, h2, h3]
        · omega
      | succ n =>
        rw [List.take_succ_cons]
        unfold quotedLength
        split_ifs at h with h1 h2 h3
        · rw [if_pos h1, if_pos h1, ih ds (by simp) n (by omega)]
        · rw [if_neg h1, if_neg h1, if_pos h2, if_pos h2, if_pos h3, if_pos h3,
            ih ds (by simp) n (by omega)]
        · rw [if_neg h1, if_neg h1, if_pos h2, if_pos h2, if_neg h3, if_neg h3]
        · rw [if_neg h1, if_neg h1, if_neg h2, if_neg h2, ← List.take_succ_cons,
            ih (d :: ds) (Nat.le_refl _) (n + 1) (by omega)]

theorem spanLength_pos {p : Char → Bool} {t : Text} (h : t.head?.any p) : 0 < spanLength p t := by
  cases t with
  | nil => cases h
  | cons c cs =>
    have hc : p c = true := h
    rw [spanLength, List.takeWhile_cons, if_pos hc]
    exact Nat.succ_pos _

theorem fraction : Delimits fractionLength := by
  have hs := span Char.isDigit
  refine of_cons (fun t => ?_) fun c cs _ n h => ?_
  · unfold fractionLength
    split
    · next ds =>
      have := hs.le ds
      split_ifs <;> simp only [List.length_cons] <;> omega
    · omega
  · by_cases hc : c = '.'
    · subst hc
      simp only [fractionLength] at h ⊢
      split_ifs at h with h1
      · have hpos := spanLength_pos h1
        rw [head?_take (by omega), if_pos h1, hs.take _ _ (by omega), if_pos h1]
      · rw [if_neg h1, if_neg (not_head?_take rfl h1 n)]
    · unfold fractionLength
      split
      · next h => simp_all
      · split
        · next h => simp_all
        · rfl

/-- The digits behind `k` characters, together with these; nothing if there are no digits. -/
def digitsLength (k : Nat) (t : Text) : Nat :=
  if (t.drop k).head?.any Char.isDigit then spanLength Char.isDigit (t.drop k) + k else 0

theorem lt_digitsLength {k : Nat} {t : Text} (h : (t.drop k).head?.any Char.isDigit) :
    k < digitsLength k t := by
  have := spanLength_pos h
  rw [digitsLength, if_pos h]
  omega

theorem digits (k : Nat) : Delimits (digitsLength k) where
  le t := by
    have hs := (span Char.isDigit).le (t.drop k)
    rw [List.length_drop] at hs
    unfold digitsLength
    split_ifs with h
    · have hk : k < t.length := by
        by_contra hn
        simp [List.drop_eq_nil_of_le (Nat.le_of_not_lt hn)] at h
      omega
    · omega
  take t n h := by
    by_cases hd : (t.drop k).head?.any Char.isDigit
    · have hk := lt_digitsLength hd
      simp only [digitsLength, hd, if_true] at h hk
      simp only [digitsLength]
      rw [List.drop_take, head?_take (by omega), if_pos hd, (span _).take _ _ (by omega), if_pos hd]
    · rw [digitsLength, digitsLength, if_neg hd, List.drop_take, if_neg (not_head?_take rfl hd _)]

/-- The sign of an exponent, if it has one. -/
def signLength (t : Text) : Nat :=
  if t.head?.any (fun s => s == '+' || s == '-') then 1 else 0

theorem exponentLength_cons (e : Char) (ds : Text) :
    exponentLength (e :: ds) =
      if e == 'e' || e == 'E' then
        if digitsLength (signLength ds) ds = 0 then 0 else digitsLength (signLength ds) ds + 1
      else 0 := by
  simp only [exponentLength, ← signLength.eq_def]
  by_cases hd : (ds.drop (signLength ds)).head?.any Char.isDigit
  · have := lt_digitsLength hd
    rw [if_pos hd, if_neg (Nat.ne_of_gt (Nat.lt_of_le_of_lt (Nat.zero_le _) this)), digitsLength,
      if_pos hd]
  · rw [if_neg hd, digitsLength, if_neg hd, if_pos rfl]

theorem exponent : Delimits exponentLength := by
  refine of_cons (fun t => ?_) fun c cs _ n h => ?_
  · cases t with
    | nil => simp [exponentLength]
    | cons e ds =>
      have := (digits (signLength ds)).le ds
      rw [exponentLength_cons]
      split_ifs <;> simp only [List.length_cons] <;> omega
  · rw [exponentLength_cons] at h ⊢
    rw [exponentLength_cons]
    by_cases hc : c == 'e' || c == 'E'
    · rw [if_pos hc] at h ⊢
      rw [if_pos hc]
      have hd : digitsLength (signLength cs) cs ≤ n := by
        split_ifs at h <;> omega
      by_cases hn : n = 0
      · subst hn
        rw [Nat.le_zero.1 hd]
        simp [digitsLength]
      · have hs : signLength (cs.take n) = signLength cs := by
          rw [signLength, head?_take hn, signLength]
        rw [hs, (digits _).take _ _ hd]
    · rw [if_neg hc, if_neg hc]

theorem number : Delimits numberLength :=
  ((span Char.isDigit).seq fraction).seq exponent

theorem marker : Delimits markerLength := by
  have hs := span (· != '\x7d')
  constructor
  · intro t
    have := hs.le t
    simp only [markerLength]
    split_ifs <;> omega
  · intro t n h
    simp only [markerLength] at h ⊢
    have hle := hs.le t
    split_ifs at h with h1
    · rw [hs.take t n (by omega), List.length_take, if_pos h1, if_pos (by omega)]
    · rw [hs.take t n (by omega), List.length_take, if_neg h1, if_neg (by omega)]

end Delimits

/-! ### The first character of a token -/

/-- What a character begins. -/
inductive Start where
  | blank
  | quote (close : Char)
  | literal (close : Char)
  | digit
  | letter
  | single (kind : TokenKind)
  | brace
  | hyphen
  | comparison
  /-- A sign that may be doubled. -/
  | sign (c : Char)
  | other
deriving DecidableEq

/-- What a character begins in a dialect. -/
def start (d : Dialect) (c : Char) : Start :=
  if isBlank c then .blank
  else if c == d.startQuote then .quote d.endQuote
  else if c == '\x60' then .quote '\x60'
  else if c == '\'' || c == '"' then .literal c
  else if c.isDigit then .digit
  else if isIdentStart c then .letter
  else if c == '(' then .single .lParen
  else if c == ')' then .single .rParen
  else if c == ',' then .single .comma
  else if c == '.' then .single .dot
  else if c == '\x7b' then .brace
  else if c == '-' then .hyphen
  else if c == '<' || c == '>' || c == '=' || c == '!' then .comparison
  else if c == '|' || c == '&' || c == ':' then .sign c
  else .other

/-- The kind of the token that begins so, and how far it reaches into the text behind its first
character. -/
def Start.extent (s : Start) (rest : Text) : TokenKind × Nat :=
  match s with
  | .blank => (.whitespace, spanLength isBlank rest)
  | .quote close => (.quotedIdent, quotedLength close false rest)
  | .literal close => (.str, quotedLength close true rest)
  | .digit =>
    if (rest.drop (numberLength rest)).head?.any isIdentContinue then
      (.ident, numberLength rest + identLength (rest.drop (numberLength rest)))
    else (.number, numberLength rest)
  | .letter => (.ident, identLength rest)
  | .single kind => (kind, 0)
  | .brace => if rest.head? == some '$' then (.marker, markerLength rest) else (.operator, 0)
  | .hyphen =>
    if rest.head? == some '>' then (.operator, if rest.tail.head? == some '>' then 2 else 1)
    else (.operator, 0)
  | .comparison => (.operator, spanLength (fun e => e == '<' || e == '>' || e == '=') rest)
  | .sign c => (.operator, if rest.head? == some c then 1 else 0)
  | .other => (.operator, 0)

/-- The character that makes up every token of a kind, if there is one. -/
def sign? : TokenKind → Option Char
  | .lParen => some '('
  | .rParen => some ')'
  | .comma => some ','
  | .dot => some '.'
  | _ => none

theorem start_eq_single_iff {d : Dialect} {c : Char} {k : TokenKind} :
    start d c = .single k ↔ sign? k = some c := by
  constructor
  · fun_cases start d c <;> intro h <;> cases h <;> simp_all [sign?]
  · intro h
    cases k <;> cases h <;> cases d <;> rfl

theorem extent_eq (d : Dialect) (c : Char) (rest : Text) :
    extent d c rest = (start d c).extent rest := by
  by_cases hb : c = '\x7b'
  · subst hb
    cases d <;> rfl
  by_cases hh : c = '-'
  · subst hh
    cases d <;> rfl
  have hb : (c == '\x7b') = false := beq_false_of_ne hb
  have hh : (c == '-') = false := beq_false_of_ne hh
  simp only [extent, start, hb, hh, Bool.false_and, Bool.false_eq_true, if_false,
    apply_ite (fun s => Start.extent s rest)]
  rfl

namespace Start

variable (s : Start) (rest : Text)

theorem extent_le : (s.extent rest).2 ≤ rest.length := by
  cases s with
  | blank => exact (Delimits.span _).le rest
  | quote close => exact (Delimits.quoted _ _).le rest
  | literal close => exact (Delimits.quoted _ _).le rest
  | digit =>
    simp only [extent]
    split_ifs
    · exact (Delimits.number.seq .ident).le rest
    · exact Delimits.number.le rest
  | letter => exact Delimits.ident.le rest
  | single kind => exact Nat.zero_le _
  | brace =>
    simp only [extent]
    split_ifs
    · exact Delimits.marker.le rest
    · exact Nat.zero_le _
  | hyphen =>
    rcases rest with _ | ⟨a, _ | ⟨b, r⟩⟩ <;> simp only [extent] <;> split_ifs <;> simp_all
  | comparison => exact (Delimits.span _).le rest
  | sign c =>
    cases rest with
    | nil => simp [extent]
    | cons e r =>
      simp only [extent]
      split_ifs <;> simp
  | other => exact Nat.zero_le _

theorem extent_take (n : Nat) (h : (s.extent rest).2 ≤ n) :
    s.extent (rest.take n) = s.extent rest := by
  cases s with
  | blank => exact congrArg (Prod.mk _) ((Delimits.span _).take rest n h)
  | quote close => exact congrArg (Prod.mk _) ((Delimits.quoted _ _).take rest n h)
  | literal close => exact congrArg (Prod.mk _) ((Delimits.quoted _ _).take rest n h)
  | digit =>
    simp only [extent] at h ⊢
    -- What follows the digits decides whether they begin an identifier.
    split_ifs at h with hc
    · have hp : 0 < identLength (rest.drop (numberLength rest)) := by
        cases hd : rest.drop (numberLength rest) with
        | nil => simp [hd] at hc
        | cons e es => exact Delimits.identLength_pos es (by simpa [hd] using hc)
      rw [Delimits.number.take rest n (by omega), List.drop_take, Delimits.head?_take (by omega),
        if_pos hc, if_pos hc, Delimits.ident.take _ _ (by omega)]
    · rw [Delimits.number.take rest n h, List.drop_take, if_neg hc,
        if_neg (Delimits.not_head?_take rfl hc _)]
  | letter => exact congrArg (Prod.mk _) (Delimits.ident.take rest n h)
  | single kind => rfl
  | brace =>
    simp only [extent] at h ⊢
    by_cases hc : rest.head? == some '$'
    · rw [if_pos hc] at h
      -- A marker reaches behind its dollar sign, so the cut leaves the sign.
      have hn : n ≠ 0 := by
        rintro rfl
        cases rest with
        | nil => simp at hc
        | cons e es =>
          have := (Delimits.span (· != '\x7d')).le es
          simp only [List.head?_cons, beq_iff_eq, Option.some.injEq] at hc
          subst hc
          simp [markerLength, spanLength] at h
          split_ifs at h
      rw [Delimits.head?_take hn, if_pos hc, if_pos hc, Delimits.marker.take _ _ h]
    · rw [if_neg hc, if_neg (Delimits.not_head?_take (p := (· == some '$')) rfl hc n)]
  | hyphen =>
    simp only [extent] at h ⊢
    by_cases h1 : rest.head? == some '>'
    · rw [if_pos h1] at h
      by_cases h2 : rest.tail.head? == some '>'
      · rw [if_pos h2] at h
        have h : 2 ≤ n := h
        rw [← List.drop_one, List.drop_take, List.drop_one, Delimits.head?_take (by omega),
          Delimits.head?_take (by omega), if_pos h1, if_pos h2]
      · rw [if_neg h2] at h
        have h : 1 ≤ n := h
        rw [← List.drop_one, List.drop_take, List.drop_one, Delimits.head?_take (by omega), if_pos h1,
          if_pos h1, if_neg h2, if_neg (Delimits.not_head?_take (p := (· == some '>')) rfl h2 _)]
    · rw [if_neg h1, if_neg (Delimits.not_head?_take (p := (· == some '>')) rfl h1 n)]
  | comparison => exact congrArg (Prod.mk _) ((Delimits.span _).take rest n h)
  | sign c =>
    rcases rest with _ | ⟨a, r⟩ <;> rcases n with _ | n <;> simp_all [extent]
  | other => rfl

/-- What begins a token of a kind that is always the same character. -/
theorem eq_single_of_sign {x : Char} (hx : sign? (s.extent rest).1 = some x) :
    s = .single (s.extent rest).1 := by
  cases s with
  | single k => rfl
  | digit | brace | hyphen =>
    simp only [extent] at hx
    split_ifs at hx <;> cases hx
  | _ => cases hx

end Start

/-! ### Tokens and what follows them -/

variable {d : Dialect} {u : Token} {us vs : List Token} {rest : Text}

/-- Whether a token is what is read first if its text stands in front of `rest`. -/
def Ends (d : Dialect) (u : Token) (rest : Text) : Prop :=
  ∃ c cs, u.text = c :: cs ∧ (start d c).extent (cs ++ rest) = (u.kind, cs.length)

/-- Whether each token of a row, which stands in front of `rest`, ends where the next one begins. -/
def Separate (d : Dialect) : List Token → Text → Prop
  | [], _ => True
  | u :: us, rest => u.Ends d (textOf us ++ rest) ∧ Separate d us rest

@[simp] theorem textOf_nil : textOf [] = [] := rfl

@[simp] theorem textOf_cons (u : Token) (us : List Token) : textOf (u :: us) = u.text ++ textOf us :=
  rfl

@[simp] theorem textOf_append (us vs : List Token) : textOf (us ++ vs) = textOf us ++ textOf vs :=
  List.flatMap_append

theorem tokenize_cons (d : Dialect) (c : Char) (rest : Text) :
    tokenize d (c :: rest) =
      ⟨(extent d c rest).1, c :: rest.take (extent d c rest).2⟩ ::
        tokenize d (rest.drop (extent d c rest).2) := by
  rw [tokenize]

@[simp] theorem tokenize_nil (d : Dialect) : tokenize d [] = [] := by
  rw [tokenize]

namespace Ends

theorem first (d : Dialect) (c : Char) (rest : Text) :
    Ends d ⟨(extent d c rest).1, c :: rest.take (extent d c rest).2⟩
      (rest.drop (extent d c rest).2) := by
  refine ⟨c, rest.take (extent d c rest).2, rfl, ?_⟩
  have hl := (start d c).extent_le rest
  rw [List.take_append_drop, extent_eq, List.length_take, Nat.min_eq_left hl]

theorem tokenize_append (h : u.Ends d rest) :
    tokenize d (u.text ++ rest) = u :: tokenize d rest := by
  obtain ⟨c, cs, hu, he⟩ := h
  rw [hu, List.cons_append, tokenize_cons, extent_eq, he]
  simp only [List.take_left, List.drop_left]
  rw [← hu]

/-- A parenthesis, a comma and a dot are a character each. -/
theorem eq_sign {x : Char} {k : TokenKind} (h : u.Ends d rest) (hk : u.kind = k)
    (hx : sign? k = some x) : u = ⟨k, [x]⟩ := by
  obtain ⟨c, cs, hu, he⟩ := h
  have hs := Start.eq_single_of_sign (start d c) (cs ++ rest) (by rw [he, hk]; exact hx)
  rw [he, hk] at hs
  have hc : c = x := Option.some.inj ((start_eq_single_iff.1 hs).symm.trans hx)
  have hcs : cs.length = 0 := by
    rw [hs] at he
    exact (congrArg Prod.snd he).symm
  rw [hc, List.length_eq_zero_iff.1 hcs] at hu
  rw [← hk, ← hu]

theorem of_sign {x : Char} {k : TokenKind} (hx : sign? k = some x) (d : Dialect) (rest : Text) :
    (⟨k, [x]⟩ : Token).Ends d rest :=
  ⟨x, [], rfl, by rw [start_eq_single_iff.2 hx]; rfl⟩

/-- A token that ends where the text ends is all that is read. -/
theorem tokenize_text (h : u.Ends d []) : tokenize d u.text = [u] := by
  have := h.tokenize_append
  rwa [List.append_nil, tokenize_nil] at this

/-- A token goes on ending where it does if what follows is cut. -/
theorem cut {a b : Text} (h : u.Ends d (a ++ b)) : u.Ends d a := by
  obtain ⟨c, cs, hu, he⟩ := h
  refine ⟨c, cs, hu, ?_⟩
  have ht := (start d c).extent_take (cs ++ (a ++ b)) (cs ++ a).length (by simp [he])
  rwa [← List.append_assoc, List.take_left, List.append_assoc, he] at ht

end Ends

namespace Separate

theorem append_iff : Separate d (us ++ vs) rest ↔ Separate d us (textOf vs ++ rest) ∧ Separate d vs rest := by
  induction us with
  | nil => simp [Separate]
  | cons u us ih => simp [Separate, ih, and_assoc]

theorem tokenize_append (h : Separate d us rest) :
    tokenize d (textOf us ++ rest) = us ++ tokenize d rest := by
  induction us with
  | nil => rfl
  | cons u us ih =>
    rw [textOf_cons, List.append_assoc, h.1.tokenize_append, ih h.2, List.cons_append]

theorem tokenize_textOf (h : Separate d us []) : tokenize d (textOf us) = us := by
  have := h.tokenize_append
  rwa [List.append_nil, tokenize_nil, List.append_nil] at this

theorem cut {a b : Text} (h : Separate d us (a ++ b)) : Separate d us a := by
  induction us with
  | nil => trivial
  | cons u us ih => exact ⟨Ends.cut (b := b) (by rw [List.append_assoc]; exact h.1), ih h.2⟩

theorem ends_of_mem (h : Separate d us rest) (hu : u ∈ us) : ∃ after, u.Ends d after := by
  induction us with
  | nil => cases hu
  | cons v us ih =>
    rcases List.mem_cons.1 hu with rfl | hu
    · exact ⟨_, h.1⟩
    · exact ih h.2 hu

end Separate

/-- The tokens of a fragment end where the next ones begin. -/
theorem separate_tokenize (d : Dialect) (t : Text) : Separate d (tokenize d t) [] := by
  fun_induction tokenize d t with
  | case1 => trivial
  | case2 c rest e ih =>
    refine ⟨?_, ih⟩
    rw [textOf_tokenize, List.append_nil]
    exact Ends.first d c rest

/-- A token is found again in its own text. -/
theorem tokenize_text_of_mem {t : Text} (h : u ∈ tokenize d t) : tokenize d u.text = [u] := by
  obtain ⟨after, ha⟩ := (separate_tokenize d t).ends_of_mem h
  exact (Ends.cut (a := []) (b := after) ha).tokenize_text

/-! ### Offsets -/

theorem byteLength_append (a b : Text) :
    Text.byteLength (a ++ b) = Text.byteLength a + Text.byteLength b := by
  have h : ∀ (t : Text) (n : Nat),
      t.foldl (fun n c => n + c.utf8Size) n = n + Text.byteLength t := by
    intro t
    induction t with
    | nil => simp [Text.byteLength]
    | cons c cs ih =>
      intro n
      have h0 := ih (0 + c.utf8Size)
      simp only [Text.byteLength, List.foldl_cons] at h0 ⊢
      rw [ih, h0, Text.byteLength]
      omega
  rw [Text.byteLength, List.foldl_append, h, ← Text.byteLength.eq_def]

variable {start : Nat} {ts : List Token}

theorem map_fst_spansFrom (start : Nat) (ts : List Token) :
    (spansFrom start ts).map Prod.fst = ts := by
  induction ts generalizing start with
  | nil => rfl
  | cons t ts ih => simp [spansFrom, ih]

theorem head?_spansFrom (start : Nat) (ts : List Token) :
    ∀ s ∈ (spansFrom start ts).head?, s.2.1 = start := by
  cases ts <;> simp [spansFrom]

theorem isChain_spansFrom (start : Nat) (ts : List Token) :
    (spansFrom start ts).IsChain fun s s' => s'.2.1 = s.2.2 := by
  induction ts generalizing start with
  | nil => exact .nil
  | cons t ts ih => exact List.isChain_cons.2 ⟨head?_spansFrom _ ts, ih _⟩

theorem getLast?_spansFrom (start : Nat) (ts : List Token) :
    ∀ s ∈ (spansFrom start ts).getLast?, s.2.2 = start + Text.byteLength (textOf ts) := by
  induction ts generalizing start with
  | nil => simp [spansFrom]
  | cons t ts ih =>
    rw [textOf_cons, byteLength_append, ← Nat.add_assoc]
    cases ts with
    | nil => simp [spansFrom, Text.byteLength]
    | cons u us => simpa [spansFrom] using ih (start + Text.byteLength t.text)

theorem slice_of_mem_spansFrom {s : Token × Nat × Nat} (h : s ∈ spansFrom start ts) :
    ∃ before after, textOf ts = before ++ s.1.text ++ after ∧
      s.2.1 = start + Text.byteLength before ∧ s.2.2 = s.2.1 + Text.byteLength s.1.text := by
  induction ts generalizing start with
  | nil => cases h
  | cons t ts ih =>
    rcases List.mem_cons.1 h with rfl | h
    · exact ⟨[], textOf ts, rfl, rfl, rfl⟩
    · obtain ⟨before, after, ht, ha, hb⟩ := ih h
      refine ⟨t.text ++ before, after, by simp [ht], ?_, hb⟩
      rw [ha, byteLength_append, Nat.add_assoc]

/-- Cutting a fragment loses nothing: its tokens are adjacent slices of it from its first byte to
its last. None is empty, and each is found again in its own text. -/
theorem tokenize_lossless (d : Dialect) (t : Text) :
    let ts := tokenize d t
    textOf ts = t ∧ (spans ts).map Prod.fst = ts ∧
      (∀ s ∈ (spans ts).head?, s.2.1 = 0) ∧
      ((spans ts).IsChain fun s s' => s'.2.1 = s.2.2) ∧
      (∀ s ∈ (spans ts).getLast?, s.2.2 = Text.byteLength t) ∧
      ∀ s ∈ spans ts, s.1.text ≠ [] ∧ tokenize d s.1.text = [s.1] ∧
        ∃ before after, t = before ++ s.1.text ++ after ∧ s.2.1 = Text.byteLength before ∧
          s.2.2 = s.2.1 + Text.byteLength s.1.text := by
  intro ts
  have ht : textOf ts = t := textOf_tokenize d t
  have hm : (spans ts).map Prod.fst = ts := map_fst_spansFrom 0 ts
  refine ⟨ht, hm, head?_spansFrom 0 ts, isChain_spansFrom 0 ts, ?_, fun s hs => ?_⟩
  · have := getLast?_spansFrom 0 ts
    rwa [ht, Nat.zero_add] at this
  · have hu : s.1 ∈ ts := by
      rw [← hm]
      exact List.mem_map_of_mem hs
    refine ⟨text_ne_nil_of_mem d t s.1 hu, tokenize_text_of_mem hu, ?_⟩
    obtain ⟨before, after, hslice, ha, hb⟩ := slice_of_mem_spansFrom hs
    exact ⟨before, after, by rw [← hslice, ht], by rw [ha, Nat.zero_add], hb⟩

end SqlComposer.Token
