import SqlComposer.Placeholder
import SqlComposer.Proofs.OrderedMap
import SqlComposer.Proofs.Token
import Mathlib.Data.Set.Card

/-!
# Placeholders among tokens

What a token becomes when values are put into a template is decided where it stands: `becomes` goes
by the tokens in front of it and behind it, and looks into none of them but the number behind a
colon. Binding a template writes its tokens so, one after another.
-/

namespace SqlComposer

namespace Placeholder

open Token (tokenize)

variable {values : List Text} {before after ts : List Token} {t u : Token} {n : Nat}

/-! ### Tokens of placeholders -/

/-- A question mark. -/
def question : Token :=
  ⟨.operator, "?"⟩

/-- A single colon. -/
def colon : Token :=
  ⟨.operator, ":"⟩

/-- A doubled colon. -/
def cast : Token :=
  ⟨.operator, "::"⟩

/-- Whether a token writes an index: decimal digits for a number that fits a machine word. -/
structure Writes (u : Token) (n : Nat) : Prop where
  kind : u.kind = .number
  ne_nil : u.text ≠ []
  digits : ∀ c ∈ u.text, c.isDigit = true
  value : Text.toNat u.text = n
  fits : n < 2 ^ 64

theorem index?_eq_some_iff (hk : u.kind = .number) : index? u.text = some n ↔ Writes u n := by
  have hsize : UInt64.size = 2 ^ 64 := rfl
  constructor
  · intro h
    simp only [index?] at h
    split_ifs at h with hd hn
    cases h
    simp only [Text.allDigits, Bool.and_eq_true, List.all_eq_true, Bool.not_eq_true',
      List.isEmpty_eq_false_iff] at hd
    exact ⟨hk, hd.2, hd.1, rfl, hsize ▸ hn⟩
  · rintro ⟨-, hne, hd, rfl, hn⟩
    have hd : (Text.allDigits u.text && !u.text.isEmpty) = true := by
      simpa [Text.allDigits, hne] using hd
    rw [index?, if_pos hd, if_pos (hsize ▸ hn)]

/-- The index of the placeholder that a token begins: a colon with a number directly behind it. -/
def indexBehind (t : Token) (after : List Token) : Option Nat :=
  if t = colon then after.head?.bind fun u => if u.kind = .number then index? u.text else none
  else none

theorem indexBehind_eq_some_iff :
    indexBehind t after = some n ↔ t = colon ∧ ∃ u ∈ after.head?, Writes u n := by
  rw [indexBehind]
  split_ifs with ht
  · rw [Option.bind_eq_some_iff]
    refine (and_iff_right ht).symm.trans (and_congr_right fun _ => exists_congr fun u => ?_)
    refine and_congr_right fun _ => ?_
    by_cases hk : u.kind = .number
    · rw [if_pos hk, index?_eq_some_iff hk]
    · exact iff_of_false (by simp [hk]) fun h => hk h.kind
  · exact iff_of_false (by simp) fun h => ht h.1

theorem indexBehind_of_ne (h : t ≠ colon) (after : List Token) : indexBehind t after = none := by
  rw [indexBehind, if_neg h]

/-- The index of the placeholder that a token ends: there is a colon directly in front of it. -/
def indexInFront (before : List Token) (t : Token) (after : List Token) : Option Nat :=
  before.getLast?.bind fun c => indexBehind c (t :: after)

/-- What is written for a token, by the tokens in front of it and behind it. A question mark becomes
the value that is its turn, and a colon the value that the number behind it asks for, which then
vanishes. Where there is no such value, and everywhere else, the token is kept. -/
def becomes (values : List Text) (before : List Token) (t : Token) (after : List Token) : Text :=
  if t = question then (values[before.count question]?).getD t.text
  else
    match indexBehind t after, indexInFront before t after with
    | some n, _ => (values[n]?).getD t.text
    | none, some n => if n < values.length then [] else t.text
    | none, none => t.text

/-- What is written for a token and its place in a row. -/
def becomesAt (values : List Text) (ts : List Token) (p : Token × Nat) : Text :=
  becomes values (ts.take p.2) p.1 (ts.drop (p.2 + 1))

/-! ### Reading placeholders -/

theorem ne_question_of_kind (h : u.kind = .number) : u ≠ question := by
  rintro rfl
  cases h

theorem ne_colon_of_kind (h : u.kind = .number) : u ≠ colon := by
  rintro rfl
  cases h

theorem count_concat (h : t ≠ question) (before : List Token) :
    (before ++ [t]).count question = before.count question := by
  rw [List.count_append, List.count_singleton, if_neg (by simpa using h), Nat.add_zero]

theorem ofTokens_question (ts : List Token) : ofTokens (question :: ts) = .next :: ofTokens ts := by
  cases ts with
  | nil => rfl
  | cons u ts => rw [ofTokens, if_pos (by rfl)]

theorem ofTokens_numbered (hu : u.kind = .number) (h : index? u.text = some n) (ts : List Token) :
    ofTokens (colon :: u :: ts) = .numbered n (colon.text ++ u.text) :: ofTokens ts := by
  rw [ofTokens, if_neg (by decide), if_pos ⟨rfl, hu⟩, h]

/-- A token that begins no placeholder is read as it is. -/
theorem ofTokens_of_none (hq : t ≠ question) (h : indexBehind t ts = none) :
    ofTokens (t :: ts) = .verbatim t.text :: ofTokens ts := by
  have hq : ¬t = ⟨.operator, "?"⟩ := hq
  cases ts with
  | nil => simp only [ofTokens, if_neg hq]
  | cons u ts =>
    rw [ofTokens, if_neg hq]
    split_ifs with hc
    · have hi : index? u.text = none := by simpa [indexBehind, colon, hc] using h
      rw [hi]
    · rfl

/-- A row of tokens is read placeholder by placeholder and otherwise token by token. -/
@[elab_as_elim]
theorem ofTokens_induction {motive : List Token → Prop} (nil : motive [])
    (next : ∀ ts, motive ts → motive (question :: ts))
    (numbered : ∀ u n ts, u.kind = .number → index? u.text = some n → motive ts →
      motive (colon :: u :: ts))
    (verbatim : ∀ t ts, t ≠ question → indexBehind t ts = none → motive ts → motive (t :: ts))
    (ts : List Token) : motive ts := by
  induction hl : ts.length using Nat.strongRecOn generalizing ts with
  | ind k ih =>
    cases ts with
    | nil => exact nil
    | cons t ts =>
      rw [List.length_cons] at hl
      by_cases hq : t = question
      · subst hq
        exact next ts (ih _ (by omega) ts rfl)
      cases hi : indexBehind t ts with
      | none => exact verbatim t ts hq hi (ih _ (by omega) ts rfl)
      | some n =>
        obtain ⟨rfl, u, hu, hw⟩ := indexBehind_eq_some_iff.1 hi
        obtain ⟨us, rfl⟩ := List.head?_eq_some_iff.1 hu
        rw [List.length_cons] at hl
        exact numbered u n us hw.kind ((index?_eq_some_iff hw.kind).2 hw) (ih _ (by omega) us rfl)

/-! ### Binding token by token -/

theorem flatMap_becomesAt_cons (values : List Text) (before : List Token) (t : Token)
    (ts : List Token) :
    ((t :: ts).zipIdx before.length).flatMap (becomesAt values (before ++ t :: ts)) =
      becomes values before t ts ++
        (ts.zipIdx (before ++ [t]).length).flatMap (becomesAt values (before ++ [t] ++ ts)) := by
  have hat : becomesAt values (before ++ t :: ts) (t, before.length) = becomes values before t ts := by
    rw [becomesAt, List.take_left, List.append_cons, List.drop_left' (by simp)]
  rw [List.zipIdx_cons, List.flatMap_cons, hat, List.append_cons, List.length_append,
    List.length_singleton]

/-- A token that neither begins nor ends a placeholder is kept. -/
theorem becomes_of_none (hq : t ≠ question) (hb : indexBehind t after = none)
    (hf : indexInFront before t after = none) : becomes values before t after = t.text := by
  rw [becomes, if_neg hq, hb, hf]

/-- A colon and its number become the value, or are kept together. -/
theorem becomes_colon_number (values : List Text) (before after : List Token)
    (hu : u.kind = .number) (h : index? u.text = some n) :
    becomes values before colon (u :: after) ++ becomes values (before ++ [colon]) u after =
      (values[n]?).getD (colon.text ++ u.text) := by
  have hb : indexBehind colon (u :: after) = some n := by simp [indexBehind, hu, h]
  have hf : indexInFront (before ++ [colon]) u after = some n := by
    rw [indexInFront, List.getLast?_concat, Option.bind_some, hb]
  rw [becomes, if_neg (by decide), hb, becomes, if_neg (ne_question_of_kind hu),
    indexBehind_of_ne (ne_colon_of_kind hu), hf]
  by_cases hn : n < values.length <;> simp [hn]

/-- Values are put into the placeholders of a row of tokens as into the tokens one by one. -/
theorem fill_ofTokens (values : List Text) (hb : ∀ c ∈ before.getLast?, indexBehind c ts = none) :
    fill values (before.count question) (ofTokens ts) =
      (ts.zipIdx before.length).flatMap (becomesAt values (before ++ ts)) := by
  -- Tokens are taken as they are read: a colon together with the number behind it.
  induction ts using ofTokens_induction generalizing before with
  | nil => rfl
  | next ts ih =>
    have hn : ∀ c ∈ (before ++ [question]).getLast?, indexBehind c ts = none := by
      rw [List.getLast?_concat]
      rintro _ ⟨⟩
      exact indexBehind_of_ne (by decide) ts
    rw [flatMap_becomesAt_cons, ← ih hn, ofTokens_question, fill, becomes, if_pos rfl,
      List.count_append, List.count_singleton_self]
    rfl
  | numbered u n ts hu hi ih =>
    have hn : ∀ c ∈ (before ++ [colon] ++ [u]).getLast?, indexBehind c ts = none := by
      rw [List.getLast?_concat]
      rintro _ ⟨⟩
      exact indexBehind_of_ne (ne_colon_of_kind hu) ts
    have hc : (before ++ [colon] ++ [u]).count question = before.count question := by
      rw [count_concat (ne_question_of_kind hu), count_concat (by decide)]
    rw [flatMap_becomesAt_cons, flatMap_becomesAt_cons, ← ih hn, ofTokens_numbered hu hi, fill,
      ← List.append_assoc, becomes_colon_number values before ts hu hi, hc]
  | verbatim t ts hq hi ih =>
    have hn : ∀ c ∈ (before ++ [t]).getLast?, indexBehind c ts = none := by
      rw [List.getLast?_concat]
      rintro _ ⟨⟩
      exact hi
    have hf : indexInFront before t ts = none := by
      rw [indexInFront, Option.bind_eq_none_iff]
      exact hb
    rw [flatMap_becomesAt_cons, ← ih hn, ofTokens_of_none hq hi, fill, becomes_of_none hq hi hf,
      count_concat hq]

/-! ### Counting -/

theorem countP_ofTokens (ts : List Token) : (ofTokens ts).countP (· = .next) = ts.count question := by
  induction ts using ofTokens_induction with
  | nil => rfl
  | next ts ih => simp [ofTokens_question, ih]
  | numbered u n ts hu hi ih =>
    have hc : colon ≠ question := by decide
    rw [ofTokens_numbered hu hi, List.countP_cons_of_neg (by simp), ih, List.count_cons_of_ne hc,
      List.count_cons_of_ne (ne_question_of_kind hu)]
  | verbatim t ts hq hi ih =>
    rw [ofTokens_of_none hq hi, List.countP_cons_of_neg (by simp), ih, List.count_cons_of_ne hq]

/-- Whether a placeholder with an index stands among tokens. -/
def Asks (ts : List Token) (n : Nat) : Prop :=
  ∃ before t after, ts = before ++ t :: after ∧ indexBehind t after = some n

theorem not_asks_nil : ¬Asks [] n := by
  rintro ⟨before, t, after, h, -⟩
  simp at h

theorem asks_cons : Asks (t :: ts) n ↔ indexBehind t ts = some n ∨ Asks ts n := by
  constructor
  · rintro ⟨_ | ⟨u, before⟩, t', after, h, hi⟩
    · cases h
      exact .inl hi
    · cases h
      exact .inr ⟨before, t', after, rfl, hi⟩
  · rintro (hi | ⟨before, t', after, rfl, hi⟩)
    · exact ⟨[], t, ts, rfl, hi⟩
    · exact ⟨t :: before, t', after, rfl, hi⟩

theorem mem_filterMap_ofTokens : n ∈ (ofTokens ts).filterMap number? ↔ Asks ts n := by
  induction ts using ofTokens_induction with
  | nil => exact iff_of_false (by simp [ofTokens]) not_asks_nil
  | next ts ih =>
    have hn : indexBehind question ts = none := indexBehind_of_ne (by decide) ts
    rw [ofTokens_question, asks_cons, hn, ← ih]
    simp [number?]
  | numbered u m ts hu hi ih =>
    have hc : indexBehind colon (u :: ts) = some m := by simp [indexBehind, hu, hi]
    have hn : indexBehind u ts = none := indexBehind_of_ne (ne_colon_of_kind hu) ts
    rw [ofTokens_numbered hu hi, asks_cons, asks_cons, hc, hn, ← ih]
    simp [number?, eq_comm]
  | verbatim t ts hq hi ih =>
    rw [ofTokens_of_none hq hi, asks_cons, hi, ← ih]
    simp [number?]

theorem length_eraseDups (l : List Nat) : l.eraseDups.length = {n | n ∈ l}.ncard := by
  have hs : {n | n ∈ l} = (l.eraseDups.toFinset : Set Nat) := by
    ext n
    simp
  rw [hs, Set.ncard_coe_finset, List.toFinset_card_of_nodup (nodup_eraseDups l)]

/-! ### Templates -/

/-- Whether a token is no part of a placeholder: it is no operator and no number, or a cast, or a
number with a cast in front of it. -/
def Untouched (before : List Token) (t : Token) : Prop :=
  t.kind ≠ .operator ∧ t.kind ≠ .number ∨ t = cast ∨
    t.kind = .number ∧ before.getLast? = some cast

theorem becomes_of_untouched (values : List Text) (after : List Token) (h : Untouched before t) :
    becomes values before t after = t.text := by
  have hkind : t ≠ question ∧ t ≠ colon := by
    rcases h with ⟨hk, -⟩ | rfl | ⟨hk, -⟩
    · exact ⟨fun ht => hk (ht ▸ rfl), fun ht => hk (ht ▸ rfl)⟩
    · decide
    · exact ⟨ne_question_of_kind hk, ne_colon_of_kind hk⟩
  refine becomes_of_none hkind.1 (indexBehind_of_ne hkind.2 after) ?_
  rw [indexInFront, Option.bind_eq_none_iff]
  intro c hc
  by_contra hi
  obtain ⟨n, hn⟩ := Option.ne_none_iff_exists'.1 hi
  obtain ⟨rfl, u, hu, hw⟩ := indexBehind_eq_some_iff.1 hn
  cases hu
  rcases h with ⟨-, hk⟩ | rfl | ⟨-, hcast⟩
  · exact hk hw.kind
  · cases hw.kind
  · exact absurd (Option.mem_unique hc hcast) (by decide)

/-- Binding a template writes its tokens one after another, each by what stands in front of it and
behind it, and nothing of the values is read again. A placeholder with an index is a colon with a
number directly behind it; strings, quoted identifiers, markers and casts are kept. Question marks
are counted with their repetitions, indexes without. -/
theorem bind_writes_tokens (d : Dialect) (template : Text) (values : List Text) :
    let ts := tokenize d template
    bind d template values = ts.zipIdx.flatMap (becomesAt values ts) ∧
      count d template = (ts.count question, {n | Asks ts n}.ncard) ∧
      (∀ t after n, indexBehind t after = some n ↔ t = colon ∧ ∃ u ∈ after.head?, Writes u n) ∧
      ∀ before t after, Untouched before t → becomes values before t after = t.text := by
  intro ts
  refine ⟨?_, ?_, fun _ _ _ => indexBehind_eq_some_iff,
    fun _ _ after => becomes_of_untouched values after⟩
  · have hfirst : ∀ c ∈ ([] : List Token).getLast?, indexBehind c ts = none := by simp
    exact fill_ofTokens values hfirst
  · have hm : {n | n ∈ (ofTokens ts).filterMap number?} = {n | Asks ts n} :=
      Set.ext fun _ => mem_filterMap_ofTokens
    rw [← hm, ← length_eraseDups, ← countP_ofTokens]
    rfl

example :
    bind .postgreSql "a::1 = :1 AND b = ? OR c = ':0' OR d = :2.5 OR e = :7 OR f = ?" ["?", ":0"] =
      "a::1 = :0 AND b = ? OR c = ':0' OR d = :2.5 OR e = :7 OR f = :0".toList := by
  decide +kernel

end Placeholder

end SqlComposer
