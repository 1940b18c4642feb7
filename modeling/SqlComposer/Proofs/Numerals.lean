import SqlComposer.Proofs.DeferredIds

/-!
# Numerals

A numeral is an optional sign, digits without a leading zero, an optional fraction and an optional
exponent. What is taken for the literal of a number is one, and so is what a number is written as:
an integer by its digits, and a floating-point number by its shortest digits.
-/

namespace SqlComposer

open Text (ofNat ofInt allDigits)

namespace Numeral

/-! ### Grammar -/

/-- An optional sign. -/
inductive Sign : Text → Prop where
  | none : Sign []
  | plus : Sign ['+']
  | minus : Sign ['-']

/-- Digits without a leading zero. -/
inductive Whole : Text → Prop where
  | zero : Whole ['0']
  | digits {c : Char} {cs : Text} (hc : c ≠ '0') (h : allDigits (c :: cs) = true) : Whole (c :: cs)

/-- An optional fraction. -/
inductive Fraction : Text → Prop where
  | none : Fraction []
  | digits {ds : Text} (hn : ds ≠ []) (h : allDigits ds = true) : Fraction ('.' :: ds)

/-- An optional exponent. -/
inductive Exponent : Text → Prop where
  | none : Exponent []
  | digits {e : Char} {sign ds : Text} (he : e = 'e' ∨ e = 'E') (hs : Sign sign) (hn : ds ≠ [])
      (h : allDigits ds = true) : Exponent (e :: (sign ++ ds))

/-- A sign, digits and a fraction. -/
def Mantissa (t : Text) : Prop :=
  ∃ sign whole fraction, Sign sign ∧ Whole whole ∧ Fraction fraction ∧ t = sign ++ whole ++ fraction

end Numeral

open Numeral

/-- A number: `[+-]?(0|[1-9]\d*)(\.\d+)?([eE][+-]?\d+)?`. -/
def Numeral (t : Text) : Prop :=
  ∃ mantissa exponent, Mantissa mantissa ∧ Exponent exponent ∧ t = mantissa ++ exponent

namespace Numeral

variable {t sign whole fraction : Text}

theorem Mantissa.numeral (h : Mantissa t) : Numeral t :=
  ⟨t, [], h, .none, (List.append_nil t).symm⟩

theorem mantissa_of_whole (hs : Sign sign) (hw : Whole whole) : Mantissa (sign ++ whole) :=
  ⟨sign, whole, [], hs, hw, .none, (List.append_nil _).symm⟩

/-- No numeral begins with a quote. -/
theorem ne_quoted (h : Numeral t) (cs : Text) : t ≠ '\'' :: cs := by
  obtain ⟨mantissa, exponent, ⟨sign, whole, fraction, hs, hw, -, rfl⟩, -, rfl⟩ := h
  cases hs with
  | plus | minus => simp
  | none =>
    cases hw with
    | zero => simp
    | digits hc hd =>
      rintro h
      cases h
      revert hd
      simp [allDigits]

/-! ### Texts that are taken for numbers -/

theorem exists_sign (t : Text) : ∃ sign, Sign sign ∧ t = sign ++ unsignedPart t := by
  unfold unsignedPart
  split
  · next c cs =>
    split
    · next h =>
      rw [Bool.or_eq_true, beq_iff_eq, beq_iff_eq] at h
      rcases h with rfl | rfl
      · exact ⟨_, .minus, rfl⟩
      · exact ⟨_, .plus, rfl⟩
    · exact ⟨_, .none, rfl⟩
  · exact ⟨_, .none, rfl⟩

theorem exists_of_isIntegerLiteral (h : isIntegerLiteral t = true) :
    ∃ sign whole, Sign sign ∧ Whole whole ∧ t = sign ++ whole := by
  obtain ⟨sign, hs, ht⟩ := exists_sign t
  refine ⟨sign, unsignedPart t, hs, ?_, ht⟩
  unfold isIntegerLiteral at h
  split at h
  · cases h
  · next c cs hcs =>
    rw [hcs]
    split at h
    · next hc =>
      rw [List.isEmpty_iff.1 h, beq_iff_eq.1 hc]
      exact .zero
    · next hc => exact .digits (by simpa using hc) (by simpa [allDigits] using h)

theorem mantissa_of_isMantissa (h : isMantissa t = true) : Mantissa t := by
  unfold isMantissa at h
  split at h
  · next whole fraction hcut =>
    simp only [Bool.and_eq_true] at h
    obtain ⟨c, hc, -, rfl⟩ := Text.eq_append_of_cutFirst hcut
    obtain ⟨sign, digits, hs, hw, rfl⟩ := exists_of_isIntegerLiteral h.1.1
    refine ⟨sign, digits, '.' :: fraction, hs, hw, .digits (by simpa using h.1.2) h.2, ?_⟩
    rw [beq_iff_eq.1 hc]
  · obtain ⟨sign, whole, hs, hw, rfl⟩ := exists_of_isIntegerLiteral h
    exact mantissa_of_whole hs hw

theorem numeral_of_isIntegerLiteral (h : isIntegerLiteral t = true) : Numeral t := by
  obtain ⟨sign, whole, hs, hw, rfl⟩ := exists_of_isIntegerLiteral h
  exact (mantissa_of_whole hs hw).numeral

theorem numeral_of_isFloatLiteral (h : isFloatLiteral t = true) : Numeral t := by
  unfold isFloatLiteral at h
  split at h
  · next mantissa exponent hcut =>
    obtain ⟨he, hm⟩ := Bool.and_eq_true_iff.1 h
    obtain ⟨e, hletter, -, rfl⟩ := Text.eq_append_of_cutFirst hcut
    obtain ⟨sign, hs, hexp⟩ := exists_sign exponent
    simp only [isExponent, Bool.and_eq_true] at he
    refine ⟨mantissa, e :: exponent, mantissa_of_isMantissa hm, ?_, rfl⟩
    rw [hexp]
    exact .digits (by simpa using hletter) hs (by simpa using he.1) he.2
  · exact (mantissa_of_isMantissa h).numeral

/-! ### Integers -/

theorem allDigits_ofNat (n : Nat) : allDigits (ofNat n) = true :=
  List.all_eq_true.2 Text.digits_ofNat.2

/-- The digits of a positive number do not begin with zero. -/
theorem exists_ofNat {n : Nat} (hn : 0 < n) : ∃ c cs, ofNat n = c :: cs ∧ c ≠ '0' := by
  induction n using Nat.strong_induction_on with
  | _ n ih =>
    by_cases hlt : n < 10
    · refine ⟨n.digitChar, [], Nat.toDigits_of_lt_base hlt, ?_⟩
      interval_cases n <;> decide
    · obtain ⟨c, cs, hcs, hc⟩ := ih (n / 10) (by omega) (by omega)
      refine ⟨c, cs ++ [(n % 10).digitChar], ?_, hc⟩
      rw [ofNat, Nat.toDigits_of_base_le (by decide) (by omega), ← ofNat, hcs, List.cons_append]

theorem whole_ofNat (n : Nat) : Whole (ofNat n) := by
  rcases Nat.eq_zero_or_pos n with rfl | hn
  · exact .zero
  · obtain ⟨c, cs, hcs, hc⟩ := exists_ofNat hn
    have hd := allDigits_ofNat n
    rw [hcs] at hd ⊢
    exact .digits hc hd

theorem numeral_ofNat (n : Nat) : Numeral (ofNat n) :=
  (mantissa_of_whole .none (whole_ofNat n)).numeral

theorem numeral_ofInt (n : Int) : Numeral (ofInt n) := by
  cases n with
  | ofNat n => exact numeral_ofNat n
  | negSucc n => exact (mantissa_of_whole .minus (whole_ofNat (n + 1))).numeral

end Numeral

/-! ### Floating-point numbers -/

namespace Decimal

/-- The digits of a number without the zeros at the end. -/
def kept (d : Nat) : Text :=
  ((ofNat d).reverse.dropWhile (· == '0')).reverse

theorem kept_prefix_ofNat (d : Nat) : kept d <+: ofNat d :=
  List.rdropWhile_prefix _ _

/-- Of a positive number there is a first digit that is kept. -/
theorem exists_kept {d : Nat} (hd : 0 < d) :
    ∃ c cs, kept d = c :: cs ∧ c ≠ '0' ∧ allDigits (c :: cs) = true := by
  obtain ⟨c, cs, hcs, hc⟩ := Numeral.exists_ofNat hd
  have hdigits : allDigits (kept d) = true :=
    List.all_eq_true.2 fun e he => Text.digits_ofNat.2 e ((kept_prefix_ofNat d).subset he)
  have hpre := kept_prefix_ofNat d
  rw [hcs] at hpre
  cases hk : kept d with
  | nil =>
    have hz := List.rdropWhile_eq_nil_iff.1 hk c (by rw [hcs]; exact List.mem_cons_self)
    exact absurd (beq_iff_eq.1 hz) hc
  | cons e es =>
    rw [hk] at hpre hdigits
    obtain rfl := (List.cons_prefix_cons.1 hpre).1
    exact ⟨e, es, rfl, hc, hdigits⟩

theorem allDigits_append {a b : Text} (ha : allDigits a = true) (hb : allDigits b = true) :
    allDigits (a ++ b) = true := by
  rw [allDigits, List.all_append, Bool.and_eq_true]
  exact ⟨ha, hb⟩

theorem allDigits_zeros (n : Nat) : allDigits (List.replicate n '0') = true :=
  List.all_eq_true.2 fun _ hc => (List.eq_of_mem_replicate hc) ▸ rfl

theorem positional_eq (d : Nat) (k : Int) :
    positional d k =
      if ((ofNat d).length : Int) + k ≤ 0 then
        "0." ++ List.replicate (-(((ofNat d).length : Int) + k)).toNat '0' ++ kept d
      else if ((kept d).length : Int) ≤ (ofNat d).length + k then
        kept d ++ List.replicate ((((ofNat d).length : Int) + k).toNat - (kept d).length) '0'
      else
        (kept d).take (((ofNat d).length : Int) + k).toNat ++
          '.' :: (kept d).drop (((ofNat d).length : Int) + k).toNat :=
  rfl

/-- In front of the point there is a zero alone or digits that do not begin with one, and behind it
are digits. -/
theorem exists_positional {d : Nat} (hd : 0 < d) (k : Int) :
    ∃ whole fraction, Whole whole ∧ Fraction fraction ∧ positional d k = whole ++ fraction := by
  obtain ⟨c, cs, hk, hc, hdigits⟩ := exists_kept hd
  rw [positional_eq, hk]
  generalize ((ofNat d).length : Int) + k = point
  split
  · -- Below one, zeros stand between the point and the digits.
    refine ⟨['0'], '.' :: (List.replicate (-point).toNat '0' ++ c :: cs), .zero, ?_, ?_⟩
    · exact .digits (by simp) (allDigits_append (allDigits_zeros _) hdigits)
    · simp
  · next hpoint =>
    split
    · -- A whole number gets back the zeros that were not kept.
      refine ⟨c :: (cs ++ List.replicate (point.toNat - (c :: cs).length) '0'), [], ?_, .none, ?_⟩
      · exact .digits hc (allDigits_append hdigits (allDigits_zeros _))
      · simp
    · next hlong =>
      -- The point stands among the digits, with at least one on each side.
      obtain ⟨n, hn⟩ : ∃ n, point.toNat = n + 1 := ⟨point.toNat - 1, by omega⟩
      have hlt : n < cs.length := by
        rw [List.length_cons] at hlong
        omega
      have hparts := hdigits
      rw [← List.take_append_drop (n + 1) (c :: cs), allDigits, List.all_append,
        Bool.and_eq_true] at hparts
      rw [hn]
      refine ⟨c :: cs.take n, '.' :: cs.drop n, .digits hc hparts.1, .digits ?_ hparts.2, rfl⟩
      rw [ne_eq, List.drop_eq_nil_iff]
      omega

/-- Nothing that is positive is so small that zero stands for it. -/
theorem holds_zero {c : Cell} (hlow : 0 < c.low) (k : Int) : c.holds 0 k = false := by
  have hunit : 0 < c.low * pow 10 (-k) := Nat.mul_pos hlow (Nat.pow_pos (by decide))
  unfold Cell.holds
  simp only [Nat.zero_mul]
  split
  · rw [Bool.and_eq_false_iff, decide_eq_false_iff_not]
    exact .inl (by omega)
  · rw [Bool.and_eq_false_iff, decide_eq_false_iff_not]
    exact .inl (by omega)

theorem pos_of_onGrid {c : Cell} (hlow : 0 < c.low) {k : Int} {d : Nat}
    (h : c.onGrid k = some d) : 0 < d := by
  unfold Cell.onGrid at h
  dsimp only at h
  split at h
  · next hholds =>
    split at h
    · cases h
      exact Nat.succ_pos _
    · cases h
      rw [Nat.pos_iff_ne_zero]
      intro hz
      rw [hz, holds_zero hlow] at hholds
      cases hholds
  · split at h
    · cases h
      exact Nat.succ_pos _
    · cases h

/-- The digits found are those of a positive number, or zero alone. -/
theorem shortest_pos {c : Cell} (hlow : 0 < c.low) : 0 < c.shortest.1 ∨ c.shortest = (0, 0) := by
  unfold Cell.shortest
  dsimp only
  cases hf : (List.range 17).findSome? fun i =>
    (c.onGrid (c.magnitude - (i + 1 : Nat))).map fun d => (d, c.magnitude - (i + 1 : Nat)) with
  | none => exact .inr rfl
  | some r =>
    obtain ⟨i, -, hi⟩ := List.exists_of_findSome?_eq_some hf
    obtain ⟨d, hd, rfl⟩ := Option.map_eq_some_iff.1 hi
    exact .inl (pos_of_onGrid hlow hd)

theorem exists_shortest {c : Cell} (hlow : 0 < c.low) :
    ∃ whole fraction, Whole whole ∧ Fraction fraction ∧
      positional c.shortest.1 c.shortest.2 = whole ++ fraction := by
  rcases shortest_pos hlow with h | h
  · exact exists_positional h _
  · rw [h]
    exact ⟨['0'], [], .zero, .none, rfl⟩

theorem low_pos {m : Nat} (hm : 0 < m) (q : Int) (narrow : Bool) :
    0 < (Cell.of m q narrow).low := by
  have hscale : 0 < pow 2 q := Nat.pow_pos (by decide)
  have hlow : 0 < 4 * m - if narrow then 1 else 2 := by
    split <;> omega
  exact Nat.mul_pos hlow hscale

/-- A double is written with an optional sign, digits and an optional fraction. -/
theorem mantissa_text {x : Float} (hx : isFinite x = true) : Mantissa (text x) := by
  unfold isFinite at hx
  unfold text
  generalize fields x = parts at hx ⊢
  obtain ⟨sign, exponent, fraction⟩ := parts
  have hexponent : exponent ≠ 2047 := by simpa using hx
  have hs : Sign (if sign == 1 then ['-'] else []) := by
    split
    · exact .minus
    · exact .none
  dsimp only
  rw [if_neg (by simpa using hexponent)]
  split
  · exact mantissa_of_whole hs .zero
  · next hzero =>
    -- A value other than zero has a shortest text that stands for it.
    have hlow : 0 < (if exponent == 0 then Cell.of fraction (-1074) false
        else Cell.of (fraction + pow 2 52) (exponent - 1075)
          (fraction == 0 && exponent != 1)).low := by
      split
      · next he =>
        refine low_pos (Nat.pos_of_ne_zero fun hf => hzero ?_) _ _
        rw [he, hf]
        rfl
      · exact low_pos (Nat.add_pos_right _ (Nat.pow_pos (by decide))) _ _
    obtain ⟨whole, rest, hw, hf, ht⟩ := exists_shortest hlow
    exact ⟨_, whole, rest, hs, hw, hf, by rw [List.append_assoc, ← ht]⟩

end Decimal

end SqlComposer
