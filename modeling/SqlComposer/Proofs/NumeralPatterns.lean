import Mathlib.Computability.RegularExpressions
import SqlComposer.Proofs.Numerals

/-!
# Patterns of numerals

The texts that are taken for numbers, and so stand in a statement without quotes, are those that
match the regular expression of an integer or of a floating-point number. `Numeral` lies between:
it is what the second pattern matches, part by part, and what the recogniser accepts.
-/

namespace SqlComposer

open Text (allDigits)

/-! ### Patterns -/

namespace Pattern

variable {p : RegularExpression Char} {cs t : Text}

/-- One of some characters: `[…]`. -/
def oneOf (cs : Text) : RegularExpression Char :=
  cs.foldr (fun c p => .char c + p) 0

/-- A pattern or nothing: `p?`. -/
def optional (p : RegularExpression Char) : RegularExpression Char :=
  1 + p

/-- A pattern once or more often: `p+`. -/
def repeated (p : RegularExpression Char) : RegularExpression Char :=
  p * p.star

theorem mem_char {c : Char} : t ∈ (RegularExpression.char c).matches' ↔ t = [c] :=
  Iff.rfl

theorem mem_oneOf : t ∈ (oneOf cs).matches' ↔ ∃ c ∈ cs, t = [c] := by
  induction cs with
  | nil => exact ⟨fun h => (Language.notMem_zero t h).elim, fun ⟨_, hc, _⟩ => nomatch hc⟩
  | cons c cs ih =>
    rw [oneOf, List.foldr_cons, RegularExpression.matches'_add, Language.mem_add, mem_char, ← oneOf,
      ih]
    simp

theorem mem_optional : t ∈ (optional p).matches' ↔ t = [] ∨ t ∈ p.matches' :=
  Iff.rfl

/-- A text matches character by character. -/
theorem mem_star_oneOf : t ∈ (oneOf cs).star.matches' ↔ ∀ c ∈ t, c ∈ cs := by
  rw [RegularExpression.matches'_star, Language.mem_kstar]
  constructor
  · rintro ⟨ts, rfl, h⟩ c hc
    obtain ⟨u, hu, hcu⟩ := List.mem_flatten.1 hc
    obtain ⟨e, he, rfl⟩ := mem_oneOf.1 (h u hu)
    exact List.mem_singleton.1 hcu ▸ he
  · intro h
    have hflat : (t.map fun c => [c]).flatten = t := by
      rw [← List.flatMap_def, List.flatMap_singleton']
    refine ⟨_, hflat.symm, ?_⟩
    intro u hu
    obtain ⟨c, hc, rfl⟩ := List.mem_map.1 hu
    exact mem_oneOf.2 ⟨c, h c hc, rfl⟩

theorem mem_repeated_oneOf :
    t ∈ (repeated (oneOf cs)).matches' ↔ t ≠ [] ∧ ∀ c ∈ t, c ∈ cs := by
  rw [repeated, RegularExpression.matches'_mul, Language.mem_mul]
  constructor
  · rintro ⟨_, ha, b, hb, rfl⟩
    obtain ⟨c, hc, rfl⟩ := mem_oneOf.1 ha
    exact ⟨List.cons_ne_nil c b, List.forall_mem_cons.2 ⟨hc, mem_star_oneOf.1 hb⟩⟩
  · rintro ⟨hn, h⟩
    obtain ⟨c, cs', rfl⟩ := List.exists_cons_of_ne_nil hn
    obtain ⟨hc, hcs⟩ := List.forall_mem_cons.1 h
    exact ⟨[c], mem_oneOf.2 ⟨c, hc, rfl⟩, cs', mem_star_oneOf.2 hcs, rfl⟩

end Pattern

open Pattern

/-- The digits of the decimal system. -/
def decimalDigits : Text := "0123456789"

theorem isDigit_iff {c : Char} : c.isDigit = true ↔ c ∈ decimalDigits := by
  constructor
  · intro h
    have hc : c = Char.ofNat c.toNat := c.ofNat_toNat.symm
    have hrange : 48 ≤ c.toNat ∧ c.toNat ≤ 57 := Char.isDigit_iff_toNat.1 h
    rw [hc]
    generalize c.toNat = n at hrange
    obtain ⟨hlow, hhigh⟩ := hrange
    interval_cases n <;> decide
  · have hall : decimalDigits.all Char.isDigit = true := by decide
    exact List.all_eq_true.1 hall c

theorem allDigits_iff {t : Text} : allDigits t = true ↔ ∀ c ∈ t, c ∈ decimalDigits := by
  rw [allDigits, List.all_eq_true]
  exact forall₂_congr fun _ _ => isDigit_iff

namespace Numeral

variable {t sign whole fraction exponent : Text}

/-- The pattern `[+-]?`. -/
def signPattern : RegularExpression Char :=
  optional (oneOf "+-")

/-- The pattern `(0|[1-9][0-9]*)`. -/
def wholePattern : RegularExpression Char :=
  .char '0' + oneOf "123456789" * (oneOf decimalDigits).star

/-- The pattern `(\.[0-9]+)?`. -/
def fractionPattern : RegularExpression Char :=
  optional (.char '.' * repeated (oneOf decimalDigits))

/-- The pattern `([eE][+-]?[0-9]+)?`. -/
def exponentPattern : RegularExpression Char :=
  optional (oneOf "eE" * (signPattern * repeated (oneOf decimalDigits)))

/-- The pattern `[+-]?(0|[1-9][0-9]*)`. -/
def integerPattern : RegularExpression Char :=
  signPattern * wholePattern

/-- The pattern `[+-]?(0|[1-9][0-9]*)(\.[0-9]+)?([eE][+-]?[0-9]+)?`. -/
def floatPattern : RegularExpression Char :=
  integerPattern * fractionPattern * exponentPattern

/-! ### Patterns match the parts of numerals -/

theorem sign_iff_matches : Sign t ↔ t ∈ signPattern.matches' := by
  rw [signPattern, mem_optional, mem_oneOf]
  constructor
  · rintro (_ | _ | _)
    · exact .inl rfl
    · exact .inr ⟨'+', by decide, rfl⟩
    · exact .inr ⟨'-', by decide, rfl⟩
  · rintro (rfl | ⟨c, hc, rfl⟩)
    · exact .none
    · have hc : c = '+' ∨ c = '-' := by simpa using hc
      rcases hc with rfl | rfl
      · exact .plus
      · exact .minus

theorem whole_iff_matches : Whole t ↔ t ∈ wholePattern.matches' := by
  have hfirst : ∀ c, c ∈ "123456789".toList ↔ c ≠ '0' ∧ c ∈ decimalDigits := by
    intro c
    have hd : decimalDigits = '0' :: "123456789".toList := by decide
    have hz : '0' ∉ "123456789".toList := by decide
    rw [hd, List.mem_cons]
    exact ⟨fun h => ⟨fun hc => hz (hc ▸ h), .inr h⟩, fun h => h.2.resolve_left h.1⟩
  rw [wholePattern, RegularExpression.matches'_add, Language.mem_add, mem_char,
    RegularExpression.matches'_mul, Language.mem_mul]
  constructor
  · rintro (_ | ⟨hc, h⟩)
    · exact .inl rfl
    · obtain ⟨hd, hds⟩ := List.forall_mem_cons.1 (allDigits_iff.1 h)
      exact .inr ⟨_, mem_oneOf.2 ⟨_, (hfirst _).2 ⟨hc, hd⟩, rfl⟩, _, mem_star_oneOf.2 hds, rfl⟩
  · rintro (rfl | ⟨_, ha, b, hb, rfl⟩)
    · exact .zero
    · obtain ⟨c, hc, rfl⟩ := mem_oneOf.1 ha
      obtain ⟨hz, hd⟩ := (hfirst c).1 hc
      exact .digits hz (allDigits_iff.2 (List.forall_mem_cons.2 ⟨hd, mem_star_oneOf.1 hb⟩))

theorem fraction_iff_matches : Fraction t ↔ t ∈ fractionPattern.matches' := by
  rw [fractionPattern, mem_optional, RegularExpression.matches'_mul, Language.mem_mul]
  constructor
  · rintro (_ | ⟨hn, h⟩)
    · exact .inl rfl
    · exact .inr ⟨_, rfl, _, mem_repeated_oneOf.2 ⟨hn, allDigits_iff.1 h⟩, rfl⟩
  · rintro (rfl | ⟨_, rfl, b, hb, rfl⟩)
    · exact .none
    · obtain ⟨hn, h⟩ := mem_repeated_oneOf.1 hb
      exact .digits hn (allDigits_iff.2 h)

theorem exponent_iff_matches : Exponent t ↔ t ∈ exponentPattern.matches' := by
  rw [exponentPattern, mem_optional, RegularExpression.matches'_mul, Language.mem_mul]
  constructor
  · rintro (_ | ⟨he, hs, hn, h⟩)
    · exact .inl rfl
    · refine .inr ⟨_, mem_oneOf.2 ⟨_, by simpa using he, rfl⟩, _, ?_, rfl⟩
      exact Language.append_mem_mul (sign_iff_matches.1 hs)
        (mem_repeated_oneOf.2 ⟨hn, allDigits_iff.1 h⟩)
  · rintro (rfl | ⟨_, ha, _, hb, rfl⟩)
    · exact .none
    · obtain ⟨e, he, rfl⟩ := mem_oneOf.1 ha
      obtain ⟨sign, hs, ds, hds, rfl⟩ := Language.mem_mul.1 hb
      obtain ⟨hn, h⟩ := mem_repeated_oneOf.1 hds
      have hexponent : Exponent (e :: (sign ++ ds)) :=
        .digits (by simpa using he) (sign_iff_matches.2 hs) hn (allDigits_iff.2 h)
      exact hexponent

theorem mem_integerPattern :
    t ∈ integerPattern.matches' ↔ ∃ sign whole, Sign sign ∧ Whole whole ∧ t = sign ++ whole := by
  rw [integerPattern, RegularExpression.matches'_mul, Language.mem_mul]
  constructor
  · rintro ⟨sign, hs, whole, hw, rfl⟩
    exact ⟨sign, whole, sign_iff_matches.2 hs, whole_iff_matches.2 hw, rfl⟩
  · rintro ⟨sign, whole, hs, hw, rfl⟩
    exact ⟨sign, sign_iff_matches.1 hs, whole, whole_iff_matches.1 hw, rfl⟩

theorem mem_floatPattern : t ∈ floatPattern.matches' ↔ Numeral t := by
  rw [floatPattern, RegularExpression.matches'_mul, Language.mem_mul]
  constructor
  · rintro ⟨mantissa, hm, exponent, he, rfl⟩
    obtain ⟨integer, hi, fraction, hf, rfl⟩ := Language.mem_mul.1 hm
    obtain ⟨sign, whole, hs, hw, rfl⟩ := mem_integerPattern.1 hi
    exact ⟨_, exponent, ⟨sign, whole, fraction, hs, hw, fraction_iff_matches.2 hf, rfl⟩,
      exponent_iff_matches.2 he, rfl⟩
  · rintro ⟨_, exponent, ⟨sign, whole, fraction, hs, hw, hf, rfl⟩, he, rfl⟩
    have hi : sign ++ whole ∈ integerPattern.matches' :=
      mem_integerPattern.2 ⟨sign, whole, hs, hw, rfl⟩
    exact ⟨_, Language.append_mem_mul hi (fraction_iff_matches.1 hf), exponent,
      exponent_iff_matches.1 he, rfl⟩

/-! ### Numerals are recognised -/

/-- The sign is all that is taken off in front of a digit. -/
theorem unsignedPart_append (hs : Sign sign) {c : Char} (hc : c.isDigit = true) (cs : Text) :
    unsignedPart (sign ++ c :: cs) = c :: cs := by
  cases hs with
  | none =>
    have hsign : ¬(c == '-' || c == '+') = true := by
      rw [Bool.or_eq_true, beq_iff_eq, beq_iff_eq]
      rintro (rfl | rfl) <;> exact absurd hc (by decide)
    rw [List.nil_append, unsignedPart, if_neg hsign]
  | plus => rfl
  | minus => rfl

theorem Whole.allDigits (h : Whole whole) : allDigits whole = true := by
  cases h with
  | zero => rfl
  | digits _ h => exact h

theorem isIntegerLiteral_append (hs : Sign sign) (hw : Whole whole) :
    isIntegerLiteral (sign ++ whole) = true := by
  cases hw with
  | zero =>
    rw [isIntegerLiteral, unsignedPart_append hs rfl]
    rfl
  | digits hc h =>
    obtain ⟨hd, hds⟩ := Bool.and_eq_true_iff.1 h
    rw [isIntegerLiteral, unsignedPart_append hs hd]
    dsimp only
    rw [if_neg (by simpa using hc), hd, Bool.true_and]
    exact hds

theorem isExponent_append (hs : Sign sign) {ds : Text} (hn : ds ≠ [])
    (h : allDigits ds = true) : isExponent (sign ++ ds) = true := by
  obtain ⟨d, ds, rfl⟩ := List.exists_cons_of_ne_nil hn
  have hd : d.isDigit = true := (Bool.and_eq_true_iff.1 h).1
  rw [isExponent, unsignedPart_append hs hd, h]
  rfl

/-- Only digits and signs stand in front of a fraction. -/
theorem of_mem_integer (hs : Sign sign) (hw : Whole whole) {c : Char} (h : c ∈ sign ++ whole) :
    c.isDigit = true ∨ c = '+' ∨ c = '-' := by
  rcases List.mem_append.1 h with h | h
  · cases hs <;> simp_all
  · exact .inl (List.all_eq_true.1 hw.allDigits c h)

theorem isMantissa_of_mantissa (h : Mantissa t) : isMantissa t = true := by
  obtain ⟨sign, whole, fraction, hs, hw, hf, rfl⟩ := h
  have hdot : ∀ c ∈ sign ++ whole, (c == '.') = false := by
    intro c hc
    refine beq_false_of_ne ?_
    rintro rfl
    rcases of_mem_integer hs hw hc with h | h | h <;> exact absurd h (by decide)
  cases hf with
  | none =>
    rw [List.append_nil, isMantissa, Text.cutFirst_eq_none_iff.2 hdot]
    exact isIntegerLiteral_append hs hw
  | digits hn h =>
    rw [isMantissa, Text.cutFirst_append hdot rfl]
    simp [isIntegerLiteral_append hs hw, hn, h]

/-- No letter stands in front of an exponent. -/
theorem isExponentLetter_of_mantissa (h : Mantissa t) :
    ∀ c ∈ t, (c == 'e' || c == 'E') = false := by
  obtain ⟨sign, whole, fraction, hs, hw, hf, rfl⟩ := h
  have hplain : ∀ c ∈ sign ++ whole ++ fraction,
      c.isDigit = true ∨ c = '+' ∨ c = '-' ∨ c = '.' := by
    intro c hc
    rcases List.mem_append.1 hc with hc | hc
    · exact (of_mem_integer hs hw hc).imp_right (.imp_right .inl)
    · cases hf with
      | none => cases hc
      | digits _ h =>
        rcases List.mem_cons.1 hc with rfl | hc
        · exact .inr (.inr (.inr rfl))
        · exact .inl (List.all_eq_true.1 h c hc)
  intro c hc
  rw [Bool.or_eq_false_iff]
  constructor <;> refine beq_false_of_ne ?_ <;> rintro rfl <;>
    rcases hplain _ hc with h | h | h | h <;> exact absurd h (by decide)

theorem isFloatLiteral_of_numeral (h : Numeral t) : isFloatLiteral t = true := by
  obtain ⟨mantissa, exponent, hm, he, rfl⟩ := h
  have hletter := isExponentLetter_of_mantissa hm
  cases he with
  | none =>
    rw [List.append_nil, isFloatLiteral, Text.cutFirst_eq_none_iff.2 hletter]
    exact isMantissa_of_mantissa hm
  | digits he hs hn h =>
    rw [isFloatLiteral, Text.cutFirst_append hletter (by simpa using he)]
    exact Bool.and_eq_true_iff.2 ⟨isExponent_append hs hn h, isMantissa_of_mantissa hm⟩

/-- A text is taken for an integer exactly if it matches `[+-]?(0|[1-9][0-9]*)`, and for a
floating-point number exactly if it matches `[+-]?(0|[1-9][0-9]*)(\.[0-9]+)?([eE][+-]?[0-9]+)?`. -/
theorem literals_match_patterns (t : Text) :
    (isIntegerLiteral t = true ↔ t ∈ integerPattern.matches') ∧
      (isFloatLiteral t = true ↔ t ∈ floatPattern.matches') := by
  rw [mem_integerPattern, mem_floatPattern]
  refine ⟨⟨exists_of_isIntegerLiteral, ?_⟩, numeral_of_isFloatLiteral, isFloatLiteral_of_numeral⟩
  rintro ⟨sign, whole, hs, hw, rfl⟩
  exact isIntegerLiteral_append hs hw

end Numeral

end SqlComposer
