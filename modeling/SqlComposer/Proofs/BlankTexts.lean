import SqlComposer.Proofs.QuotedNames
import SqlComposer.Proofs.ValueLiterals

/-!
# Blank texts

Quotes around names leave no text blank, and make none blank: a fragment or a name is blank as it is
written if and only if it is blank. Of the values only pieces of SQL and names are written as they
are, so no other value is written as a blank text.
-/

namespace SqlComposer

open CharClass
open Token (tokenize textOf)

/-! ### Quoting adds no blanks -/

namespace Identifier

variable {d : Dialect} {t y : Text}

theorem isBlank_startQuote (d : Dialect) : isBlank d.startQuote = false := by
  cases d <;> rfl

theorem blank_quote (d : Dialect) (t : Text) : Text.blank (d.quote t) = false :=
  Text.blank_eq_false List.mem_cons_self (isBlank_startQuote d)

theorem blank_of_opensQuoted (h : d.opensQuoted t = true) : Text.blank t = false :=
  Text.blank_eq_false (List.mem_of_mem_head? (beq_iff_eq.1 h)) (isBlank_startQuote d)

/-- A marked token is blank as it is written if and only if it is blank. -/
theorem blank_writeMarked {m : Token × Bool} {rest : Text} (hm : m.1.Ends d rest)
    (hk : m.2 = true → m.1.kind = .ident) :
    Text.blank (writeMarked d m) = Text.blank m.1.text := by
  rw [writeMarked]
  split_ifs with hq
  · obtain ⟨c, cs, ht, -⟩ := id hm
    have hc : isBlank c = false :=
      hm.isBlank_head_eq_false (by rw [hk hq]; decide) (by rw [ht]; rfl)
    rw [blank_quote, ht, Text.blank_eq_false List.mem_cons_self hc]
  · rfl

/-- A fragment with its fields in quotes is blank if and only if it was before. -/
theorem blank_quoteFields (d : Dialect) (t : Text) :
    Text.blank (quoteFields d t) = Text.blank t := by
  have hwritten : ∀ m ∈ mark {} (tokenize d t),
      Text.blank (writeMarked d m) = Text.blank m.1.text := by
    intro m hm
    have hmem : m.1 ∈ tokenize d t := by
      rw [← map_fst_mark {} (tokenize d t)]
      exact List.mem_map_of_mem hm
    obtain ⟨rest, hrest⟩ := (Token.separate_tokenize d t).ends_of_mem hmem
    exact blank_writeMarked hrest (kind_of_mem_mark {} _ m hm)
  have htext : t = (mark {} (tokenize d t)).flatMap fun m => m.1.text := by
    conv_lhs => rw [← Token.textOf_tokenize d t, textOf, ← map_fst_mark {} (tokenize d t)]
    rw [List.flatMap_map]
  conv_rhs => rw [htext]
  rw [quoteFields, Text.blank, Text.blank, List.all_flatMap, List.all_flatMap, Bool.eq_iff_iff,
    List.all_eq_true, List.all_eq_true]
  exact forall₂_congr fun m hm => Bool.eq_iff_iff.1 (hwritten m hm)

/-- What is known of a name that is not blank is not blank. -/
theorem blank_of_form_eq_known (ht : Text.blank t = false) (h : form d t = .known y) :
    Text.blank y = false := by
  have htrim : Text.blank (Text.trim t) = false := by rwa [Text.blank_trim]
  rw [form, trimmedForm] at h
  split at h
  · cases h
    exact htrim
  split at h
  · cases h
    exact blank_quote d _
  split at h
  · cases h
  split at h
  · next path hp =>
    cases h
    exact blank_of_opensQuoted (pathForm_eq_some hp).1
  rw [compoundForm] at h
  split at h
  · next call hc =>
    cases h
    rw [quoteCall_eq] at hc
    obtain ⟨r, -, rfl⟩ := Option.map_eq_some_iff.1 hc
    exact Text.blank_eq_false (a := '(') (by simp) rfl
  split at h
  · cases h
  split at h
  · cases h
    exact blank_quote d _
  · cases h
    exact htrim

/-- A name is blank as it is written if and only if it is blank. -/
theorem blank_quoteName (d : Dialect) (t : Text) : Text.blank (d.quoteName t) = Text.blank t := by
  cases ht : Text.blank t with
  | true =>
    have hn : Text.trim t = [] := by rwa [← List.isEmpty_iff, Text.isEmpty_trim]
    have hf : form d t = .known [] := by
      rw [form, hn]
      rfl
    rw [Dialect.quoteName_of_known hf]
    rfl
  | false =>
    cases hf : form d t with
    | known y =>
      rw [Dialect.quoteName_of_known hf]
      exact blank_of_form_eq_known ht hf
    | distinct rest =>
      rw [Dialect.quoteName_of_distinct hf]
      exact Text.blank_eq_false (a := 'D') (by simp) rfl
    | aliased expr label =>
      rw [Dialect.quoteName_of_aliased hf]
      exact Text.blank_eq_false (a := 'A') (by simp) rfl

end Identifier

/-! ### Blank values -/

theorem Numeral.blank_eq_false {t : Text} (h : Numeral t) : Text.blank t = false := by
  obtain ⟨mantissa, exponent, ⟨sign, whole, fraction, -, hw, -, rfl⟩, -, rfl⟩ := h
  cases hw with
  | zero => exact Text.blank_eq_false (a := '0') (by simp) rfl
  | @digits c cs _ hd =>
    have hc : c.isDigit = true := List.all_eq_true.1 hd c List.mem_cons_self
    exact Text.blank_eq_false (a := c) (by simp) (isBlank_of (p := Char.isDigit) (by decide) hc)

/-- Whether a value is a blank piece of SQL or a blank name, which is written as it is. -/
def Value.isBlankSql : Value → Bool
  | .identifier t | .expression t => Text.blank t
  | _ => false

/-- Whether a value is blank as a member of a boolean group, where texts are pieces of SQL too. -/
def Value.isBlankPiece : Value → Bool
  | .text t => Text.blank t
  | v => v.isBlankSql

namespace Source

variable {s : Source}

theorem blank_quoteString (t : Text) : Text.blank (s.quoteString t) = false :=
  Text.blank_eq_false List.mem_cons_self rfl

theorem blank_truthLiteral (b : Bool) : Text.blank (truthLiteral b) = false := by
  cases b <;> rfl

theorem blank_numberLiteral (ty : ColumnType) (truth : Bool) {bare : Bool} {digits : Text}
    (hd : bare = true → Numeral digits) :
    Text.blank (s.numberLiteral ty truth bare digits) = false := by
  unfold numberLiteral
  split_ifs with _ hb
  · exact blank_truthLiteral truth
  · exact (hd (Bool.and_eq_true_iff.1 hb).2).blank_eq_false
  · exact blank_quoteString digits

theorem blank_textLiteral (ty : ColumnType) (t : Text) :
    Text.blank (s.textLiteral ty t) = false := by
  unfold textLiteral
  split_ifs with hm _ _ hi hf
  · exact Text.blank_eq_false (List.mem_of_mem_head? (head?_of_isDeferredMarker hm)) rfl
  · exact blank_truthLiteral _
  · rfl
  · exact (Numeral.numeral_of_isIntegerLiteral (Bool.and_eq_true_iff.1 hi).2).blank_eq_false
  · exact (Numeral.numeral_of_isFloatLiteral (Bool.and_eq_true_iff.1 hf).2).blank_eq_false
  · exact blank_quoteString t

theorem blank_bytesLiteral (ty : ColumnType) (data : List UInt8) :
    Text.blank (s.bytesLiteral ty data) = false := by
  unfold bytesLiteral binaryLiteral
  dsimp only
  split_ifs
  · exact blank_truthLiteral _
  · rfl
  · cases s.dialect <;> exact Text.blank_eq_false List.mem_cons_self rfl
  · exact blank_quoteString _

/-- Only blank pieces of SQL and blank names are written as blank texts, whatever the column. -/
theorem blank_value (s : Source) (v : Value) (column : Option ColumnType) :
    Text.blank (s.eval (s.value v column)) = v.isBlankSql := by
  cases v with
  | null => rfl
  | bool b =>
    change Text.blank (s.boolLiteral _ b) = false
    unfold boolLiteral
    split
    · exact blank_truthLiteral b
    split
    · cases b <;> rfl
    · exact blank_quoteString _
  | integer n => exact blank_numberLiteral _ _ fun _ => Numeral.numeral_ofInt n
  | natural n => exact blank_numberLiteral _ _ fun _ => Numeral.numeral_ofNat n
  | float x => exact blank_numberLiteral _ _ fun hx => (Decimal.mantissa_text hx).numeral
  | text t => exact blank_textLiteral _ t
  | bytes data => exact blank_bytesLiteral _ data
  | temporal t =>
    change Text.blank (temporalLiteral _ t) = false
    unfold temporalLiteral
    split_ifs
    · exact blank_truthLiteral true
    · exact Text.blank_eq_false List.mem_cons_self rfl
  | identifier name => exact Identifier.blank_quoteName s.dialect name
  | expression sql => rfl

end Source

end SqlComposer
