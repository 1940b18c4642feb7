import SqlComposer.Proofs.LiteralTokens
import SqlComposer.Proofs.Numerals

/-!
# Literals of values

Data is written as a literal that stands by itself, whatever the type of the column is: NULL, a
numeral, binary data in the notation of the dialect, or a text between quotes in which nothing ends
the literal. Read by the rule of the dialect, a literal of a text is that text again.
-/

namespace SqlComposer

/-! ### Reading string literals -/

namespace Text

/-- What a character behind a backslash stands for. -/
def escaped : Char → Text
  | 'n' => ['\n']
  | 'r' => ['\r']
  | 't' => ['\t']
  | 'b' => [Char.ofNat 8]
  | '0' => [Char.ofNat 0]
  | 'Z' => [Char.ofNat 26]
  | '%' => ['\\', '%']
  | '_' => ['\\', '_']
  | c => [c]

/-- Reads the inside of a literal in which a backslash escapes; none if a quote ends the literal
before, or a backslash takes the closing quote. -/
def readEscaped : Text → Option Text
  | [] => some []
  | '\'' :: _ => none
  | ['\\'] => none
  | '\\' :: c :: cs => (readEscaped cs).map (escaped c ++ ·)
  | c :: cs => (readEscaped cs).map (c :: ·)

/-- Reads the inside of a literal in which two quotes stand for one; none if a single quote ends the
literal before. -/
def readDoubled : Text → Option Text
  | [] => some []
  | '\'' :: '\'' :: cs => (readDoubled cs).map ('\'' :: ·)
  | '\'' :: _ => none
  | c :: cs => (readDoubled cs).map (c :: ·)

/-- Whether there are neither quotes nor backslashes in a text. -/
def Plain (t : Text) : Prop :=
  ∀ c ∈ t, c ≠ '\'' ∧ c ≠ '\\'

variable {a b t : Text}

theorem readEscaped_cons {c : Char} (hq : c ≠ '\'') (hb : c ≠ '\\') (t : Text) :
    readEscaped (c :: t) = (readEscaped t).map (c :: ·) := by
  simp [readEscaped, hb]

theorem readDoubled_cons {c : Char} (hq : c ≠ '\'') (t : Text) :
    readDoubled (c :: t) = (readDoubled t).map (c :: ·) := by
  simp [readDoubled, hq]

theorem Plain.append (ha : Plain a) (hb : Plain b) : Plain (a ++ b) :=
  List.forall_mem_append.2 ⟨ha, hb⟩

theorem plain_ofNat (n : Nat) : Plain (ofNat n) := by
  intro c hc
  have hd := Text.digits_ofNat.2 c hc
  constructor <;> rintro rfl <;> cases hd

theorem plain_padded (width n : Nat) : Plain (padded width n) := by
  refine Plain.append (fun c hc => ?_) (plain_ofNat n)
  rw [List.eq_of_mem_replicate hc]
  decide

end Text

namespace Dialect

variable {d : Dialect} {t : Text}

/-- Reads the inside of a literal by the rule of the dialect: under MySQL a backslash escapes, and
elsewhere a quote is doubled. -/
def readBody (d : Dialect) (body : Text) : Option Text :=
  match d with
  | .mySql => Text.readEscaped body
  | .postgreSql | .sqlite | .sqlServer => Text.readDoubled body

/-- A character is read back, whatever follows it. -/
theorem readEscaped_escapeChar (c : Char) (rest : Text) :
    Text.readEscaped (mySql.escapeChar c ++ rest) = (Text.readEscaped rest).map (c :: ·) := by
  have hcode {n : Nat} (h : c.toNat = n) : c = Char.ofNat n := by rw [← h, Char.ofNat_toNat]
  unfold escapeChar
  dsimp only
  split
  case h_7 hq _ hb =>
    split_ifs with h0 h8 h26
    · rw [hcode h0]
      rfl
    · rw [hcode h8]
      rfl
    · rw [hcode h26]
      rfl
    · exact Text.readEscaped_cons hq hb rest
  all_goals rfl

theorem readDoubled_escapeChar (hd : d ≠ .mySql) (c : Char) (rest : Text) :
    Text.readDoubled (d.escapeChar c ++ rest) = (Text.readDoubled rest).map (c :: ·) := by
  rw [Token.escapeChar_of_ne hd]
  split
  · next hc =>
    rw [hc]
    rfl
  · next hc => exact Text.readDoubled_cons hc rest

theorem readBody_escapeChar (d : Dialect) (c : Char) (rest : Text) :
    d.readBody (d.escapeChar c ++ rest) = (d.readBody rest).map (c :: ·) := by
  cases d with
  | mySql => exact readEscaped_escapeChar c rest
  | _ => exact readDoubled_escapeChar (by decide) c rest

/-- What is written for a text is read as that text. -/
theorem readBody_escape (d : Dialect) (t : Text) : d.readBody (d.escape t) = some t := by
  induction t with
  | nil => cases d <;> rfl
  | cons c cs ih => rw [Token.escape_cons, readBody_escapeChar, ih, Option.map_some]

/-- Without quotes and backslashes nothing is written in another way. -/
theorem readBody_of_plain (ht : t.Plain) : d.readBody t = some t := by
  induction t with
  | nil => cases d <;> rfl
  | cons c cs ih =>
    obtain ⟨hc, hcs⟩ := List.forall_mem_cons.1 ht
    have hread : d.readBody (c :: cs) = (d.readBody cs).map (c :: ·) := by
      cases d with
      | mySql => exact Text.readEscaped_cons hc.1 hc.2 cs
      | _ => exact Text.readDoubled_cons hc.1 cs
    rw [hread, ih hcs, Option.map_some]

end Dialect

/-! ### Dates and times -/

namespace Temporal

open Text (Plain plain_padded)

theorem plain_singleton {c : Char} (h : c ≠ '\'' ∧ c ≠ '\\') : Plain [c] :=
  List.forall_mem_singleton.2 h

theorem plain_date (d : Date) : Plain d.text := by
  have hsign : Plain (if d.year < 0 then ['-'] else []) := by
    split
    · exact plain_singleton (by decide)
    · simp [Plain]
  have hyphen : Plain "-" := plain_singleton (by decide)
  refine Plain.append (Plain.append (Plain.append ?_ hyphen) (plain_padded _ _)) hyphen |>.append ?_
  · exact Plain.append hsign (plain_padded _ _)
  · exact plain_padded _ _

theorem plain_clock (c : Clock) : Plain c.text := by
  have colon : Plain ":" := plain_singleton (by decide)
  refine Plain.append (Plain.append ?_ colon) (plain_padded _ _)
  exact Plain.append (Plain.append (plain_padded _ _) colon) (plain_padded _ _)

/-- A point in time needs no escapes. -/
theorem plain_text (t : Temporal) (ty : ColumnType) : Plain (t.text ty) := by
  unfold text
  split
  · exact plain_date _
  · exact plain_clock _
  · split
    · exact plain_date _
    · exact plain_clock _
    · exact ((plain_date _).append (plain_singleton (by decide))).append (plain_clock _)

end Temporal

/-! ### Reading binary data -/

/-- The value of a hexadecimal digit in upper case. -/
def hexValue (c : Char) : Option Nat :=
  if c.isDigit then some (c.toNat - 48)
  else if 'A' ≤ c ∧ c ≤ 'F' then some (c.toNat - 55)
  else none

/-- The bytes that pairs of hexadecimal digits stand for. -/
def readHex : Text → Option (List UInt8)
  | [] => some []
  | [_] => none
  | a :: b :: cs => do
    let high ← hexValue a
    let low ← hexValue b
    let data ← readHex cs
    pure (UInt8.ofNat (16 * high + low) :: data)

theorem hexValue_digit {n : Nat} (hn : n < 16) :
    hexValue (Nat.digitChar n).toUpper = some n := by
  interval_cases n <;> decide

theorem readHex_hexByte (b : UInt8) (rest : Text) :
    readHex (Source.hexByte b ++ rest) = (readHex rest).map (b :: ·) := by
  have hb : b.toNat < 256 := b.toNat_lt
  rw [Source.hexByte, List.cons_append, List.cons_append, List.nil_append, readHex,
    hexValue_digit (by omega), hexValue_digit (Nat.mod_lt _ (by decide))]
  simp only [Option.bind_eq_bind, Option.bind_some, Nat.div_add_mod, UInt8.ofNat_toNat]
  cases readHex rest <;> rfl

/-- The digits of binary data stand for it. -/
theorem readHex_flatMap (data : List UInt8) :
    readHex (data.flatMap Source.hexByte) = some data := by
  induction data with
  | nil => rfl
  | cons b data ih => rw [List.flatMap_cons, readHex_hexByte, ih, Option.map_some]

/-- Hexadecimal digits as a literal of binary data. -/
def Dialect.binaryNotation (d : Dialect) (hex : Text) : Text :=
  match d with
  | .mySql | .sqlite => "X'" ++ hex ++ "'"
  | .postgreSql => "'\\x" ++ hex ++ "'::bytea"
  | .sqlServer => "0x" ++ hex

/-! ### Literals -/

/-- Whether a value is data, and neither an identifier nor a piece of SQL. -/
def Value.isData : Value → Bool
  | .identifier _ | .expression _ => false
  | _ => true

/-- A literal that may be written for a value. -/
inductive Dialect.IsLiteral (d : Dialect) (v : Value) : Text → Prop where
  | null : d.IsLiteral v "NULL"
  | marker {t : Text} (hv : v = .text t) (ht : isDeferredMarker t = true) : d.IsLiteral v t
  | numeral {t : Text} (ht : Numeral t) : d.IsLiteral v t
  | binary {data : List UInt8} {hex : Text} (hv : v = .bytes data) (hh : readHex hex = some data) :
      d.IsLiteral v (d.binaryNotation hex)
  | string {body t : Text} (hb : d.readBody body = some t) : d.IsLiteral v ('\'' :: body ++ ['\''])

namespace Source

variable {s : Source} {v : Value}

theorem isLiteral_quoteString (he : s.escaper = none) (t : Text) :
    s.dialect.IsLiteral v (s.quoteString t) := by
  refine .string (t := t) ?_
  rw [escape, he]
  exact s.dialect.readBody_escape t

theorem isLiteral_of_plain {t : Text} (ht : t.Plain) :
    s.dialect.IsLiteral v ('\'' :: t ++ ['\'']) :=
  .string (Dialect.readBody_of_plain ht)

theorem isLiteral_truthLiteral (b : Bool) : s.dialect.IsLiteral v (truthLiteral b) := by
  cases b with
  | true => exact isLiteral_of_plain (t := ['1']) (by simp [Text.Plain])
  | false => exact isLiteral_of_plain (t := ['0']) (by simp [Text.Plain])

theorem isLiteral_boolLiteral (he : s.escaper = none) (ty : ColumnType) (b : Bool) :
    s.dialect.IsLiteral v (s.boolLiteral ty b) := by
  unfold boolLiteral
  split
  · exact isLiteral_truthLiteral b
  · split
    · cases b with
      | true => exact .numeral (Numeral.numeral_ofNat 1)
      | false => exact .numeral (Numeral.numeral_ofNat 0)
    · exact isLiteral_quoteString he _

theorem isLiteral_numberLiteral (he : s.escaper = none) (ty : ColumnType) (truth : Bool)
    {bare : Bool} {digits : Text} (hd : bare = true → Numeral digits) :
    s.dialect.IsLiteral v (s.numberLiteral ty truth bare digits) := by
  unfold numberLiteral
  split
  · exact isLiteral_truthLiteral truth
  · split
    · next h => exact .numeral (hd (Bool.and_eq_true_iff.1 h).2)
    · exact isLiteral_quoteString he _

theorem isLiteral_textLiteral (he : s.escaper = none) (ty : ColumnType) (t : Text) :
    s.dialect.IsLiteral (.text t) (s.textLiteral ty t) := by
  unfold textLiteral
  split_ifs with hm _ _ hi hf
  · exact .marker rfl hm
  · exact isLiteral_truthLiteral _
  · exact .null
  · exact .numeral (Numeral.numeral_of_isIntegerLiteral (Bool.and_eq_true_iff.1 hi).2)
  · exact .numeral (Numeral.numeral_of_isFloatLiteral (Bool.and_eq_true_iff.1 hf).2)
  · exact isLiteral_quoteString he t

theorem isLiteral_bytesLiteral (he : s.escaper = none) (ty : ColumnType) (data : List UInt8) :
    s.dialect.IsLiteral (.bytes data) (s.bytesLiteral ty data) := by
  unfold bytesLiteral
  split_ifs
  · exact isLiteral_truthLiteral _
  · unfold binaryLiteral
    dsimp only
    split
    · exact .null
    · exact .binary rfl (readHex_flatMap data)
  · exact isLiteral_quoteString he _

theorem isLiteral_temporalLiteral (ty : ColumnType) (t : Temporal) :
    s.dialect.IsLiteral v (temporalLiteral ty t) := by
  unfold temporalLiteral
  split
  · exact isLiteral_truthLiteral true
  · exact isLiteral_of_plain (t.plain_text ty)

theorem head?_of_isDeferredMarker {t : Text} (h : isDeferredMarker t = true) :
    t.head? = some '\x7b' := by
  rw [isDeferredMarker, Bool.or_eq_true, beq_iff_eq, beq_iff_eq] at h
  rcases h with rfl | rfl <;> decide +kernel

/-- A text between quotes in a column that holds no truth values is read as it was. -/
theorem readBody_of_textLiteral (he : s.escaper = none) {ty : ColumnType} (hty : ty ≠ .boolean)
    {t body : Text} (h : s.textLiteral ty t = '\'' :: body ++ ['\'']) :
    s.dialect.readBody body = some t := by
  have hnumeral {u : Text} (hu : Numeral u) (h : u = '\'' :: body ++ ['\'']) : False :=
    Numeral.ne_quoted hu _ h
  unfold textLiteral at h
  rw [if_neg hty] at h
  split at h
  · next hm =>
    have hhead := head?_of_isDeferredMarker hm
    rw [h] at hhead
    cases hhead
  split at h
  · simp at h
  split at h
  · next hi =>
    exact (hnumeral (Numeral.numeral_of_isIntegerLiteral (Bool.and_eq_true_iff.1 hi).2) h).elim
  split at h
  · next hf =>
    exact (hnumeral (Numeral.numeral_of_isFloatLiteral (Bool.and_eq_true_iff.1 hf).2) h).elim
  rw [quoteString, escape, he] at h
  rw [← (List.cons.inj (List.append_cancel_right h)).2]
  exact s.dialect.readBody_escape t

/-- Data is written as a literal, and a text between quotes is read as it was, unless it stands for
a truth value. -/
theorem value_isLiteral (s : Source) (he : s.escaper = none) (v : Value) (hv : v.isData = true)
    (column : Option ColumnType) :
    ∃ out, s.value v column = pure out ∧ s.dialect.IsLiteral v out ∧
      ∀ t body, v = .text t → column ≠ some .boolean → out = '\'' :: body ++ ['\''] →
        s.dialect.readBody body = some t := by
  cases v with
  | null => exact ⟨_, rfl, .null, by simp⟩
  | bool b => exact ⟨_, rfl, isLiteral_boolLiteral he _ b, by simp⟩
  | integer n =>
    exact ⟨_, rfl, isLiteral_numberLiteral he _ _ fun _ => Numeral.numeral_ofInt n, by simp⟩
  | natural n =>
    exact ⟨_, rfl, isLiteral_numberLiteral he _ _ fun _ => Numeral.numeral_ofNat n, by simp⟩
  | float x =>
    refine ⟨_, rfl, isLiteral_numberLiteral he _ _ fun hx => ?_, by simp⟩
    exact (Decimal.mantissa_text hx).numeral
  | text t =>
    refine ⟨_, rfl, isLiteral_textLiteral he _ t, ?_⟩
    rintro t body ⟨⟩ hcolumn hout
    refine readBody_of_textLiteral he ?_ hout
    cases column with
    | none =>
      dsimp only [Option.getD, Value.inferredType]
      split <;> decide
    | some ty => exact fun h => hcolumn (congrArg some h)
  | bytes data => exact ⟨_, rfl, isLiteral_bytesLiteral he _ data, by simp⟩
  | temporal t => exact ⟨_, rfl, isLiteral_temporalLiteral _ t, by simp⟩
  | identifier name => cases hv
  | expression sql => cases hv

/-- A quote and a backslash are no number, so they stand between quotes in any column. -/
theorem value_isLiteral_backslash :
    let s : Source := {}
    let v : Value := .text ['\'', '\\']
    let body : Text := ['\\', '\'', '\\', '\\']
    s.escaper = none ∧ v.isData = true ∧
      s.value v (some .integer) = pure ('\'' :: body ++ ['\'']) ∧
      s.dialect.readBody body = some ['\'', '\\'] := by
  intro s v body
  obtain ⟨out, hout, -, hread⟩ := value_isLiteral s rfl v rfl (some .integer)
  have hvalue : s.value v (some .integer) = pure ('\'' :: body ++ ['\'']) := by
    rfl
  have he : out = '\'' :: body ++ ['\''] := Render.done.inj (hout.symm.trans hvalue)
  exact ⟨rfl, rfl, hvalue, hread _ _ rfl (by decide) he⟩

end Source

end SqlComposer
