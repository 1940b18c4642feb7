import SqlComposer.Proofs.Fragment
import SqlComposer.Proofs.SmallWords
import SqlComposer.Proofs.TableDefinition
import SqlComposer.Schema.Catalog

/-!
# Native types

What MySQL is told about the type of a column is what is read out of its catalog. The reader goes
by what the native name contains, in an order that keeps the names apart; where a type is its own
declaration, the declaration is read back as it stands.
-/

namespace SqlComposer

open CharClass

namespace Text

variable {t : Text} {ws : List Text}

/-! ### Texts between single blanks -/

theorem splitBy_isBlank (hspace : ∀ c ∈ t, isBlank c = true → c = ' ') :
    splitBy isBlank t = t.splitOn ' ' := by
  induction t with
  | nil => rfl
  | cons c cs ih =>
    obtain ⟨hc, hcs⟩ := List.forall_mem_cons.1 hspace
    have hblank : isBlank c = (c == ' ') := by
      rw [Bool.eq_iff_iff, beq_iff_eq]
      exact ⟨hc, fun h => h ▸ rfl⟩
    obtain ⟨w, ws, hw⟩ := List.exists_cons_of_ne_nil (List.splitOn_ne_nil ' ' cs)
    rw [splitBy, List.splitOn_cons_eq_if_modifyHead, ih hcs, hblank, hw]
    rfl

/-- Where one of the texts that are joined by blanks is empty, there is a blank at an end, or there
are two together. -/
theorem unwords_of_nil_mem (hmem : [] ∈ ws) :
    ¬(unwords ws).Tight ∨ [' ', ' '] <:+: unwords ws := by
  have hhead (x : Text) : ¬Tight (' ' :: x) := by
    rintro ⟨⟨c, hc, hb⟩, -⟩
    cases hc
    cases hb
  have hlast (x : Text) : ¬Tight (x ++ [' ']) := by
    rintro ⟨-, ⟨c, hc, hb⟩⟩
    rw [List.getLast?_concat] at hc
    cases hc
    cases hb
  obtain ⟨us, vs, rfl⟩ := List.append_of_mem hmem
  have hfront (hu : us ≠ []) :
      unwords (us ++ [] :: vs) = join [' '] us ++ [' '] ++ unwords ([] :: vs) :=
    join_append _ hu (List.cons_ne_nil _ _)
  have hback (hv : vs ≠ []) : unwords ([] :: vs) = ' ' :: join [' '] vs := by
    obtain ⟨v, vs, rfl⟩ := List.exists_cons_of_ne_nil hv
    exact join_cons_cons [' '] [] v vs
  -- The empty text is at an end, where it leaves a blank, or between others, where it leaves two.
  by_cases hu : us = []
  · left
    subst hu
    by_cases hv : vs = []
    · subst hv
      rintro ⟨⟨c, hc, -⟩, -⟩
      cases hc
    · rw [List.nil_append, hback hv]
      exact hhead _
  · rw [hfront hu]
    by_cases hv : vs = []
    · subst hv
      refine .inl ?_
      rw [unwords, join_singleton, List.append_nil]
      exact hlast _
    · rw [hback hv]
      exact .inr ⟨join [' '] us, join [' '] vs, by simp⟩

/-- A text with no other blanks in it than single spaces is its words with spaces between them. -/
theorem unwords_words (ht : t.Tight) (hspace : ∀ c ∈ t, isBlank c = true → c = ' ')
    (hsingle : ¬[' ', ' '] <:+: t) : unwords (words t) = t := by
  have hjoin : unwords (t.splitOn ' ') = t := List.intercalate_splitOn ' '
  have hne : ∀ w ∈ t.splitOn ' ', !w.isEmpty := by
    intro w hw
    rw [Bool.not_eq_true', List.isEmpty_eq_false_iff]
    rintro rfl
    have := unwords_of_nil_mem hw
    rw [hjoin] at this
    exact this.elim (absurd ht) hsingle
  rw [words, splitBy_isBlank hspace, List.filter_eq_self.2 hne, hjoin]

end Text

/-! ### Lengths and declarations -/

/-- Whether a text is a length, of numbers and commas. -/
def IsLength (l : Text) : Prop :=
  ∀ c ∈ l, isNumeric c = true ∨ c = ','

instance (l : Text) : Decidable (IsLength l) :=
  List.decidableBAll (fun c => isNumeric c = true ∨ c = ',') l

namespace IsLength

variable {l : Text}

theorem not_mem (hl : IsLength l) {c : Char} (hc : isNumeric c = false) (hcomma : c ≠ ',') :
    c ∉ l :=
  fun h => (hl c h).elim (by simp [hc]) hcomma

theorem isBlank_eq_false (hl : IsLength l) : ∀ c ∈ l, isBlank c = false := by
  intro c hc
  rcases hl c hc with h | rfl
  · exact isBlank_of (by decide +kernel) h
  · rfl

theorem toLower_of_isNumeric {c : Char} (h : isNumeric c = true) : c.toLower = c := by
  unfold Char.toLower
  refine dif_neg fun hupper => ?_
  have hcapital : 65 ≤ c.toNat ∧ c.toNat ≤ 90 := hupper
  rw [isNumeric, if_pos (by omega)] at h
  obtain ⟨h0, h9⟩ := Bool.and_eq_true_iff.1 h
  have hdigit : 48 ≤ c.toNat ∧ c.toNat ≤ 57 := ⟨of_decide_eq_true h0, of_decide_eq_true h9⟩
  omega

theorem asciiLower (hl : IsLength l) : Text.asciiLower l = l := by
  refine (List.map_congr_left fun c hc => ?_).trans (List.map_id l)
  rcases hl c hc with h | rfl
  · exact toLower_of_isNumeric h
  · rfl

theorem trim (hl : IsLength l) : Text.trim l = l := by
  by_cases hn : l = []
  · rw [hn]
    rfl
  · exact (Text.tight_of_forall hn hl.isBlank_eq_false).trim

end IsLength

/-- Whether a text declares a set or an enumeration: its word stands in front of what parentheses
enclose. Its blanks are single spaces, and it says nothing about signs. -/
structure IsDeclaration (word t : Text) : Prop where
  opens : word ++ ['('] <+: t
  closes : [')'] <:+ t
  blanks : ∀ c ∈ t, isBlank c = true → c = ' '
  single : ¬[' ', ' '] <:+: t
  signed : ¬"unsigned".toList <:+: Text.asciiLower t

/-! ### Reading native types -/

namespace ParsedType

open Text (IsSmallWord)

variable {word l t : Text} {ty : ColumnType}

/-- What is written behind a type that has no sign. -/
def signSql (unsigned : Bool) : Text :=
  if unsigned then " unsigned" else []

/-- A native type with a length. -/
def sized (word l : Text) (unsigned : Bool) : Text :=
  word ++ '(' :: (l ++ ')' :: signSql unsigned)

theorem tight_sized (hw : IsSmallWord word) (l : Text) (unsigned : Bool) :
    (sized word l unsigned).Tight := by
  have hend : Text.Tight (')' :: signSql unsigned) := by
    cases unsigned <;> exact ⟨⟨_, rfl, rfl⟩, _, rfl, rfl⟩
  have := hw.tight.append hend ('(' :: l)
  rwa [List.append_assoc] at this

theorem asciiLower_sized (hw : IsSmallWord word) (hl : IsLength l) (unsigned : Bool) :
    Text.asciiLower (sized word l unsigned) = sized word l unsigned := by
  have hend : Text.asciiLower (')' :: signSql unsigned) = ')' :: signSql unsigned := by
    cases unsigned <;> rfl
  have hrest : Text.asciiLower ('(' :: (l ++ ')' :: signSql unsigned)) =
      '(' :: (Text.asciiLower l ++ Text.asciiLower (')' :: signSql unsigned)) :=
    congrArg _ (Text.asciiLower_append _ _)
  rw [sized, Text.asciiLower_append, hrest, hw.asciiLower, hl.asciiLower, hend]

theorem cutFirst_append_paren (hw : IsSmallWord word) (rest : Text) :
    Text.cutFirst (· == '(') (word ++ '(' :: rest) = some (word, rest) :=
  Text.cutFirst_append (fun _ he => beq_false_of_ne fun h => hw.not_mem (by decide) (h ▸ he)) rfl

theorem parts_sized (hw : IsSmallWord word) (hl : IsLength l) (unsigned : Bool) :
    parts (sized word l unsigned) = (word, some l) := by
  have hend : ')' ∉ signSql unsigned := by cases unsigned <;> decide
  have hlast : Text.cutLast (· == ')') (l ++ ')' :: signSql unsigned) =
      some (l, signSql unsigned) :=
    Text.cutLast_append rfl fun e he => beq_false_of_ne fun h => hend (h ▸ he)
  rw [parts, asciiLower_sized hw hl, sized]
  simp only [cutFirst_append_paren hw, hlast, hw.tight.trim, Option.map_some, hl.trim]

theorem has_unsigned_sized (hu : 'u' ∉ word) (hl : IsLength l) (unsigned : Bool) :
    Text.has "unsigned" (sized word l unsigned) = unsigned := by
  cases unsigned with
  | true => exact Text.has_iff.2 ⟨word ++ '(' :: (l ++ [')', ' ']), [], by simp [sized, signSql]⟩
  | false =>
    refine Bool.eq_false_iff.2 fun h => ?_
    have hmem : 'u' ∈ sized word l false :=
      (Text.isInfix_of_has h).subset (by decide)
    have hlength : 'u' ∉ l := hl.not_mem (by decide) (by decide)
    simp [sized, signSql, hu, hlength] at hmem

/-- A native type with a length is read by its name. -/
theorem ofNative_sized (hw : IsSmallWord word) (hu : 'u' ∉ word) (hl : IsLength l)
    (hty : ∀ declaration, resolve word (some l) declaration = (ty, some l)) (unsigned : Bool) :
    ofNative (sized word l unsigned) = ⟨ty, some l, unsigned⟩ := by
  rw [ofNative]
  simp only [(tight_sized hw l unsigned).trim, parts_sized hw hl, hty,
    asciiLower_sized hw hl, has_unsigned_sized hu hl]

/-- A length of 1 is that of a truth value. -/
theorem resolve_tinyint (hl : l ≠ "1") (declaration : Text) :
    resolve "tinyint" (some l) declaration = (.tinyInteger, some l) := by
  have hone : (some l == some ['1']) = false := beq_false_of_ne fun h => hl (Option.some.inj h)
  rw [resolve]
  simp only [hone]
  rfl

/-- A declaration is read by its word, and kept. -/
theorem ofNative_declaration (ht : IsDeclaration word t) (hw : IsSmallWord word)
    (hty : ∀ length, resolve word length t = (ty, none)) : ofNative t = ⟨ty, none, false⟩ := by
  obtain ⟨rest, hrest⟩ := ht.opens
  rw [List.append_assoc, List.singleton_append] at hrest
  have htight : t.Tight := by
    refine ⟨?_, ?_⟩
    · obtain ⟨c, hc, hblank⟩ := hw.tight.head
      exact ⟨c, by rw [← hrest, List.head?_append, Option.mem_def.1 hc]; rfl, hblank⟩
    · obtain ⟨front, hfront⟩ := ht.closes
      exact ⟨')', by rw [← hfront, List.getLast?_concat]; rfl, rfl⟩
  have hlower : Text.asciiLower t = word ++ '(' :: Text.asciiLower rest := by
    rw [← hrest, Text.asciiLower_append, hw.asciiLower]
    rfl
  have hparts : (parts t).1 = word := by
    rw [parts, hlower]
    simp only [cutFirst_append_paren hw, hw.tight.trim]
  have hunsigned : Text.has "unsigned" (Text.asciiLower t) = false :=
    Bool.eq_false_iff.2 fun h => ht.signed (Text.isInfix_of_has h)
  rw [ofNative]
  simp only [htight.trim, hparts, Text.unwords_words htight ht.blanks ht.single, hty, hunsigned]

end ParsedType

/-! ### Types that are read back -/

/-- The types that are declared with a length and may be unsigned. -/
def sizedNumbers : List ColumnType :=
  [.integer, .bigInteger, .smallInteger, .tinyInteger, .float, .decimal]

/-- The types that are declared without a length. -/
def bareTypes : List ColumnType :=
  [.text, .boolean, .binary, .date, .time, .datetime, .timestamp]

/-- Whether a type with its length and its sign is read back as it is declared. A length of 1 would
make a tiny integer a truth value, and the length of a set or an enumeration is not written. -/
inductive IsReadBack : ColumnType → Option Text → Bool → Prop where
  | number {ty : ColumnType} {l : Text} (unsigned : Bool) (hty : ty ∈ sizedNumbers)
      (hl : IsLength l) (htiny : ty = .tinyInteger → l ≠ "1") : IsReadBack ty (some l) unsigned
  | string {l : Text} (hl : IsLength l) : IsReadBack .string (some l) false
  | bare {ty : ColumnType} (hty : ty ∈ bareTypes) : IsReadBack ty none false
  | set {declaration : Text} (length : Option Text) (h : IsDeclaration "set" declaration) :
      IsReadBack (.set declaration) length false
  | enum {declaration : Text} (length : Option Text) (h : IsDeclaration "enum" declaration) :
      IsReadBack (.enum declaration) length false

/-- Whether a type is its own declaration. -/
def ColumnType.isDeclared : ColumnType → Bool
  | .set _ | .enum _ => true
  | _ => false

namespace Source

variable {s : Source} {c : Column} {l : Text}

theorem columnTypeSql_of_length (hs : s.dialect = .mySql) {native : NativeType}
    (hnative : Dialect.mySql.nativeType c.type = some native) (hl : c.length = some l) :
    s.columnTypeSql c = ParsedType.sized native.name l (c.unsigned && c.type.isNumeric) := by
  unfold columnTypeSql
  rw [hs, hnative, hl]
  cases hu : c.unsigned <;> cases hn : c.type.isNumeric <;>
    simp [writesLength, ParsedType.sized, ParsedType.signSql]

theorem ofNative_columnTypeSql_of_length (hs : s.dialect = .mySql) {native : NativeType}
    (hnative : Dialect.mySql.nativeType c.type = some native)
    (hw : Text.IsSmallWord native.name ∧ 'u' ∉ native.name) (hl : IsLength l)
    (hlength : c.length = some l) (hunsigned : c.unsigned = true → c.type.isNumeric = true)
    (hty : ∀ declaration,
      ParsedType.resolve native.name (some l) declaration = (c.type, some l)) :
    ParsedType.ofNative (s.columnTypeSql c) = ⟨c.type, some l, c.unsigned⟩ := by
  have hsign : (c.unsigned && c.type.isNumeric) = c.unsigned := by
    cases hu : c.unsigned with
    | false => rfl
    | true => exact hunsigned hu
  rw [columnTypeSql_of_length hs hnative hlength, hsign,
    ParsedType.ofNative_sized hw.1 hw.2 hl hty]

/-- A type without a length may have a length of its own under MySQL, which is written. -/
theorem columnTypeSql_of_bare (hs : s.dialect = .mySql) {native : NativeType}
    (hnative : Dialect.mySql.nativeType c.type = some native) (hlength : c.length = none)
    (hunsigned : c.unsigned = false) :
    s.columnTypeSql c =
      match native.length with
      | some n => native.name ++ "(" ++ n ++ ")"
      | none => native.name := by
  obtain ⟨name, length⟩ := native
  unfold columnTypeSql
  rw [hs, hnative, hlength, hunsigned]
  cases length <;> simp

theorem columnTypeSql_of_declared (h : c.type.isDeclared = true) :
    s.columnTypeSql c = c.type.name := by
  unfold columnTypeSql
  cases hty : c.type <;> rw [hty] at h <;> first | rfl | cases h

theorem ofNative_columnTypeSql (hs : s.dialect = .mySql)
    (hc : IsReadBack c.type c.length c.unsigned) :
    ParsedType.ofNative (s.columnTypeSql c) =
      ⟨c.type, if c.type.isDeclared then none else c.length, c.unsigned⟩ := by
  cases c
  dsimp only at hc ⊢
  cases hc with
  | number unsigned hty hl htiny =>
    simp only [sizedNumbers, List.mem_cons, List.not_mem_nil, or_false] at hty
    rcases hty with rfl | rfl | rfl | rfl | rfl | rfl
    -- Of a tiny integer the length is looked at, so it goes first.
    case inr.inr.inr.inl =>
      exact ofNative_columnTypeSql_of_length hs rfl ⟨by decide, by decide⟩ hl rfl (fun _ => rfl)
        (ParsedType.resolve_tinyint (htiny rfl))
    all_goals
      exact ofNative_columnTypeSql_of_length hs rfl ⟨by decide, by decide⟩ hl rfl (fun _ => rfl)
        fun _ => rfl
  | string hl =>
    exact ofNative_columnTypeSql_of_length hs rfl ⟨by decide, by decide⟩ hl rfl nofun fun _ => rfl
  | bare hty =>
    simp only [bareTypes, List.mem_cons, List.not_mem_nil, or_false] at hty
    rcases hty with rfl | rfl | rfl | rfl | rfl | rfl | rfl <;>
      rw [columnTypeSql_of_bare hs rfl rfl rfl] <;> rfl
  | set length h =>
    rw [columnTypeSql_of_declared rfl]
    exact ParsedType.ofNative_declaration h (by decide) fun _ => rfl
  | enum length h =>
    rw [columnTypeSql_of_declared rfl]
    exact ParsedType.ofNative_declaration h (by decide) fun _ => rfl

/-- A part that need not be there begins with a blank, as what stands behind it does. -/
theorem exists_optionalPart (present : Bool) (head : Text) (t : Option Text) (rest : Text) :
    ∃ rest', optionalPart present (' ' :: head) t ++ ' ' :: rest = ' ' :: rest' := by
  cases t with
  | none => exact ⟨rest, rfl⟩
  | some t =>
    cases present with
    | false => exact ⟨rest, rfl⟩
    | true => exact ⟨_, rfl⟩

/-- Behind the type of a column there is a blank. -/
theorem exists_eval_buildColumn (hs : s.dialect = .mySql) (name : Text) (c : Column) :
    ∃ rest, s.eval (s.buildColumn name c) =
      s.dialect.quoteName name ++ " " ++ s.columnTypeSql c ++ ' ' :: rest := by
  rw [buildColumn, eval_columnSql]
  cases c.isIntegerPrimary with
  | true =>
    refine ⟨s.dialect.primaryKeySuffix, ?_⟩
    simp [autoIncrementSql, hs]
  | false =>
    obtain ⟨nullability, hnull⟩ : ∃ rest, s.nullabilitySql c = ' ' :: rest := by
      obtain ⟨rest, h | h⟩ := nullabilitySql_head s c <;> exact ⟨_, h⟩
    obtain ⟨collate, hcollate⟩ := exists_optionalPart (decide (s.dialect = .mySql)) "COLLATE "
      c.collate (nullability ++ optionalPart (decide (s.dialect = .mySql)) " COMMENT "
        (c.comment.map s.quoteString))
    obtain ⟨charset, hcharset⟩ := exists_optionalPart (decide (s.dialect = .mySql))
      "CHARACTER SET " c.charset collate
    refine ⟨charset, ?_⟩
    rw [← hcharset, ← hcollate]
    simp [plainColumnSql, hnull]

end Source

end SqlComposer
