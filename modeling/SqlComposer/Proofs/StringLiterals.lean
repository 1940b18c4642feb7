import SqlComposer.Proofs.ConditionMeaning
import SqlComposer.Proofs.ConditionTexts
import SqlComposer.Proofs.FieldKey
import SqlComposer.Proofs.Fragment
import SqlComposer.Proofs.PieceTokens

/-!
# Strings stay strings

A condition that compares fields with texts is cut into tokens that do not depend on the texts,
apart from one string literal for each of them. So no text, whatever it contains, can end the
literal that it stands in.
-/

namespace SqlComposer

open CharClass Identifier
open Piece (leavesOf tokensOf)
open Token (blankToken)

namespace Condition

/-! ### Comparisons as tokens -/

/-- Whether a key is a name with dots in it or without, and may be followed by a blank and an
operator. -/
def IsFieldKey (key : Text) : Prop :=
  ∃ f, (isIdentifier f = true ∨ isQualified f = true) ∧
    (key = f ∨ ∃ gap op, gap ≠ [] ∧ (∀ c ∈ gap, isBlank c = true) ∧ op ∈ Key.textOperators ∧
      key = f ++ gap ++ op)

/-- The field and the operator of such a key, in which there are no placeholders. -/
theorem IsFieldKey.split {key : Text} (h : IsFieldKey key) (d : Dialect) :
    ∃ f op, IsPath f ∧ (op = [] ∨ op ∈ Key.textOperators) ∧ Key.split d key = (f, op) ∧
      Placeholder.count d key = (0, 0) := by
  obtain ⟨f, hf, hk⟩ := h
  have hp : IsPath f := hf.elim (fun h => isPath_of_isWord (isWord_of_isIdentifier h))
    isPath_of_isQualified
  rcases hk with rfl | ⟨gap, op, hg, hb, ho, rfl⟩
  · exact ⟨key, [], hp, .inl rfl, Key.split_of_isPath hp, Placeholder.count_of_isPath d hp⟩
  · have hn : ∀ op ∈ Key.textOperators, '?' ∉ op ∧ ':' ∉ op := by decide
    obtain ⟨hq, hc⟩ := hn op ho
    exact ⟨f, op, hp, .inr ho, Key.split_append hp hg hb ho,
      Placeholder.count_append d hp hb hq hc⟩

theorem effectiveOperator_of_text {op : Text} (h : op = [] ∨ op ∈ Key.textOperators) :
    effectiveOperator op false ∈ Key.textOperators := by
  have ho : ∀ op ∈ Key.textOperators, effectiveOperator op false ∈ Key.textOperators := by decide
  rcases h with rfl | h
  · decide
  · exact ho op h

variable {s : Source} {key : Text}

theorem textLiteral_inferred (s : Source) {t : Text} (h : isDeferredMarker t = false) :
    s.textLiteral (Value.text t).inferredType t = s.quoteString t := by
  rw [Source.textLiteral, h, Value.inferredType]
  split_ifs <;> simp_all [ColumnType.isNumeric, ColumnType.isTemporal, ColumnType.isInteger,
    ColumnType.isFloat]

theorem comparisonText_text (hk : IsFieldKey key) (hc : Key.isConnective key = false) :
    ∃ f op, IsPath f ∧ op ∈ Key.textOperators ∧ ∀ t, isDeferredMarker t = false →
      comparisonText ⟨s, true, none⟩ key (.one (.text t)) =
        s.dialect.quoteName f ++ " " ++ op ++ " " ++ s.quoteString t := by
  obtain ⟨f, op, hf, ho, hs, hq⟩ := hk.split s.dialect
  refine ⟨f, effectiveOperator op false, hf, effectiveOperator_of_text ho, fun t ht => ?_⟩
  have hn : ¬Text.sameLetters op "not" = true := by
    have hops : ∀ op ∈ [] :: Key.textOperators, ¬Text.sameLetters op "not" = true := by decide
    exact hops op (List.mem_cons.2 ho)
  have hc : ¬Key.isConnective key = true := by simp [hc]
  have hb : bindsKey s.dialect key (.one (.text t)) = false := by
    rw [bindsKey, hq]
    rfl
  have hv : s.eval (s.value (.text t) none) = s.quoteString t := textLiteral_inferred s ht
  have hf : s.eval (Scope.fieldOrVirtual ⟨s, true, none⟩ f) = s.dialect.quoteName f := by
    rw [Scope.fieldOrVirtual_of_isPath hf rfl rfl]
    rfl
  have hnull : ¬(isMissing (.one (.text t)) || s.quoteString t == "NULL") = true := by
    simp [isMissing, Value.isNull, Source.quoteString]
  rw [comparisonText_of_comparison hc rfl (by rwa [hs]), hs, eval_comparison, if_neg (by simp [hb]),
    eval_write_one]
  dsimp only [Scope.columnType, Option.bind_none]
  rw [hv, hf, compareText, if_neg hnull]

end Condition

/-! ### Literals as tokens -/

namespace Token

/-- A character in a literal is written as it is, if it is neither a quote nor a backslash, or else as
a backslash and another character. -/
theorem escapeChar_mySql (c : Char) :
    (Dialect.mySql.escapeChar c = [c] ∧ c ≠ '\'' ∧ c ≠ '\\') ∨
      ∃ x, Dialect.mySql.escapeChar c = ['\\', x] := by
  by_cases hq : c = '\''
  · subst hq
    exact .inr ⟨_, rfl⟩
  by_cases hb : c = '\\'
  · subst hb
    exact .inr ⟨_, rfl⟩
  simp only [Dialect.escapeChar]
  split
  case h_7 =>
    split_ifs
    case neg => exact .inl ⟨rfl, hq, hb⟩
    all_goals exact .inr ⟨_, rfl⟩
  all_goals exact .inr ⟨_, rfl⟩

/-- The inside of a literal is read over, whatever text is written in it. -/
theorem quotedLength_escape (t : Text) {rest : Text} (h : ∀ c ∈ rest.head?, (c == '\'') = false) :
    quotedLength '\'' true (Dialect.mySql.escape t ++ '\'' :: rest) =
      (Dialect.mySql.escape t).length + 1 := by
  induction t with
  | nil =>
    cases rest with
    | nil => rfl
    | cons e es => simp [Dialect.escape, quotedLength, h e rfl]
  | cons c cs ih =>
    obtain ⟨e, es, he⟩ : ∃ e es, Dialect.mySql.escape cs ++ '\'' :: rest = e :: es := by
      cases Dialect.mySql.escape cs <;> exact ⟨_, _, rfl⟩
    have hc : Dialect.mySql.escape (c :: cs) =
        Dialect.mySql.escapeChar c ++ Dialect.mySql.escape cs := List.flatMap_cons
    rw [hc, List.append_assoc, List.length_append]
    rcases escapeChar_mySql c with ⟨hc, hq, hb⟩ | ⟨x, hc⟩
    · rw [hc, List.singleton_append, he, quotedLength, ← he, ih]
      simp [hq, hb]
      omega
    · rw [hc]
      simp [quotedLength, ih]
      omega

/-- A text between single quotes. -/
def literal (s : Source) (t : Text) : Token :=
  ⟨.str, s.quoteString t⟩

theorem ends_literal {s : Source} (hd : s.dialect = .mySql) (he : s.escaper = none) (t : Text)
    {rest : Text} (h : ∀ c ∈ rest.head?, (c == '\'') = false) :
    (literal s t).Ends .mySql rest := by
  have hq : s.escape t = Dialect.mySql.escape t := by
    rw [Source.escape, he, hd]
  refine ⟨'\'', Dialect.mySql.escape t ++ ['\''], ?_, ?_⟩
  · rw [literal, Source.quoteString, hq]
    rfl
  · have hs : start .mySql '\'' = .literal '\'' := rfl
    rw [hs, Start.extent, List.append_assoc, List.singleton_append, quotedLength_escape t h,
      List.length_append]
    rfl

end Token

namespace Condition

variable {s : Source}

/-- The tokens of a field and an operator in front of a text. -/
def fieldTokens (f op : Text) : List Token :=
  Token.pathTokens .mySql (Text.splitBy (· == '.') f) ++ [blankToken, Key.operatorToken op, blankToken]

theorem solid_fieldTokens (hd : s.dialect = .mySql) (he : s.escaper = none) {f op : Text}
    (hf : IsPath f) (ho : op ∈ Key.textOperators) (t : Text) :
    Solid .mySql (fieldTokens f op ++ [Token.literal s t]) where
  head := by
    refine ⟨'\x60', ?_, rfl⟩
    rw [fieldTokens, List.append_assoc, Token.textOf_append, List.head?_append,
      Token.head?_pathTokens (Text.splitBy_ne_nil _ f)]
    rfl
  separate h := by
    rw [fieldTokens, List.append_assoc]
    refine Token.Separate.append_iff.2 ⟨Token.separate_pathTokens
      (fun w hw => beq_endQuote_of_isWord _ (hf w hw)) ?_, ?_, ?_, ?_, ?_, trivial⟩
    · rintro _ ⟨⟩
      rfl
    · obtain ⟨c, hc, hb⟩ := (Key.tight_of_mem_textOperators ho).head
      refine Solid.ends_blank ⟨c, ?_, hb⟩
      refine Option.mem_def.2 ?_
      simp [Key.operatorToken, Option.mem_def.1 hc]
    · exact Solid.ends_word (Key.ends_operatorToken _ ho).1 (Key.ends_operatorToken _ ho).2 _
    · exact Solid.ends_blank ⟨'\'', rfl, rfl⟩
    · refine Token.ends_literal hd he t fun c hc => ?_
      rcases h c hc with rfl | rfl <;> rfl

theorem kind_fieldTokens (f op : Text) : ∀ u ∈ fieldTokens f op, u.kind ≠ .str := by
  have ho : (Key.operatorToken op).kind ≠ .str := by
    rw [Key.operatorToken]
    split_ifs <;> simp
  intro u hu
  rcases List.mem_append.1 hu with hu | hu
  · rcases Token.kind_of_mem_pathTokens hu with hk | hk <;> simp [hk]
  · simp only [List.mem_cons, List.not_mem_nil, or_false] at hu
    rcases hu with rfl | rfl | rfl
    · simp [blankToken]
    · exact ho
    · simp [blankToken]

/-- A comparison of a field with a text is cut into tokens of the key and one literal. -/
theorem tokenize_textComparison (hd : s.dialect = .mySql) (he : s.escaper = none) {key : Text}
    (hk : IsFieldKey key) (hc : Key.isConnective key = false) :
    ∃ us : List Token, (∀ u ∈ us, u.kind ≠ .str) ∧ ∀ t, isDeferredMarker t = false →
      Token.tokenize .mySql (textComparison ⟨s, true, none⟩ (key, t)) = us ++ [Token.literal s t] ∧
        Solid .mySql (us ++ [Token.literal s t]) := by
  obtain ⟨f, op, hf, ho, ht⟩ := comparisonText_text (s := s) hk hc
  refine ⟨fieldTokens f op, kind_fieldTokens f op, fun t hm => ?_⟩
  have hs := solid_fieldTokens hd he hf ho t
  have htext : Token.textOf (fieldTokens f op ++ [Token.literal s t]) =
      textComparison ⟨s, true, none⟩ (key, t) := by
    rw [textComparison, ht t hm, Dialect.quoteName_of_isPath _ hf, hd, fieldTokens,
      Token.textOf_append, Token.textOf_append, Token.textOf_pathTokens]
    simp [blankToken, Key.operatorToken, Token.literal]
  exact ⟨htext ▸ hs.tokenize_textOf, hs⟩

end Condition

/-! ### Tokens of formulas that differ in their leaves -/

/-- Whether two tokens are the same, apart from what they say as string literals. -/
def Token.Alike (u v : Token) : Prop :=
  u = v ∨ u.kind = .str ∧ v.kind = .str

/-- The string literals among tokens. -/
def Token.literals (ts : List Token) : List Token :=
  ts.filter fun u => u.kind = .str

namespace Piece

variable {d : Dialect}

theorem alike_refl (ts : List Token) : List.Forall₂ Token.Alike ts ts :=
  List.forall₂_same.2 fun _ _ => .inl rfl

theorem forall₂_alike {ps qs : List Piece} (hs : ps.map shape = qs.map shape)
    (hl : List.Forall₂ (fun t t' => List.Forall₂ Token.Alike (Token.tokenize d t)
      (Token.tokenize d t')) (leavesOf ps) (leavesOf qs)) :
    List.Forall₂ Token.Alike (tokensOf d ps) (tokensOf d qs) := by
  induction ps generalizing qs with
  | nil =>
    rw [List.map_eq_nil_iff.1 hs.symm]
    exact .nil
  | cons p ps ih =>
    cases qs with
    | nil => cases hs
    | cons q qs =>
      obtain ⟨hp, hps⟩ := List.cons_eq_cons.1 hs
      cases p with
      | leaf t =>
        cases q with
        | leaf t' =>
          cases hl with
          | cons ht hl => exact List.rel_append ht (ih hps hl)
        | _ => cases hp
      | _ =>
        cases q <;> cases hp
        exact List.rel_append (alike_refl _) (ih hps hl)

theorem literals_tokensOf (d : Dialect) (ps : List Piece) :
    Token.literals (tokensOf d ps) =
      (leavesOf ps).flatMap fun t => Token.literals (Token.tokenize d t) := by
  induction ps with
  | nil => rfl
  | cons p ps ih =>
    have hp : Token.literals (tokensOf d (p :: ps)) =
        Token.literals (p.tokens d) ++ Token.literals (tokensOf d ps) := List.filter_append _ _
    rw [hp, ih]
    cases p with
    | joint j => cases j <;> rfl
    | _ => rfl

end Piece

namespace Condition

variable {s : Source} {c c' : Condition}

/-- Whether a condition is made of lists and groups in which fields are compared with texts, none of
which is a marker. -/
structure ComparesFields (c : Condition) : Prop where
  onlyTexts : comparesTexts c = true
  keys : ∀ e ∈ comparisons c, IsFieldKey e.1 ∧ Key.isConnective e.1 = false
  unmarked : ∀ e ∈ comparisons c, isDeferredMarker e.2 = false

/-- What is written where there are no comparisons. -/
def truthTokens : List Token :=
  [⟨.number, "1"⟩, blankToken, ⟨.operator, "="⟩, blankToken, ⟨.number, "1"⟩]

theorem solid_truthTokens : Solid .mySql truthTokens where
  head := ⟨'1', rfl, rfl⟩
  separate {rest} h := by
    have hone : ∀ d : Dialect, (⟨.number, "1"⟩ : Token).Ends d [] ∧ (⟨.number, "1"⟩ : Token).Bare d := by
      intro d
      cases d <;> exact ⟨⟨_, _, rfl, rfl⟩, _, rfl, rfl⟩
    have heq : (Key.operatorToken "=").Ends .mySql [] ∧ (Key.operatorToken "=").Bare .mySql :=
      Key.ends_operatorToken .mySql (by decide)
    refine ⟨Solid.ends_word (hone _).1 (hone _).2 _, Solid.ends_blank ⟨'=', rfl, rfl⟩,
      Solid.ends_word heq.1 heq.2 _, Solid.ends_blank ⟨'1', rfl, rfl⟩, ?_, trivial⟩
    cases rest with
    | nil => exact ⟨'1', [], rfl, rfl⟩
    | cons e es => rcases h e rfl with rfl | rfl <;> exact ⟨'1', [], rfl, rfl⟩

theorem tokenize_truth : Token.tokenize .mySql "1 = 1" = truthTokens :=
  solid_truthTokens.tokenize_textOf

/-- The leaves of what is written are the comparisons. -/
theorem ComparesFields.leavesOf_pieces (h : c.ComparesFields) (sc : Scope) :
    leavesOf (pieces sc c) =
      if (rows sc c).isEmpty then ["1 = 1".toList] else (comparisons c).map (textComparison sc) := by
  rw [pieces, Piece.leavesOf_chain, writtenRows]
  split_ifs
  · rfl
  · exact leavesOf_rows c h.onlyTexts fun e he => (h.keys e he).2

theorem ComparesFields.solid (hd : s.dialect = .mySql) (he : s.escaper = none)
    (h : c.ComparesFields) :
    ∀ t ∈ leavesOf (pieces ⟨s, true, none⟩ c), Solid .mySql (Token.tokenize .mySql t) := by
  rw [h.leavesOf_pieces]
  split_ifs
  · intro t ht
    rw [List.mem_singleton.1 ht, tokenize_truth]
    exact solid_truthTokens
  · intro t ht
    obtain ⟨e, hm, rfl⟩ := List.mem_map.1 ht
    obtain ⟨us, _, hus⟩ := tokenize_textComparison hd he (h.keys e hm).1 (h.keys e hm).2
    obtain ⟨ht, hs⟩ := hus e.2 (h.unmarked e hm)
    rwa [ht]

/-- The literals of what is written are the texts. -/
theorem ComparesFields.literals (hd : s.dialect = .mySql) (he : s.escaper = none)
    (h : c.ComparesFields) :
    Token.literals (tokensOf .mySql (pieces ⟨s, true, none⟩ c)) = c.texts.map (Token.literal s) := by
  have hl : ∀ e ∈ comparisons c, Token.literals (Token.tokenize .mySql
      (textComparison ⟨s, true, none⟩ e)) = [Token.literal s e.2] := by
    intro e hm
    obtain ⟨us, hus, ht⟩ := tokenize_textComparison hd he (h.keys e hm).1 (h.keys e hm).2
    have hnil : Token.literals us = [] := List.filter_eq_nil_iff.2 fun u hu => by simp [hus u hu]
    rw [(ht e.2 (h.unmarked e hm)).1]
    exact (List.filter_append _ _).trans (by rw [← Token.literals, hnil]; rfl)
  rw [Piece.literals_tokensOf, h.leavesOf_pieces, texts, List.map_map]
  split_ifs with hr
  · have hc : comparisons c = [] := by
      have hm : (rows ⟨s, true, none⟩ c).flatMap leavesOf = (comparisons c).map (textComparison _) :=
        leavesOf_rows c h.onlyTexts fun e he => (h.keys e he).2
      rw [List.isEmpty_iff.1 hr] at hm
      exact List.map_eq_nil_iff.1 hm.symm
    rw [hc, List.flatMap_singleton, tokenize_truth]
    rfl
  · rw [List.flatMap_map, List.flatMap_congr hl, ← List.map_eq_flatMap]
    rfl

/-- Comparisons of one key with different texts have the same tokens, apart from literals. -/
theorem alike_textComparison (hd : s.dialect = .mySql) (he : s.escaper = none) {key : Text}
    (hk : IsFieldKey key) (hc : Key.isConnective key = false) {t t' : Text}
    (h : isDeferredMarker t = false) (h' : isDeferredMarker t' = false) :
    List.Forall₂ Token.Alike (Token.tokenize .mySql (textComparison ⟨s, true, none⟩ (key, t)))
      (Token.tokenize .mySql (textComparison ⟨s, true, none⟩ (key, t'))) := by
  obtain ⟨us, _, hus⟩ := tokenize_textComparison hd he hk hc
  rw [(hus t h).1, (hus t' h').1]
  exact List.rel_append (Piece.alike_refl us) (.cons (.inr ⟨rfl, rfl⟩) .nil)

theorem alike_textComparisons (hd : s.dialect = .mySql) (he : s.escaper = none)
    {l l' : List (Text × Text)}
    (hk : l.map (fun e => (e.1, ([] : Text))) = l'.map fun e => (e.1, []))
    (hl : ∀ e ∈ l, IsFieldKey e.1 ∧ Key.isConnective e.1 = false)
    (h : ∀ e ∈ l, isDeferredMarker e.2 = false) (h' : ∀ e ∈ l', isDeferredMarker e.2 = false) :
    List.Forall₂ (fun t t' => List.Forall₂ Token.Alike (Token.tokenize .mySql t)
        (Token.tokenize .mySql t'))
      (l.map (textComparison ⟨s, true, none⟩)) (l'.map (textComparison ⟨s, true, none⟩)) := by
  induction l generalizing l' with
  | nil =>
    rw [List.map_eq_nil_iff.1 hk.symm]
    exact .nil
  | cons e l ih =>
    cases l' with
    | nil => cases hk
    | cons e' l' =>
      obtain ⟨hkey, hkeys⟩ := List.cons_eq_cons.1 hk
      obtain ⟨hle, hls⟩ := List.forall_mem_cons.1 hl
      obtain ⟨hme, hm⟩ := List.forall_mem_cons.1 h
      obtain ⟨hme', hm'⟩ := List.forall_mem_cons.1 h'
      obtain ⟨key, t⟩ := e
      obtain ⟨key', t'⟩ := e'
      cases hkey
      exact .cons (alike_textComparison hd he hle.1 hle.2 hme hme') (ih hkeys hls hm hm')

section TwoConditions

variable (hd : s.dialect = .mySql) (he : s.escaper = none) (h : c.ComparesFields)
  (h' : c'.ComparesFields) (hcc : c.emptyTexts = c'.emptyTexts)

include hcc in
theorem shape_eq (sc : Scope) :
    (rows sc c).map (List.map Piece.shape) = (rows sc c').map (List.map Piece.shape) := by
  rw [← shape_emptyTexts, hcc, shape_emptyTexts]

include hcc in
theorem isEmpty_rows_eq (sc : Scope) : (rows sc c).isEmpty = (rows sc c').isEmpty := by
  have := congrArg List.isEmpty (shape_eq hcc sc)
  rwa [List.isEmpty_map, List.isEmpty_map] at this

include hcc in
theorem map_shape_pieces (sc : Scope) :
    (pieces sc c).map Piece.shape = (pieces sc c').map Piece.shape := by
  rw [pieces, pieces, Piece.map_shape_chain, Piece.map_shape_chain, writtenRows, writtenRows,
    isEmpty_rows_eq hcc sc]
  split_ifs
  · rfl
  · rw [shape_eq hcc sc]

include hd he h h' hcc in
theorem alike_leaves :
    List.Forall₂ (fun t t' => List.Forall₂ Token.Alike (Token.tokenize .mySql t)
        (Token.tokenize .mySql t'))
      (leavesOf (pieces ⟨s, true, none⟩ c)) (leavesOf (pieces ⟨s, true, none⟩ c')) := by
  have hk := congrArg comparisons hcc
  rw [comparisons_emptyTexts, comparisons_emptyTexts] at hk
  rw [h.leavesOf_pieces, h'.leavesOf_pieces, isEmpty_rows_eq hcc]
  split_ifs
  · exact List.forall₂_same.2 fun t _ => Piece.alike_refl _
  · exact alike_textComparisons hd he hk h.keys h.unmarked h'.unmarked

end TwoConditions

/-! ### Clauses as tokens -/

/-- The tokens of the head of a clause. -/
def headTokens (whereClause : Bool) : List Token :=
  if whereClause then [blankToken, ⟨.ident, "WHERE"⟩, blankToken] else []

/-- A condition is cut into the tokens of its pieces. -/
theorem tokenize_conditions (hd : s.dialect = .mySql) (he : s.escaper = none)
    (h : c.ComparesFields) (whereClause : Bool) :
    Token.tokenize .mySql (s.eval (s.conditions c true whereClause none)) =
      headTokens whereClause ++ tokensOf .mySql (pieces ⟨s, true, none⟩ c) := by
  have ho : ownClause? c = none := by
    cases c with
    | raw sql => cases h.onlyTexts
    | _ => rfl
  obtain ⟨g, hg⟩ := (joins_pieces ⟨s, true, none⟩ c).2.readable
  have hs : Solid .mySql (tokensOf .mySql (pieces ⟨s, true, none⟩ c)) := hg.solid (h.solid hd he)
  have hnil : Closes [] := by rintro _ ⟨⟩
  -- The word WHERE and its blanks end in front of the first piece.
  have hall : Token.Separate .mySql
      (headTokens whereClause ++ tokensOf .mySql (pieces ⟨s, true, none⟩ c)) [] := by
    refine Token.Separate.append_iff.2 ⟨?_, hs.separate hnil⟩
    cases whereClause with
    | false => trivial
    | true =>
      have hw : (⟨.ident, "WHERE"⟩ : Token).Ends .mySql [] := ⟨_, _, rfl, rfl⟩
      exact ⟨Solid.ends_blank ⟨'W', rfl, rfl⟩, Solid.ends_word hw ⟨_, rfl, rfl⟩ _,
        Solid.ends_blank (hs.head_append _), trivial⟩
  have ht := hall.tokenize_append
  rw [List.append_nil, Token.tokenize_nil, List.append_nil, Token.textOf_append,
    Piece.textOf_tokensOf] at ht
  have hhead : Token.textOf (headTokens whereClause) = (if whereClause then " WHERE " else [] : Text) := by
    cases whereClause <;> rfl
  rw [hhead] at ht
  rw [← ht]
  exact congrArg _ (eval_clause ⟨s, true, none⟩ _ ho)

end Condition

open Condition in
/-- Two conditions that differ in nothing but the texts that their fields are compared with are cut
into the same tokens, apart from string literals, and the literals are their texts in order. -/
theorem Source.conditions_alike (s : Source) (hd : s.dialect = .mySql) (he : s.escaper = none)
    {c c' : Condition} (h : c.ComparesFields) (h' : c'.ComparesFields)
    (hcc : c.emptyTexts = c'.emptyTexts) (whereClause : Bool) :
    let tokens (c : Condition) :=
      Token.tokenize s.dialect (s.eval (s.conditions c true whereClause none))
    List.Forall₂ Token.Alike (tokens c) (tokens c') ∧
      Token.literals (tokens c) = c.texts.map (fun t => ⟨.str, s.quoteString t⟩) ∧
      Token.literals (tokens c') = c'.texts.map (fun t => ⟨.str, s.quoteString t⟩) := by
  intro tokens
  have ht : ∀ {c : Condition}, c.ComparesFields →
      tokens c = headTokens whereClause ++ tokensOf .mySql (pieces ⟨s, true, none⟩ c) := by
    intro c h
    exact (congrArg (Token.tokenize · _) hd).trans (tokenize_conditions hd he h whereClause)
  have hl : ∀ {c : Condition}, c.ComparesFields →
      Token.literals (tokens c) = c.texts.map (Token.literal s) := by
    intro c h
    have hhead : Token.literals (headTokens whereClause) = [] := by cases whereClause <;> rfl
    rw [ht h, ← h.literals hd he]
    exact (List.filter_append _ _).trans (congrArg (· ++ _) hhead)
  refine ⟨?_, hl h, hl h'⟩
  rw [ht h, ht h']
  exact List.rel_append (Piece.alike_refl _)
    (Piece.forall₂_alike (map_shape_pieces hcc _) (alike_leaves hd he h h' hcc))

open Condition in
theorem Source.conditions_alike_escaped :
    let condition (t t' : Text) : Condition := .entries
      [("OR", .group (.all [.entries [("User.name LIKE", .compare (.one (.text t)))],
        .entries [("age  >=", .compare (.one (.text t')))]]))]
    let c := condition "a" "b"
    let c' := condition "a' OR '1'='1" "\\"
    let tokens (c : Condition) := Token.tokenize .mySql (({} : Source).eval (({} : Source).conditions c true true none))
    c.ComparesFields ∧ c'.ComparesFields ∧ c.emptyTexts = c'.emptyTexts ∧
      List.Forall₂ Token.Alike (tokens c) (tokens c') ∧
        Token.literals (tokens c) = [⟨.str, "'a'"⟩, ⟨.str, "'b'"⟩] ∧
        Token.literals (tokens c') = [⟨.str, "'a\\' OR \\'1\\'=\\'1'"⟩, ⟨.str, "'\\\\'"⟩] := by
  intro condition c c' tokens
  have hf : ∀ t t', isDeferredMarker t = false → isDeferredMarker t' = false →
      (condition t t').ComparesFields := by
    intro t t' ht ht'
    have hname : IsFieldKey "User.name LIKE" :=
      ⟨"User.name", .inr (by decide), .inr ⟨" ", "LIKE", by simp, by simp [isBlank], by decide, rfl⟩⟩
    have hage : IsFieldKey "age  >=" :=
      ⟨"age", .inl (by decide), .inr ⟨"  ", ">=", by simp, by simp [isBlank], by decide, rfl⟩⟩
    have hkn : Key.isConnective "User.name LIKE" = false := by decide
    have hka : Key.isConnective "age  >=" = false := by decide
    exact ⟨rfl, List.forall_mem_cons.2 ⟨⟨hname, hkn⟩, List.forall_mem_singleton.2 ⟨hage, hka⟩⟩,
      List.forall_mem_cons.2 ⟨ht, List.forall_mem_singleton.2 ht'⟩⟩
  have hc := hf "a" "b" (by decide) (by decide)
  have hc' := hf "a' OR '1'='1" "\\" (by decide) (by decide)
  exact ⟨hc, hc', rfl, Source.conditions_alike {} rfl rfl hc hc' rfl true⟩

end SqlComposer
