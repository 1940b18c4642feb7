import SqlComposer.Proofs.AssociationTie
import SqlComposer.Proofs.KeyCuts
import SqlComposer.Proofs.SolidTokens

/-!
# Lists of values

A field with a list of values is tested for membership. Under a plain field, with an operator for
lists or without one, `membershipTest` says what is written for every length of the list. A list of
one value may be written without splitting its key: then it is compared with `askedField`, which is
the field of the key where the operator is an equals sign, and has the operator in it otherwise.
-/

namespace SqlComposer

open CharClass Identifier

namespace Key

variable {d : Dialect} {key : Text}

/-! ### Parts of keys -/

/-- Whether a blank or a comparison sign stands at a place of a text. -/
def IsCut (t : Text) (n : Nat) : Prop :=
  ∃ c cs, t.drop n = c :: cs ∧ (isBlank c = true ∨ isComparisonSign c = true)

theorem isCut_of_token {u : Token} {after : Text} (hu : u.Ends d after)
    (hk : Divides u) (before : Text) :
    IsCut (before ++ (u.text ++ after)) before.length := by
  obtain ⟨c, cs, ht, -⟩ := id hu
  refine ⟨c, cs ++ after, by rw [List.drop_left, ht, List.cons_append], ?_⟩
  refine hk.imp (fun hk => (hu.isBlank_head (by rw [ht]; rfl)).2 hk) fun hk => ?_
  rw [isComparison, Bool.and_eq_true, List.all_eq_true] at hk
  exact hk.2 c (ht ▸ List.mem_cons_self)

/-- A key that is cut is cut at a blank or a comparison sign. -/
theorem split_eq_cutAt (d : Dialect) (key : Text) :
    split d key = (Text.trim key, []) ∨
      ∃ n, IsCut (Text.trim key) n ∧ split d key = cutAt n (Text.trim key) := by
  refine (split_eq_cutAt_token d key).imp_right ?_
  rintro ⟨us, t, vs, hts, -, ht, hs⟩
  have hsep := Token.separate_tokenize d (Text.trim key)
  rw [hts] at hsep
  have hcut := isCut_of_token (Token.Separate.append_iff.1 hsep).2.1 ht (Token.textOf us)
  rw [List.append_nil] at hcut
  rw [← Token.textOf_cons, ← Token.textOf_append, ← hts, Token.textOf_tokenize] at hcut
  exact ⟨_, hcut, hs⟩

/-! ### The field that a list of one value is compared with -/

/-- The field that a key with a list of one value asks for: the key without an equals sign at its
end. -/
def askedField (key : Text) : Text :=
  match Text.before? "=" (Text.trim key) with
  | some f => Text.trimEnd f
  | none => Text.trim key

theorem askedField_of_eq_append {x : Text} (h : Text.trim key = x ++ ['=']) :
    askedField key = Text.trimEnd x := by
  have hb : Text.before? "=" (x ++ ['=']) = some x := Text.before?_append x ['=']
  rw [askedField, h, hb]

theorem askedField_of_not_suffix (h : ¬['='] <:+ Text.trim key) :
    askedField key = Text.trim key := by
  have hb : Text.before? "=" (Text.trim key) = none := Text.before?_eq_none h
  rw [askedField, hb]

/-- Behind an equals sign it is the field of the key. -/
theorem askedField_of_equals (h : (split d key).2 = ['=']) : askedField key = (split d key).1 := by
  obtain ⟨gap, hgap, hk, hf, -⟩ := exists_split d key
  rw [h] at hk
  rw [askedField_of_eq_append hk, Text.trimEnd_append_of_blank hgap,
    Text.trimEnd_of_getLast? (Text.ends_of_trim hf).2]

theorem split_fst_of_empty (h : (split d key).2 = []) : (split d key).1 = Text.trim key := by
  obtain ⟨gap, hgap, hk, hf, -⟩ := exists_split d key
  rw [h, List.append_nil] at hk
  have ht := (Text.ends_of_trim (Text.trim_trim key)).2
  rw [← Text.trimEnd_of_getLast? ht, hk, Text.trimEnd_append_of_blank hgap,
    Text.trimEnd_of_getLast? (Text.ends_of_trim hf).2]

/-- Another operator, or what is in front of an equals sign at its end, becomes part of it. -/
theorem askedField_of_operator (hn : (split d key).2 ≠ []) (he : (split d key).2 ≠ ['=']) :
    ∃ gap kept, (∀ c ∈ gap, isBlank c = true) ∧ kept ≠ [] ∧ kept <+: (split d key).2 ∧
      askedField key = (split d key).1 ++ gap ++ kept := by
  obtain ⟨gap, hgap, hk, -, hop⟩ := exists_split d key
  by_cases hs : ['='] <:+ (split d key).2
  · -- The equals sign is cut off, and the blanks in front of it.
    obtain ⟨kept, hkept⟩ := hs
    rw [← hkept, ← List.append_assoc] at hk
    obtain ⟨c, cs, hc⟩ : ∃ c cs, kept = c :: cs := by
      refine List.exists_cons_of_ne_nil ?_
      rintro rfl
      exact he hkept.symm
    have hb : isBlank c = false := (Text.ends_of_trim hop).1 c (by rw [← hkept, hc]; rfl)
    have hne : Text.trimEnd kept ≠ [] := Text.trimEnd_ne_nil (hc ▸ List.mem_cons_self) hb
    refine ⟨gap, Text.trimEnd kept, hgap, hne, ?_, ?_⟩
    · rw [← hkept]
      exact (Text.isPrefix_trimEnd kept).trans (List.prefix_append _ _)
    · rw [askedField_of_eq_append hk, Text.trimEnd_append_of_ne_nil hne]
  · -- Nothing is cut off.
    have hk' : ¬['='] <:+ Text.trim key := by
      rintro ⟨x, hx⟩
      rw [hk] at hx
      obtain ⟨y, e, hy⟩ := (List.eq_nil_or_concat' (split d key).2).resolve_left hn
      rw [hy, ← List.append_assoc] at hx
      obtain ⟨-, rfl⟩ := List.append_singleton_inj.1 hx
      exact hs ⟨y, hy.symm⟩
    exact ⟨gap, _, hgap, hn, List.prefix_rfl, by rw [askedField_of_not_suffix hk', hk]⟩

/-- A list of one value is compared with the field of the key only under an equals sign, or without
an operator if the field ends in none. -/
theorem askedField_eq_iff (d : Dialect) (key : Text) : askedField key = (split d key).1 ↔
    (split d key).2 = ['='] ∨ (split d key).2 = [] ∧ ¬['='] <:+ (split d key).1 := by
  constructor
  · intro h
    by_cases he : (split d key).2 = ['=']
    · exact .inl he
    · by_cases hn : (split d key).2 = []
      · refine .inr ⟨hn, ?_⟩
        rw [split_fst_of_empty hn] at h ⊢
        rintro ⟨x, hx⟩
        have hl := Text.length_trimEnd_le x
        rw [askedField_of_eq_append hx.symm, ← hx] at h
        rw [h, List.length_append, List.length_singleton] at hl
        omega
      · obtain ⟨gap, kept, -, hkept, -, hk⟩ := askedField_of_operator hn he
        rw [hk, List.append_assoc, List.append_right_eq_self, List.append_eq_nil_iff] at h
        exact absurd h.2 hkept
  · rintro (he | ⟨hn, hs⟩)
    · exact askedField_of_equals he
    · rw [split_fst_of_empty hn] at hs ⊢
      exact askedField_of_not_suffix hs

/-! ### Operators for lists -/

/-- The operators that test for membership. -/
def listOperators : List Text :=
  ["=", "IN", "!=", "<>", "NOT IN"]

/-- Whether an operator asks for what is not in a list. -/
def excludes (op : Text) : Bool :=
  ["!=".toList, "<>".toList, "NOT IN".toList].contains op

/-- Whether a key is a field alone, or a field, a blank and an operator for lists. -/
def IsListKey (f op key : Text) : Prop :=
  op = [] ∧ key = f ∨
    op ∈ listOperators ∧ ∃ gap, gap ≠ [] ∧ (∀ c ∈ gap, isBlank c = true) ∧ key = f ++ gap ++ op

theorem tight_of_mem_listOperators {op : Text} (h : op ∈ listOperators) : op.Tight := by
  simp only [listOperators, List.mem_cons, List.not_mem_nil, or_false] at h
  rcases h with rfl | rfl | rfl | rfl | rfl <;> exact ⟨⟨_, rfl, rfl⟩, ⟨_, rfl, rfl⟩⟩

/-- A word behind a blank at the end of a key decides how a list of one value is written. -/
theorem isPlainMembership_append {front word : Text} {c : Char} (hc : isBlank c = true)
    (hw : word ≠ []) (hb : ∀ e ∈ word, isBlank e = false) :
    isPlainMembership (front ++ c :: word) =
      !(Text.asciiUpper word == "NOT" || Text.asciiUpper word == "IN" ||
        Text.asciiUpper word == "!=" || Text.asciiUpper word == "<>") := by
  have ht : Text.trimEnd (front ++ c :: word) = front ++ c :: word := by
    refine Text.trimEnd_of_getLast? fun e he => ?_
    rw [List.append_cons, List.getLast?_append_of_ne_nil _ hw] at he
    exact hb e (List.mem_of_getLast? he)
  have hup : isBlank c.toUpper = true := (isBlank_toUpper c).trans hc
  have hcut : Text.cutLast isBlank (Text.asciiUpper (front ++ c :: word)) =
      some (Text.asciiUpper front, Text.asciiUpper word) := by
    have hbu : ∀ e ∈ Text.asciiUpper word, isBlank e = false := by
      intro e he
      obtain ⟨a, ha, rfl⟩ := List.mem_map.1 he
      rw [isBlank_toUpper, hb a ha]
    rw [Text.asciiUpper, List.map_append, List.map_cons]
    exact Text.cutLast_append hup hbu
  rw [isPlainMembership, ht, hcut]

/-- Of the words that end an operator for lists, only the equals sign leaves the list as it is. -/
theorem isPlainMembership_of_last {front word : Text} {c : Char} (hc : isBlank c = true)
    (hw : word ∈ ["=".toList, "IN".toList, "!=".toList, "<>".toList]) :
    isPlainMembership (front ++ c :: word) = decide (word = ['=']) := by
  have hwords : ∀ w ∈ ["=".toList, "IN".toList, "!=".toList, "<>".toList],
      w ≠ [] ∧ w.any isBlank = false ∧
        (!(Text.asciiUpper w == "NOT" || Text.asciiUpper w == "IN" ||
          Text.asciiUpper w == "!=" || Text.asciiUpper w == "<>")) = decide (w = ['=']) := by
    decide
  obtain ⟨hn, hb, hv⟩ := hwords word hw
  have hb : ∀ e ∈ word, isBlank e = false := by simpa using hb
  rw [isPlainMembership_append hc hn hb, hv]

/-- Without an equals sign, an operator for what is in a list is `IN`. -/
theorem eq_in_of_excludes : ∀ op ∈ [] :: listOperators, ¬(op = [] ∨ op = ['=']) →
    excludes op = false → op = "IN".toList := by
  decide

namespace IsListKey

variable {f op : Text}

theorem mem (h : IsListKey f op key) : op ∈ [] :: listOperators := by
  rcases h with ⟨rfl, -⟩ | ⟨ho, -⟩
  · exact List.mem_cons_self
  · exact List.mem_cons_of_mem _ ho

theorem split (h : IsListKey f op key) (hf : IsPath f) : Key.split d key = (f, op) := by
  have ho : ∀ op ∈ listOperators, isKnownOperator op = true := by decide
  rcases h with ⟨rfl, rfl⟩ | ⟨hop, gap, hg, hb, rfl⟩
  · exact split_of_isPath hf
  · exact split_append_of_isOperator hf hg hb (tight_of_mem_listOperators hop) (.inl (ho op hop))

theorem count (h : IsListKey f op key) (hf : IsPath f) : Placeholder.count d key = (0, 0) := by
  have hn : ∀ op ∈ listOperators, '?' ∉ op ∧ ':' ∉ op := by decide
  rcases h with ⟨-, rfl⟩ | ⟨ho, gap, -, hgap, rfl⟩
  · exact Placeholder.count_of_isPath d hf
  · obtain ⟨hq, hc⟩ := hn op ho
    exact Placeholder.count_append d hf hgap hq hc

/-- Such a key is a connective only if it is a field that is one. -/
theorem isConnective (h : IsListKey f op key) (hc : Key.isConnective f = false) (hf : IsPath f) :
    Key.isConnective key = false := by
  rcases h with ⟨-, rfl⟩ | ⟨ho, gap, -, -, rfl⟩
  · exact hc
  · have htight := tight_of_mem_listOperators ho
    rw [Key.isConnective, (hf.tight.append htight gap).trim]
    by_contra hn
    have hm := List.contains_iff_mem.1 (Bool.not_eq_false _ ▸ hn)
    -- No connective ends as an operator does.
    have hlast : ∀ k ∈ connectives, ∀ op ∈ listOperators,
        (Text.asciiLower op).getLast? ≠ k.getLast? := by decide
    have hne : Text.asciiLower op ≠ [] := by
      obtain ⟨c, hc, -⟩ := htight.head
      intro hnil
      rw [List.map_eq_nil_iff.1 hnil] at hc
      cases hc
    refine hlast _ hm op ho ?_
    rw [Text.asciiLower_append, List.getLast?_append_of_ne_nil _ hne]

theorem isPlainMembership (h : IsListKey f op key) (hf : IsPath f) :
    Key.isPlainMembership key = decide (op = [] ∨ op = ['=']) := by
  rcases h with ⟨rfl, rfl⟩ | ⟨ho, gap, hg, hgap, rfl⟩
  · exact isPlainMembership_of_isPath hf
  · obtain ⟨gap, c, rfl⟩ := (List.eq_nil_or_concat' gap).resolve_left hg
    have hc : isBlank c = true := hgap c (by simp)
    have hin : f ++ (gap ++ [c]) ++ "NOT IN" = (f ++ gap ++ [c] ++ "NOT") ++ ' ' :: "IN" := by simp
    have hword : f ++ (gap ++ [c]) ++ op = (f ++ gap) ++ c :: op := by simp
    simp only [listOperators, List.mem_cons, List.not_mem_nil, or_false] at ho
    rcases ho with rfl | rfl | rfl | rfl | rfl
    case inr.inr.inr.inr =>
      rw [hin, isPlainMembership_of_last rfl (by simp)]
      rfl
    all_goals
      rw [hword, isPlainMembership_of_last hc (by simp)]
      rfl

theorem askedField (d : Dialect) (h : IsListKey f op key) (hf : IsPath f)
    (hop : op = [] ∨ op = ['=']) : Key.askedField key = f := by
  have hend : ¬['='] <:+ f := fun hs => hf.not_mem (by decide) (hs.subset List.mem_cons_self)
  have hasked := askedField_eq_iff d key
  rw [h.split hf] at hasked
  exact hasked.2 (hop.symm.imp_right fun h => ⟨h, hend⟩)

end IsListKey

end Key

/-! ### Texts of comparisons -/

namespace Condition

variable {sc : Scope} {key field op : Text}

/-- A field with an operator and a list of values in parentheses. -/
def listText (sc : Scope) (field op : Text) (vs : List Value) : Text :=
  sc.source.eval (sc.fieldOrVirtual field) ++ " " ++ op ++ " (" ++
    Text.join ", " (sc.source.eval (sc.source.values vs (sc.columnType field))) ++ ")"

theorem membershipValue_one (d : Dialect) (key : Text) (v : Value) :
    membershipValue d key (.many [v]) =
      if !((Placeholder.count d key).1 == 1 || (Placeholder.count d key).2 == 1) &&
        Key.isPlainMembership key then some v else none := rfl

/-- A list of one value, where its key asks for a field. -/
theorem eval_membership (sc : Scope) (key : Text) (v : Value) :
    sc.source.eval (membership sc key v) = listText sc (Key.askedField key) "=" [v] := by
  simp only [membership, listText, Source.eval, Render.bind_eq_bind,
    Render.eval_bind, Render.pure_eq_done, Render.eval_done, List.append_assoc]
  rfl

/-- A list of one value under a key that is no connective. Where `askedField` finds the field of the
key, this is written as it is for a single value, whether that is compared or goes to a placeholder;
where there is another operator, the list is compared with the field and the operator together. -/
theorem leaf_one_value (sc : Scope) {key : Text} {v : Value} (hk : Key.isConnective key = false)
    (hm : membershipValue sc.source.dialect key (.many [v]) = some v) :
    let field := (Key.split sc.source.dialect key).1
    let op := (Key.split sc.source.dialect key).2
    sc.source.eval (leaf sc key (.many [v])) = some (listText sc (Key.askedField key) "=" [v]) ∧
      (Key.askedField key = field ↔ op = ['='] ∨ op = [] ∧ ¬['='] <:+ field) ∧
      (op = ['='] ∨ op = [] → ∀ w,
        let fieldText := sc.source.eval (sc.fieldOrVirtual field)
        let valueText := sc.source.eval (sc.source.value w (sc.columnType field))
        let sign : Text := if w.isNull || valueText == "NULL" then "IS" else "="
        sc.source.eval (leaf sc key (.one w)) = some
          (if bindsKey sc.source.dialect key (.one w) then
            Placeholder.bind sc.source.dialect (Text.trimEnd (fieldText ++ " " ++ op)) [valueText]
          else fieldText ++ " " ++ sign ++ " " ++ valueText)) ∧
      (op ≠ ['='] → op ≠ [] → ∃ gap kept, (∀ c ∈ gap, isBlank c = true) ∧ kept ≠ [] ∧
        kept <+: op ∧ Key.askedField key = field ++ gap ++ kept) := by
  intro field op
  have hk : ¬Key.isConnective key = true := by simp [hk]
  refine ⟨?_, Key.askedField_eq_iff _ _, ?_, fun he hn => Key.askedField_of_operator hn he⟩
  · rw [eval_leaf hk, comparisonText_of_membership hk hm, eval_membership]
  · intro hop w fieldText valueText sign
    have hsigns : ¬Text.sameLetters op "not" = true ∧ effectiveOperator op false = "=".toList := by
      rcases hop with hop | hop <;> rw [hop] <;> decide
    rw [eval_leaf hk, comparisonText_of_comparison hk rfl hsigns.1, eval_comparison,
      eval_write_one, compareText, hsigns.2]
    have hsign : (if isMissing (.one w) || valueText == "NULL" then nullOperator "=" else "=") =
        sign := rfl
    rw [hsign]
    rfl

theorem leaf_one_value_virtual :
    let posts : Model := { name := "Post", virtualFields := .ofList [("two", "Post.x + 1")] }
    let sc : Scope := ⟨{}, true, some posts⟩
    Key.isConnective "Post.two =" = false ∧
      membershipValue .mySql "Post.two =" (.many [.natural 2]) = some (.natural 2) ∧
      Key.askedField "Post.two =" = (Key.split .mySql "Post.two =").1 ∧
      sc.source.eval (leaf sc "Post.two =" (.many [.natural 2])) =
        some "(\x60Post\x60.\x60x\x60 + 1) = (2)".toList := by
  intro posts sc
  have hk : Key.isConnective "Post.two =" = false := by decide +kernel
  have hm : membershipValue .mySql "Post.two =" (.many [.natural 2]) = some (.natural 2) := by
    rw [membershipValue_one]
    exact if_pos (by decide +kernel)
  obtain ⟨hleaf, hfield, -⟩ := leaf_one_value sc hk hm
  refine ⟨hk, hm, hfield.2 (.inl (by decide +kernel)), hleaf.trans ?_⟩
  decide +kernel

/-- An operator that is not for lists is taken for a part of the field if the list has one value
only. -/
theorem operator_taken_for_field :
    let sc : Scope := ⟨{}, true, none⟩
    Key.isConnective "age >" = false ∧ Key.split .mySql "age >" = ("age".toList, ">".toList) ∧
      membershipValue .mySql "age >" (.many [.natural 5]) = some (.natural 5) ∧
      sc.source.eval (leaf sc "age >" (.many [.natural 5])) = some "age > = (5)".toList ∧
      sc.source.eval (leaf sc "age >" (.many [.natural 5])) ≠
        some (listText sc "age" ">" [.natural 5]) ∧
      sc.source.eval (leaf sc "age >" (.many [.natural 5, .natural 6])) =
        some (listText sc "age" ">" [.natural 5, .natural 6]) := by
  intro sc
  have hm : membershipValue .mySql "age >" (.many [.natural 5]) = some (.natural 5) := by
    rw [membershipValue_one]
    exact if_pos (by decide +kernel)
  exact ⟨by decide +kernel, by decide +kernel, hm, by decide +kernel, by decide +kernel,
    by decide +kernel⟩

/-! ### Lists under plain fields -/

/-- A test for membership as it is written, by the length of the list. -/
def membershipTest (field op : Text) : List Text → Text
  | [] => field ++ if Key.excludes op then " IS NOT NULL" else " IS NULL"
  | [v] =>
    field ++
      (if Key.excludes op then " NOT IN (" else if op = "IN".toList then " IN (" else " = (") ++
      v ++ ")"
  | vs => field ++ (if Key.excludes op then " NOT IN (" else " IN (") ++ Text.join ", " vs ++ ")"

/-- What the operators for lists become, in front of NULL and in front of a list. -/
theorem operators_of_list : ∀ op ∈ [] :: Key.listOperators,
    nullOperator (effectiveOperator op false) =
        (if Key.excludes op then "IS NOT".toList else "IS".toList) ∧
      listOperator (effectiveOperator op true) =
        (if Key.excludes op then "NOT IN".toList else "IN".toList) ∧
      List.isSuffixOf "BETWEEN" (Text.asciiUpper (effectiveOperator op true)) = false ∧
      ¬Text.sameLetters op "not" = true := by
  decide

theorem compareText_missing (h : op ∈ [] :: Key.listOperators) (field : Text) :
    compareText field op true (.one "NULL") = membershipTest field op [] := by
  rw [compareText, membershipTest, Bool.true_or, if_pos rfl, (operators_of_list op h).1]
  split <;> simp

/-- No operator for lists makes two values the ends of a range. -/
theorem compareText_many (h : op ∈ [] :: Key.listOperators) (field : Text) (missing : Bool)
    (ts : List Text) : compareText field op missing (.many ts) =
      field ++ (if Key.excludes op then " NOT IN (" else " IN (") ++ Text.join ", " ts ++ ")" := by
  obtain ⟨-, hlist, hbetween, -⟩ := operators_of_list op h
  have hjoin : ∀ a b : Text, Text.join ", " [a, b] = a ++ ", " ++ b := fun a b => by
    rw [Text.join_cons_cons, Text.join_singleton]
  by_cases hts : ∃ a b, ts = [a, b]
  · obtain ⟨a, b, rfl⟩ := hts
    rw [compareText, if_neg (by rw [hbetween]; exact Bool.false_ne_true), hlist, hjoin]
    split <;> simp
  · rw [compareText, hlist]
    · split <;> simp
    · exact fun a b h => hts ⟨a, b, h⟩

section ListKey

variable {f : Text} {v : Value}

theorem membershipValue_of_isListKey (d : Dialect) (hf : IsPath f) (hk : Key.IsListKey f op key) :
    membershipValue d key (.many [v]) = if op = [] ∨ op = ['='] then some v else none := by
  rw [membershipValue_one, hk.count hf, hk.isPlainMembership hf]
  split <;> simp_all

/-- Unless it writes a list of one value, such a key is split. -/
theorem comparisonText_of_isListKey (hf : IsPath f) (hc : Key.isConnective f = false)
    (hk : Key.IsListKey f op key) {x : Comparand}
    (hm : membershipValue sc.source.dialect key x = none) :
    comparisonText sc key x =
      compareText (sc.source.eval (sc.fieldOrVirtual f)) op (isMissing x)
        (sc.source.eval (write sc (sc.columnType f) x)) := by
  have hconn : ¬Key.isConnective key = true := by simp [hk.isConnective hc hf]
  have hsplit := hk.split (d := sc.source.dialect) hf
  have hnot : ¬Text.sameLetters (Key.split sc.source.dialect key).2 "not" = true := by
    rw [hsplit]
    exact (operators_of_list op hk.mem).2.2.2
  have hbind : bindsKey sc.source.dialect key x = false := by
    cases x <;> rw [bindsKey, hk.count hf] <;> rfl
  rw [comparisonText_of_comparison hconn hm hnot, eval_comparison, hbind,
    if_neg Bool.false_ne_true, hsplit]

/-- How a list is compared with a field, by the operator for lists behind it or without one. -/
theorem comparisonText_list (hf : IsPath f) (hc : Key.isConnective f = false)
    (hk : Key.IsListKey f op key) (vs : List Value) :
    comparisonText sc key (.many vs) =
      membershipTest (sc.source.eval (sc.fieldOrVirtual f)) op
        (sc.source.eval (sc.source.values vs (sc.columnType f))) := by
  match vs with
  | [] =>
    rw [comparisonText_of_isListKey hf hc hk rfl]
    exact compareText_missing hk.mem _
  | [v] =>
    have hm := membershipValue_of_isListKey sc.source.dialect (v := v) hf hk
    obtain ⟨t, ht⟩ : ∃ t, sc.source.eval (sc.source.values [v] (sc.columnType f)) = [t] :=
      ⟨_, sc.source.eval_values [v] _⟩
    rw [ht, membershipTest]
    -- Without an operator, and behind an equals sign, one value is asked for as a member.
    by_cases hplain : op = [] ∨ op = ['=']
    · have hconn : ¬Key.isConnective key = true := by simp [hk.isConnective hc hf]
      rw [if_pos hplain] at hm
      rw [comparisonText_of_membership hconn hm, eval_membership,
        hk.askedField sc.source.dialect hf hplain, listText, ht, Text.join_singleton]
      rcases hplain with rfl | rfl <;> simp [Key.excludes]
    · rw [if_neg hplain] at hm
      rw [comparisonText_of_isListKey hf hc hk hm, eval_write_cons, compareText_many hk.mem, ht,
        Text.join_singleton]
      cases he : Key.excludes op with
      | true => rfl
      | false => rw [if_pos (Key.eq_in_of_excludes op hk.mem hplain he)]
  | v :: w :: vs =>
    rw [comparisonText_of_isListKey hf hc hk rfl, eval_write_cons, compareText_many hk.mem,
      Source.eval_values]
    rfl

end ListKey

end Condition

namespace Source

open Condition

variable {f op key : Text}

/-- A plain field as it is written: between quotes, or the expression of a virtual field in
parentheses. -/
def fieldText (s : Source) (model : Option Model) (f : Text) : Text :=
  match model.bind fun m => m.virtualField f with
  | some sql => "(" ++ quoteFields s.dialect sql ++ ")"
  | none => s.dialect.quoteName f

theorem eval_fieldOrVirtual (s : Source) (model : Option Model) (hf : IsPath f) :
    s.eval ((⟨s, true, model⟩ : Scope).fieldOrVirtual f) = s.fieldText model f := by
  rw [fieldText, Scope.fieldOrVirtual, Scope.virtualField]
  cases model.bind fun m => m.virtualField f with
  | some sql => rfl
  | none =>
    dsimp only
    rw [Scope.field_of_isPath hf rfl]
    rfl

/-- A condition of one comparison. -/
theorem eval_conditions_compare (s : Source) (hk : Key.isConnective key = false) (x : Comparand)
    (quoting whereClause : Bool) (model : Option Model) :
    s.eval (s.conditions (.entries [(key, .compare x)]) quoting whereClause model) =
      (if whereClause then " WHERE ".toList else []) ++
        comparisonText ⟨s, quoting, model⟩ key x := by
  have hj : Key.joint? key = none := by simpa [Key.isConnective_eq] using hk
  have hp : pieces ⟨s, quoting, model⟩ (.entries [(key, .compare x)]) =
      [.leaf (comparisonText ⟨s, quoting, model⟩ key x)] := by
    rw [pieces, writtenRows, rows, entryRows, entryRows, operandRow, hj]
    exact Piece.chain_singleton .and _
  have hc := eval_clause ⟨s, quoting, model⟩ (if whereClause then " WHERE " else [])
    (show ownClause? (.entries [(key, .compare x)]) = none from rfl)
  rw [hp, textOf_leaf] at hc
  exact hc

/-- A list of values under a plain field, with an operator for lists or without one. -/
theorem conditions_list (s : Source) (hf : isIdentifier f = true ∨ isQualified f = true)
    (hc : Key.isConnective f = false) (hk : Key.IsListKey f op key) (model : Option Model)
    (whereClause : Bool) (vs : List Value) :
    s.eval (s.conditions (.entries [(key, .compare (.many vs))]) true whereClause model) =
      (if whereClause then " WHERE ".toList else []) ++
        membershipTest (s.fieldText model f) op
          (s.eval (s.values vs (model.bind fun m => m.columnType f))) := by
  have hp : IsPath f := hf.elim (fun h => isPath_of_isWord (isWord_of_isIdentifier h))
    isPath_of_isQualified
  rw [eval_conditions_compare s (hk.isConnective hc hp), comparisonText_list hp hc hk,
    eval_fieldOrVirtual s model hp]
  rfl

theorem conditions_list_virtual :
    let posts : Model := { name := "Post", virtualFields := .ofList [("two", "Post.x + 1")] }
    let excluded (vs : List Value) : Text := ({} : Source).eval (({} : Source).conditions
      (.entries [("Post.two  NOT IN", .compare (.many vs))]) true true (some posts))
    isQualified "Post.two" = true ∧ Key.isConnective "Post.two" = false ∧
      Key.IsListKey "Post.two" "NOT IN" "Post.two  NOT IN" ∧
      excluded [] = " WHERE (\x60Post\x60.\x60x\x60 + 1) IS NOT NULL".toList ∧
      excluded [.natural 2] = " WHERE (\x60Post\x60.\x60x\x60 + 1) NOT IN (2)".toList ∧
      excluded [.natural 2, .natural 3] =
        " WHERE (\x60Post\x60.\x60x\x60 + 1) NOT IN (2, 3)".toList := by
  intro posts excluded
  have hf : isQualified "Post.two" = true := by decide +kernel
  have hc : Key.isConnective "Post.two" = false := by decide +kernel
  have hk : Key.IsListKey "Post.two" "NOT IN" "Post.two  NOT IN" :=
    .inr ⟨by simp [Key.listOperators], "  ", by simp, by simp [isBlank], rfl⟩
  have hlist := conditions_list {} (.inr hf) hc hk (some posts) true
  exact ⟨hf, hc, hk, (hlist _).trans (by decide +kernel), (hlist _).trans (by decide +kernel),
    (hlist _).trans (by decide +kernel)⟩

end Source

end SqlComposer
