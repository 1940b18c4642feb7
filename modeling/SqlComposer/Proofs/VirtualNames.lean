import SqlComposer.Proofs.Negation
import SqlComposer.Proofs.OrderedMap
import SqlComposer.Proofs.Placeholder

/-!
# Spellings of virtual fields

A virtual field may be qualified by the alias of its model. In a key of a condition an operator may
stand behind it. The key is cut behind the field in both spellings, so what it is compared with
gives the same member, negated or not, and conditions that differ in such spellings give the same
clause.
-/

namespace SqlComposer

open CharClass Identifier

/-! ### Names behind dots -/

theorem beq_dot_of_not_mem {t : Text} (h : '.' ∉ t) : ∀ c ∈ t, (c == '.') = false :=
  fun _ hc => beq_false_of_ne fun he => h (he ▸ hc)

theorem Text.afterLastDot_bare {t : Text} (h : '.' ∉ t) : afterLastDot t = t := by
  rw [afterLastDot, cutLast_eq_none_iff.2 (beq_dot_of_not_mem h)]

theorem Text.afterLastDot_qualify {label name : Text} (h : '.' ∉ name) :
    afterLastDot (Field.qualify label name) = name := by
  rw [afterLastDot, Field.qualify, cutLast_append rfl (beq_dot_of_not_mem h)]

/-! ### Spellings -/

namespace Model

theorem localNameOf_bare {own name : Text} (ht : Text.trim name = name) (h : '.' ∉ name) :
    localNameOf own name = some name := by
  rw [localNameOf, ht, Text.cutFirst_eq_none_iff.2 (beq_dot_of_not_mem h)]

theorem localNameOf_qualify {own name : Text}
    (ht : Text.trim (Field.qualify own name) = Field.qualify own name) (h : '.' ∉ own) :
    localNameOf own (Field.qualify own name) = some name := by
  rw [localNameOf, ht, Field.qualify, Text.cutFirst_append (beq_dot_of_not_mem h) rfl]
  exact if_pos rfl

variable {m : Model} {v f : Text}

/-- Whether a text names a virtual field of a model, where the names are identifiers. -/
structure NamesVirtual (m : Model) (v : Text) : Prop where
  isIdentifier_alias : isIdentifier m.aliasName = true
  isIdentifier : Identifier.isIdentifier v = true
  isConnective : Key.isConnective v = false
  mem : v ∈ m.virtualFields.keys

/-- Whether a text is a name of the model, qualified by its alias or not. -/
def Spells (m : Model) (v f : Text) : Prop :=
  f = v ∨ f = Field.qualify m.aliasName v

/-- Whether two texts are the same but for the spelling of a virtual field. -/
def Respells (m : Model) (v t t' : Text) : Prop :=
  t = t' ∨ m.Spells v t ∧ m.Spells v t'

theorem dot_not_mem (h : isIdentifier v = true) : '.' ∉ v := fun hd =>
  absurd (isNameChar_of_isWord (isWord_of_isIdentifier h) _ hd) (by decide)

namespace Spells

theorem isPath (hv : m.NamesVirtual v) (h : m.Spells v f) : IsPath f := by
  rcases h with rfl | rfl
  · exact isPath_of_isWord (isWord_of_isIdentifier hv.isIdentifier)
  · exact isPath_qualify hv.isIdentifier_alias hv.isIdentifier

theorem isConnective (hv : m.NamesVirtual v) (h : m.Spells v f) : Key.isConnective f = false := by
  rcases id h with rfl | rfl
  · exact hv.isConnective
  · exact Key.isConnective_of_dot (h.isPath hv) (by simp [Field.qualify])

/-- The alias is cut off. -/
theorem localNameOf (hv : m.NamesVirtual v) (h : m.Spells v f) :
    localNameOf m.aliasName f = some v := by
  have ht := (h.isPath hv).trim
  rcases h with rfl | rfl
  · exact localNameOf_bare ht (dot_not_mem hv.isIdentifier)
  · exact localNameOf_qualify ht (dot_not_mem hv.isIdentifier_alias)

theorem columnType (hv : m.NamesVirtual v) (h : m.Spells v f) :
    m.columnType f = (m.columns.get? v).map Column.type := by
  rw [Model.columnType, h.localNameOf hv]
  rfl

theorem virtualField (hv : m.NamesVirtual v) (h : m.Spells v f) :
    m.virtualField f = m.virtualFields.get? v := by
  rw [Model.virtualField, virtualFieldOf, h.localNameOf hv]
  rfl

theorem exists_virtualField (hv : m.NamesVirtual v) :
    ∃ sql, ∀ f, m.Spells v f → m.virtualField f = some sql := by
  obtain ⟨sql, hsql⟩ := OrderedMap.mem_keys_iff_get?.1 hv.mem
  exact ⟨sql, fun f hf => (hf.virtualField hv).trans hsql⟩

theorem afterLastDot (hv : m.NamesVirtual v) (h : m.Spells v f) : Text.afterLastDot f = v := by
  rcases h with rfl | rfl
  · exact Text.afterLastDot_bare (dot_not_mem hv.isIdentifier)
  · exact Text.afterLastDot_qualify (dot_not_mem hv.isIdentifier)

end Spells

end Model

/-! ### Keys -/

namespace Key

variable {d : Dialect} {f tail : Text}

/-- What may stand behind a field in a key: nothing, or blanks and an operator. -/
inductive Tail : Text → Prop where
  | nil : Tail []
  | operator {gap op : Text} (hg : gap ≠ []) (hb : ∀ c ∈ gap, isBlank c = true)
      (ho : IsOperator op) : Tail (gap ++ op)

/-- Trimmed, such a key is the field, blanks and the operator. -/
theorem Tail.exists_gap (hf : IsPath f) (h : Tail tail) (hn : tail ≠ []) :
    ∃ gap, gap ≠ [] ∧ (∀ c ∈ gap, isBlank c = true) ∧ (Text.trim tail).Tight ∧
      IsOperator (Text.trim tail) ∧ Text.trim (f ++ tail) = f ++ gap ++ Text.trim tail := by
  cases h with
  | nil => exact absurd rfl hn
  | @operator gap op hg hb ho =>
    rw [Text.trim_append_of_blank hb]
    obtain ⟨a, hop, ha⟩ := Text.exists_trimStart op
    obtain ⟨b, hend, hbb⟩ := Text.exists_trimEnd (Text.trimStart op)
    have hne : Text.trim op ≠ [] := by
      rw [← List.isEmpty_eq_false_iff, Text.isEmpty_trim]
      exact ho.blank
    have htight := Text.tight_trim hne
    have hkey : f ++ (gap ++ op) = f ++ (gap ++ a) ++ Text.trim op ++ b := by
      rw [Text.trim, List.append_assoc, ← hend, List.append_assoc, List.append_assoc, ← hop]
    refine ⟨gap ++ a, by simp [hg], List.forall_mem_append.2 ⟨hb, ha⟩, htight, ?_, ?_⟩
    · refine ho.imp (fun hk => ?_) fun hw => ⟨hne, fun c hc => hw.2 c (Text.mem_of_mem_trim hc)⟩
      rwa [isKnownOperator, Text.trim_trim]
    · rw [hkey, (hf.tight.append htight (gap ++ a)).trim_append hbb]

theorem split_trim (d : Dialect) (key : Text) : split d (Text.trim key) = split d key := by
  rw [split, Text.trim_trim, split]

/-- A key is split behind the field. -/
theorem split_append_tail (hf : IsPath f) (ht : Tail tail) :
    split d (f ++ tail) = (f, Text.trim tail) := by
  by_cases hn : tail = []
  · rw [hn, List.append_nil, split_of_isPath hf]
    rfl
  · obtain ⟨gap, hg, hgap, htight, hop, hkey⟩ := ht.exists_gap hf hn
    rw [← split_trim, hkey, split_append_of_isOperator hf hg hgap htight hop]

/-- Of the words of a connective the first is a connective. -/
theorem firstWord_mem_connectives : ∀ k ∈ connectives,
    k.takeWhile (fun c => !isBlank c) ∈ connectives := by
  decide

theorem isConnective_append_tail (hf : IsPath f) (hc : isConnective f = false) (ht : Tail tail) :
    isConnective (f ++ tail) = false := by
  by_cases hn : tail = []
  · rwa [hn, List.append_nil]
  · obtain ⟨gap, hg, hgap, -, -, hkey⟩ := ht.exists_gap hf hn
    obtain ⟨c, cs, rfl⟩ := List.exists_cons_of_ne_nil hg
    -- The first word of the key is the field, because a blank follows it.
    have hfirst : (Text.asciiLower (f ++ c :: cs ++ Text.trim tail)).takeWhile
        (fun c => !isBlank c) = Text.asciiLower f := by
      have hpath : ∀ e ∈ Text.asciiLower f, (!isBlank e) = true := by
        intro e he
        obtain ⟨a, ha, rfl⟩ := List.mem_map.1 he
        rw [isBlank_toLower, isBlank_of_isPathChar (hf.isPathChar ha), Bool.not_false]
      have hlower : Text.asciiLower (f ++ c :: cs ++ Text.trim tail) =
          Text.asciiLower f ++ c.toLower :: Text.asciiLower (cs ++ Text.trim tail) := by
        simp [Text.asciiLower]
      have hblank : isBlank c.toLower = true := by
        rw [isBlank_toLower, hgap c List.mem_cons_self]
      rw [hlower, List.takeWhile_append_of_pos hpath,
        List.takeWhile_cons_of_neg (by simp [hblank]), List.append_nil]
    rw [isConnective, hkey]
    by_contra hk
    have hk := firstWord_mem_connectives _ (List.contains_iff_mem.1 (Bool.not_eq_false _ ▸ hk))
    rw [hfirst] at hk
    rw [isConnective, hf.trim, List.contains_iff_mem.2 hk] at hc
    cases hc

end Key

/-! ### Placeholders -/

/-- Tokens that begin no placeholder are read as they are. -/
theorem Placeholder.ofTokens_append {us : List Token} (hq : ∀ u ∈ us, u ≠ question)
    (hc : ∀ u ∈ us, u ≠ colon) (vs : List Token) :
    ofTokens (us ++ vs) = (us.map fun u => .verbatim u.text) ++ ofTokens vs := by
  induction us with
  | nil => rfl
  | cons u us ih =>
    obtain ⟨hq, hqs⟩ := List.forall_mem_cons.1 hq
    obtain ⟨hc, hcs⟩ := List.forall_mem_cons.1 hc
    rw [List.cons_append, ofTokens_of_none hq (indexBehind_of_ne hc _), ih hqs hcs]
    rfl

/-- The placeholders of a key stand behind its field. -/
theorem Placeholder.count_append_tail (d : Dialect) {f tail : Text} (hf : IsPath f)
    (ht : Key.Tail tail) : count d (f ++ tail) = count d tail := by
  have hboundary : ∀ c ∈ tail.head?, isBoundary c = true := by
    cases ht with
    | nil => rintro _ ⟨⟩
    | @operator gap op hg hb ho =>
      rw [List.head?_append_of_ne_nil _ hg]
      exact fun c hc => isBoundary_of_isBlank (hb c (List.mem_of_mem_head? hc))
  have hne : ∀ c : Char, isPathChar c = false → ∀ u ∈ Token.tokenize d f, u ≠ ⟨.operator, [c]⟩ := by
    rintro c hc u hu rfl
    exact hf.not_mem hc (Token.mem_of_mem_tokenize hu List.mem_cons_self)
  have hscan : scan d (f ++ tail) =
      ((Token.tokenize d f).map fun u => .verbatim u.text) ++ scan d tail := by
    rw [scan, Token.tokenize_append_boundary (fun u hu => (Key.inert_of_mem hf hu).bare) hboundary]
    exact ofTokens_append (hne '?' (by decide)) (hne ':' (by decide)) _
  have hnext : ((Token.tokenize d f).map fun u => Placeholder.verbatim u.text).countP
      (· = .next) = 0 := by
    simp [List.countP_eq_zero]
  have hnumbered : ((Token.tokenize d f).map fun u => Placeholder.verbatim u.text).filterMap
      number? = [] := by
    simp [List.filterMap_eq_nil_iff, number?]
  simp only [count, hscan, List.countP_append, List.filterMap_append, hnext, hnumbered,
    Nat.zero_add, List.nil_append]

/-! ### Members -/

namespace Condition

open Model (NamesVirtual Spells)

variable {sc : Scope} {m : Model} {v f f' tail : Text} {x : Comparand}

theorem bindsKey_append_tail (d : Dialect) (hf : IsPath f) (ht : Key.Tail tail) (x : Comparand) :
    bindsKey d (f ++ tail) x = bindsKey d tail x := by
  simp only [bindsKey, Placeholder.count_append_tail d hf ht]

theorem membershipValue_eq_none (hx : ∀ w, x ≠ .many [w]) (d : Dialect) (key : Text) :
    membershipValue d key x = none := by
  match x with
  | .one _ => rfl
  | .many [] => rfl
  | .many [w] => exact absurd rfl (hx w)
  | .many (_ :: _ :: _) => rfl

theorem columnType_spelt (hm : sc.model = some m) (hv : m.NamesVirtual v) (hf : m.Spells v f) :
    sc.columnType f = (m.columns.get? v).map Column.type := by
  rw [Scope.columnType, hm]
  exact hf.columnType hv

/-- A virtual field is written as its expression. -/
theorem exists_fieldOrVirtual_spelt (hm : sc.model = some m) (hv : m.NamesVirtual v) :
    ∃ sql, ∀ f, m.Spells v f → sc.fieldOrVirtual f = pure ("(" ++ sc.raw sql ++ ")") := by
  obtain ⟨sql, hsql⟩ := Spells.exists_virtualField hv
  refine ⟨sql, fun f hf => ?_⟩
  have hvirtual : sc.virtualField f = some sql := by
    rw [Scope.virtualField, hm]
    exact hsql f hf
  rw [Scope.fieldOrVirtual, hvirtual]

/-- With an operator other than NOT, both spellings are compared alike. -/
theorem comparisonText_spelt (hm : sc.model = some m) (hv : m.NamesVirtual v)
    (hf : m.Spells v f) (hf' : m.Spells v f') (ht : Key.Tail tail)
    (hn : ¬Text.sameLetters (Text.trim tail) "not" = true) (hx : ∀ w, x ≠ .many [w]) :
    comparisonText sc (f ++ tail) x = comparisonText sc (f' ++ tail) x := by
  obtain ⟨sql, hsql⟩ := exists_fieldOrVirtual_spelt hm hv
  have htext : ∀ f, m.Spells v f → comparisonText sc (f ++ tail) x =
      let written := sc.source.eval (write sc ((m.columns.get? v).map Column.type) x)
      if bindsKey sc.source.dialect tail x then
        Placeholder.bind sc.source.dialect
          (Text.trimEnd ("(" ++ sc.raw sql ++ ")" ++ " " ++ Text.trim tail)) written.texts
      else compareText ("(" ++ sc.raw sql ++ ")") (Text.trim tail) (isMissing x) written := by
    intro f hf
    have hp := hf.isPath hv
    have hs := Key.split_append_tail (d := sc.source.dialect) hp ht
    have hk := Key.isConnective_append_tail hp (hf.isConnective hv) ht
    rw [comparisonText_of_comparison (by simp [hk]) (membershipValue_eq_none hx _ _) (by rwa [hs]),
      eval_comparison, hs, bindsKey_append_tail _ hp ht, hsql f hf, columnType_spelt hm hv hf]
    rfl
  rw [htext f hf, htext f' hf']

theorem eval_leaf_spelt (hm : sc.model = some m) (hv : m.NamesVirtual v)
    (hf : m.Spells v f) (hf' : m.Spells v f') (ht : Key.Tail tail) (hx : ∀ w, x ≠ .many [w]) :
    sc.source.eval (leaf sc (f ++ tail) x) = sc.source.eval (leaf sc (f' ++ tail) x) := by
  have hconn : ∀ f tail, m.Spells v f → Key.Tail tail → Key.isConnective (f ++ tail) = false :=
    fun f tail hf ht => Key.isConnective_append_tail (hf.isPath hv) (hf.isConnective hv) ht
  have hplain : ∀ tail, Key.Tail tail → ¬Text.sameLetters (Text.trim tail) "not" = true →
      sc.source.eval (leaf sc (f ++ tail) x) = sc.source.eval (leaf sc (f' ++ tail) x) := by
    intro tail ht hn
    rw [eval_leaf (by simp [hconn f tail hf ht]), eval_leaf (by simp [hconn f' tail hf' ht]),
      comparisonText_spelt hm hv hf hf' ht hn hx]
  by_cases hn : Text.sameLetters (Text.trim tail) "not" = true
  · have hnegates : ∀ f, m.Spells v f → Key.Negates sc.source.dialect (f ++ tail) f := by
      intro f hf
      have hs := Key.split_append_tail (d := sc.source.dialect) (hf.isPath hv) ht
      exact ⟨hconn f tail hf ht, by rw [hs], by rwa [hs]⟩
    have hrest := hplain [] .nil (by decide)
    rw [List.append_nil, List.append_nil] at hrest
    rw [eval_leaf_of_negates (hnegates f hf), eval_leaf_of_negates (hnegates f' hf'), hrest]
  · exact hplain tail ht hn

mutual

/-- Whether two conditions are the same but for the spelling of a virtual field in keys whose
comparand is not a list of one value. -/
inductive Respells (m : Model) (v : Text) : Condition → Condition → Prop where
  | bool (b : Bool) : Respells m v (.bool b) (.bool b)
  | raw (sql : Text) : Respells m v (.raw sql) (.raw sql)
  | all {cs cs' : List Condition} (h : MembersRespell m v cs cs') :
      Respells m v (.all cs) (.all cs')
  | entries {es es' : List (Text × Operand)} (h : EntriesRespell m v es es') :
      Respells m v (.entries es) (.entries es')

inductive MembersRespell (m : Model) (v : Text) : List Condition → List Condition → Prop where
  | nil : MembersRespell m v [] []
  | cons {c c' : Condition} {cs cs' : List Condition} (h : Respells m v c c')
      (hs : MembersRespell m v cs cs') : MembersRespell m v (c :: cs) (c' :: cs')

inductive EntriesRespell (m : Model) (v : Text) :
    List (Text × Operand) → List (Text × Operand) → Prop where
  | nil : EntriesRespell m v [] []
  | same {es es' : List (Text × Operand)} (e : Text × Operand) (hs : EntriesRespell m v es es') :
      EntriesRespell m v (e :: es) (e :: es')
  | compare {f f' tail : Text} {x : Comparand} {es es' : List (Text × Operand)}
      (hf : m.Spells v f) (hf' : m.Spells v f') (ht : Key.Tail tail) (hx : ∀ w, x ≠ .many [w])
      (hs : EntriesRespell m v es es') :
      EntriesRespell m v ((f ++ tail, .compare x) :: es) ((f' ++ tail, .compare x) :: es')
  | group {c c' : Condition} {es es' : List (Text × Operand)} (key : Text) (h : Respells m v c c')
      (hs : EntriesRespell m v es es') :
      EntriesRespell m v ((key, .group c) :: es) ((key, .group c') :: es')

end

mutual

theorem Respells.eval_members (hm : sc.model = some m) (hv : m.NamesVirtual v) {c c' : Condition} :
    Respells m v c c' → sc.source.eval (members sc c) = sc.source.eval (members sc c')
  | .bool _ => rfl
  | .raw _ => rfl
  | .all h => h.eval_memberTexts hm hv
  | .entries h => h.eval_entryTexts hm hv

theorem MembersRespell.eval_memberTexts (hm : sc.model = some m) (hv : m.NamesVirtual v)
    {cs cs' : List Condition} : MembersRespell m v cs cs' →
      sc.source.eval (memberTexts sc cs) = sc.source.eval (memberTexts sc cs')
  | .nil => rfl
  | .cons h hs => by
    rw [Condition.eval_memberTexts, Condition.eval_memberTexts, h.eval_members hm hv,
      hs.eval_memberTexts hm hv]

theorem EntriesRespell.eval_entryTexts (hm : sc.model = some m) (hv : m.NamesVirtual v)
    {es es' : List (Text × Operand)} : EntriesRespell m v es es' →
      sc.source.eval (entryTexts sc es) = sc.source.eval (entryTexts sc es')
  | .nil => rfl
  | .same (key, o) hs => by
    rw [Condition.eval_entryTexts, Condition.eval_entryTexts, hs.eval_entryTexts hm hv]
  | .compare hf hf' ht hx hs => by
    rw [Condition.eval_entryTexts, Condition.eval_entryTexts, operandText, operandText,
      eval_leaf_spelt hm hv hf hf' ht hx, hs.eval_entryTexts hm hv]
  | .group key h hs => by
    rw [Condition.eval_entryTexts, Condition.eval_entryTexts, eval_operandText_group,
      eval_operandText_group, h.eval_members hm hv, hs.eval_entryTexts hm hv]

end

mutual

theorem Respells.isEmpty {c c' : Condition} : Respells m v c c' → c.isEmpty = c'.isEmpty
  | .bool _ => rfl
  | .raw _ => rfl
  | .all h => h.allEmpty
  | .entries h => by cases h <;> rfl

theorem MembersRespell.allEmpty {cs cs' : List Condition} :
    MembersRespell m v cs cs' → Condition.allEmpty cs = Condition.allEmpty cs'
  | .nil => rfl
  | .cons h hs => by
    rw [Condition.allEmpty, Condition.allEmpty, h.isEmpty, hs.allEmpty]

end

theorem Respells.eval_clause (sc : Scope) (hm : sc.model = some m) (hv : m.NamesVirtual v)
    {c c' : Condition} (h : Respells m v c c') (head : Text) :
    sc.source.eval (clause sc head c) = sc.source.eval (clause sc head c') := by
  have hown : ownClause? c = ownClause? c' := by cases h <;> rfl
  rw [clause, clause, hown]
  cases ownClause? c' with
  | some sql => rfl
  | none =>
    dsimp only
    rw [Source.eval_bind, Source.eval_bind, h.eval_members hm hv]

end Condition

end SqlComposer
