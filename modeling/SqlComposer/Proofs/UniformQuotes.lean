import SqlComposer.Proofs.QuotedNames
import Mathlib.Data.List.Forall2

/-!
# Quotes under every dialect

What is put between quotes in a text without quotes does not depend on the dialect: the text is cut
into the same tokens, and every question about its shape has the same answer. So the outputs under
two dialects differ in the quotes only.
-/

namespace SqlComposer

/-! ### Texts composed under every dialect -/

/-- A part of a text that is composed under any dialect. -/
inductive Part where
  | verbatim (t : Text)
  /-- An identifier that gets the quotes of the dialect. -/
  | identifier (t : Text)

def Part.write (d : Dialect) : Part → Text
  | .verbatim t => t
  | .identifier t => d.quote t

/-- The parts of a text, one after another. -/
def writeParts (d : Dialect) (ps : List Part) : Text :=
  ps.flatMap (Part.write d)

/-- Whether the texts under all dialects are the same parts. -/
def Uniform (f : Dialect → Text) : Prop :=
  ∃ ps, ∀ d, f d = writeParts d ps

/-- Whether there is a text under all dialects or under none, and what there is is uniform. -/
def UniformIfAny (f : Dialect → Option Text) : Prop :=
  (∀ d, f d = none) ∨ ∃ g, Uniform g ∧ ∀ d, f d = some (g d)

namespace Uniform

variable {f g : Dialect → Text} {α : Type}

theorem verbatim (t : Text) : Uniform fun _ => t :=
  ⟨[.verbatim t], fun _ => by simp [writeParts, Part.write]⟩

theorem quote (t : Text) : Uniform fun d => d.quote t :=
  ⟨[.identifier t], fun _ => by simp [writeParts, Part.write]⟩

theorem append (hf : Uniform f) (hg : Uniform g) : Uniform fun d => f d ++ g d := by
  obtain ⟨ps, hps⟩ := hf
  obtain ⟨qs, hqs⟩ := hg
  refine ⟨ps ++ qs, fun d => ?_⟩
  simp only [hps, hqs, writeParts, List.flatMap_append]

theorem flatMap {f : Dialect → α → Text} (as : List α) (h : ∀ a, Uniform fun d => f d a) :
    Uniform fun d => as.flatMap (f d) := by
  induction as with
  | nil => exact verbatim []
  | cons a as ih =>
    simp only [List.flatMap_cons]
    exact (h a).append ih

theorem join {f : Dialect → α → Text} (sep : Text) (as : List α)
    (h : ∀ a, Uniform fun d => f d a) : Uniform fun d => Text.join sep (as.map (f d)) := by
  induction as with
  | nil => exact verbatim []
  | cons a as ih =>
    cases as with
    | nil => simpa using h a
    | cons b bs =>
      simp only [List.map_cons, Text.join_cons_cons] at ih ⊢
      exact ((h a).append (verbatim sep)).append ih

end Uniform

theorem UniformIfAny.getD {f : Dialect → Option Text} {g : Dialect → Text} (hf : UniformIfAny f)
    (hg : Uniform g) : Uniform fun d => (f d).getD (g d) := by
  rcases hf with hf | ⟨_, hu, hf⟩
  · simpa only [hf, Option.getD_none] using hg
  · simpa only [hf, Option.getD_some] using hu

/-! ### Texts without quotes -/

/-- Whether a text contains no character that opens a quoted identifier under some dialect. -/
def Unquoted (t : Text) : Prop :=
  ∀ c ∈ t, c ≠ '\x60' ∧ c ≠ '"' ∧ c ≠ '['

variable {s t : Text}

namespace Unquoted

theorem mono (h : Unquoted t) (hs : ∀ c ∈ s, c ∈ t) : Unquoted s :=
  fun c hc => h c (hs c hc)

theorem beq_startQuote (h : Unquoted t) {c : Char} (hc : c ∈ t) (d : Dialect) :
    (c == d.startQuote) = false := by
  obtain ⟨hb, hq, hs⟩ := h c hc
  refine beq_false_of_ne ?_
  cases d <;> assumption

theorem opensQuoted (h : Unquoted t) (d : Dialect) : d.opensQuoted t = false := by
  cases t with
  | nil => rfl
  | cons c cs => exact h.beq_startQuote List.mem_cons_self d

theorem extent (h : Unquoted t) {c : Char} (hc : c ∈ t) (d e : Dialect) (rest : Text) :
    Token.extent d c rest = Token.extent e c rest := by
  rw [Token.extent, Token.extent, h.beq_startQuote hc d, h.beq_startQuote hc e]
  rfl

theorem tokenize (h : Unquoted t) (d e : Dialect) : Token.tokenize d t = Token.tokenize e t := by
  fun_induction Token.tokenize d t with
  | case1 => rw [Token.tokenize_nil]
  | case2 c rest x ih =>
    have hx : x = Token.extent e c rest := h.extent List.mem_cons_self d e rest
    rw [Token.tokenize_cons, ← hx,
      ih (h.mono fun _ hc => List.mem_cons_of_mem _ (List.mem_of_mem_drop hc))]

end Unquoted

namespace Identifier

open Token (tokenize textOf)

/-! ### Fields and calls -/

theorem uniform_quoteFields (h : Unquoted t) : Uniform fun d => quoteFields d t := by
  have hd : ∀ d, quoteFields d t = (mark {} (tokenize .mySql t)).flatMap (writeMarked d) := by
    intro d
    rw [quoteFields, h.tokenize d .mySql]
  simp only [hd]
  refine .flatMap _ fun m => ?_
  cases hm : m.2 with
  | true =>
    simp only [writeMarked, hm, if_true]
    exact .quote m.1.text
  | false =>
    simp only [writeMarked, hm, Bool.false_eq_true, if_false]
    exact .verbatim m.1.text

theorem callParts_of_unquoted (h : Unquoted t) (d e : Dialect) : callParts d t = callParts e t := by
  rw [callParts, h.tokenize d e, callParts]

theorem mem_of_callParts {d : Dialect} {name inner : Text} (h : callParts d t = some (name, inner))
    {c : Char} (hc : c ∈ inner) : c ∈ t := by
  obtain ⟨f, is, ht, -, -, -, rfl⟩ := tokenize_of_callParts h
  rw [← Token.textOf_tokenize d t, ht, textOf_callTokens]
  simp [Text.mem_of_mem_trim hc]

theorem uniform_quoteArguments (h : Unquoted t) (hc : UniformIfAny fun d => quoteCall d t) :
    Uniform fun d => quoteArguments d t := by
  unfold quoteArguments
  split_ifs
  · exact .verbatim []
  · exact hc.getD (.quote t)
  · exact hc.getD (uniform_quoteFields h)

theorem uniform_quoteCall (h : Unquoted t) : UniformIfAny fun d => quoteCall d t := by
  induction hn : t.length using Nat.strongRecOn generalizing t with
  | ind n ih =>
    have hd : ∀ d, quoteCall d t =
        (callParts .mySql t).map fun r => r.1 ++ "(" ++ quoteArguments d r.2 ++ ")" := by
      intro d
      rw [quoteCall_eq, callParts_of_unquoted h d .mySql]
    simp only [hd]
    cases hp : callParts .mySql t with
    | none => exact .inl fun _ => rfl
    | some r =>
      obtain ⟨name, inner⟩ := r
      have hi : Unquoted inner := h.mono fun _ => mem_of_callParts hp
      have hargs := uniform_quoteArguments hi (ih _ (hn ▸ length_callParts hp) hi rfl)
      exact .inr ⟨_, ((Uniform.verbatim (name ++ "(")).append hargs).append (.verbatim ")"),
        fun _ => rfl⟩

/-! ### Paths and aliases -/

theorem isPlainPath_of_unquoted (h : Unquoted t) (d e : Dialect) :
    isPlainPath d t = isPlainPath e t := by
  have hall : ∀ d : Dialect, (t.all fun c =>
      !(CharClass.isBlank c || c == '*' || c == '(' || c == ')' || c == '\'' || c == ',' ||
        (c == '"' && d.startQuote != '"'))) =
      t.all fun c =>
        !(CharClass.isBlank c || c == '*' || c == '(' || c == ')' || c == '\'' || c == ',') := by
    intro d
    rw [Bool.eq_iff_iff, List.all_eq_true, List.all_eq_true]
    refine forall₂_congr fun c hc => ?_
    rw [beq_false_of_ne (h c hc).2.1, Bool.false_and, Bool.or_false]
  rw [isPlainPath, isPlainPath, hall, hall]

theorem uniform_quotePath (h : Unquoted t) : Uniform fun d => quotePath d t := by
  have hd : ∀ d, quotePath d t = Text.join ['.'] ((Text.splitBy (· == '.') t).map d.quote) := by
    intro d
    rw [quotePath]
    refine congrArg _ (List.map_congr_left fun p hp => if_neg ?_)
    rw [(h.mono (Text.mem_of_mem_splitBy hp)).opensQuoted d]
    exact Bool.false_ne_true
  simp only [hd]
  exact .join _ _ .quote

theorem uniform_pathForm (h : Unquoted t) : UniformIfAny fun d => pathForm d t := by
  cases hc : Text.cutFirst (· == '.') t with
  | none => exact .inl fun d => by simp only [pathForm, hc]
  | some r =>
    obtain ⟨head, rest⟩ := r
    obtain ⟨e, -, -, rfl⟩ := Text.eq_append_of_cutFirst hc
    have hrest : Unquoted rest := h.mono fun _ hm => by simp [hm]
    have hd : ∀ d, pathForm d (head ++ e :: rest) =
        if !isWord head then none
        else if rest == ['*'] then some (d.quote head ++ ".*")
        else if isPlainPath .mySql rest then some (quotePath d (head ++ e :: rest))
        else none := by
      intro d
      rw [pathForm, hc, isPlainPath_of_unquoted hrest .mySql d]
    simp only [hd]
    split_ifs
    · exact .inl fun _ => rfl
    · exact .inr ⟨_, (Uniform.quote head).append (.verbatim ".*"), fun _ => rfl⟩
    · exact .inr ⟨_, uniform_quotePath h, fun _ => rfl⟩
    · exact .inl fun _ => rfl

theorem isSome_quoteCall_of_unquoted (h : Unquoted t) (d e : Dialect) :
    (quoteCall d t).isSome = (quoteCall e t).isSome := by
  rw [isSome_quoteCall, isSome_quoteCall, h.tokenize d e]

theorem aliasAfterAs_of_unquoted {before after : Text} (h : Unquoted after) (d e : Dialect) :
    aliasAfterAs d before after = aliasAfterAs e before after := by
  have ho := (h.mono fun _ => Text.mem_of_mem_trim).opensQuoted
  rw [aliasAfterAs, aliasAfterAs, ho d, ho e]

theorem aliasAtEnd_of_unquoted {ts : List Token} (h : Unquoted (textOf ts)) (d e : Dialect) :
    aliasAtEnd d ts.reverse = aliasAtEnd e ts.reverse := by
  unfold aliasAtEnd
  split
  · next last gap front hr =>
    have hs : ts = front.reverse ++ [gap, last] := by
      rw [← List.reverse_reverse ts, hr]
      simp
    have hfront : Unquoted (Text.trim (textOf front.reverse)) := h.mono fun c hc => by
      rw [hs, Token.textOf_append]
      exact List.mem_append_left _ (Text.mem_of_mem_trim hc)
    simp only [isSome_quoteCall_of_unquoted hfront d e]
  · rfl

theorem splitAlias_of_unquoted (h : Unquoted t) (d e : Dialect) :
    splitAlias d t = splitAlias e t := by
  rw [splitAlias, splitAlias, h.tokenize d e]
  split
  · next before after hc =>
    obtain ⟨us, v, vs, hts, -, rfl, -⟩ := exists_of_cutAtAs hc
    refine aliasAfterAs_of_unquoted (h.mono fun c hm => ?_) d e
    rw [← Token.textOf_tokenize e t, hts]
    simp [hm]
  · exact aliasAtEnd_of_unquoted (by rwa [Token.textOf_tokenize]) d e

theorem mem_of_splitAlias {d : Dialect} {expr label : Text} (ht : t.Tight)
    (h : splitAlias d t = some (expr, label)) :
    (∀ c ∈ expr, c ∈ t) ∧ ∀ c ∈ label, c ∈ t := by
  obtain ⟨us, ms, vs, ha⟩ := exists_alias ht h
  have htext := Token.textOf_tokenize d t
  rw [ha.tokens, Token.textOf_append, Token.textOf_append, ha.expr, ha.label] at htext
  rw [← htext]
  exact ⟨fun c hc => by simp [hc], fun c hc => by simp [hc]⟩

/-! ### Forms of names -/

/-- Whether a name has the same form under all dialects, and shorter names in it. -/
inductive UniformForm (t : Text) (f : Dialect → Form) : Prop where
  | known {g : Dialect → Text} (hg : Uniform g) (h : ∀ d, f d = .known (g d))
  | distinct {rest : Text} (hr : ∀ c ∈ rest, c ∈ t) (h : ∀ d, f d = .distinct rest)
  | aliased {expr label : Text} (he : ∀ c ∈ expr, c ∈ t) (hl : ∀ c ∈ label, c ∈ t)
      (h : ∀ d, f d = .aliased expr label)

theorem mem_of_afterDistinct {rest : Text} (h : afterDistinct t = some rest) :
    ∀ c ∈ rest, c ∈ t := by
  unfold afterDistinct at h
  split at h
  · next head r hc =>
    split at h
    · cases h
      obtain ⟨e, -, -, rfl⟩ := Text.eq_append_of_cutFirst hc
      intro c hm
      simp [Text.mem_of_mem_trim hm]
    · cases h
  · cases h

theorem uniform_compoundForm (h : Unquoted t) (ht : t.Tight) :
    UniformForm t fun d => compoundForm d t := by
  unfold compoundForm
  rcases uniform_quoteCall h with hc | ⟨g, hg, hc⟩
  · simp only [hc, splitAlias_of_unquoted h _ .mySql]
    cases hs : splitAlias .mySql t with
    | some r =>
      obtain ⟨expr, label⟩ := r
      obtain ⟨he, hl⟩ := mem_of_splitAlias ht hs
      exact .aliased he hl fun _ => rfl
    | none =>
      split_ifs
      · exact .known (.quote t) fun _ => rfl
      · exact .known (.verbatim t) fun _ => rfl
  · simp only [hc]
    exact .known hg fun _ => rfl

theorem uniform_trimmedForm (h : Unquoted t) (ht : t.Tight) :
    UniformForm t fun d => trimmedForm d t := by
  simp only [trimmedForm, h.opensQuoted, Bool.or_false]
  split_ifs
  · exact .known (.verbatim t) fun _ => rfl
  · exact .known (.quote t) fun _ => rfl
  · cases hd : afterDistinct t with
    | some rest => exact .distinct (mem_of_afterDistinct hd) fun _ => rfl
    | none =>
      rcases uniform_pathForm h with hp | ⟨g, hg, hp⟩
      · simp only [hp]
        exact uniform_compoundForm h ht
      · simp only [hp]
        exact .known hg fun _ => rfl

theorem uniform_form (h : Unquoted t) : UniformForm (Text.trim t) fun d => form d t := by
  by_cases hn : Text.trim t = []
  · exact .known (.verbatim []) fun d => by rw [form, hn]; rfl
  · exact uniform_trimmedForm (h.mono fun _ => Text.mem_of_mem_trim) (Text.tight_trim hn)

end Identifier

open Identifier in
/-- A name without quotes is written in the same parts under all dialects. -/
theorem uniform_quoteName (h : Unquoted t) : Uniform fun d => d.quoteName t := by
  induction hn : t.length using Nat.strongRecOn generalizing t with
  | ind n ih =>
    have hshorter : ∀ {s : Text}, (∀ c ∈ s, c ∈ Text.trim t) → s.length < t.length →
        Uniform fun d => d.quoteName s := fun hs hl =>
      ih _ (hn ▸ hl) (h.mono fun c hc => Text.mem_of_mem_trim (hs c hc)) rfl
    cases uniform_form h with
    | known hg hf =>
      simp only [Dialect.quoteName_of_known (hf _)]
      exact hg
    | distinct hr hf =>
      simp only [Dialect.quoteName_of_distinct (hf _)]
      exact .append (.verbatim "DISTINCT ") (hshorter hr (length_of_form_eq_distinct (hf .mySql)))
    | aliased he hl hf =>
      obtain ⟨hle, hll⟩ := length_of_form_eq_aliased (hf .mySql)
      simp only [Dialect.quoteName_of_aliased (hf _)]
      exact .append (.append (hshorter he hle) (.verbatim " AS ")) (hshorter hl hll)

/-! ### Outputs under two dialects -/

/-- Whether two characters are the same, or the quotes of two dialects in the same place. -/
inductive SameUpToQuotes (d e : Dialect) : Char → Char → Prop where
  | same (c : Char) : SameUpToQuotes d e c c
  | start : SameUpToQuotes d e d.startQuote e.startQuote
  | stop : SameUpToQuotes d e d.endQuote e.endQuote

theorem forall₂_same (d e : Dialect) (t : Text) : List.Forall₂ (SameUpToQuotes d e) t t :=
  List.forall₂_same.2 fun c _ => .same c

theorem forall₂_writeParts (d e : Dialect) (ps : List Part) :
    List.Forall₂ (SameUpToQuotes d e) (writeParts d ps) (writeParts e ps) := by
  induction ps with
  | nil => exact .nil
  | cons p ps ih =>
    refine List.rel_append ?_ ih
    cases p with
    | verbatim t => exact forall₂_same d e t
    | identifier t => exact .cons .start (List.rel_append (forall₂_same d e t) (.cons .stop .nil))

namespace DataSource

variable {ds : DataSource}

/-- Whether the memory of a data source is off, or is one in which no two descriptions have the same
key, whatever has been done with it. -/
def Reliable (ds : DataSource) : Prop :=
  ds.memo.enabled = false ∨
    ∃ pool cs, (∀ ds ∈ pool, ds.memo.Fresh) ∧ (∀ c ∈ cs, c.2.Fresh) ∧ ds ∈ Command.exec pool cs

theorem Reliable.run {α : Type} (h : ds.Reliable) (p : Source → Render α) :
    (ds.run p).1 = ds.source.eval (p ds.source) := by
  rcases h with h | ⟨pool, cs, hp, hc, hds⟩
  · exact run_of_disabled h _
  · have hf := Command.faithful_exec (fun ds hd => (hp ds hd).faithful _) hc ds hds
    exact (hf.run _).1

theorem Reliable.run_ask (h : ds.Reliable) (t : Text) :
    (ds.run fun _ => Render.ask t).1 = ds.source.dialect.quoteName t :=
  h.run _

/-- What gets quotes in a text without quotes does not depend on the dialect: a name is the same
parts under all of them, and so is a fragment with its fields in quotes. So two outputs differ in
their quotes only. -/
theorem quotes_uniformly (h : Unquoted t) :
    (∃ ps, ∀ ds : DataSource, ds.Reliable →
        (ds.run fun _ => Render.ask t).1 = writeParts ds.source.dialect ps) ∧
      (∃ ps, ∀ d, Identifier.quoteFields d t = writeParts d ps) ∧
      (∀ ds es : DataSource, ds.Reliable → es.Reliable →
        List.Forall₂ (SameUpToQuotes ds.source.dialect es.source.dialect)
          (ds.run fun _ => Render.ask t).1 (es.run fun _ => Render.ask t).1) ∧
      ∀ d e, List.Forall₂ (SameUpToQuotes d e) (Identifier.quoteFields d t)
        (Identifier.quoteFields e t) := by
  obtain ⟨ps, hname⟩ := uniform_quoteName h
  obtain ⟨qs, hfields⟩ := Identifier.uniform_quoteFields h
  have hname : ∀ d : Dialect, d.quoteName t = writeParts d ps := hname
  have hfields : ∀ d, Identifier.quoteFields d t = writeParts d qs := hfields
  refine ⟨⟨ps, fun ds hds => ?_⟩, ⟨qs, hfields⟩, fun ds es hds hes => ?_, fun d e => ?_⟩
  · rw [hds.run_ask, hname]
  · rw [hds.run_ask, hes.run_ask, hname, hname]
    exact forall₂_writeParts _ _ ps
  · rw [hfields, hfields]
    exact forall₂_writeParts d e qs

/-- A call with an alias, in the quotes of a data source and of one whose dialect was changed. -/
theorem quotes_uniformly_call :
    let t : Text := "COUNT(Post.id) AS total"
    let ds := ofSource {}
    let es := ((ofSource {}).setDialect .sqlServer).2
    Unquoted t ∧ ds.Reliable ∧ es.Reliable ∧
      List.Forall₂ (SameUpToQuotes .mySql .sqlServer) (ds.run fun _ => Render.ask t).1
        (es.run fun _ => Render.ask t).1 := by
  intro t ds es
  have ht : Unquoted t := by
    have hall : (t.all fun c => c != '\x60' && c != '"' && c != '[') = true := by decide
    exact fun c hc => by simpa [and_assoc] using List.all_eq_true.1 hall c hc
  have hp : ∀ ds ∈ [ofSource {}], ds.memo.Fresh :=
    List.forall_mem_singleton.2 ⟨rfl, Function.injective_id⟩
  have hds : ds.Reliable := .inr ⟨[ds], [], hp, by simp, List.mem_cons_self⟩
  have hes : es.Reliable :=
    .inr ⟨[ds], [(0, .setDialect .sqlServer)], hp, by simp [Command.Fresh], List.mem_cons_self⟩
  exact ⟨ht, hds, hes, (quotes_uniformly ht).2.2.1 ds es hds hes⟩

end DataSource

end SqlComposer
