import SqlComposer.Token

/-!
# Quoted identifiers

Two ways to put the identifiers of a text between quotes. `Identifier.form` reads a text as one
name, with its qualifiers, a call, an alias or `DISTINCT` around it; where it contains further
names, they are left to the caller, who may remember them. `Identifier.quoteFields` goes through any
fragment and quotes what can only be the name of a field.
-/

namespace SqlComposer

open CharClass

namespace Identifier

/-! ### Shapes of names -/

/-- A character inside a name. -/
def isNameChar (c : Char) : Bool :=
  isAlphanumeric c || c == '_' || c == '-'

/-- A name: letters, numbers, underscores and hyphens, with a letter or an underscore in front. -/
def isIdentifier (t : Text) : Bool :=
  match t with
  | [] => false
  | c :: cs => Token.isIdentStart c && cs.all isNameChar

/-- Letters, numbers, underscores and hyphens in any order, at least one. -/
def isWord (t : Text) : Bool :=
  !t.isEmpty && t.all isNameChar

/-- A name and one or more words behind dots. -/
def isQualified (t : Text) : Bool :=
  match Text.splitBy (· == '.') t with
  | first :: next :: rest => isIdentifier first && (next :: rest).all isWord
  | _ => false

/-- What follows the keyword `DISTINCT` and a blank. -/
def afterDistinct (t : Text) : Option Text :=
  match Text.cutFirst isBlank t with
  | some (head, rest) =>
    if Text.sameLetters head "DISTINCT" && !(Text.trim rest).isEmpty then some (Text.trim rest)
    else none
  | none => none

/-! ### Fields inside a fragment -/

/-- The two tokens before the current one that are not blank, as far as they matter. -/
structure Context where
  last : Option Token := none
  beforeLast : Option Token := none

/-- The context after a token. -/
def Context.push (ctx : Context) (t : Token) : Context :=
  if t.kind = .whitespace then ctx else ⟨some t, ctx.last⟩

/-- Whether a token may follow a dot in a chain of names. -/
def isChainPart (t : Token) : Bool :=
  t.kind = .ident || t.kind = .quotedIdent || t = ⟨.operator, "*"⟩

/-- How many tokens go on a chain of names: pairs of a dot and a name, or a star. -/
def chainLength : List Token → Nat
  | dot :: part :: ts =>
    if dot.kind = .dot && isChainPart part then chainLength ts + 2 else 0
  | _ => 0

/-- Whether the next token that is not blank is a JSON arrow. -/
def arrowFollows (ts : List Token) : Bool :=
  match ts.find? fun t => t.kind != .whitespace with
  | some t => t.kind = .operator && List.isPrefixOf "->" t.text
  | none => false

/-- Whether the token after a context is the alias of something that ends in a quoted name or a
closing parenthesis. -/
def Context.awaitsAlias (ctx : Context) : Bool :=
  ctx.last.any (fun t => t.kind = .ident && Text.sameLetters t.text "as") &&
    ctx.beforeLast.any fun t => t.kind = .quotedIdent || t.kind = .rParen

/-- Marks the tokens of a fragment that get quotes: the bare names of a chain that is no call, a
name in front of a JSON arrow, and the alias of something quoted. -/
def mark (ctx : Context) : List Token → List (Token × Bool)
  | [] => []
  | t :: ts =>
    let n := if t.kind = .ident || t.kind = .quotedIdent then chainLength ts else 0
    if 0 < n && (ts.drop n).head?.all (fun u => u.kind != .lParen) then
      (t :: ts.take n).map (fun u => (u, decide (u.kind = .ident))) ++
        mark (ctx.push ⟨.quotedIdent, t.text⟩) (ts.drop n)
    else
      let quoted := t.kind = .ident && (arrowFollows ts || isIdentifier t.text && ctx.awaitsAlias)
      (t, quoted) :: mark (ctx.push (if quoted then ⟨.quotedIdent, t.text⟩ else t)) ts
termination_by ts => ts.length
decreasing_by
  · simp only [List.length_drop, List.length_cons]; omega
  · simp

/-- A marked token as it is written. -/
def writeMarked (d : Dialect) (m : Token × Bool) : Text :=
  if m.2 then d.quote m.1.text else m.1.text

/-- A fragment with its field names in quotes. -/
def quoteFields (d : Dialect) (fragment : Text) : Text :=
  (mark {} (Token.tokenize d fragment)).flatMap (writeMarked d)

/-! ### Calls -/

/-- Whether a row of tokens is a name and parentheses that are closed by the last token only. -/
def isCall : List Token → Bool
  | f :: p :: ts =>
    f.kind = .ident && p.kind = .lParen &&
      Token.matchingParen (f :: p :: ts) 1 == some (ts.length + 1)
  | _ => false

/-- The name of a function and the text between its parentheses, if the text is one call. -/
def callParts (d : Dialect) (t : Text) : Option (Text × Text) :=
  match Token.tokenize d t with
  | f :: p :: ts =>
    if isCall (f :: p :: ts) then some (f.text, Text.trim (Token.textOf ts.dropLast)) else none
  | _ => none

theorem length_callParts {d : Dialect} {t f inner : Text} (h : callParts d t = some (f, inner)) :
    inner.length < t.length := by
  have ht := Token.textOf_tokenize d t
  have hn := Token.text_ne_nil_of_mem d t
  unfold callParts at h
  split at h
  · next a b ts hts =>
    rw [hts] at ht hn
    split at h
    · simp only [Option.some.injEq, Prod.mk.injEq] at h
      obtain ⟨rfl, rfl⟩ := h
      have ha : 0 < a.text.length := List.length_pos_iff.2 (hn a (by simp))
      have h1 := Text.length_trim_le (Token.textOf ts.dropLast)
      have h2 := Token.length_textOf_dropLast_le ts
      have h3 := congrArg List.length ht
      simp only [Token.textOf, List.flatMap_cons, List.length_append] at h1 h2 h3 ⊢
      omega
    · simp at h
  · simp at h

/-- A call with its argument quoted: a call again, a bare name, or any fragment. The name of the
function stays. -/
def quoteCall (d : Dialect) (t : Text) : Option Text :=
  match _h : callParts d t with
  | none => none
  | some (f, inner) =>
    let arguments :=
      if inner.isEmpty then []
      else
        match quoteCall d inner with
        | some nested => nested
        | none => if isIdentifier inner then d.quote inner else quoteFields d inner
    some (f ++ "(" ++ arguments ++ ")")
termination_by t.length
decreasing_by exact length_callParts (by assumption)

/-! ### Aliases -/

/-- Splits a row of tokens at the last `AS` outside parentheses with blanks around it: the text
before it and the text after it. `before` is the text that has been read, `last` the token before
the current one. -/
def cutAtAs (depth : Nat) (before : Text) (last : Option Token) : List Token → Option (Text × Text)
  | [] => none
  | t :: ts =>
    match cutAtAs (Token.depthAfter depth t) (before ++ t.text) (some t) ts with
    | some r => some r
    | none =>
      if t.kind = .ident && depth = 0 && Text.sameLetters t.text "as" &&
          last.any (fun u => u.kind = .whitespace) &&
          ts.head?.any (fun u => u.kind = .whitespace) then
        some (before, Token.textOf ts)
      else none

/-- An expression and the alias that `AS` gives it. -/
def aliasAfterAs (d : Dialect) (before after : Text) : Option (Text × Text) :=
  let expr := Text.trim before
  let label := Text.trim after
  if !expr.isEmpty && (isIdentifier label || d.opensQuoted label) then some (expr, label) else none

/-- A qualified name or a call and, behind a blank, its alias; the tokens come in reverse. -/
def aliasAtEnd (d : Dialect) : List Token → Option (Text × Text)
  | last :: gap :: front =>
    let expr := Text.trim (Token.textOf front.reverse)
    if last.kind = .ident && gap.kind = .whitespace &&
        (isQualified expr || (quoteCall d expr).isSome) then
      some (expr, last.text)
    else none
  | _ => none

/-- An expression and its alias, with `AS` between them or only a blank. -/
def splitAlias (d : Dialect) (t : Text) : Option (Text × Text) :=
  match cutAtAs 0 [] none (Token.tokenize d t) with
  | some (before, after) => aliasAfterAs d before after
  | none => aliasAtEnd d (Token.tokenize d t).reverse

/-! ### Names -/

/-- How a name is written. -/
inductive Form where
  /-- As a text that is known already. -/
  | known (text : Text)
  /-- As `DISTINCT` and another name. -/
  | distinct (rest : Text)
  /-- As two names with `AS` between them. -/
  | aliased (expr label : Text)

/-- Whether what follows the first dot of a path is names only: no blank, star, parenthesis, comma
or string, and something at all. -/
def isPlainPath (d : Dialect) (rest : Text) : Bool :=
  !rest.isEmpty &&
    rest.all fun c =>
      !(isBlank c || c == '*' || c == '(' || c == ')' || c == '\'' || c == ',' ||
        (c == '"' && d.startQuote != '"'))

/-- A path with each of its parts in quotes, unless it has them already. -/
def quotePath (d : Dialect) (path : Text) : Text :=
  Text.join ['.'] <| (Text.splitBy (· == '.') path).map fun part =>
    if d.opensQuoted part then part else d.quote part

/-- The form of a path: a word, a dot, and a star or more words. -/
def pathForm (d : Dialect) (t : Text) : Option Text :=
  match Text.cutFirst (· == '.') t with
  | some (head, rest) =>
    if !isWord head then none
    else if rest == ['*'] then some (d.quote head ++ ".*")
    else if isPlainPath d rest then some (quotePath d t)
    else none
  | none => none

/-- How a trimmed text that is no single word and no path is written. -/
def compoundForm (d : Dialect) (t : Text) : Form :=
  match quoteCall d t with
  | some call => .known call
  | none =>
    match splitAlias d t with
    | some (expr, label) => .aliased expr label
    | none =>
      if t.all fun c => isNameChar c || c == ' ' then .known (d.quote t) else .known t

/-- How a trimmed text is written as a name. -/
def trimmedForm (d : Dialect) (t : Text) : Form :=
  if t.isEmpty || t == ['*'] || d.opensQuoted t then .known t
  else if isWord t then .known (d.quote t)
  else
    match afterDistinct t with
    | some rest => .distinct rest
    | none =>
      match pathForm d t with
      | some path => .known path
      | none => compoundForm d t

/-- How a text is written as a name. -/
def form (d : Dialect) (t : Text) : Form :=
  trimmedForm d (Text.trim t)

/-! ### Names contain shorter names -/

theorem length_afterDistinct {t rest : Text} (h : afterDistinct t = some rest) :
    rest.length < t.length := by
  unfold afterDistinct at h
  split at h
  · next a b hc =>
    split at h
    · simp only [Option.some.injEq] at h
      subst h
      have := Text.length_cutFirst hc
      have := Text.length_trim_le b
      omega
    · simp at h
  · simp at h

theorem length_cutAtAs {depth : Nat} {before a b : Text} {last : Option Token} {ts : List Token}
    (h : cutAtAs depth before last ts = some (a, b)) :
    a.length + b.length + 2 ≤ before.length + (Token.textOf ts).length := by
  induction ts generalizing depth before last with
  | nil => simp [cutAtAs] at h
  | cons t ts ih =>
    unfold cutAtAs at h
    split at h
    · next r hr =>
      simp only [Option.some.injEq] at h
      subst h
      have := ih hr
      simp only [Token.textOf, List.flatMap_cons, List.length_append] at this ⊢
      omega
    · split at h
      · next hc =>
        simp only [Option.some.injEq, Prod.mk.injEq] at h
        obtain ⟨rfl, rfl⟩ := h
        simp only [Bool.and_eq_true] at hc
        have hl : t.text.length = 2 := by
          have := hc.1.1.2
          simp only [Text.sameLetters, beq_iff_eq] at this
          simpa [Text.asciiLower] using congrArg List.length this
        simp only [Token.textOf, List.flatMap_cons, List.length_append]
        omega
      · simp at h

theorem length_aliasAfterAs {d : Dialect} {before after expr label : Text}
    (h : aliasAfterAs d before after = some (expr, label)) :
    expr.length ≤ before.length ∧ label.length ≤ after.length := by
  simp only [aliasAfterAs] at h
  split at h
  · simp only [Option.some.injEq, Prod.mk.injEq] at h
    obtain ⟨rfl, rfl⟩ := h
    exact ⟨Text.length_trim_le before, Text.length_trim_le after⟩
  · simp at h

theorem length_aliasAtEnd {d : Dialect} {ts : List Token} {expr label : Text}
    (hn : ∀ u ∈ ts, u.text ≠ []) (h : aliasAtEnd d ts.reverse = some (expr, label)) :
    expr.length < (Token.textOf ts).length ∧ label.length < (Token.textOf ts).length := by
  unfold aliasAtEnd at h
  split at h
  · next last gap front hr =>
    have hs : ts = front.reverse ++ [gap, last] := by
      rw [← List.reverse_reverse ts, hr]
      simp
    have hg : 0 < gap.text.length := List.length_pos_iff.2 (hn gap (by simp [hs]))
    have hl : 0 < last.text.length := List.length_pos_iff.2 (hn last (by simp [hs]))
    have ht := Text.length_trim_le (Token.textOf front.reverse)
    dsimp only at h
    split at h
    · simp only [Option.some.injEq, Prod.mk.injEq] at h
      obtain ⟨rfl, rfl⟩ := h
      simp only [hs, Token.textOf, List.flatMap_append, List.flatMap_cons, List.flatMap_nil,
        List.append_nil, List.length_append] at ht ⊢
      omega
    · simp at h
  · simp at h

theorem length_splitAlias {d : Dialect} {t expr label : Text}
    (h : splitAlias d t = some (expr, label)) :
    expr.length < t.length ∧ label.length < t.length := by
  have ht := Token.textOf_tokenize d t
  unfold splitAlias at h
  split at h
  · next a b hc =>
    have hl := length_cutAtAs hc
    rw [ht, List.length_nil] at hl
    have := length_aliasAfterAs h
    omega
  · have hl := length_aliasAtEnd (Token.text_ne_nil_of_mem d t) h
    rwa [ht] at hl

theorem compoundForm_ne_distinct (d : Dialect) (t rest : Text) : compoundForm d t ≠ .distinct rest := by
  fun_cases compoundForm d t <;> intro h <;> cases h

theorem splitAlias_of_compoundForm {d : Dialect} {t expr label : Text}
    (h : compoundForm d t = .aliased expr label) : splitAlias d t = some (expr, label) := by
  revert h
  fun_cases compoundForm d t <;> intro h <;> cases h
  assumption

theorem afterDistinct_of_trimmedForm {d : Dialect} {t rest : Text}
    (h : trimmedForm d t = .distinct rest) : afterDistinct t = some rest := by
  revert h
  fun_cases trimmedForm d t <;> intro h
  case case3 r hr =>
    cases h
    exact hr
  case case5 => exact absurd h (compoundForm_ne_distinct d t rest)
  all_goals cases h

theorem splitAlias_of_trimmedForm {d : Dialect} {t expr label : Text}
    (h : trimmedForm d t = .aliased expr label) : splitAlias d t = some (expr, label) := by
  revert h
  fun_cases trimmedForm d t <;> intro h
  case case5 => exact splitAlias_of_compoundForm h
  all_goals cases h

theorem length_of_form_eq_distinct {d : Dialect} {t rest : Text} (h : form d t = .distinct rest) :
    rest.length < t.length :=
  Nat.lt_of_lt_of_le (length_afterDistinct (afterDistinct_of_trimmedForm h)) (Text.length_trim_le t)

theorem length_of_form_eq_aliased {d : Dialect} {t expr label : Text}
    (h : form d t = .aliased expr label) : expr.length < t.length ∧ label.length < t.length := by
  have hl := length_splitAlias (splitAlias_of_trimmedForm h)
  have ht := Text.length_trim_le t
  omega

end Identifier

/-- A text as a name in the quotes of a dialect. -/
def Dialect.quoteName (d : Dialect) (t : Text) : Text :=
  match _h : Identifier.form d t with
  | .known text => text
  | .distinct rest => "DISTINCT " ++ d.quoteName rest
  | .aliased expr label => d.quoteName expr ++ " AS " ++ d.quoteName label
termination_by t.length
decreasing_by
  · exact Identifier.length_of_form_eq_distinct (by assumption)
  · exact (Identifier.length_of_form_eq_aliased (by assumption)).1
  · exact (Identifier.length_of_form_eq_aliased (by assumption)).2

namespace Dialect

variable {d : Dialect} {t : Text}

theorem quoteName_of_known {text : Text} (h : Identifier.form d t = .known text) :
    d.quoteName t = text := by
  rw [quoteName]
  split <;> simp_all

theorem quoteName_of_distinct {rest : Text} (h : Identifier.form d t = .distinct rest) :
    d.quoteName t = "DISTINCT " ++ d.quoteName rest := by
  rw [quoteName]
  split <;> simp_all

theorem quoteName_of_aliased {expr label : Text} (h : Identifier.form d t = .aliased expr label) :
    d.quoteName t = d.quoteName expr ++ " AS " ++ d.quoteName label := by
  rw [quoteName]
  split <;> simp_all

end Dialect

end SqlComposer
