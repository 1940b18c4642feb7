import SqlComposer.Dialect

/-!
# Tokens of an SQL fragment

A fragment is cut into tokens without judging its syntax: a character that starts nothing known is
an operator of its own. `Token.extent` says how far the token that starts with a given character
reaches into the text after it, so cutting never loses or invents a character.
-/

namespace SqlComposer

open CharClass

/-- The kinds of token. -/
inductive TokenKind where
  | whitespace
  /-- A bare identifier or keyword; a hyphen may stand between its parts. -/
  | ident
  /-- An identifier between quotes. -/
  | quotedIdent
  | number
  /-- A string literal with its quotes. -/
  | str
  | lParen
  | rParen
  | comma
  | dot
  | operator
  /-- A place to fill in later, such as `{$id$}`. -/
  | marker
deriving DecidableEq

/-- The name of a kind. -/
def TokenKind.name : TokenKind → Text
  | .whitespace => "Whitespace"
  | .ident => "Ident"
  | .quotedIdent => "QuotedIdent"
  | .number => "Number"
  | .str => "Str"
  | .lParen => "LParen"
  | .rParen => "RParen"
  | .comma => "Comma"
  | .dot => "Dot"
  | .operator => "Operator"
  | .marker => "Marker"

/-- A piece of a fragment with its kind. -/
structure Token where
  kind : TokenKind
  text : Text
deriving DecidableEq

namespace Token

/-! ### Characters of identifiers -/

def isIdentStart (c : Char) : Bool :=
  isAlphabetic c || c == '_'

def isIdentContinue (c : Char) : Bool :=
  isAlphanumeric c || c == '_'

/-! ### Lengths of tokens

Each function says how many characters of a text still belong to a token that began before it. -/

/-- The characters that satisfy `p`, up to the first that does not. -/
def spanLength (p : Char → Bool) (t : Text) : Nat :=
  (t.takeWhile p).length

/-- The rest of an identifier; a hyphen belongs to it if it goes on behind. -/
def identLength : Text → Nat
  | [] => 0
  | c :: cs =>
    if isIdentContinue c then identLength cs + 1
    else if c == '-' && cs.head?.any isIdentContinue then identLength cs + 1
    else 0

/-- The rest of a quoted token up to its closing quote, or all of the text if it is never closed. A
doubled closing quote stands for itself, and so does the character after a backslash where
backslashes escape. -/
def quotedLength (close : Char) (escapes : Bool) : Text → Nat
  | [] => 0
  | [_] => 1
  | c :: d :: cs =>
    if escapes && c == '\\' then quotedLength close escapes cs + 2
    else if c == close then
      if d == close then quotedLength close escapes cs + 2 else 1
    else quotedLength close escapes (d :: cs) + 1

/-- A decimal point with digits behind it. -/
def fractionLength (t : Text) : Nat :=
  match t with
  | '.' :: ds => if ds.head?.any Char.isDigit then spanLength Char.isDigit ds + 1 else 0
  | _ => 0

/-- The mark of an exponent, an optional sign, and digits. -/
def exponentLength (t : Text) : Nat :=
  match t with
  | e :: ds =>
    if e == 'e' || e == 'E' then
      let sign := if ds.head?.any (fun s => s == '+' || s == '-') then 1 else 0
      let digits := ds.drop sign
      if digits.head?.any Char.isDigit then spanLength Char.isDigit digits + sign + 1 else 0
    else 0
  | [] => 0

/-- The rest of a number after its first digit. -/
def numberLength (t : Text) : Nat :=
  let digits := spanLength Char.isDigit t
  let fraction := fractionLength (t.drop digits)
  let exponent := exponentLength (t.drop (digits + fraction))
  digits + fraction + exponent

/-- The rest of a marker after its opening brace. -/
def markerLength (t : Text) : Nat :=
  let body := spanLength (· != '\x7d') t
  if body < t.length then body + 1 else body

/-! ### The next token -/

/-- The kind of the token that starts with `c`, and how far it reaches into the text after `c`. -/
def extent (d : Dialect) (c : Char) (rest : Text) : TokenKind × Nat :=
  if isBlank c then (.whitespace, spanLength isBlank rest)
  else if c == d.startQuote then (.quotedIdent, quotedLength d.endQuote false rest)
  else if c == '\x60' then (.quotedIdent, quotedLength '\x60' false rest)
  else if c == '\'' || c == '"' then (.str, quotedLength c true rest)
  else if c.isDigit then
    let n := numberLength rest
    if (rest.drop n).head?.any isIdentContinue then (.ident, n + identLength (rest.drop n))
    else (.number, n)
  else if isIdentStart c then (.ident, identLength rest)
  else if c == '(' then (.lParen, 0)
  else if c == ')' then (.rParen, 0)
  else if c == ',' then (.comma, 0)
  else if c == '.' then (.dot, 0)
  else if c == '\x7b' && rest.head? == some '$' then (.marker, markerLength rest)
  else if c == '-' && rest.head? == some '>' then
    (.operator, if rest.tail.head? == some '>' then 2 else 1)
  else if c == '<' || c == '>' || c == '=' || c == '!' then
    (.operator, spanLength (fun e => e == '<' || e == '>' || e == '=') rest)
  else if c == '|' || c == '&' || c == ':' then
    (.operator, if rest.head? == some c then 1 else 0)
  else (.operator, 0)

/-- The tokens of a fragment. -/
def tokenize (d : Dialect) : Text → List Token
  | [] => []
  | c :: rest =>
    let e := extent d c rest
    ⟨e.1, c :: rest.take e.2⟩ :: tokenize d (rest.drop e.2)
termination_by t => t.length
decreasing_by simp only [List.length_drop, List.length_cons]; omega

/-- The text that a row of tokens covers. -/
def textOf (ts : List Token) : Text :=
  ts.flatMap Token.text

/-- Cutting loses nothing. -/
theorem textOf_tokenize (d : Dialect) (t : Text) : textOf (tokenize d t) = t := by
  fun_induction tokenize d t with
  | case1 => rfl
  | case2 c rest e ih =>
    simp only [textOf, List.flatMap_cons] at ih ⊢
    rw [ih]
    simp

/-- No token is empty. -/
theorem text_ne_nil_of_mem (d : Dialect) (t : Text) : ∀ u ∈ tokenize d t, u.text ≠ [] := by
  fun_induction tokenize d t with
  | case1 => simp
  | case2 c rest e ih =>
    intro u hu
    rcases List.mem_cons.1 hu with rfl | hu
    · simp
    · exact ih u hu

theorem length_textOf_dropLast_le (ts : List Token) :
    (textOf ts.dropLast).length ≤ (textOf ts).length := by
  induction ts with
  | nil => simp
  | cons t ts ih =>
    cases ts with
    | nil => simp [textOf]
    | cons u us =>
      simp only [textOf, List.dropLast_cons_cons, List.flatMap_cons, List.length_append] at ih ⊢
      omega

/-- The tokens with the byte offsets at which each starts and ends, the first at `start`. -/
def spansFrom (start : Nat) : List Token → List (Token × Nat × Nat)
  | [] => []
  | t :: ts =>
    let stop := start + Text.byteLength t.text
    (t, start, stop) :: spansFrom stop ts

/-- The tokens of a fragment with their byte offsets. -/
def spans (ts : List Token) : List (Token × Nat × Nat) :=
  spansFrom 0 ts

/-! ### Parentheses and commas -/

/-- The depth of parentheses after a token; a closing one without partner leaves it at zero. -/
def depthAfter (depth : Nat) (t : Token) : Nat :=
  match t.kind with
  | .lParen => depth + 1
  | .rParen => depth - 1
  | _ => depth

/-- The text up to the commas at depth zero, cut into pieces, blanks and all; `piece` has been read
of the first one. -/
def splitFrom (depth : Nat) (piece : Text) : List Token → List Text
  | [] => [piece]
  | t :: ts =>
    if t.kind = .comma ∧ depth = 0 then piece :: splitFrom 0 [] ts
    else splitFrom (depthAfter depth t) (piece ++ t.text) ts

/-- The pieces of a fragment between its commas outside parentheses, trimmed, without the empty
ones. -/
def splitTopLevel (d : Dialect) (fragment : Text) : List Text :=
  ((splitFrom 0 [] (tokenize d fragment)).map Text.trim).filter fun p => !p.isEmpty

/-- How many tokens lead to the closing parenthesis that ends the depth `depth`, that one not
counted. -/
def closingFrom (depth : Nat) : List Token → Option Nat
  | [] => none
  | t :: ts =>
    match t.kind with
    | .lParen => (closingFrom (depth + 1) ts).map (· + 1)
    | .rParen =>
      if depth = 0 then none
      else if depth = 1 then some 0
      else (closingFrom (depth - 1) ts).map (· + 1)
    | _ => (closingFrom depth ts).map (· + 1)

/-- The index of the closing parenthesis that belongs to the opening one at index `start`. -/
def matchingParen (ts : List Token) (start : Nat) : Option Nat :=
  (closingFrom 0 (ts.drop start)).map (· + start)

end Token

end SqlComposer
