import SqlComposer.Identifier

/-!
# Keys of conditions

A key is a boolean connective, or a field with an operator behind it or without one. The operator
begins at the first blank or comparison sign outside parentheses; where that gives no operator that
is known, the last blank counts.
-/

namespace SqlComposer.Key

open CharClass

/-- The keys that join what their entry holds. -/
def connectives : List Text :=
  ["and", "or", "not", "and not", "or not", "xor", "||", "&&"]

/-- Whether a key is a boolean connective. -/
def isConnective (key : Text) : Bool :=
  connectives.contains (Text.asciiLower (Text.trim key))

/-- The operators that are words. -/
def wordOperators : List Text :=
  ["like", "ilike", "rlike", "or", "not", "in", "between", "regexp", "similar to", "is"]

/-- A character of a comparison sign. -/
def isComparisonSign (c : Char) : Bool :=
  c == '<' || c == '>' || c == '=' || c == '!'

/-- Whether a text begins with an operator: a comparison sign, or one of the words. -/
def isKnownOperator (op : Text) : Bool :=
  let op := Text.trim op
  op.head?.any isComparisonSign ||
    wordOperators.any fun w =>
      match Text.after? w (Text.asciiLower op) with
      | some rest => rest.head?.all isBlank
      | none => false

/-- Whether a key with a list of one value asks for that value: it ends in none of NOT, IN and the
signs of inequality. -/
def isPlainMembership (key : Text) : Bool :=
  match Text.cutLast isBlank (Text.asciiUpper (Text.trimEnd key)) with
  | some (_, last) => !(last == "NOT" || last == "IN" || last == "!=" || last == "<>")
  | none => true

/-! ### Splitting -/

/-- Places where a key may be cut, as numbers of characters in front. -/
structure Cuts where
  /-- The first blank or comparison sign. -/
  first : Option Nat := none
  /-- The last blank. -/
  lastBlank : Option Nat := none

/-- Whether a token is a comparison operator. -/
def isComparison (t : Token) : Bool :=
  t.kind = .operator && t.text.all isComparisonSign

/-- The places in a row of tokens, the first of which begins after `pos` characters at a depth of
parentheses. -/
def cutsFrom (depth pos : Nat) (cuts : Cuts) : List Token → Cuts
  | [] => cuts
  | t :: ts =>
    let cuts :=
      if t.kind = .whitespace && depth = 0 then ⟨cuts.first.or (some pos), some pos⟩
      else if isComparison t && depth = 0 then { cuts with first := cuts.first.or (some pos) }
      else cuts
    cutsFrom (Token.depthAfter depth t) (pos + t.text.length) cuts ts

/-- The text in front of a place and the text behind it, both trimmed. -/
def cutAt (n : Nat) (key : Text) : Text × Text :=
  (Text.trim (key.take n), Text.trim (key.drop n))

/-- The field of a key and its operator, which may be empty. -/
def split (d : Dialect) (key : Text) : Text × Text :=
  let key := Text.trim key
  let cuts := cutsFrom 0 0 {} (Token.tokenize d key)
  match cuts.first with
  | none => (key, [])
  | some first =>
    let op := (cutAt first key).2
    match cuts.lastBlank with
    | some last =>
      if !isKnownOperator op && op.any isBlank && first < last then cutAt last key
      else cutAt first key
    | none => cutAt first key

theorem length_cutAt (n : Nat) (key : Text) :
    (cutAt n key).1.length + (cutAt n key).2.length ≤ key.length := by
  have h1 := Text.length_trim_le (key.take n)
  have h2 := Text.length_trim_le (key.drop n)
  simp only [cutAt, List.length_take, List.length_drop] at h1 h2 ⊢
  omega

theorem length_split (d : Dialect) (key : Text) :
    (split d key).1.length + (split d key).2.length ≤ key.length := by
  have ht := Text.length_trim_le key
  have h := fun n => length_cutAt n (Text.trim key)
  simp only [split]
  split
  · simpa using ht
  · next first _ =>
    split
    · next last _ =>
      split
      · exact Nat.le_trans (h last) ht
      · exact Nat.le_trans (h first) ht
    · exact Nat.le_trans (h first) ht

end SqlComposer.Key
