import SqlComposer.Token

/-!
# Placeholders

A question mark outside quotes stands for the next value of a list, and a colon with a number
behind it for the value at that place, counted from zero. A doubled colon is a cast and stands for
nothing. Values are put in once and never searched for placeholders again.
-/

namespace SqlComposer

/-- A piece of a template. -/
inductive Placeholder where
  /-- Text that stays. -/
  | verbatim (text : Text)
  /-- A question mark: the next value in order. -/
  | next
  /-- A colon with a number, written as `text`. -/
  | numbered (index : Nat) (text : Text)
deriving DecidableEq

namespace Placeholder

/-- The index that digits write, if it fits a machine word of 64 bits. -/
def index? (digits : Text) : Option Nat :=
  if Text.allDigits digits && !digits.isEmpty then
    let n := Text.toNat digits
    if n < UInt64.size then some n else none
  else none

/-- The pieces of a row of tokens. -/
def ofTokens : List Token → List Placeholder
  | [] => []
  | [t] => [if t = ⟨.operator, "?"⟩ then .next else .verbatim t.text]
  | t :: u :: ts =>
    if t = ⟨.operator, "?"⟩ then .next :: ofTokens (u :: ts)
    else if t = ⟨.operator, ":"⟩ ∧ u.kind = .number then
      match index? u.text with
      | some n => .numbered n (t.text ++ u.text) :: ofTokens ts
      | none => .verbatim t.text :: ofTokens (u :: ts)
    else .verbatim t.text :: ofTokens (u :: ts)

/-- The pieces of a template. -/
def scan (d : Dialect) (template : Text) : List Placeholder :=
  ofTokens (Token.tokenize d template)

/-- The index of a numbered placeholder. -/
def number? : Placeholder → Option Nat
  | .numbered n _ => some n
  | _ => none

/-- The number of question marks, and the number of different indexes. -/
def count (d : Dialect) (template : Text) : Nat × Nat :=
  let ps := scan d template
  (ps.countP (· = .next), (ps.filterMap number?).eraseDups.length)

/-- The pieces with `values` put in, where `used` values have gone to question marks already. A
placeholder without a value stays. -/
def fill (values : List Text) (used : Nat) : List Placeholder → Text
  | [] => []
  | .verbatim t :: ps => t ++ fill values used ps
  | .next :: ps => (values[used]?).getD "?" ++ fill values (used + 1) ps
  | .numbered n t :: ps => (values[n]?).getD t ++ fill values used ps

/-- The template with `values` put in. -/
def bind (d : Dialect) (template : Text) (values : List Text) : Text :=
  fill values 0 (scan d template)

end Placeholder

end SqlComposer
