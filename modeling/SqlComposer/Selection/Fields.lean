import SqlComposer.Model
import SqlComposer.Source

/-!
# Select lists

What stands between SELECT and FROM: the columns of a model, or those asked for, each with its
alias in front, followed by the virtual fields under names of their own.
-/

namespace SqlComposer

open CharClass

namespace Field

/-! ### Shapes of requested fields -/

/-- Whether a text is a call: an opening parenthesis behind something, and a closing one later. -/
def isCall (t : Text) : Bool :=
  match Text.cutFirst (· == '(') t with
  | some (head, rest) => !head.isEmpty && rest.contains ')'
  | none => false

/-- The head, the argument and the rest of a call, up to the first closing parenthesis. -/
def callParts (t : Text) : Option (Text × Text × Text) :=
  match Text.cutFirst (· == '(') t with
  | some (head, rest) => (Text.cutFirst (· == ')') rest).map fun r => (head, r.1, r.2)
  | none => none

/-- Whether a text is a row of numbers with dots between them. -/
def isNumericPath (t : Text) : Bool :=
  (Text.splitBy (· == '.') t).all fun part => !part.isEmpty && Text.allDigits part

/-- A name behind an alias. -/
def qualify (label name : Text) : Text :=
  label ++ '.' :: name

/-! ### Writing one field -/

/-- A call: a bare name as its argument is qualified by the alias, all else only gets quotes. -/
def writeCall (d : Dialect) (label t : Text) : Render Text :=
  match callParts t with
  | some (head, argument, rest) =>
    if Identifier.isIdentifier argument then do
      let name ← Render.ask (qualify label argument)
      pure (head ++ "(" ++ name ++ ")" ++ Identifier.quoteFields d rest)
    else pure (Identifier.quoteFields d t)
  | none => pure (Identifier.quoteFields d t)

/-- A name, qualified by the alias if it has no qualifier; lists and numbers stay. -/
def writeName (label t : Text) : Render Text :=
  if !t.contains '.' then
    if t.contains ' ' || t.contains '(' then Render.ask t else Render.ask (qualify label t)
  else if t.contains ',' || isNumericPath t then pure t
  else Render.ask t

/-- A requested field under an alias. -/
def write (d : Dialect) (label field : Text) : Render Text :=
  let t := Text.trim field
  if t == ['*'] || Text.sameLetters t "count(*)" then pure t
  else if t.head? == some '(' && Text.has ") AS " (Text.asciiUpper t) then pure t
  else if isCall t then writeCall d label t
  else
    match Text.after? "DISTINCT" t with
    | some rest => do
      let name ← writeName label (Text.trim rest)
      pure ("DISTINCT " ++ name)
    | none => writeName label t

end Field

namespace FieldRequest

/-- The requested pieces, one for each field. -/
def pieces (d : Dialect) (r : FieldRequest) : List Text :=
  r.requested.flatMap (Token.splitTopLevel d)

/-- Whether the pieces ask for all fields. -/
def wantsAll (r : FieldRequest) (pieces : List Text) : Bool :=
  pieces.isEmpty || pieces.any fun p => p == ['*'] || p == Field.qualify r.modelAlias ['*']

/-- Whether a piece names a virtual field. -/
def isVirtual (r : FieldRequest) (piece : Text) : Bool :=
  (Model.virtualFieldOf r.modelAlias r.virtualFields piece).isSome

/-- The pieces that are selected as columns. -/
def columnPieces (d : Dialect) (r : FieldRequest) : List Text :=
  let pieces := r.pieces d
  if pieces.isEmpty then r.columns
  else if r.wantsAll pieces then pieces
  else pieces.filter fun p => !r.isVirtual p

/-- The names of the virtual fields that are selected. -/
def virtualNames (d : Dialect) (r : FieldRequest) : List Text :=
  let pieces := r.pieces d
  if r.wantsAll pieces then r.virtualFields.keys
  else (pieces.filter r.isVirtual).map Text.afterLastDot

/-- The virtual fields that are selected, with their expressions. -/
def virtualPieces (d : Dialect) (r : FieldRequest) : List (Text × Text) :=
  (r.virtualNames d).filterMap fun name => (r.virtualFields.get? name).map fun sql => (name, sql)

/-- A virtual field: its expression in parentheses, under the alias and its name. -/
def writeVirtual (s : Source) (r : FieldRequest) (field : Text × Text) : Render Text :=
  let label := r.aliasName ++ s.separator ++ field.1
  if r.quoting then do
    let name ← Render.ask label
    pure ("(" ++ Identifier.quoteFields s.dialect field.2 ++ ") AS " ++ name)
  else pure ("(" ++ field.2 ++ ") AS " ++ label)

/-- The answer to a request: each field once. -/
def compose (s : Source) (r : FieldRequest) : Render (List Text) := do
  let virtuals ← Render.each (writeVirtual s r) (r.virtualPieces s.dialect)
  let columns ←
    if r.quoting then Render.each (Field.write s.dialect r.aliasName) (r.columnPieces s.dialect)
    else pure (r.columnPieces s.dialect)
  pure (columns ++ virtuals).eraseDups

end FieldRequest

/-- The fields of a model under an alias, or under the model's own. -/
def Source.fields (_ : Source) (m : Model) (label : Option Text) (requested : List Text)
    (quoting : Bool) : Render (List Text) :=
  Render.askFields (m.fieldRequest label requested quoting)

end SqlComposer
