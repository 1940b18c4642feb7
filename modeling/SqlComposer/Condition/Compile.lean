import SqlComposer.Condition.Key
import SqlComposer.Literal
import SqlComposer.Model
import SqlComposer.Placeholder

/-!
# Conditions as SQL

A condition compiles to a list of members, texts that a conjunction joins. Members of a group stand
in parentheses of their own, so that no connective binds across them; what has no members is
dropped. A field with a list of values becomes a test of membership, a missing value a test for
NULL, and a key with as many placeholders as there are values takes them in their places.
-/

namespace SqlComposer

open CharClass

namespace Condition

/-- What a compilation depends on besides the condition. -/
structure Scope where
  source : Source
  /-- Whether identifiers get quotes. -/
  quoting : Bool
  /-- The model whose columns give types to values and whose virtual fields are expanded. -/
  model : Option Model

namespace Scope

/-- A piece of SQL. -/
def raw (sc : Scope) (sql : Text) : Text :=
  if sc.quoting then Identifier.quoteFields sc.source.dialect sql else sql

/-- A field: a name, unless it contains parentheses, bars, arrows or blanks. -/
def field (sc : Scope) (t : Text) : Render Text :=
  if !sc.quoting then pure t
  else if t.any (fun c => c == '(' || c == ')' || c == '|') || Text.has "->" t || t.any isBlank then
    pure (Identifier.quoteFields sc.source.dialect t)
  else Render.ask t

def columnType (sc : Scope) (t : Text) : Option ColumnType :=
  sc.model.bind fun m => m.columnType t

def virtualField (sc : Scope) (t : Text) : Option Text :=
  sc.model.bind fun m => m.virtualField t

/-- A field, or the expression of a virtual field in parentheses. -/
def fieldOrVirtual (sc : Scope) (t : Text) : Render Text :=
  match sc.virtualField t with
  | some sql => pure ("(" ++ sc.raw sql ++ ")")
  | none => sc.field t

end Scope

/-! ### Groups -/

/-- The members of a group joined by its connective. A group that says NOT negates each of its
members. -/
def group (connective : Text) (members : List Text) : Option Text :=
  let keyword := Text.asciiUpper (Text.trim connective)
  let negated := Text.has "NOT" keyword
  let joint : Text := if keyword == "NOT" then "AND NOT" else keyword
  match members with
  | [] => none
  | [m] => some (if negated then "NOT (" ++ m ++ ")" else m)
  | ms =>
    let lead : Text := if negated then "NOT " else []
    some ("(" ++ lead ++ "(" ++ Text.join (") " ++ joint ++ " (") ms ++ "))")

/-- The members of a group under a key that is no connective. -/
def plainGroup (members : List Text) : Option Text :=
  match members with
  | [] => none
  | [m] => some m
  | ms => some ("(" ++ Text.join ") AND (" ms ++ ")")

/-! ### Comparisons -/

/-- What a comparand is written as. -/
inductive Written where
  | one (text : Text)
  | many (texts : List Text)

/-- A comparand in a column; an empty list is NULL. -/
def write (sc : Scope) (ty : Option ColumnType) : Comparand → Render Written
  | .one v => do
    let t ← sc.source.value v ty
    pure (.one t)
  | .many [] => pure (.one "NULL")
  | .many vs => do
    let ts ← sc.source.values vs ty
    pure (.many ts)

/-- Whether a comparand is NULL or an empty list. -/
def isMissing : Comparand → Bool
  | .one v => v.isNull
  | .many vs => vs.isEmpty

/-- The operator that applies: what the key says, followed by `=` or `IN` where that is not known
as an operator. -/
def effectiveOperator (op : Text) (listed : Bool) : Text :=
  if Key.isKnownOperator op then op
  else Text.trim (op ++ " " ++ (if listed then "IN" else "=" : Text))

/-- The operator for a list of values. -/
def listOperator (op : Text) : Text :=
  let upper := Text.asciiUpper op
  if upper == "=" then "IN"
  else if upper == "!=" || upper == "<>" then "NOT IN"
  else op

/-- The operator for NULL. -/
def nullOperator (op : Text) : Text :=
  let upper := Text.asciiUpper op
  if upper == "=" || upper == "IN" then "IS"
  else if upper == "!=" || upper == "<>" || upper == "NOT IN" then "IS NOT"
  else op

/-- A field, an operator and what it is compared with. -/
def compareText (field op : Text) (missing : Bool) : Written → Text
  | .many ts =>
    let op := effectiveOperator op true
    match ts with
    | [low, high] =>
      if List.isSuffixOf "BETWEEN" (Text.asciiUpper op) then
        field ++ " " ++ op ++ " " ++ low ++ " AND " ++ high
      else field ++ " " ++ listOperator op ++ " (" ++ low ++ ", " ++ high ++ ")"
    | ts => field ++ " " ++ listOperator op ++ " (" ++ Text.join ", " ts ++ ")"
  | .one t =>
    let op := effectiveOperator op false
    field ++ " " ++ (if missing || t == "NULL" then nullOperator op else op) ++ " " ++ t

/-- The texts of a written comparand. -/
def Written.texts : Written → List Text
  | .one t => [t]
  | .many ts => ts

/-- Whether the values of a comparand go to placeholders in the key. -/
def bindsKey (d : Dialect) (key : Text) (x : Comparand) : Bool :=
  let count := Placeholder.count d key
  match x with
  | .one _ => 0 < count.1
  | .many _ => 0 < count.1 || 0 < count.2

/-- A key that is no connective, with an operator other than NOT, and its comparand. -/
def comparison (sc : Scope) (key field op : Text) (x : Comparand) : Render Text := do
  let d := sc.source.dialect
  let written ← write sc (sc.columnType field) x
  let rendered ← sc.fieldOrVirtual field
  if bindsKey d key x then
    pure (Placeholder.bind d (Text.trimEnd (rendered ++ " " ++ op)) written.texts)
  else pure (compareText rendered op (isMissing x) written)

/-- A field and the one value of a list, in the form that takes more values later. -/
def membership (sc : Scope) (key : Text) (v : Value) : Render Text := do
  let key := Text.trim key
  let field := match Text.before? "=" key with
    | some f => Text.trimEnd f
    | none => key
  let ts ← sc.source.values [v] (sc.columnType field)
  let rendered ← sc.fieldOrVirtual field
  pure (rendered ++ " = (" ++ Text.join ", " ts ++ ")")

/-- The value of a list of one, if it is written under a key in the form that takes more values. -/
def membershipValue (d : Dialect) (key : Text) : Comparand → Option Value
  | .many [v] =>
    let count := Placeholder.count d key
    if !(count.1 == 1 || count.2 == 1) && Key.isPlainMembership key then some v else none
  | _ => none

/-- A value as a member of a boolean group: a text is a piece of SQL. -/
def groupValue (sc : Scope) : Value → Render Text
  | .text sql => pure (sc.raw sql)
  | v => sc.source.value v none

/-- The member of a key and its comparand, if there is one. A key that ends in NOT negates the
member of what stands before. -/
def leaf (sc : Scope) (key : Text) (x : Comparand) : Render (Option Text) :=
  if Key.isConnective key then do
    let members ← Render.each (groupValue sc) x.values
    pure (group key members)
  else
    match membershipValue sc.source.dialect key x with
    | some v => do
      let t ← membership sc key v
      pure (some t)
    | none =>
      if _h : Text.sameLetters (Key.split sc.source.dialect key).2 "not" = true then do
        let member ← leaf sc (Key.split sc.source.dialect key).1 x
        pure (some ((group "NOT" member.toList).getD "1 = 1"))
      else do
        let parts := Key.split sc.source.dialect key
        let t ← comparison sc key parts.1 parts.2 x
        pure (some t)
termination_by key.length
decreasing_by
  have hl := Key.length_split sc.source.dialect key
  have hn : (Key.split sc.source.dialect key).2.length = 3 := by
    have h : Text.sameLetters (Key.split sc.source.dialect key).2 "not" = true := by assumption
    simp only [Text.sameLetters, beq_iff_eq] at h
    simpa [Text.asciiLower] using congrArg List.length h
  omega

/-! ### Members -/

mutual

/-- The members of a condition. -/
def members (sc : Scope) : Condition → Render (List Text)
  | .bool b => pure [if b then "1 = 1" else "0 = 1"]
  | .raw sql =>
    let sql := Text.trim sql
    pure (if sql.isEmpty then [] else [sc.raw sql])
  | .all cs => memberTexts sc cs
  | .entries es => entryTexts sc es

/-- One member for each condition of a conjunction that has any. -/
def memberTexts (sc : Scope) : List Condition → Render (List Text)
  | [] => pure []
  | c :: cs => do
    let inner ← members sc c
    let rest ← memberTexts sc cs
    pure ((group "AND" inner).toList ++ rest)

/-- One member for each entry that has any. -/
def entryTexts (sc : Scope) : List (Text × Operand) → Render (List Text)
  | [] => pure []
  | (key, operand) :: es => do
    let member ← operandText sc key operand
    let rest ← entryTexts sc es
    pure (member.toList ++ rest)

/-- The member of an entry, if it has any. -/
def operandText (sc : Scope) (key : Text) : Operand → Render (Option Text)
  | .compare x => leaf sc key x
  | .group c => do
    let inner ← members sc c
    pure (if Key.isConnective key then group key inner else plainGroup inner)

end

/-! ### Clauses -/

/-- The clauses that a piece of SQL may bring itself. -/
def clauseStarts : List Text :=
  ["where ", "group by ", "having ", "order by "]

/-- Whether a condition is a piece of SQL that starts with a clause of its own. -/
def ownClause? : Condition → Option Text
  | .raw sql =>
    let lower := Text.asciiLower (Text.trimStart sql)
    if clauseStarts.any fun p => p.isPrefixOf lower then some (Text.trim sql) else none
  | _ => none

/-- A condition behind the head of its clause. Without members it holds of every row. -/
def clause (sc : Scope) (head : Text) (c : Condition) : Render Text :=
  match ownClause? c with
  | some sql => pure (' ' :: sc.raw sql)
  | none => do
    let ms ← members sc c
    let body : Text := if ms.isEmpty then "1 = 1" else Text.join " AND " ms
    pure (head ++ body)

end Condition

namespace Source

/-- A condition as SQL, after `WHERE` or bare. -/
def conditions (s : Source) (c : Condition) (quoting whereClause : Bool) (model : Option Model) :
    Render Text :=
  Condition.clause ⟨s, quoting, model⟩ (if whereClause then " WHERE " else []) c

/-- A HAVING clause, empty for an empty condition. -/
def having (s : Source) (c : Option Condition) (quoting : Bool) (model : Option Model) :
    Render Text :=
  match c with
  | some c => if c.isEmpty then pure [] else Condition.clause ⟨s, quoting, model⟩ " HAVING " c
  | none => pure []

/-- The members of a condition, which a conjunction joins. -/
def conditionMembers (s : Source) (c : Condition) (quoting : Bool) (model : Option Model) :
    Render (List Text) :=
  Condition.members ⟨s, quoting, model⟩ c

end Source

end SqlComposer
