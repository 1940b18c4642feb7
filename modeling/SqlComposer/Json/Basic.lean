import SqlComposer.Text.Basic

/-!
# JSON values

JSON values, and their compact text: no blanks, text as it is but for the characters that have to
be escaped.
-/

namespace SqlComposer

/-- A JSON value. Numbers are kept as they are written, objects in the order of their members. -/
inductive Json where
  | null
  | bool (b : Bool)
  | number (literal : Text)
  | string (t : Text)
  | array (items : List Json)
  | object (members : List (Text × Json))
  /-- A string, or an object with a key, whose escapes denote no text. -/
  | broken

namespace Json

instance : Inhabited Json := ⟨null⟩

/-- The digits of a number below 16. -/
def hexDigit (n : Nat) : Char :=
  Nat.digitChar n

/-- A character inside a JSON string. -/
def escapeChar (c : Char) : Text :=
  match c with
  | '"' => "\\\""
  | '\\' => "\\\\"
  | '\n' => "\\n"
  | '\r' => "\\r"
  | '\t' => "\\t"
  | c =>
    if c.toNat = 8 then "\\b"
    else if c.toNat = 12 then "\\f"
    else if c.toNat < 32 then "\\u00" ++ [hexDigit (c.toNat / 16), hexDigit (c.toNat % 16)]
    else [c]

/-- A text as a JSON string. -/
def quoted (t : Text) : Text :=
  '"' :: t.flatMap escapeChar ++ ['"']

mutual

/-- The compact text of a value. -/
def print : Json → Text
  | .null => "null"
  | .bool true => "true"
  | .bool false => "false"
  | .number literal => literal
  | .string t => quoted t
  | .array [] => "[]"
  | .array (item :: items) => '[' :: print item ++ printItems items ++ [']']
  | .object [] => ['\x7b', '\x7d']
  | .object ((key, value) :: members) =>
    '\x7b' :: quoted key ++ ':' :: print value ++ printMembers members ++ ['\x7d']
  | .broken => "null"

/-- The items of an array after the first. -/
def printItems : List Json → Text
  | [] => []
  | item :: items => ',' :: print item ++ printItems items

/-- The members of an object after the first. -/
def printMembers : List (Text × Json) → Text
  | [] => []
  | (key, value) :: members => ',' :: quoted key ++ ':' :: print value ++ printMembers members

end

/-- An array of strings. -/
def strings (ts : List Text) : Json :=
  .array (ts.map .string)

/-- A string, or null for none. -/
def optional (t : Option Text) : Json :=
  match t with
  | some t => .string t
  | none => .null

/-- A natural number. -/
def nat (n : Nat) : Json :=
  .number (Text.ofNat n)

end Json

end SqlComposer
