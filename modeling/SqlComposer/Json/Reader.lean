import SqlComposer.Json.Basic

/-!
# Reading JSON

A JSON text is read strictly: one value, with blanks around it, and nothing else. Strings and keys
whose escapes denote no text are accepted where their value does not matter; they are read as
`Json.broken`.
-/

namespace SqlComposer.Json

/-- The text without leading JSON blanks, of which there are four. -/
def skipBlanks (t : Text) : Text :=
  t.dropWhile fun c => c == ' ' || c == '\n' || c == '\t' || c == '\r'

/-! ### Strings -/

/-- The value of a hexadecimal digit. -/
def hexValue? (c : Char) : Option Nat :=
  if c.isDigit then some (c.toNat - 48)
  else if 'a' ≤ c && c ≤ 'f' then some (c.toNat - 87)
  else if 'A' ≤ c && c ≤ 'F' then some (c.toNat - 55)
  else none

/-- The number that four hexadecimal digits write. -/
def hex4? (a b c d : Char) : Option Nat := do
  let a ← hexValue? a
  let b ← hexValue? b
  let c ← hexValue? c
  let d ← hexValue? d
  some (a * 4096 + b * 256 + c * 16 + d)

/-- An item of a string: a character, or a code unit given by its number. -/
inductive StringItem where
  | char (c : Char)
  | unit (n : Nat)

/-- The item that a backslash and a character stand for. -/
def escaped? (c : Char) : Option StringItem :=
  if c == '"' || c == '\\' || c == '/' then some (.char c)
  else if c == 'b' then some (.unit 8)
  else if c == 'f' then some (.unit 12)
  else if c == 'n' then some (.unit 10)
  else if c == 'r' then some (.unit 13)
  else if c == 't' then some (.unit 9)
  else none

/-- The items of a string up to its closing quote, and the text after that. -/
def stringItems : Text → Option (List StringItem × Text)
  | [] => none
  | c :: cs =>
    if c == '"' then some ([], cs)
    else if c == '\\' then
      match cs with
      | 'u' :: h :: i :: j :: k :: rest => do
        let n ← hex4? h i j k
        let (items, rest) ← stringItems rest
        some (.unit n :: items, rest)
      | e :: rest => do
        let item ← escaped? e
        let (items, rest) ← stringItems rest
        some (item :: items, rest)
      | [] => none
    else if c.toNat < 32 then none
    else do
      let (items, rest) ← stringItems cs
      some (.char c :: items, rest)

/-- The text of a row of items; none if a half of a surrogate pair is without the other. -/
def itemsText? : List StringItem → Option Text
  | [] => some []
  | .char c :: items => (itemsText? items).map (c :: ·)
  | .unit n :: .unit m :: items =>
    if 0xD800 ≤ n ∧ n < 0xDC00 then
      if 0xDC00 ≤ m ∧ m < 0xE000 then
        (itemsText? items).map (Char.ofNat (0x10000 + (n - 0xD800) * 1024 + (m - 0xDC00)) :: ·)
      else none
    else if 0xDC00 ≤ n ∧ n < 0xE000 then none
    else (itemsText? (.unit m :: items)).map (Char.ofNat n :: ·)
  | .unit n :: items =>
    if 0xD800 ≤ n ∧ n < 0xE000 then none
    else (itemsText? items).map (Char.ofNat n :: ·)

/-- A string after its opening quote, if its form is right: its text, if it has one, and what
follows it. -/
def readString (t : Text) : Option (Option Text × Text) :=
  (stringItems t).map fun r => (itemsText? r.1, r.2)

/-! ### Numbers -/

/-- One or more digits, and the text after them. -/
def readDigits (t : Text) : Option (Text × Text) :=
  let digits := t.takeWhile Char.isDigit
  if digits.isEmpty then none else some (digits, t.drop digits.length)

/-- The whole part of a number: a zero, or digits without a leading zero. -/
def readWhole (t : Text) : Option (Text × Text) := do
  let (digits, rest) ← readDigits t
  if digits.head? == some '0' && digits.length != 1 then none else some (digits, rest)

/-- A point and digits, if there is a point. -/
def readFraction : Text → Option (Text × Text)
  | '.' :: rest => (readDigits rest).map fun r => ('.' :: r.1, r.2)
  | rest => some ([], rest)

/-- The mark of an exponent, a sign and digits, if there is such a mark. -/
def readExponent : Text → Option (Text × Text)
  | e :: rest =>
    if e == 'e' || e == 'E' then
      let sign := rest.take (if rest.head? == some '+' || rest.head? == some '-' then 1 else 0)
      (readDigits (rest.drop sign.length)).map fun r => (e :: sign ++ r.1, r.2)
    else some ([], e :: rest)
  | [] => some ([], [])

/-- A number, and the text after it. -/
def readNumber (t : Text) : Option (Text × Text) := do
  let sign := t.take (if t.head? == some '-' then 1 else 0)
  let (whole, rest) ← readWhole (t.drop sign.length)
  let (fraction, rest) ← readFraction rest
  let (exponent, rest) ← readExponent rest
  some (sign ++ whole ++ fraction ++ exponent, rest)

/-! ### Values -/

/-- An object of members whose keys may denote no text. -/
def objectOf (members : List (Option Text × Json)) : Json :=
  match members.mapM fun m => m.1.map fun key => (key, m.2) with
  | some members => .object members
  | none => .broken

mutual

/-- A value, and the text after it; `fuel` bounds the nesting together with the row of items. -/
def readValue : Nat → Text → Option (Json × Text)
  | 0, _ => none
  | fuel + 1, t =>
    match skipBlanks t with
    | [] => none
    | c :: rest =>
      if c == '"' then
        (readString rest).map fun r => ((r.1.map Json.string).getD .broken, r.2)
      else if c == '[' then
        match skipBlanks rest with
        | ']' :: rest => some (.array [], rest)
        | rest => (readItems fuel rest).map fun r => (.array r.1, r.2)
      else if c == '\x7b' then
        match skipBlanks rest with
        | '\x7d' :: rest => some (.object [], rest)
        | rest => (readMembers fuel rest).map fun r => (objectOf r.1, r.2)
      else if c == '-' || c.isDigit then
        (readNumber (c :: rest)).map fun r => (.number r.1, r.2)
      else
        match Text.after? "true" (c :: rest), Text.after? "false" (c :: rest),
          Text.after? "null" (c :: rest) with
        | some rest, _, _ => some (.bool true, rest)
        | _, some rest, _ => some (.bool false, rest)
        | _, _, some rest => some (.null, rest)
        | _, _, _ => none

/-- One or more values with commas between them, up to a closing bracket. -/
def readItems : Nat → Text → Option (List Json × Text)
  | 0, _ => none
  | fuel + 1, t =>
    match readValue fuel t with
    | none => none
    | some (item, rest) =>
      match skipBlanks rest with
      | ',' :: rest => (readItems fuel rest).map fun r => (item :: r.1, r.2)
      | ']' :: rest => some ([item], rest)
      | _ => none

/-- One or more members with commas between them, up to a closing brace. -/
def readMembers : Nat → Text → Option (List (Option Text × Json) × Text)
  | 0, _ => none
  | fuel + 1, t =>
    match skipBlanks t with
    | '"' :: rest =>
      match readString rest with
      | none => none
      | some (key, rest) =>
        match skipBlanks rest with
        | ':' :: rest =>
          match readValue fuel rest with
          | none => none
          | some (value, rest) =>
            match skipBlanks rest with
            | ',' :: rest => (readMembers fuel rest).map fun r => ((key, value) :: r.1, r.2)
            | '\x7d' :: rest => some ([(key, value)], rest)
            | _ => none
        | _ => none
    | _ => none

end

/-- The value that a text writes. -/
def read? (t : Text) : Option Json :=
  match readValue (2 * t.length + 2) t with
  | some (value, rest) => if (skipBlanks rest).isEmpty then some value else none
  | none => none

end SqlComposer.Json
