import SqlComposer.Text.Basic

/-!
# Words of a name

How a name such as `BlogPost` or `HTTPServer` falls into words, and its snake-case form. A name is
first cut at every character that is neither letter nor number; inside a piece a word ends where
lower case turns to upper case, and before the last capital of a row of capitals that goes on in
lower case.
-/

namespace SqlComposer.Text

open CharClass

/-- The case of the last cased character of the word being read. -/
inductive CaseMode where
  | boundary
  | lower
  | upper
deriving DecidableEq

/-- The mode after a character that does not end the word. -/
def CaseMode.after (mode : CaseMode) (c : Char) : CaseMode :=
  if isLower c then .lower else if isUpper c then .upper else mode

/-- The words of a piece, where `word` has been read of the first one already. -/
def caseWords (mode : CaseMode) (word : Text) : Text → List Text
  | [] => []
  | [c] => [word ++ [c]]
  | c :: next :: rest =>
    if mode.after c = .lower && isUpper next then
      (word ++ [c]) :: caseWords .boundary [] (next :: rest)
    else if mode = .upper && isUpper c && isLower next then
      word :: caseWords .boundary [c] (next :: rest)
    else caseWords (mode.after c) (word ++ [c]) (next :: rest)

/-- The words of a name, as they are written in it. -/
def nameWords (name : Text) : List Text :=
  (splitBy (fun c => !isAlphanumeric c) name).flatMap (caseWords .boundary [])

/-- A word in lower case; a capital sigma at its end takes the final form. -/
def lowerWord : Text → Text
  | [] => []
  | [c] => if c == 'Σ' then ['ς'] else toLower c
  | c :: cs => toLower c ++ lowerWord cs

/-- The words of a name in lower case, joined by underscores. -/
def snakeCase (name : Text) : Text :=
  join ['_'] ((nameWords name).map lowerWord)

end SqlComposer.Text
