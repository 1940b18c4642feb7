import SqlComposer.OrderedMap
import SqlComposer.Text.Basic

/-!
# Remembered answers

A memo keeps answers under a method and a key. It can be switched off, which keeps what it holds
but neither gives nor takes anything, and it can have a filter that turns answers away. Keys come
from a hash function; answers whose keys collide replace each other.
-/

namespace SqlComposer

/-- An answer: a text or a list of texts. -/
inductive Answer where
  | text (t : Text)
  | list (ts : List Text)
deriving DecidableEq

namespace Answer

/-- The answer as one text. -/
def toText : Answer → Text
  | .text t => t
  | .list ts => Text.join ", " ts

/-- The answer as a list. -/
def toList : Answer → List Text
  | .text t => [t]
  | .list ts => ts

end Answer

/-- Answers under methods and keys. -/
structure Memo where
  enabled : Bool := true
  /-- The answers, by method and key. -/
  answers : OrderedMap (Text × Text) Answer := ∅
  /-- Gives the key of a description of a question. -/
  hash : Text → Text := id
  /-- Says which answers are kept; all, if there is none. -/
  accepts : Option (Text → Text → Answer → Bool) := none

namespace Memo

/-- The number of answers. -/
def size (m : Memo) : Nat :=
  m.answers.size

def isEmpty (m : Memo) : Bool :=
  m.answers.isEmpty

/-- The answer under a method and a key, while the memo is on. -/
def get? (m : Memo) (method key : Text) : Option Answer :=
  if m.enabled then m.answers.get? (method, key) else none

/-- Whether an answer is kept. -/
def takes (m : Memo) (method key : Text) (a : Answer) : Bool :=
  m.enabled &&
    match m.accepts with
    | some accepts => accepts method key a
    | none => true

/-- The memo after an answer, which it keeps if it takes it. -/
def put (m : Memo) (method key : Text) (a : Answer) : Memo :=
  if m.takes method key a then { m with answers := m.answers.insert (method, key) a } else m

/-- The memo without answers. -/
def flush (m : Memo) : Memo :=
  { m with answers := ∅ }

/-- The memo with another hash function, under which the old answers cannot be found. -/
def withHash (m : Memo) (hash : Text → Text) : Memo :=
  { m with hash, answers := ∅ }

/-- A line that says what state the memo is in. -/
def summary (m : Memo) : Text :=
  let truth (b : Bool) : Text := if b then "true" else "false"
  "MethodCache \x7b enabled: " ++ truth m.enabled ++ ", len: " ++ Text.ofNat m.size ++
    ", filter: " ++ truth m.accepts.isSome ++ " \x7d"

end Memo

end SqlComposer
