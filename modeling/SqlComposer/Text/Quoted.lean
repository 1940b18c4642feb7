import SqlComposer.Text.CharClass
import SqlComposer.Text.Basic

/-!
# Text shown between double quotes

A text is shown so that every character of it can be told apart: a character without a shape of its
own is shown by its number, and nothing but the closing quote looks like a quote.
-/

namespace SqlComposer.Text

/-- A character as it stands between double quotes. -/
def shownChar (c : Char) : Text :=
  if c == '"' then ['\\', '"']
  else if c == '\\' then ['\\', '\\']
  else if c == '\n' then ['\\', 'n']
  else if c == '\r' then ['\\', 'r']
  else if c == '\t' then ['\\', 't']
  else if c.toNat == 0 then ['\\', '0']
  else if CharClass.hasShape c then [c]
  else '\\' :: 'u' :: '\x7b' :: Nat.toDigits 16 c.toNat ++ ['\x7d']

/-- A text between double quotes. -/
def shown (t : Text) : Text :=
  '"' :: t.flatMap shownChar ++ ['"']

@[simp] theorem shown_nil : shown [] = ['"', '"'] := rfl

end SqlComposer.Text
