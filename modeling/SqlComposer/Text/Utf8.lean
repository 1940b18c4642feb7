import SqlComposer.Text.Basic

/-!
# Reading bytes as UTF-8

Every sequence of bytes is read as a text: a byte sequence that no character starts with gives one
replacement character for its longest part that could still have become a character.
-/

namespace SqlComposer.Utf8

/-- What the next byte may be: how many continuation bytes are owed, and the range of the next
one. -/
structure Pending where
  owed : Nat
  low : Nat
  high : Nat
deriving DecidableEq

/-- What a first byte announces: the bits it contributes and what has to follow it. -/
def lead? (b : Nat) : Option (Nat × Pending) :=
  if 0xC2 ≤ b ∧ b ≤ 0xDF then some (b - 0xC0, ⟨1, 0x80, 0xBF⟩)
  else if b = 0xE0 then some (0, ⟨2, 0xA0, 0xBF⟩)
  else if b = 0xED then some (0xD, ⟨2, 0x80, 0x9F⟩)
  else if 0xE1 ≤ b ∧ b ≤ 0xEF then some (b - 0xE0, ⟨2, 0x80, 0xBF⟩)
  else if b = 0xF0 then some (0, ⟨3, 0x90, 0xBF⟩)
  else if 0xF1 ≤ b ∧ b ≤ 0xF3 then some (b - 0xF0, ⟨3, 0x80, 0xBF⟩)
  else if b = 0xF4 then some (4, ⟨3, 0x80, 0x8F⟩)
  else none

/-- Stands for bytes that are no character. -/
def replacement : Char := Char.ofNat 0xFFFD

/-- What is read of a character: its bits so far and what it still needs. -/
abbrev Partial := Option (Nat × Pending)

/-- One byte where a new character may start. -/
def start (b : Nat) : Text × Partial :=
  if b < 0x80 then ([Char.ofNat b], none)
  else
    match lead? b with
    | some p => ([], some p)
    | none => ([replacement], none)

/-- One byte: the characters it completes, and what is read of the next one. -/
def step (state : Partial) (b : Nat) : Text × Partial :=
  match state with
  | none => start b
  | some (bits, need) =>
    if need.low ≤ b ∧ b ≤ need.high then
      let bits := bits * 64 + (b - 0x80)
      if need.owed ≤ 1 then ([Char.ofNat bits], none)
      else ([], some (bits, ⟨need.owed - 1, 0x80, 0xBF⟩))
    else
      let next := start b
      (replacement :: next.1, next.2)

/-- The characters of a byte sequence, where `state` has been read of the first one already. -/
def decodeFrom (state : Partial) : List UInt8 → Text
  | [] => if state.isSome then [replacement] else []
  | b :: bs =>
    let next := step state b.toNat
    next.1 ++ decodeFrom next.2 bs

/-- The text of a byte sequence. -/
def decode (bytes : List UInt8) : Text :=
  decodeFrom none bytes

end SqlComposer.Utf8
