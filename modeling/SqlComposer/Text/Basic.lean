import SqlComposer.Text.CharClass

/-!
# Text

A text is the list of its characters, so that everything said about it is said by recursion on
lists. This module holds what the rest of the library does with plain text: trimming blanks,
cutting at characters and at fragments, replacing fragments, joining, and ASCII letter case.
-/

namespace SqlComposer

open CharClass

/-- A text, as the list of its characters. -/
abbrev Text := List Char

instance : Coe String Text := ⟨String.toList⟩

namespace Text

/-! ### Blanks -/

/-- The text without its leading blanks. -/
def trimStart (t : Text) : Text :=
  t.dropWhile isBlank

/-- The text without its trailing blanks. -/
def trimEnd : Text → Text
  | [] => []
  | c :: cs =>
    match trimEnd cs with
    | [] => if isBlank c then [] else [c]
    | d :: ds => c :: d :: ds

/-- The text without the blanks around it. -/
def trim (t : Text) : Text :=
  trimEnd (trimStart t)

/-- Whether a text is empty but for blanks. -/
def blank (t : Text) : Bool :=
  t.all isBlank

theorem trimEnd_sublist (t : Text) : (trimEnd t).Sublist t := by
  induction t with
  | nil => exact List.Sublist.refl []
  | cons c cs ih =>
    unfold trimEnd
    split
    · split
      · exact List.nil_sublist _
      · exact (List.nil_sublist cs).cons_cons c
    · next h =>
      rw [h] at ih
      exact ih.cons_cons c

theorem trim_sublist (t : Text) : (trim t).Sublist t :=
  (trimEnd_sublist _).trans (List.dropWhile_sublist _)

theorem length_trimEnd_le (t : Text) : (trimEnd t).length ≤ t.length :=
  (trimEnd_sublist t).length_le

theorem length_trim_le (t : Text) : (trim t).length ≤ t.length :=
  (trim_sublist t).length_le

theorem isEmpty_trimEnd (t : Text) : (trimEnd t).isEmpty = blank t := by
  induction t with
  | nil => rfl
  | cons c cs ih =>
    unfold trimEnd
    split
    · next h =>
      rw [h] at ih
      cases hc : CharClass.isBlank c <;> simp_all [blank]
    · next h =>
      rw [h] at ih
      simp_all [blank]

theorem isEmpty_trim (t : Text) : (trim t).isEmpty = blank t := by
  rw [trim, isEmpty_trimEnd]
  induction t with
  | nil => rfl
  | cons c cs ih =>
    cases hc : CharClass.isBlank c <;> simp_all [blank, trimStart]

/-! ### Cutting at characters -/

/-- The pieces between the characters that satisfy `p`; one more than there are such characters. -/
def splitBy (p : Char → Bool) : Text → List Text
  | [] => [[]]
  | c :: cs =>
    if p c then [] :: splitBy p cs
    else
      match splitBy p cs with
      | [] => [[c]]
      | w :: ws => (c :: w) :: ws

theorem eq_false_of_mem_splitBy {p : Char → Bool} {t w : Text} (h : w ∈ splitBy p t) :
    ∀ c ∈ w, p c = false := by
  induction t generalizing w with
  | nil =>
    rw [List.mem_singleton.1 h]
    exact fun c hc => absurd hc List.not_mem_nil
  | cons e es ih =>
    rw [splitBy] at h
    cases he : p e with
    | true =>
      rw [if_pos he] at h
      rcases List.mem_cons.1 h with rfl | h
      · exact fun c hc => absurd hc List.not_mem_nil
      · exact ih h
    | false =>
      rw [if_neg (Bool.eq_false_iff.1 he)] at h
      cases hs : splitBy p es with
      | nil =>
        rw [hs] at h
        rw [List.mem_singleton.1 h]
        exact List.forall_mem_singleton.2 he
      | cons v vs =>
        rw [hs] at h ih
        rcases List.mem_cons.1 h with rfl | h
        · exact List.forall_mem_cons.2 ⟨he, ih List.mem_cons_self⟩
        · exact ih (List.mem_cons_of_mem _ h)

/-- The maximal runs of characters that are no blanks. -/
def words (t : Text) : List Text :=
  (splitBy isBlank t).filter fun w => !w.isEmpty

/-- The text before the first character that satisfies `p`, and the text after it. -/
def cutFirst (p : Char → Bool) : Text → Option (Text × Text)
  | [] => none
  | c :: cs =>
    if p c then some ([], cs)
    else (cutFirst p cs).map fun r => (c :: r.1, r.2)

/-- The text before the last character that satisfies `p`, and the text after it. -/
def cutLast (p : Char → Bool) : Text → Option (Text × Text)
  | [] => none
  | c :: cs =>
    match cutLast p cs with
    | some r => some (c :: r.1, r.2)
    | none => if p c then some ([], cs) else none

/-- The text after its last dot, all of it if there is none. -/
def afterLastDot (t : Text) : Text :=
  match cutLast (· == '.') t with
  | some r => r.2
  | none => t

theorem length_cutFirst {p : Char → Bool} {t a b : Text} (h : cutFirst p t = some (a, b)) :
    a.length + b.length < t.length := by
  induction t generalizing a b with
  | nil => simp [cutFirst] at h
  | cons c cs ih =>
    unfold cutFirst at h
    split at h
    · simp only [Option.some.injEq, Prod.mk.injEq] at h
      obtain ⟨rfl, rfl⟩ := h
      simp
    · obtain ⟨r, hr, he⟩ := Option.map_eq_some_iff.1 h
      simp only [Prod.mk.injEq] at he
      obtain ⟨rfl, rfl⟩ := he
      have := ih hr
      simp only [List.length_cons]
      omega

/-! ### Cutting at fragments -/

/-- What follows a fragment that the text starts with. -/
def after? (head t : Text) : Option Text :=
  if head.isPrefixOf t then some (t.drop head.length) else none

/-- What stands before a fragment that the text ends with. -/
def before? (tail t : Text) : Option Text :=
  if tail.isSuffixOf t then some (t.take (t.length - tail.length)) else none

/-- The text before the first occurrence of a fragment, and the text from there on. -/
def breakAt (needle : Text) : Text → Option (Text × Text)
  | [] => if needle.isEmpty then some ([], []) else none
  | c :: cs =>
    if needle.isPrefixOf (c :: cs) then some ([], c :: cs)
    else (breakAt needle cs).map fun r => (c :: r.1, r.2)

/-- Whether a fragment occurs in the text. -/
def has (needle t : Text) : Bool :=
  (breakAt needle t).isSome

/-- The pieces between the occurrences of a fragment, found from the left and never overlapping.
An empty fragment occurs nowhere. -/
def pieces (sep : Text) : Text → List Text
  | [] => [[]]
  | c :: cs =>
    if sep.isEmpty = false ∧ sep.isPrefixOf (c :: cs) then
      [] :: pieces sep ((c :: cs).drop sep.length)
    else
      match pieces sep cs with
      | [] => [[c]]
      | w :: ws => (c :: w) :: ws
termination_by t => t.length
decreasing_by
  · rename_i h
    have hs : sep.length ≠ 0 := by
      intro h0
      simp [List.length_eq_zero_iff.1 h0] at h
    simp only [List.length_drop, List.length_cons]
    omega
  · simp

/-- The texts one after another, with a separator between neighbours. -/
def join (sep : Text) (parts : List Text) : Text :=
  sep.intercalate parts

theorem join_cons_cons (sep a b : Text) (l : List Text) :
    join sep (a :: b :: l) = a ++ sep ++ join sep (b :: l) := by
  simp [join, List.intercalate]

@[simp] theorem join_singleton (sep a : Text) : join sep [a] = a := by
  simp [join, List.intercalate]

/-- Every occurrence of one fragment, found from the left, replaced by another. -/
def replace (old new t : Text) : Text :=
  join new (pieces old t)

/-- The items joined by single blanks, empty ones included. -/
def unwords (parts : List Text) : Text :=
  join [' '] parts

/-! ### Letter case -/

/-- The text with ASCII letters in lower case. -/
def asciiLower (t : Text) : Text :=
  t.map Char.toLower

theorem asciiLower_append (a b : Text) : asciiLower (a ++ b) = asciiLower a ++ asciiLower b :=
  List.map_append

/-- The text with ASCII letters in upper case. -/
def asciiUpper (t : Text) : Text :=
  t.map Char.toUpper

/-- Equality up to the case of ASCII letters. -/
def sameLetters (a b : Text) : Bool :=
  asciiLower a == asciiLower b

/-! ### Numbers -/

/-- The decimal digits of a number. -/
def ofNat (n : Nat) : Text :=
  Nat.toDigits 10 n

/-- The decimal digits of a number, after a minus sign if it is negative. -/
def ofInt : Int → Text
  | .ofNat n => ofNat n
  | .negSucc n => '-' :: ofNat (n + 1)

/-- Whether every character is an ASCII digit. -/
def allDigits (t : Text) : Bool :=
  t.all Char.isDigit

/-- The number written by decimal digits. -/
def toNat (digits : Text) : Nat :=
  digits.foldl (fun n c => 10 * n + (c.toNat - 48)) 0

/-- The number written by decimal digits, behind a minus sign if it is negative. -/
def toInt : Text → Int
  | '-' :: digits => -(toNat digits : Int)
  | digits => toNat digits

/-- The digits of a number, filled up with zeros from the left to a width. -/
def padded (width n : Nat) : Text :=
  let digits := ofNat n
  List.replicate (width - digits.length) '0' ++ digits

/-- The number of bytes that the text takes in UTF-8. -/
def byteLength (t : Text) : Nat :=
  t.foldl (fun n c => n + c.utf8Size) 0

end Text

end SqlComposer
