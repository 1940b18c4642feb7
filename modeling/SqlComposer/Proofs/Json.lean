import SqlComposer.Json.Reader

/-!
# Written JSON can be told apart

A string that was written is read back as it was. From this it follows that values without numbers
are written differently if they differ, whatever text follows them.
-/

namespace SqlComposer.Json

/-! ### Strings -/

/-- The item as which a character of a written string is read. -/
def itemOf (c : Char) : StringItem :=
  if c.toNat < 32 then .unit c.toNat else .char c

theorem hexValue?_hexDigit {n : Nat} (h : n < 16) : hexValue? (hexDigit n) = some n := by
  revert n
  decide

theorem stringItems_quote (rest : Text) : stringItems ('"' :: rest) = some ([], rest) := by
  rw [stringItems.eq_def]
  rfl

theorem stringItems_escaped {e : Char} {item : StringItem} (he : e ≠ 'u')
    (hi : escaped? e = some item) (rest : Text) :
    stringItems ('\\' :: e :: rest) = (stringItems rest).map fun r => (item :: r.1, r.2) := by
  rw [stringItems.eq_def]
  cases hr : stringItems rest <;> simp [he, hi, hr]

theorem stringItems_hex {h i j k : Char} {n : Nat} (hn : hex4? h i j k = some n) (rest : Text) :
    stringItems ('\\' :: 'u' :: h :: i :: j :: k :: rest) =
      (stringItems rest).map fun r => (.unit n :: r.1, r.2) := by
  rw [stringItems.eq_def]
  simp only [hn]
  cases stringItems rest <;> rfl

theorem stringItems_plain {c : Char} (hq : c ≠ '"') (hb : c ≠ '\\') (h : ¬c.toNat < 32)
    (rest : Text) :
    stringItems (c :: rest) = (stringItems rest).map fun r => (.char c :: r.1, r.2) := by
  rw [stringItems.eq_def]
  cases hr : stringItems rest <;> simp [hq, hb, h, hr]

theorem stringItems_escapeChar (c : Char) (rest : Text) :
    stringItems (escapeChar c ++ rest) = (stringItems rest).map fun r => (itemOf c :: r.1, r.2) := by
  unfold escapeChar
  split
  · exact stringItems_escaped (by decide) rfl rest
  · exact stringItems_escaped (by decide) rfl rest
  · exact stringItems_escaped (by decide) rfl rest
  · exact stringItems_escaped (by decide) rfl rest
  · exact stringItems_escaped (by decide) rfl rest
  · next hq hb _ _ _ =>
    split
    · next h =>
      rw [itemOf, if_pos (by omega), h]
      exact stringItems_escaped (by decide) rfl rest
    · split
      · next h =>
        rw [itemOf, if_pos (by omega), h]
        exact stringItems_escaped (by decide) rfl rest
      · split
        · next h =>
          have hu : hex4? '0' '0' (hexDigit (c.toNat / 16)) (hexDigit (c.toNat % 16)) =
              some c.toNat := by
            rw [hex4?, hexValue?_hexDigit (by omega), hexValue?_hexDigit (by omega)]
            simp [hexValue?]
            omega
          rw [itemOf, if_pos h]
          exact stringItems_hex hu rest
        · next h =>
          rw [itemOf, if_neg h]
          exact stringItems_plain hq hb h rest

theorem itemsText?_unit {n : Nat} (h : n < 0xD800) (items : List StringItem) :
    itemsText? (.unit n :: items) = (itemsText? items).map (Char.ofNat n :: ·) := by
  have h1 : ¬(0xD800 ≤ n ∧ n < 0xDC00) := by omega
  have h2 : ¬(0xDC00 ≤ n ∧ n < 0xE000) := by omega
  have h3 : ¬(0xD800 ≤ n ∧ n < 0xE000) := by omega
  rw [itemsText?.eq_def]
  cases items with
  | nil => simp [h3]
  | cons item items =>
    cases item with
    | char c => simp [h3]
    | unit m => simp [h1, h2]

theorem itemsText?_itemOf (t : Text) : itemsText? (t.map itemOf) = some t := by
  induction t with
  | nil => rfl
  | cons c t ih =>
    rw [List.map_cons, itemOf]
    split
    · next h => rw [itemsText?_unit (by omega), ih, Option.map_some, Char.ofNat_toNat]
    · rw [itemsText?, ih, Option.map_some]

/-- A written string is read back, whatever follows it. -/
theorem readString_escaped (t rest : Text) :
    readString (t.flatMap escapeChar ++ '"' :: rest) = some (some t, rest) := by
  have h : stringItems (t.flatMap escapeChar ++ '"' :: rest) = some (t.map itemOf, rest) := by
    induction t with
    | nil => exact stringItems_quote rest
    | cons c t ih =>
      rw [List.flatMap_cons, List.append_assoc, stringItems_escapeChar, ih]
      rfl
  rw [readString, h, Option.map_some, itemsText?_itemOf]

theorem quoted_append_inj {t u x y : Text} (h : quoted t ++ x = quoted u ++ y) : t = u ∧ x = y := by
  have ht : ∀ t x : Text, quoted t ++ x = '"' :: (t.flatMap escapeChar ++ '"' :: x) := by
    simp [quoted]
  rw [ht, ht, List.cons_eq_cons] at h
  have hr := congrArg readString h.2
  rw [readString_escaped, readString_escaped] at hr
  simpa using hr

/-! ### Values -/

mutual

/-- Whether a value has no numbers in it, whose text is not bound to any form. -/
def Unnumbered : Json → Prop
  | .null => True
  | .bool _ => True
  | .number _ => False
  | .string _ => True
  | .array items => UnnumberedItems items
  | .object members => UnnumberedMembers members
  | .broken => False

def UnnumberedItems : List Json → Prop
  | [] => True
  | item :: items => Unnumbered item ∧ UnnumberedItems items

def UnnumberedMembers : List (Text × Json) → Prop
  | [] => True
  | (_, value) :: members => Unnumbered value ∧ UnnumberedMembers members

end

/-- The first character of a written value. -/
def lead : Json → Char
  | .null => 'n'
  | .bool true => 't'
  | .bool false => 'f'
  | .number _ => '0'
  | .string _ => '"'
  | .array _ => '['
  | .object _ => '\x7b'
  | .broken => 'n'

theorem print_eq_lead {a : Json} (ha : Unnumbered a) : ∃ r, print a = lead a :: r := by
  cases a with
  | null => exact ⟨_, rfl⟩
  | bool b => cases b <;> exact ⟨_, rfl⟩
  | number _ => exact ha.elim
  | string t => exact ⟨_, rfl⟩
  | array items => cases items <;> exact ⟨_, rfl⟩
  | object members => cases members <;> exact ⟨_, rfl⟩
  | broken => exact ha.elim

theorem lead_ne_bracket {a : Json} : lead a ≠ ']' := by
  cases a with
  | bool b => cases b <;> simp [lead]
  | _ => simp [lead]

theorem lead_eq_of_append {a b : Json} (ha : Unnumbered a) (hb : Unnumbered b) {x y : Text}
    (h : print a ++ x = print b ++ y) : lead a = lead b := by
  obtain ⟨r, hr⟩ := print_eq_lead ha
  obtain ⟨s, hs⟩ := print_eq_lead hb
  rw [hr, hs, List.cons_append, List.cons_append, List.cons_eq_cons] at h
  exact h.1

mutual

/-- A value is told apart from any other by its text, whatever follows. -/
theorem print_append_inj {a b : Json} (ha : Unnumbered a) (hb : Unnumbered b) {x y : Text}
    (h : print a ++ x = print b ++ y) : a = b ∧ x = y := by
  have hl := lead_eq_of_append ha hb h
  -- Values of different kinds begin with different characters, so only these pairs are left.
  match a, b with
  | .null, .null => exact ⟨rfl, List.append_cancel_left h⟩
  | .bool true, .bool true => exact ⟨rfl, List.append_cancel_left h⟩
  | .bool false, .bool false => exact ⟨rfl, List.append_cancel_left h⟩
  | .string t, .string u =>
    obtain ⟨rfl, hx⟩ := quoted_append_inj h
    exact ⟨rfl, hx⟩
  | .array [], .array [] => exact ⟨rfl, List.append_cancel_left h⟩
  | .array [], .array (b :: bs) =>
    obtain ⟨r, hr⟩ := print_eq_lead hb.1
    simp only [print, hr, List.cons_append] at h
    have hc := (List.cons_eq_cons.1 (List.cons_eq_cons.1 h).2).1
    exact absurd hc.symm lead_ne_bracket
  | .array (a :: as), .array [] =>
    obtain ⟨r, hr⟩ := print_eq_lead ha.1
    simp only [print, hr, List.cons_append] at h
    have hc := (List.cons_eq_cons.1 (List.cons_eq_cons.1 h).2).1
    exact absurd hc lead_ne_bracket
  | .array (a :: as), .array (b :: bs) =>
    simp only [print, List.cons_append, List.append_assoc, List.nil_append, List.cons_eq_cons,
      true_and] at h
    obtain ⟨rfl, hi⟩ := print_append_inj ha.1 hb.1 h
    obtain ⟨rfl, hx⟩ := printItems_append_inj ha.2 hb.2 hi
    exact ⟨rfl, hx⟩
  | .object [], .object [] => exact ⟨rfl, List.append_cancel_left h⟩
  | .object [], .object ((_, _) :: _) =>
    simp [print, quoted] at h
  | .object ((_, _) :: _), .object [] =>
    simp [print, quoted] at h
  | .object ((k, a) :: as), .object ((l, b) :: bs) =>
    simp only [print, List.cons_append, List.append_assoc, List.nil_append, List.cons_eq_cons,
      true_and] at h
    obtain ⟨rfl, hk⟩ := quoted_append_inj h
    obtain ⟨rfl, hv⟩ := print_append_inj ha.1 hb.1 (List.cons_eq_cons.1 hk).2
    obtain ⟨rfl, hx⟩ := printMembers_append_inj ha.2 hb.2 hv
    exact ⟨rfl, hx⟩

theorem printItems_append_inj {as bs : List Json} (ha : UnnumberedItems as)
    (hb : UnnumberedItems bs) {x y : Text}
    (h : printItems as ++ ']' :: x = printItems bs ++ ']' :: y) : as = bs ∧ x = y := by
  match as, bs with
  | [], [] => exact ⟨rfl, (List.cons_eq_cons.1 h).2⟩
  | [], _ :: _ => exact absurd (List.cons_eq_cons.1 h).1 (by decide)
  | _ :: _, [] => exact absurd (List.cons_eq_cons.1 h).1 (by decide)
  | a :: as, b :: bs =>
    simp only [printItems, List.cons_append, List.append_assoc, List.cons_eq_cons, true_and] at h
    obtain ⟨rfl, hi⟩ := print_append_inj ha.1 hb.1 h
    obtain ⟨rfl, hx⟩ := printItems_append_inj ha.2 hb.2 hi
    exact ⟨rfl, hx⟩

theorem printMembers_append_inj {as bs : List (Text × Json)} (ha : UnnumberedMembers as)
    (hb : UnnumberedMembers bs) {x y : Text}
    (h : printMembers as ++ '\x7d' :: x = printMembers bs ++ '\x7d' :: y) : as = bs ∧ x = y := by
  match as, bs with
  | [], [] => exact ⟨rfl, (List.cons_eq_cons.1 h).2⟩
  | [], (_, _) :: _ => exact absurd (List.cons_eq_cons.1 h).1 (by decide)
  | (_, _) :: _, [] => exact absurd (List.cons_eq_cons.1 h).1 (by decide)
  | (k, a) :: as, (l, b) :: bs =>
    simp only [printMembers, List.cons_append, List.append_assoc, List.cons_eq_cons, true_and] at h
    obtain ⟨rfl, hk⟩ := quoted_append_inj h
    obtain ⟨rfl, hv⟩ := print_append_inj ha.1 hb.1 (List.cons_eq_cons.1 hk).2
    obtain ⟨rfl, hx⟩ := printMembers_append_inj ha.2 hb.2 hv
    exact ⟨rfl, hx⟩

end

theorem print_inj {a b : Json} (ha : Unnumbered a) (hb : Unnumbered b) (h : print a = print b) :
    a = b :=
  (print_append_inj ha hb (congrArg (· ++ []) h)).1

/-! ### Strings within values -/

theorem unnumbered_strings (ts : List Text) : Unnumbered (strings ts) := by
  have h : UnnumberedItems (ts.map string) := by
    induction ts with
    | nil => trivial
    | cons t ts ih => exact ⟨trivial, ih⟩
  exact h

theorem unnumbered_members (ms : List (Text × Text)) :
    UnnumberedMembers (ms.map fun m => (m.1, string m.2)) := by
  induction ms with
  | nil => trivial
  | cons m ms ih => exact ⟨trivial, ih⟩

theorem unnumbered_optional (t : Option Text) : Unnumbered (optional t) := by
  cases t <;> trivial

theorem strings_inj {ts us : List Text} (h : strings ts = strings us) : ts = us := by
  rw [strings, strings, Json.array.injEq] at h
  exact (List.map_inj_right fun _ _ => Json.string.inj).1 h

theorem members_inj {ms ns : List (Text × Text)}
    (h : ms.map (fun m => (m.1, string m.2)) = ns.map fun n => (n.1, string n.2)) : ms = ns := by
  refine (List.map_inj_right fun a b hab => ?_).1 h
  rw [Prod.mk.injEq, Json.string.injEq] at hab
  exact Prod.ext hab.1 hab.2

end SqlComposer.Json
