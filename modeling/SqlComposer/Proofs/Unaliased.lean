import SqlComposer.Proofs.Attempt
import SqlComposer.Proofs.ConditionPieces
import SqlComposer.Proofs.FieldKey
import SqlComposer.Statement.Write

/-!
# Statements without an alias

A statement that does not name its table by the alias of the model has the alias taken out of its
conditions, as a piece of text wherever it occurs. That takes out the qualifiers and nothing else
exactly if the text occurs nowhere but in qualifiers.
-/

namespace SqlComposer

/-! ### Taking a fragment out -/

namespace Text

variable {old a b t : Text}

theorem replace_nil_eq (old t : Text) : replace old [] t = (pieces old t).flatten := by
  rw [replace, join]
  induction pieces old t with
  | nil => rfl
  | cons p ps ih =>
    cases ps with
    | nil => simp [List.intercalate]
    | cons q qs => simp_all [List.intercalate]

theorem pieces_ne_nil (old t : Text) : pieces old t ≠ [] := by
  cases t with
  | nil => rw [pieces]; exact List.cons_ne_nil _ _
  | cons c cs =>
    rw [pieces]
    split
    · exact List.cons_ne_nil _ _
    · split <;> exact List.cons_ne_nil _ _

theorem replace_nil_cons (hs : old ≠ []) (c : Char) (cs : Text) :
    replace old [] (c :: cs) =
      if old <+: c :: cs then replace old [] ((c :: cs).drop old.length)
      else c :: replace old [] cs := by
  have he : old.isEmpty = false := by simpa using hs
  simp only [replace_nil_eq]
  rw [pieces]
  simp only [he, true_and, List.isPrefixOf_iff_prefix]
  split
  · rfl
  · cases hp : pieces old cs with
    | nil => exact absurd hp (pieces_ne_nil old cs)
    | cons w ws => rfl

/-- A fragment in front of a text is taken out first. -/
theorem replace_nil_append (hs : old ≠ []) (t : Text) :
    replace old [] (old ++ t) = replace old [] t := by
  obtain ⟨c, cs, rfl⟩ := List.exists_cons_of_ne_nil hs
  rw [List.cons_append, replace_nil_cons hs, if_pos, ← List.cons_append, List.drop_left]
  rw [← List.cons_append]
  exact List.prefix_append _ _

/-- What stands before every occurrence stays. -/
theorem replace_nil_append_of_apart (hs : old ≠ [])
    (h : ∀ x y, a ++ b = x ++ old ++ y → a.length ≤ x.length) :
    replace old [] (a ++ b) = a ++ replace old [] b := by
  induction a with
  | nil => rfl
  | cons c cs ih =>
    have hn : ¬old <+: c :: (cs ++ b) := by
      rintro ⟨y, hy⟩
      have := h [] y (by simpa using hy.symm)
      simp at this
    rw [List.cons_append, replace_nil_cons hs, if_neg hn, ih]
    · rfl
    · intro x y hxy
      have := h (c :: x) y (by simp [hxy])
      simpa using this

theorem length_replace_nil_le (hs : old ≠ []) (t : Text) :
    (replace old [] t).length ≤ t.length := by
  have hl := List.length_pos_iff.2 hs
  induction h : t.length using Nat.strongRecOn generalizing t with
  | _ n ih =>
    cases t with
    | nil =>
      rw [replace_of_not_isInfix (by simpa using hs)]
      exact Nat.zero_le _
    | cons c cs =>
      rw [List.length_cons] at h
      rw [replace_nil_cons hs]
      split
      · have hd : ((c :: cs).drop old.length).length < n := by
          rw [List.length_drop, List.length_cons]
          omega
        have := ih _ hd _ rfl
        omega
      · have := ih cs.length (by omega) cs rfl
        rw [List.length_cons]
        omega

/-- A text in which the fragment occurs gets shorter by that much at least. -/
theorem length_replace_nil_of_isInfix (hs : old ≠ []) (h : old <:+: t) :
    (replace old [] t).length + old.length ≤ t.length := by
  induction t with
  | nil => exact absurd (List.infix_nil.1 h) hs
  | cons c cs ih =>
    rw [replace_nil_cons hs]
    split
    · next hp =>
      have hle := length_replace_nil_le hs ((c :: cs).drop old.length)
      have := hp.length_le
      rw [List.length_drop] at hle
      omega
    · next hp =>
      have := ih ((List.infix_cons_iff.1 h).resolve_left hp)
      simp only [List.length_cons]
      omega

theorem replace_nil_eq_self_iff (hs : old ≠ []) : replace old [] t = t ↔ ¬old <:+: t := by
  refine ⟨fun h hi => ?_, fun h => replace_of_not_isInfix h []⟩
  have hl := length_replace_nil_of_isInfix hs hi
  have := List.length_pos_iff.2 hs
  rw [h] at hl
  omega

/-- Whether no part of a fragment both begins and ends it, so that it never overlaps itself. -/
def Unbordered (old : Text) : Prop :=
  ∀ x w y, old = x ++ w → old = w ++ y → w = [] ∨ x = []

/-- A fragment whose last character is nowhere else in it. -/
theorem unbordered_concat {q : Text} {c : Char} (h : c ∉ q) : Unbordered (q ++ [c]) := by
  intro x w y hx hw
  rcases List.eq_nil_or_concat w with rfl | ⟨w, d, rfl⟩
  · exact .inl rfl
  · rw [List.concat_eq_append] at hx hw
    rw [← List.append_assoc] at hx
    obtain ⟨rfl, hd⟩ := List.append_inj' hx rfl
    obtain rfl : c = d := (List.cons_eq_cons.1 hd).1
    have hy : y = [] := by
      rcases List.eq_nil_or_concat y with rfl | ⟨y, e, rfl⟩
      · rfl
      · rw [List.concat_eq_append, ← List.append_assoc] at hw
        have := (List.append_inj' hw rfl).1
        exact absurd (by rw [this]; simp) h
    rw [hy, List.append_nil] at hw
    have := congrArg List.length hw
    simp only [List.length_append] at this
    exact .inr (List.eq_nil_of_length_eq_zero (by omega))

/-- A fragment that never overlaps itself does not begin again in its own end. -/
theorem Unbordered.apart (hu : Unbordered old) {w z : Text} (ha : a ≠ []) (ho : old = a ++ w)
    (x y : Text) (h : w ++ z = x ++ old ++ y) : w.length ≤ x.length := by
  rw [List.append_assoc] at h
  rcases List.append_eq_append_iff.1 h with ⟨e, rfl, -⟩ | ⟨e, rfl, he⟩
  · simp
  · rcases List.append_eq_append_iff.1 he with ⟨f, rfl, -⟩ | ⟨f, hf, -⟩
    · -- The fragment would be shorter than itself.
      have hl := congrArg List.length ho
      have := List.length_pos_iff.2 ha
      simp only [List.length_append] at hl
      omega
    · rcases hu (a ++ x) e f (by rw [ho, List.append_assoc]) hf with rfl | hax
      · simp
      · exact absurd (List.append_eq_nil_iff.1 hax).1 ha

/-- Where such a fragment is in front, it does not begin again before it has ended. -/
theorem Unbordered.prefix_of_append (hu : Unbordered old) (ha : a ≠ [])
    (h : old ++ t = a ++ old ++ b) : old <+: a := by
  rw [List.append_assoc] at h
  rcases List.append_eq_append_iff.1 h with ⟨e, rfl, -⟩ | ⟨e, ho, he⟩
  · exact List.prefix_append old e
  · have hl := hu.apart ha ho [] b (by simpa using he.symm)
    rw [List.eq_nil_of_length_eq_zero (Nat.le_zero.1 hl), List.append_nil] at ho
    rw [ho]

/-- Without the fragment a text is at most as long as its first part and what is left of the second,
and shorter if the fragment begins in the first part. -/
theorem length_replace_nil_append (hs : old ≠ []) (hu : Unbordered old) (a b : Text) :
    (replace old [] (a ++ b)).length ≤ a.length + (replace old [] b).length ∧
      ∀ x y, a ++ b = x ++ old ++ y → x.length < a.length →
        (replace old [] (a ++ b)).length < a.length + (replace old [] b).length := by
  induction h : a.length using Nat.strongRecOn generalizing a with
  | _ n ih =>
    cases a with
    | nil => exact ⟨by simp, fun x y _ hx => by simp [← h] at hx⟩
    | cons c cs =>
      rw [List.length_cons] at h
      rw [List.cons_append, replace_nil_cons hs]
      by_cases hp : old <+: c :: (cs ++ b)
      · -- Something is taken out at once.
        rw [if_pos hp]
        obtain ⟨z, hz⟩ := hp
        rw [← hz, List.drop_left]
        have hlt : (replace old [] z).length < n + (replace old [] b).length := by
          rcases List.append_eq_append_iff.1 (hz.trans (List.cons_append ..).symm) with
            ⟨w, hw, rfl⟩ | ⟨w, hw, rfl⟩
          · have hl := congrArg List.length hw
            have := List.length_pos_iff.2 hs
            simp only [List.length_cons, List.length_append] at hl
            have := (ih w.length (by omega) w rfl).1
            omega
          · have hb : replace old [] (w ++ z) = w ++ replace old [] z :=
              replace_nil_append_of_apart hs (hu.apart (List.cons_ne_nil c cs) hw)
            rw [hb, List.length_append]
            omega
        exact ⟨Nat.le_of_lt hlt, fun _ _ _ _ => hlt⟩
      · rw [if_neg hp, List.length_cons]
        obtain ⟨hle, hlt⟩ := ih cs.length (by omega) cs rfl
        refine ⟨by omega, fun x y hxy hx => ?_⟩
        cases x with
        | nil => exact absurd ⟨y, by simpa using hxy.symm⟩ hp
        | cons d x =>
          rw [List.cons_append, List.cons_append, List.cons_eq_cons] at hxy
          have := hlt x y hxy.2 (by rw [List.length_cons] at hx; omega)
          omega

end Text

/-! ### Qualifiers -/

namespace Token

variable {q : Text} {ts : List Token}

/-- Tokens without a qualifier, which is a quoted name and a dot in front of an identifier. -/
def unqualify (q : Text) : List Token → List Token
  | t :: u :: v :: rest =>
    if t = ⟨.quotedIdent, q⟩ ∧ u = ⟨.dot, ['.']⟩ ∧ (v.kind = .ident ∨ v.kind = .quotedIdent) then
      unqualify q (v :: rest)
    else t :: unqualify q (u :: v :: rest)
  | ts => ts

/-- Whether a qualifier stands behind a text in tokens. -/
def QualifiesAt (q : Text) (ts : List Token) (a : Text) : Prop :=
  ∃ us v vs, ts = us ++ ⟨.quotedIdent, q⟩ :: ⟨.dot, ['.']⟩ :: v :: vs ∧
    (v.kind = .ident ∨ v.kind = .quotedIdent) ∧ textOf us = a

/-- Whether a name and a dot stand in a text only where they are a qualifier. -/
def OnlyQualifies (q : Text) (ts : List Token) : Prop :=
  ∀ a b, textOf ts = a ++ (q ++ ['.']) ++ b → QualifiesAt q ts a

/-- No string literal is lost. -/
theorem filter_str_unqualify (q : Text) (ts : List Token) :
    (unqualify q ts).filter (·.kind = .str) = ts.filter (·.kind = .str) := by
  fun_induction unqualify q ts with
  | case1 t u v rest h ih =>
    obtain ⟨rfl, rfl, -⟩ := h
    rw [ih]
    rfl
  | case2 t u v rest h ih => rw [List.filter_cons, List.filter_cons, ih]
  | case3 ts h => rfl

theorem OnlyQualifies.tail {t : Token} (ht : t.text ≠ []) (h : OnlyQualifies q (t :: ts)) :
    OnlyQualifies q ts := by
  intro a b hab
  obtain ⟨us, v, vs, hts, hv, hus⟩ := h (t.text ++ a) b (by rw [textOf_cons, hab]; simp)
  cases us with
  | nil => exact absurd (List.append_eq_nil_iff.1 hus.symm).1 ht
  | cons t' us =>
    rw [List.cons_append, List.cons_eq_cons] at hts
    obtain ⟨rfl, rfl⟩ := hts
    rw [textOf_cons] at hus
    exact ⟨us, v, vs, rfl, hv, List.append_cancel_left hus⟩

/-- A qualifier stays one behind more tokens. -/
theorem QualifiesAt.cons {a : Text} (h : QualifiesAt q ts a) (t : Token) :
    QualifiesAt q (t :: ts) (t.text ++ a) := by
  obtain ⟨us, v, vs, rfl, hv, rfl⟩ := h
  exact ⟨t :: us, v, vs, rfl, hv, textOf_cons t us⟩

/-- Tokens in which the text does not begin inside the first one. -/
theorem OnlyQualifies.cons {t : Token} (h : OnlyQualifies q ts)
    (ht : ∀ a b, textOf (t :: ts) = a ++ (q ++ ['.']) ++ b → t.text.length ≤ a.length) :
    OnlyQualifies q (t :: ts) := by
  intro a b hab
  have hfirst : t.text <+: textOf (t :: ts) := List.prefix_append _ _
  have hfront : a <+: textOf (t :: ts) := by
    rw [hab, List.append_assoc]
    exact List.prefix_append _ _
  obtain ⟨e, rfl⟩ := List.prefix_of_prefix_length_le hfirst hfront (ht a b hab)
  exact (h e b (by simpa using hab)).cons t

theorem textOf_qualifier (q : Text) (ts : List Token) :
    textOf (⟨.quotedIdent, q⟩ :: ⟨.dot, ['.']⟩ :: ts) = (q ++ ['.']) ++ textOf ts := by
  rw [textOf_cons, textOf_cons, List.append_assoc]

/-- A further qualifier in front. -/
theorem OnlyQualifies.qualifier {v : Token} (hu : Text.Unbordered (q ++ ['.']))
    (hv : v.kind = .ident ∨ v.kind = .quotedIdent) (h : OnlyQualifies q (v :: ts)) :
    OnlyQualifies q (⟨.quotedIdent, q⟩ :: ⟨.dot, ['.']⟩ :: v :: ts) := by
  intro a b hab
  rw [textOf_qualifier] at hab
  by_cases ha : a = []
  · exact ⟨[], v, ts, rfl, hv, by rw [ha]; rfl⟩
  · obtain ⟨e, rfl⟩ := hu.prefix_of_append ha hab
    have he : textOf (v :: ts) = e ++ (q ++ ['.']) ++ b := by simpa using hab
    have := ((h e b he).cons ⟨.dot, ['.']⟩).cons ⟨.quotedIdent, q⟩
    rwa [← List.append_assoc] at this

theorem append_dot_ne_nil (q : Text) : q ++ ['.'] ≠ [] := by simp

/-- Tokens that are too few for a qualifier have none. -/
theorem not_qualifiesAt_of_short (h : ∀ t u v rest, ts = t :: u :: v :: rest → False) (a : Text) :
    ¬QualifiesAt q ts a := by
  rintro ⟨us, v, vs, rfl, -, -⟩
  cases us with
  | nil => exact h _ _ _ _ rfl
  | cons t us =>
    cases us with
    | nil => exact h _ _ _ _ rfl
    | cons u us => cases us <;> exact h _ _ _ _ rfl

/-- Where the text stands in qualifiers only, taking it out takes out the qualifiers. -/
theorem replace_textOf_of_onlyQualifies (hne : ∀ t ∈ ts, t.text ≠ []) (h : OnlyQualifies q ts) :
    Text.replace (q ++ ['.']) [] (textOf ts) = textOf (unqualify q ts) := by
  have hs := append_dot_ne_nil q
  fun_induction unqualify q ts with
  | case1 t u v rest hq ih =>
    obtain ⟨rfl, rfl, hv⟩ := hq
    rw [textOf_qualifier, Text.replace_nil_append hs]
    simp only [List.forall_mem_cons] at hne
    exact ih (List.forall_mem_cons.2 hne.2.2) ((h.tail hne.1).tail hne.2.1)
  | case2 t u v rest hq ih =>
    rw [List.forall_mem_cons] at hne
    have happart : ∀ x y, t.text ++ textOf (u :: v :: rest) = x ++ (q ++ ['.']) ++ y →
        t.text.length ≤ x.length := by
      intro x y hxy
      obtain ⟨us, w, vs, hts, hw, rfl⟩ := h x y ((textOf_cons _ _).trans hxy)
      cases us with
      | nil =>
        simp only [List.nil_append, List.cons_eq_cons] at hts
        exact absurd ⟨hts.1, hts.2.1, hts.2.2.1 ▸ hw⟩ hq
      | cons t' us =>
        rw [List.cons_append, List.cons_eq_cons] at hts
        rw [textOf_cons, ← hts.1, List.length_append]
        omega
    rw [textOf_cons t, Text.replace_nil_append_of_apart hs happart, ih hne.2 (h.tail hne.1),
      ← textOf_cons]
  | case3 ts hshort =>
    refine Text.replace_of_not_isInfix ?_ []
    rintro ⟨a, b, hab⟩
    exact not_qualifiesAt_of_short hshort a (h a b hab.symm)

/-- A text taken out wherever it stands leaves no more than the tokens without the qualifiers, and
as much only if it stands in qualifiers only. -/
theorem length_replace_textOf_le (hu : Text.Unbordered (q ++ ['.'])) (ts : List Token) :
    (Text.replace (q ++ ['.']) [] (textOf ts)).length ≤ (textOf (unqualify q ts)).length ∧
      ((Text.replace (q ++ ['.']) [] (textOf ts)).length = (textOf (unqualify q ts)).length →
        OnlyQualifies q ts) := by
  have hs := append_dot_ne_nil q
  fun_induction unqualify q ts with
  | case1 t u v rest hq ih =>
    obtain ⟨rfl, rfl, hv⟩ := hq
    rw [textOf_qualifier, Text.replace_nil_append hs]
    exact ⟨ih.1, fun h => (ih.2 h).qualifier hu hv⟩
  | case2 t u v rest hq ih =>
    rw [textOf_cons t, textOf_cons t, List.length_append]
    obtain ⟨hle, hlt⟩ := Text.length_replace_nil_append hs hu t.text (textOf (u :: v :: rest))
    refine ⟨by omega, fun h => (ih.2 (by omega)).cons fun a b hab => ?_⟩
    -- Were the text to begin inside the first token, more would be gone than the qualifiers.
    by_contra hn
    have := hlt a b hab (by omega)
    omega
  | case3 ts hshort =>
    refine ⟨Text.length_replace_nil_le hs _, fun h a b hab => ?_⟩
    have := Text.length_replace_nil_of_isInfix hs ⟨a, b, hab.symm⟩
    simp only [List.length_append, List.length_cons] at this
    omega

/-- Taking the text of a qualifier out leaves the tokens without the qualifiers exactly if it stands
in qualifiers only. -/
theorem replace_textOf_eq_iff (hq : '.' ∉ q) (hne : ∀ t ∈ ts, t.text ≠ []) :
    Text.replace (q ++ ['.']) [] (textOf ts) = textOf (unqualify q ts) ↔ OnlyQualifies q ts :=
  ⟨fun h => (length_replace_textOf_le (Text.unbordered_concat hq) ts).2 (congrArg _ h),
    replace_textOf_of_onlyQualifies hne⟩

end Token

/-! ### Fields that are set -/

/-- The alias of a model as it qualifies a field without quotes. -/
def Model.bareQualifier (m : Model) : Text :=
  m.aliasName ++ ['.']

namespace Source

variable {s : Source} {m : Model} {field : Text}

/-- What is left of a field that is set where there is no alias. -/
def localName (s : Source) (m : Model) (field : Text) : Text :=
  Text.replace m.bareQualifier [] (Text.replace (s.aliasQualifier m) [] field)

/-- A field without the alias in front, in quotes or bare. -/
def unqualified (s : Source) (m : Model) (field : Text) : Text :=
  if s.aliasQualifier m <+: field then field.drop (s.aliasQualifier m).length
  else if m.bareQualifier <+: field then field.drop m.bareQualifier.length
  else field

theorem length_aliasQualifier (s : Source) (m : Model) :
    (s.aliasQualifier m).length = m.bareQualifier.length + 2 := by
  simp [aliasQualifier, Dialect.quote, Model.bareQualifier]

theorem dot_mem_aliasQualifier (s : Source) (m : Model) : '.' ∈ s.aliasQualifier m :=
  List.mem_append_right _ List.mem_cons_self

theorem dot_mem_bareQualifier (m : Model) : '.' ∈ m.bareQualifier :=
  List.mem_append_right _ List.mem_cons_self

theorem replace_replace_eq_self_iff {p q t : Text} (hp : p ≠ []) (hq : q ≠ []) :
    Text.replace p [] (Text.replace q [] t) = t ↔ ¬p <:+: t ∧ ¬q <:+: t := by
  constructor
  · intro h
    have hle := Text.length_replace_nil_le hp (Text.replace q [] t)
    have hnq : ¬q <:+: t := fun hi => by
      have := Text.length_replace_nil_of_isInfix hq hi
      have := List.length_pos_iff.2 hq
      rw [h] at hle
      omega
    rw [Text.replace_of_not_isInfix hnq] at h
    exact ⟨(Text.replace_nil_eq_self_iff hp).1 h, hnq⟩
  · rintro ⟨hnp, hnq⟩
    rw [Text.replace_of_not_isInfix hnq, Text.replace_of_not_isInfix hnp]

/-- A field loses the alias in front and nothing else exactly if the alias stands nowhere in it but
there. -/
theorem localName_eq_unqualified_iff :
    s.localName m field = s.unqualified m field ↔
      ¬m.bareQualifier <:+: s.unqualified m field ∧
        ¬s.aliasQualifier m <:+:
          (if s.aliasQualifier m <+: field then s.unqualified m field else field) := by
  have hq : s.aliasQualifier m ≠ [] := List.ne_nil_of_mem (dot_mem_aliasQualifier s m)
  have hp : m.bareQualifier ≠ [] := List.ne_nil_of_mem (dot_mem_bareQualifier m)
  unfold localName unqualified
  by_cases hfq : s.aliasQualifier m <+: field
  · obtain ⟨rest, rfl⟩ := hfq
    simp only [List.prefix_append, if_true, List.drop_left]
    rw [Text.replace_nil_append hq, replace_replace_eq_self_iff hp hq]
  · simp only [if_neg hfq]
    by_cases hfp : m.bareQualifier <+: field
    · rw [if_pos hfp]
      obtain ⟨rest, rfl⟩ := hfp
      rw [List.drop_left]
      constructor
      · intro h
        have hnq : ¬s.aliasQualifier m <:+: m.bareQualifier ++ rest := fun hi => by
          -- More would be gone than what stands in front.
          have hlt := Text.length_replace_nil_of_isInfix hq hi
          have hle := Text.length_replace_nil_le hp
            (Text.replace (s.aliasQualifier m) [] (m.bareQualifier ++ rest))
          rw [h] at hle
          rw [length_aliasQualifier, List.length_append] at hlt
          omega
        rw [Text.replace_of_not_isInfix hnq, Text.replace_nil_append hp] at h
        exact ⟨(Text.replace_nil_eq_self_iff hp).1 h, hnq⟩
      · rintro ⟨hnp, hnq⟩
        rw [Text.replace_of_not_isInfix hnq, Text.replace_nil_append hp,
          Text.replace_of_not_isInfix hnp]
    · rw [if_neg hfp, replace_replace_eq_self_iff hp hq]

theorem eval_setField (s : Source) (m : Model) (field : Text) :
    s.eval (s.setField m false field) = s.dialect.quoteName (s.localName m field) := by
  simp only [setField, Bool.false_and, Bool.not_false, Bool.true_and, Bool.false_eq_true, if_false]
  split
  · rfl
  · next h =>
    have hq : ¬s.aliasQualifier m <:+: field := fun hi => h (by
      rw [List.contains_iff_mem]
      exact hi.subset (dot_mem_aliasQualifier s m))
    have hp : ¬m.bareQualifier <:+: field := fun hi => h (by
      rw [List.contains_iff_mem]
      exact hi.subset (dot_mem_bareQualifier m))
    rw [localName, Text.replace_of_not_isInfix hq, Text.replace_of_not_isInfix hp]
    rfl

/-! ### The statements -/

/-- A statement without an alias has the conditions of the model without the quoted alias and its
dot, wherever they stand. These are the conditions without their qualifiers, and with all their
string literals, exactly if they stand in qualifiers only; and a field that is set loses the alias
in front exactly if it stands nowhere else. -/
theorem update_delete_without_alias (s : Source) (m : Model) (row : List (Text × Value))
    (c : Condition) (h : s.usesAlias c = false) :
    let q := s.dialect.quote m.aliasName
    let ts := Token.tokenize s.dialect (s.eval (s.conditions c true true (some m)))
    ∃ conditions : Text,
      s.eval (s.update m row c) = StatementKind.render .update
        { table := s.eval (s.fullTableName m)
          fields := Text.join ", " (row.map fun e =>
            s.dialect.quoteName (s.localName m e.1) ++ " = " ++
              s.eval (s.value e.2 (m.columnType e.1)))
          conditions } ∧
      s.eval (s.delete m c) = StatementKind.render .delete
        { table := s.eval (s.fullTableName m), conditions } ∧
      (Token.OnlyQualifies q ts → conditions = Token.textOf (Token.unqualify q ts)) ∧
      ('.' ∉ m.aliasName → conditions = Token.textOf (Token.unqualify q ts) →
        Token.OnlyQualifies q ts) ∧
      (Token.unqualify q ts).filter (·.kind = .str) = ts.filter (·.kind = .str) ∧
      ∀ field, s.localName m field = s.unqualified m field ↔
        ¬m.bareQualifier <:+: s.unqualified m field ∧
          ¬s.aliasQualifier m <:+:
            (if s.aliasQualifier m <+: field then s.unqualified m field else field) := by
  intro q ts
  have htext : Token.textOf ts = s.eval (s.conditions c true true (some m)) :=
    Token.textOf_tokenize _ _
  have hne : ∀ t ∈ ts, t.text ≠ [] := Token.text_ne_nil_of_mem _ _
  refine ⟨Text.replace (s.aliasQualifier m) [] (Token.textOf ts), ?_, ?_, ?_, ?_,
    Token.filter_str_unqualify q ts, fun field => localName_eq_unqualified_iff⟩
  · rw [htext]
    simp only [update, h, setItem, writeConditions, eval_bind, eval_each, eval_pure, eval_setField,
      Bool.false_eq_true, if_false]
  · rw [htext]
    simp only [delete, h, writeConditions, eval_bind, eval_pure, Bool.false_eq_true, if_false]
  · exact Token.replace_textOf_of_onlyQualifies hne
  · intro hd
    have hq : '.' ∉ q := by
      cases hs : s.dialect <;> simpa [q, hs, Dialect.quote, Dialect.startQuote, Dialect.endQuote] using hd
    exact (Token.replace_textOf_eq_iff hq hne).1

/-- A field that is set loses the alias of the model, between quotes or not. -/
theorem update_delete_without_alias_posts :
    let s : Source := { dialect := .postgreSql }
    let m : Model := { name := "Post" }
    let row : List (Text × Value) := [("Post.title", .integer 1), ("\"Post\".body", .integer 2)]
    s.usesAlias .empty = false ∧ ∃ conditions : Text,
      s.eval (s.update m row .empty) = StatementKind.render .update
        { table := s.eval (s.fullTableName m)
          fields := Text.join ", "
            [s.dialect.quoteName "title" ++ " = " ++ "1".toList,
              s.dialect.quoteName "body" ++ " = " ++ "2".toList]
          conditions } := by
  intro s m row
  have hu : s.usesAlias .empty = false := by decide
  obtain ⟨conditions, he, -, -, -, -, hfield⟩ := update_delete_without_alias s m row .empty hu
  have htitle : s.localName m "Post.title" = "title".toList :=
    ((hfield _).2 (by decide +kernel)).trans (by decide +kernel)
  have hbody : s.localName m "\"Post\".body" = "body".toList :=
    ((hfield _).2 (by decide +kernel)).trans (by decide +kernel)
  have hone : s.eval (s.value (.integer 1) (m.columnType "Post.title")) = "1".toList := by
    decide +kernel
  have htwo : s.eval (s.value (.integer 2) (m.columnType "\"Post\".body")) = "2".toList := by
    decide +kernel
  refine ⟨hu, conditions, he.trans ?_⟩
  rw [List.map_cons, List.map_cons, List.map_nil, htitle, hbody, hone, htwo]

/-- The value that posts are to have as their title. -/
def quotingTitle : Text :=
  "see \"Post\".id"

/-- The condition that the title of a post has this value. -/
def quotingCondition : Condition :=
  .entries [("title", .compare (.one (.text quotingTitle)))]

open Condition in
theorem eval_quotingCondition :
    let s : Source := { dialect := .postgreSql }
    s.eval (s.conditions quotingCondition true true (some { name := "Post" })) =
      " WHERE \"title\" = 'see \"Post\".id'".toList := by
  intro s
  let sc : Scope := ⟨s, true, some { name := "Post" }⟩
  have hpath : Identifier.IsPath "title" := Identifier.isPath_of_isWord (by decide)
  have hleaf : comparisonText sc "title" (.one (.text quotingTitle)) =
      "\"title\" = 'see \"Post\".id'".toList := by
    have hb : bindsKey sc.source.dialect "title" (.one (.text quotingTitle)) = false := by
      rw [bindsKey, Placeholder.count_of_isPath _ hpath]
      rfl
    have hq : sc.source.dialect.quoteName "title" = "\"title\"".toList := by
      rw [Dialect.quoteName_of_isPath _ hpath]
      decide +kernel
    rw [comparisonText_of_comparison (by decide) rfl (by rw [Key.split_of_isPath hpath]; decide),
      Key.split_of_isPath hpath, comparison, Scope.fieldOrVirtual_of_isPath hpath rfl rfl]
    simp only [eval_bind, eval_ask]
    rw [hb, hq]
    decide +kernel
  have hclause := eval_clause sc " WHERE " (c := quotingCondition) rfl
  have hrows : rows sc quotingCondition = [[.leaf "\"title\" = 'see \"Post\".id'".toList]] := by
    have hj : Key.joint? "title" = none := by decide
    rw [quotingCondition, rows, entryRows, operandRow, hj, ← hleaf]
    rfl
  rw [pieces, writtenRows, hrows] at hclause
  exact hclause.trans (by decide +kernel)

/-- The literal of the value loses what looks like the qualifier, and so does the field of another
alias that ends like that of the model. -/
theorem literal_loses_alias :
    let s : Source := { dialect := .postgreSql }
    let m : Model := { name := "Post" }
    s.usesAlias quotingCondition = false ∧
      s.eval (s.delete m quotingCondition) = StatementKind.render .delete
        { table := s.eval (s.fullTableName m), conditions := " WHERE \"title\" = 'see id'" } ∧
      ¬s.quoteString quotingTitle <:+: " WHERE \"title\" = 'see id'".toList ∧
      s.localName m "BlogPost.title" = "Blogtitle".toList := by
  intro s m
  have hu : s.usesAlias quotingCondition = false := by decide
  refine ⟨hu, ?_, by decide +kernel, by decide +kernel⟩
  simp only [delete, hu, writeConditions, eval_bind, eval_pure, Bool.false_eq_true, if_false]
  rw [eval_quotingCondition]
  exact congrArg (fun conditions => StatementKind.render .delete
    { table := s.eval (s.fullTableName m), conditions }) (by decide +kernel)

end Source

end SqlComposer
