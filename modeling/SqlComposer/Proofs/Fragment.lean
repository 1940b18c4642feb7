import SqlComposer.Proofs.Trim

/-!
# Fragments of texts

Where a fragment occurs in a text, and what replacing it does.
-/

namespace SqlComposer.Text

open CharClass

/-! ### Occurrences -/

theorem breakAt_eq_some {needle t a b : Text} (h : breakAt needle t = some (a, b)) :
    t = a ++ b ∧ needle <+: b := by
  induction t generalizing a with
  | nil =>
    rw [breakAt] at h
    split at h
    · next hn =>
      cases h
      rw [List.isEmpty_iff.1 hn]
      exact ⟨rfl, List.nil_prefix⟩
    · cases h
  | cons c cs ih =>
    rw [breakAt] at h
    split at h
    · next hp =>
      cases h
      exact ⟨rfl, List.isPrefixOf_iff_prefix.1 hp⟩
    · obtain ⟨r, hr, he⟩ := Option.map_eq_some_iff.1 h
      cases he
      obtain ⟨rfl, hb⟩ := ih hr
      exact ⟨rfl, hb⟩

/-- A fragment that occurs lies in the text. -/
theorem isInfix_of_has {needle t : Text} (h : has needle t = true) : needle <:+: t := by
  obtain ⟨⟨a, b⟩, hb⟩ := Option.isSome_iff_exists.1 h
  obtain ⟨rfl, r, rfl⟩ := breakAt_eq_some hb
  exact ⟨a, r, by rw [List.append_assoc]⟩

theorem has_iff {needle t : Text} : has needle t = true ↔ needle <:+: t := by
  refine ⟨isInfix_of_has, fun h => ?_⟩
  induction t with
  | nil =>
    rw [List.infix_nil.1 h]
    rfl
  | cons c cs ih =>
    rw [has, breakAt]
    split
    · rfl
    · next hp =>
      have hp' : ¬needle <+: c :: cs := fun h' => hp (List.isPrefixOf_iff_prefix.2 h')
      rw [Option.isSome_map]
      exact ih ((List.infix_cons_iff.1 h).resolve_left hp')

/-- Blanks behind a text end no fragment that ends otherwise. -/
theorem isPrefix_append_blank {needle : Text}
    (hn : ∃ c ∈ needle.getLast?, isBlank c = false) {b : Text}
    (hb : ∀ c ∈ b, isBlank c = true) (t : Text) : needle <+: t ++ b ↔ needle <+: t := by
  refine ⟨fun h => ?_, fun h => h.trans (List.prefix_append t b)⟩
  rcases List.prefix_or_prefix_of_prefix h (List.prefix_append t b) with h' | ⟨z, rfl⟩
  · exact h'
  · have hz : z <+: b := (List.prefix_append_right_inj t).1 h
    obtain rfl : z = [] := by
      by_contra hne
      obtain ⟨c, hc, hblank⟩ := hn
      rw [List.getLast?_append_of_ne_nil _ hne] at hc
      rw [hb c (hz.subset (List.mem_of_getLast? hc))] at hblank
      cases hblank
    exact ⟨[], by simp⟩

theorem breakAt_append_blank {needle : Text}
    (hn : ∃ c ∈ needle.getLast?, isBlank c = false) {b : Text}
    (hb : ∀ c ∈ b, isBlank c = true) (t : Text) :
    breakAt needle (t ++ b) = (breakAt needle t).map fun r => (r.1, r.2 ++ b) := by
  induction t with
  | nil =>
    obtain ⟨c, hc, hblank⟩ := hn
    have hc := List.mem_of_getLast? hc
    have hnone : breakAt needle b = none := by
      refine Option.eq_none_iff_forall_ne_some.2 fun r hr => ?_
      obtain ⟨hsplit, hp⟩ := breakAt_eq_some hr
      rw [hb c (hsplit ▸ List.mem_append_right _ (hp.subset hc))] at hblank
      cases hblank
    have hne : needle.isEmpty = false := List.isEmpty_eq_false_iff.2 (List.ne_nil_of_mem hc)
    rw [List.nil_append, hnone, breakAt, hne]
    rfl
  | cons c t ih =>
    have hp : needle.isPrefixOf (c :: (t ++ b)) = needle.isPrefixOf (c :: t) := by
      rw [Bool.eq_iff_iff, List.isPrefixOf_iff_prefix, List.isPrefixOf_iff_prefix,
        ← List.cons_append, isPrefix_append_blank hn hb]
    rw [List.cons_append, breakAt, breakAt, hp, ih]
    split
    · rfl
    · rw [Option.map_map, Option.map_map]
      rfl

/-! ### Parts that are kept -/

/-- Two rows of texts are joined one behind the other. -/
theorem join_append (sep : Text) {ts us : List Text} (ht : ts ≠ []) (hu : us ≠ []) :
    join sep (ts ++ us) = join sep ts ++ sep ++ join sep us := by
  induction ts with
  | nil => exact absurd rfl ht
  | cons t ts ih =>
    cases ts with
    | nil =>
      obtain ⟨u, us, rfl⟩ := List.exists_cons_of_ne_nil hu
      rw [List.singleton_append, join_cons_cons, join_singleton]
    | cons t' ts =>
      rw [List.cons_append, List.cons_append, join_cons_cons, ← List.cons_append,
        ih (List.cons_ne_nil _ _), join_cons_cons]
      simp only [List.append_assoc]

/-- A text among others is part of them joined. -/
theorem isInfix_join (sep : Text) {t : Text} {parts : List Text} (h : t ∈ parts) :
    t <:+: join sep parts := by
  induction parts with
  | nil => cases h
  | cons p ps ih =>
    cases ps with
    | nil =>
      rw [List.mem_singleton.1 h]
      exact (join_singleton sep p).symm ▸ List.infix_refl p
    | cons q qs =>
      rw [join_cons_cons]
      rcases List.mem_cons.1 h with rfl | h
      · exact (List.prefix_append _ _).trans (List.prefix_append _ _) |>.isInfix
      · exact (ih h).trans (List.suffix_append _ _).isInfix

/-! ### Replacing what occurs once -/

/-- Whether a fragment occurs at one place of a text only. -/
def OccursOnce (w t : Text) : Prop :=
  ∃! a, ∃ b, t = a ++ w ++ b

theorem exists_eq_append_iff {w t a : Text} :
    (∃ b, t = a ++ w ++ b) ↔ a = t.take a.length ∧ w <+: t.drop a.length := by
  constructor
  · rintro ⟨b, rfl⟩
    rw [List.append_assoc, List.take_left, List.drop_left]
    exact ⟨rfl, List.prefix_append _ _⟩
  · rintro ⟨ha, b, hb⟩
    have ht := List.take_append_drop a.length t
    rw [← ha, ← hb, ← List.append_assoc] at ht
    exact ⟨b, ht.symm⟩

/-- The places of a text can be tried one after another. -/
theorem occursOnce_iff {w t : Text} : w.OccursOnce t ↔
    ∃ n < t.length + 1, w <+: t.drop n ∧ ∀ m < t.length + 1, w <+: t.drop m → m = n := by
  -- A place is told by the length of what is in front of it.
  have htake : ∀ n < t.length + 1, (t.take n).length = n := fun n hn => by
    rw [List.length_take]
    omega
  have hat : ∀ n < t.length + 1, (∃ b, t = t.take n ++ w ++ b) ↔ w <+: t.drop n := fun n hn => by
    rw [exists_eq_append_iff, htake n hn]
    simp
  have hlen : ∀ a, (∃ b, t = a ++ w ++ b) → a.length < t.length + 1 ∧ a = t.take a.length := by
    rintro a ⟨b, rfl⟩
    rw [List.append_assoc, List.take_left]
    refine ⟨?_, rfl⟩
    rw [List.length_append]
    omega
  constructor
  · rintro ⟨a, ha, hu⟩
    obtain ⟨hl, hat'⟩ := hlen a ha
    refine ⟨a.length, hl, (exists_eq_append_iff.1 ha).2, fun m hm hw => ?_⟩
    have := hu _ ((hat m hm).2 hw)
    rw [← this, htake m hm]
  · rintro ⟨n, hn, hw, hu⟩
    refine ⟨t.take n, (hat n hn).2 hw, fun a ha => ?_⟩
    obtain ⟨hl, hat'⟩ := hlen a ha
    rw [hat', hu _ hl (exists_eq_append_iff.1 ha).2]

instance (w t : Text) : Decidable (w.OccursOnce t) :=
  decidable_of_iff' _ occursOnce_iff

theorem pieces_of_not_isInfix {sep t : Text} (h : ¬sep <:+: t) : pieces sep t = [t] := by
  induction t with
  | nil => rw [pieces]
  | cons c cs ih =>
    have hp : ¬(sep.isEmpty = false ∧ sep.isPrefixOf (c :: cs) = true) :=
      fun hp => h (List.isPrefixOf_iff_prefix.1 hp.2).isInfix
    have hc : ¬sep <:+: cs := fun hc => h (hc.trans (List.suffix_cons c cs).isInfix)
    rw [pieces, if_neg hp, ih hc]

theorem replace_of_not_isInfix {old t : Text} (h : ¬old <:+: t) (new : Text) :
    replace old new t = t := by
  rw [replace, pieces_of_not_isInfix h, join_singleton]

/-- A text is cut where a fragment occurs for the first time. -/
theorem pieces_append {sep a b : Text} (hs : sep ≠ [])
    (ha : ∀ x y, a ++ sep ++ b = x ++ sep ++ y → a.length ≤ x.length) :
    pieces sep (a ++ sep ++ b) = a :: pieces sep b := by
  induction a with
  | nil =>
    obtain ⟨c, cs, rfl⟩ := List.exists_cons_of_ne_nil hs
    rw [List.nil_append, List.cons_append, pieces, if_pos]
    · rw [← List.cons_append, List.drop_left]
    · simp
  | cons c cs ih =>
    have hn : ¬(sep.isEmpty = false ∧ sep.isPrefixOf (c :: (cs ++ sep ++ b)) = true) := by
      rintro ⟨_, hp⟩
      obtain ⟨y, hy⟩ := List.isPrefixOf_iff_prefix.1 hp
      have := ha [] y (by simpa using hy.symm)
      simp at this
    have hcs : ∀ x y, cs ++ sep ++ b = x ++ sep ++ y → cs.length ≤ x.length := by
      intro x y hxy
      have := ha (c :: x) y (by simpa using hxy)
      simpa using this
    rw [List.cons_append, List.cons_append, pieces, if_neg hn, ih hcs]

/-- Replacing a fragment that occurs once changes nothing else. -/
theorem replace_append {old : Text} (new : Text) {a b : Text} (hs : old ≠ [])
    (h : ∀ x y, a ++ old ++ b = x ++ old ++ y → x = a) :
    replace old new (a ++ old ++ b) = a ++ new ++ b := by
  have hb : ¬old <:+: b := by
    rintro ⟨x, y, rfl⟩
    have := congrArg List.length (h (a ++ old ++ x) y (by simp))
    have := List.length_pos_iff.2 hs
    simp only [List.length_append] at *
    omega
  have ha : ∀ x y, a ++ old ++ b = x ++ old ++ y → a.length ≤ x.length :=
    fun x y hxy => Nat.le_of_eq (by rw [h x y hxy])
  rw [replace, pieces_append hs ha, pieces_of_not_isInfix hb, join_cons_cons, join_singleton]

/-- A text without equality signs stands behind an opening parenthesis. Then an occurrence of the
sign, the parenthesis and the text together is that one, or lies apart from the text. -/
theorem eq_of_occurs_filled {p f b x y : Text} (hf : f ≠ []) (he : '=' ∉ f) (hp : '(' ∉ f)
    (ha : ¬"= (".toList ++ f <:+: p ++ "= (".toList) (hb : ¬"= (".toList ++ f <:+: b)
    (h : p ++ "= (".toList ++ f ++ b = x ++ ("= (".toList ++ f) ++ y) : x = p := by
  rw [List.append_assoc _ f, List.append_assoc x] at h
  rcases List.append_eq_append_iff.1 h with ⟨c, hx, hc⟩ | ⟨c, hx, hc⟩
  · -- The occurrence begins in `f` or behind it.
    exfalso
    rcases List.append_eq_append_iff.1 hc with ⟨e, rfl, hb'⟩ | ⟨e, hfe, hb'⟩
    · exact hb ⟨e, y, by rw [hb', List.append_assoc]⟩
    · cases e with
      | nil => exact hb ⟨[], y, by simpa using hb'⟩
      | cons c' e =>
        have hc' : c' = '=' := (List.cons_eq_cons.1 hb').1.symm
        exact he (by simp [hfe, hc'])
  · -- The occurrence begins in front of `f`, behind `x`.
    rcases List.append_eq_append_iff.1 hc with ⟨e, rfl, _⟩ | ⟨e, hce, _⟩
    · exact absurd ⟨x, e, by rw [hx, List.append_assoc]⟩ ha
    · have hlast : c ≠ [] → ∃ d, c = d ++ ['('] := by
        intro hn
        have hl : c.getLast? = some '(' := by
          have := congrArg List.getLast? hx
          rw [List.getLast?_append_of_ne_nil _ hn] at this
          rw [← this]
          simp
        obtain ⟨d, hd⟩ := List.getLast?_eq_some_iff.1 hl
        exact ⟨d, hd⟩
      have hc0 : c ≠ [] := by
        rintro rfl
        obtain ⟨c', f', rfl⟩ := List.exists_cons_of_ne_nil hf
        have hcc : '=' = c' := (List.cons_eq_cons.1 hc).1
        exact he (hcc ▸ List.mem_cons_self)
      obtain ⟨d, rfl⟩ := hlast hc0
      rcases List.append_eq_append_iff.1 hce with ⟨c₂, h₂, rfl⟩ | ⟨c₁, h₁, _⟩
      · rcases List.eq_nil_or_concat c₂ with rfl | ⟨c₃, l, rfl⟩
        · rw [h₂, List.append_nil] at hx
          exact (List.append_cancel_right hx).symm
        · rw [List.concat_eq_append, ← List.append_assoc] at h₂
          have hl : ['('] = [l] := (List.append_inj' h₂ rfl).2
          exact absurd (by simp [← (List.cons_eq_cons.1 hl).1]) hp
      · rcases d with _ | ⟨a, _ | ⟨a', _ | ⟨a'', d⟩⟩⟩ <;> simp at h₁
        rw [← h₁.1, ← h₁.2.1] at hx
        exact (List.append_cancel_right hx).symm

end SqlComposer.Text
