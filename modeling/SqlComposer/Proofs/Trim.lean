import SqlComposer.Text.Basic
import Mathlib.Data.List.Basic
import Mathlib.Data.List.TakeWhile

/-!
# Trimmed texts

Trimming leaves a text that begins and ends with no blank, and nothing is trimmed from such a text.
-/

namespace SqlComposer.Text

open CharClass

theorem trimStart_of_head? {t : Text} (h : ∀ c ∈ t.head?, isBlank c = false) : trimStart t = t := by
  cases t with
  | nil => rfl
  | cons c cs => simp [trimStart, h c rfl]

theorem trimEnd_of_getLast? {t : Text} (h : ∀ c ∈ t.getLast?, isBlank c = false) :
    trimEnd t = t := by
  induction t with
  | nil => rfl
  | cons c cs ih =>
    cases cs with
    | nil => simp_all [trimEnd]
    | cons d ds =>
      have hd : trimEnd (d :: ds) = d :: ds := ih (by simpa using h)
      rw [trimEnd, hd]

/-- A text without blanks at its ends is trimmed. -/
theorem trim_of_ends {t : Text} (hf : ∀ c ∈ t.head?, isBlank c = false)
    (hl : ∀ c ∈ t.getLast?, isBlank c = false) : trim t = t := by
  rw [trim, trimStart_of_head? hf, trimEnd_of_getLast? hl]

theorem blank_eq_false {t : Text} {a : Char} (h : a ∈ t) (ha : isBlank a = false) :
    blank t = false :=
  List.all_eq_false.2 ⟨a, h, by simp [ha]⟩

theorem blank_append (a b : Text) : blank (a ++ b) = (blank a && blank b) :=
  List.all_append

/-- Blanks at the end are trimmed. -/
theorem trimEnd_append_of_blank {b : Text} (hb : ∀ c ∈ b, isBlank c = true) (a : Text) :
    trimEnd (a ++ b) = trimEnd a := by
  induction a with
  | nil =>
    have he : (trimEnd b).isEmpty = true := by
      rw [isEmpty_trimEnd]
      exact List.all_eq_true.2 hb
    exact List.isEmpty_iff.1 he
  | cons c cs ih => rw [List.cons_append, trimEnd, trimEnd, ih]

/-- Blanks in front are trimmed. -/
theorem trim_append_of_blank {b : Text} (hb : ∀ c ∈ b, isBlank c = true) (t : Text) :
    trim (b ++ t) = trim t := by
  rw [trim, trim, trimStart, trimStart, List.dropWhile_append_of_pos hb]

/-- Only blanks are trimmed from the end. -/
theorem exists_trimEnd (t : Text) : ∃ b, t = trimEnd t ++ b ∧ ∀ c ∈ b, isBlank c = true := by
  induction t with
  | nil => exact ⟨[], rfl, by simp⟩
  | cons c cs ih =>
    obtain ⟨b, hcs, hb⟩ := ih
    rw [trimEnd]
    split
    · next h =>
      rw [h, List.nil_append] at hcs
      split
      · next hc => exact ⟨c :: cs, rfl, List.forall_mem_cons.2 ⟨hc, hcs ▸ hb⟩⟩
      · exact ⟨cs, rfl, hcs ▸ hb⟩
    · next e es h => exact ⟨b, by rw [← h, List.cons_append, ← hcs], hb⟩

theorem isPrefix_trimEnd (t : Text) : trimEnd t <+: t := by
  obtain ⟨b, hb, -⟩ := exists_trimEnd t
  exact ⟨b, hb.symm⟩

theorem mem_of_mem_trim {t : Text} {c : Char} (h : c ∈ trim t) : c ∈ t :=
  (trim_sublist t).subset h

theorem trimEnd_ne_nil {t : Text} {c : Char} (h : c ∈ t) (hc : isBlank c = false) :
    trimEnd t ≠ [] := by
  intro hn
  have hb : blank t = true := by rw [← isEmpty_trimEnd, hn, List.isEmpty_nil]
  rw [List.all_eq_true.1 hb c h] at hc
  cases hc

theorem trimEnd_append_of_ne_nil {b : Text} (h : trimEnd b ≠ []) (a : Text) :
    trimEnd (a ++ b) = a ++ trimEnd b := by
  induction a with
  | nil => rfl
  | cons c cs ih =>
    rw [List.cons_append, trimEnd, ih, List.cons_append]
    obtain ⟨e, es, he⟩ := List.exists_cons_of_ne_nil (List.append_ne_nil_of_right_ne_nil cs h)
    rw [he]

theorem getLast?_trimEnd (t : Text) : ∀ c ∈ (trimEnd t).getLast?, isBlank c = false := by
  induction t with
  | nil => rintro _ ⟨⟩
  | cons c cs ih =>
    rw [trimEnd]
    split
    · split
      · rintro _ ⟨⟩
      · next h =>
        rintro _ ⟨⟩
        simpa using h
    · next h =>
      rw [h] at ih
      simpa using ih

/-! ### Texts without blanks at their ends -/

/-- Whether a text begins and ends with no blank. -/
structure Tight (w : Text) : Prop where
  head : ∃ c ∈ w.head?, isBlank c = false
  last : ∃ c ∈ w.getLast?, isBlank c = false

theorem Tight.isInfix_trimStart {w t : Text} (hw : w.Tight) (h : w <:+: t) :
    w <:+: trimStart t := by
  obtain ⟨x, y, rfl⟩ := h
  obtain ⟨e, he, hb⟩ := hw.head
  induction x with
  | nil =>
    cases w with
    | nil => exact List.nil_infix
    | cons c cs =>
      cases he
      exact ⟨[], y, by simp [trimStart, hb]⟩
  | cons c cs ih =>
    by_cases hc : isBlank c = true
    · simpa [trimStart, hc] using ih
    · exact ⟨c :: cs, y, by simp [trimStart, hc]⟩

theorem trimEnd_append {a : Text} (ha : ∃ c ∈ a.getLast?, isBlank c = false) (b : Text) :
    trimEnd (a ++ b) = a ++ trimEnd b := by
  obtain ⟨c, hc, hb⟩ := ha
  induction a with
  | nil => cases hc
  | cons e es ih =>
    cases es with
    | nil =>
      cases hc
      have hb : isBlank e = false := hb
      rw [List.singleton_append, trimEnd]
      cases trimEnd b <;> simp [hb]
    | cons e' es' =>
      have ih := ih (by simpa using hc)
      rw [List.cons_append, trimEnd, ih]
      rfl

theorem trimEnd_cons {c : Char} (hc : isBlank c = false) (cs : Text) :
    trimEnd (c :: cs) = c :: trimEnd cs :=
  trimEnd_append (a := [c]) ⟨c, rfl, hc⟩ cs

theorem exists_take_trimEnd (t : Text) : ∃ n, trimEnd t = t.take n := by
  exact ⟨_, List.prefix_iff_eq_take.1 (isPrefix_trimEnd t)⟩

theorem Tight.isInfix_trimEnd {w t : Text} (hw : w.Tight) (h : w <:+: t) : w <:+: trimEnd t := by
  obtain ⟨x, y, rfl⟩ := h
  have hl : ∃ c ∈ (x ++ w).getLast?, isBlank c = false := by
    obtain ⟨c, hc, hb⟩ := hw.last
    refine ⟨c, ?_, hb⟩
    rw [List.getLast?_append, Option.mem_def.1 hc]
    rfl
  rw [trimEnd_append hl]
  exact ⟨x, trimEnd y, rfl⟩

/-- What begins and ends with no blank is kept by trimming. -/
theorem Tight.isInfix_trim {w t : Text} (hw : w.Tight) (h : w <:+: t) : w <:+: trim t :=
  hw.isInfix_trimEnd (hw.isInfix_trimStart h)

theorem Tight.ne_nil {w t : Text} (hw : w.Tight) (h : w <:+: t) : t ≠ [] := by
  rintro rfl
  obtain ⟨c, hc, _⟩ := hw.head
  rw [List.eq_nil_of_infix_nil h] at hc
  cases hc

/-- Nothing is trimmed from such a text. -/
theorem Tight.trim {w : Text} (h : w.Tight) : trim w = w := by
  obtain ⟨a, ha, hba⟩ := h.head
  obtain ⟨b, hb, hbb⟩ := h.last
  exact trim_of_ends (fun c hc => by rwa [← Option.mem_unique ha hc])
    fun c hc => by rwa [← Option.mem_unique hb hc]

/-- Blanks around such a text are trimmed. -/
theorem Tight.trim_append {w b : Text} (h : w.Tight) (hb : ∀ c ∈ b, isBlank c = true) :
    Text.trim (w ++ b) = w := by
  obtain ⟨c, hc, hn⟩ := h.head
  have hs : trimStart (w ++ b) = w ++ b := by
    cases w with
    | nil => cases hc
    | cons e es =>
      cases hc
      simp [trimStart, hn]
  obtain ⟨e, he, hl⟩ := h.last
  rw [Text.trim, hs, trimEnd_append_of_blank hb,
    trimEnd_of_getLast? fun f hf => by rwa [← Option.mem_unique he hf]]

theorem Tight.append_trim {w b : Text} (h : w.Tight) (hb : ∀ c ∈ b, isBlank c = true) :
    Text.trim (b ++ w) = w := by
  rw [trim_append_of_blank hb, h.trim]

theorem tight_trim {t : Text} (h : trim t ≠ []) : (trim t).Tight where
  head := by
    obtain ⟨c, cs, hc⟩ := List.exists_cons_of_ne_nil h
    refine ⟨c, by rw [hc]; rfl, ?_⟩
    obtain ⟨r, hr, -⟩ := exists_trimEnd (trimStart t)
    have hs : (trimStart t).head? = some c := by
      rw [hr, ← Text.trim.eq_def, hc]
      rfl
    have hn := List.head?_dropWhile_not isBlank t
    rw [trimStart] at hs
    rw [hs] at hn
    exact hn
  last := by
    have hl := getLast?_trimEnd (trimStart t)
    have hc := List.getLast?_eq_some_getLast h
    exact ⟨_, hc, hl _ hc⟩

theorem trim_trim (t : Text) : trim (trim t) = trim t := by
  by_cases h : trim t = []
  · rw [h]
    rfl
  · exact (tight_trim h).trim

theorem blank_trim (t : Text) : blank (trim t) = blank t := by
  rw [← isEmpty_trim, trim_trim, isEmpty_trim]

theorem Tight.append {a b : Text} (ha : a.Tight) (hb : b.Tight) (m : Text) :
    (a ++ m ++ b).Tight where
  head := by
    obtain ⟨c, hc, hn⟩ := ha.head
    refine ⟨c, ?_, hn⟩
    rw [List.append_assoc, List.head?_append, Option.mem_def.1 hc]
    rfl
  last := by
    obtain ⟨c, hc, hn⟩ := hb.last
    refine ⟨c, ?_, hn⟩
    rw [List.getLast?_append, Option.mem_def.1 hc]
    rfl

theorem tight_of_forall {t : Text} (hn : t ≠ []) (h : ∀ c ∈ t, isBlank c = false) : t.Tight where
  head := by
    obtain ⟨c, cs, rfl⟩ := List.exists_cons_of_ne_nil hn
    exact ⟨c, rfl, h c List.mem_cons_self⟩
  last := by
    have hc := List.getLast?_eq_some_getLast hn
    exact ⟨_, hc, h _ (List.mem_of_getLast? hc)⟩

/-! ### Trimmed texts cut in two -/

theorem exists_trimStart (t : Text) : ∃ b, t = b ++ trimStart t ∧ ∀ c ∈ b, isBlank c = true :=
  ⟨_, List.takeWhile_append_dropWhile.symm, fun _ => List.mem_takeWhile_imp⟩

/-- A text lies between blanks that are trimmed. -/
theorem exists_trim (t : Text) :
    ∃ a b, t = a ++ trim t ++ b ∧ (∀ c ∈ a, isBlank c = true) ∧ ∀ c ∈ b, isBlank c = true := by
  obtain ⟨a, ha, hblank⟩ := exists_trimStart t
  obtain ⟨b, hb, hblank'⟩ := exists_trimEnd (trimStart t)
  refine ⟨a, b, ?_, hblank, hblank'⟩
  rw [List.append_assoc, trim, ← hb, ← ha]

/-- Characters that are no blanks are not trimmed. -/
theorem sublist_trim {w t : Text} (hw : ∀ c ∈ w, isBlank c = false) (h : w.Sublist t) :
    w.Sublist (trim t) := by
  obtain ⟨a, b, ht, ha, hb⟩ := exists_trim t
  have hblank : ∀ u : Text, (∀ c ∈ u, isBlank c = true) → u.filter (fun c => !isBlank c) = [] :=
    fun u hu => List.filter_eq_nil_iff.2 fun c hc => by simp [hu c hc]
  have hkept : w.filter (fun c => !isBlank c) = w :=
    List.filter_eq_self.2 fun c hc => by simp [hw c hc]
  have hf := h.filter fun c => !isBlank c
  rw [ht, List.filter_append, List.filter_append, hblank a ha, hblank b hb, List.nil_append,
    List.append_nil, hkept] at hf
  exact hf.trans List.filter_sublist

/-- Blanks at the end are trimmed, however many there are. -/
theorem trim_append_blank {b : Text} (hb : ∀ c ∈ b, isBlank c = true) (t : Text) :
    trim (t ++ b) = trim t := by
  obtain ⟨a, c, ht, ha, hc⟩ := exists_trim t
  by_cases hn : trim t = []
  · rw [hn, List.append_nil] at ht
    have hblank : ∀ e ∈ t ++ b, isBlank e = true := by
      intro e he
      rw [ht] at he
      simp only [List.mem_append] at he
      rcases he with (he | he) | he
      · exact ha e he
      · exact hc e he
      · exact hb e he
    rw [hn, ← List.isEmpty_iff, isEmpty_trim]
    exact List.all_eq_true.2 hblank
  · have hblank : ∀ e ∈ c ++ b, isBlank e = true := List.forall_mem_append.2 ⟨hc, hb⟩
    conv_lhs => rw [ht, List.append_assoc, List.append_assoc, trim_append_of_blank ha,
      (tight_trim hn).trim_append hblank]

theorem ends_of_trim {t : Text} (h : trim t = t) :
    (∀ c ∈ t.head?, isBlank c = false) ∧ ∀ c ∈ t.getLast?, isBlank c = false := by
  by_cases hn : t = []
  · subst hn
    exact ⟨nofun, nofun⟩
  · rw [← h] at hn
    have ht := tight_trim hn
    rw [h] at ht
    obtain ⟨a, ha, hba⟩ := ht.head
    obtain ⟨b, hb, hbb⟩ := ht.last
    exact ⟨fun c hc => by rwa [← Option.mem_unique ha hc],
      fun c hc => by rwa [← Option.mem_unique hb hc]⟩

/-- Of a trimmed text in two parts, trimming the parts takes what stands between them only. -/
theorem exists_gap {a b : Text} (h : trim (a ++ b) = a ++ b) :
    ∃ gap, (∀ c ∈ gap, isBlank c = true) ∧ a ++ b = trim a ++ gap ++ trim b := by
  obtain ⟨hhead, hlast⟩ := ends_of_trim h
  have ha : trim a = trimEnd a := by
    rw [trim, trimStart_of_head?]
    intro c hc
    exact hhead c (by simp [Option.mem_def.1 hc])
  have hb : trim b = trimStart b := by
    refine trimEnd_of_getLast? fun c hc => hlast c ?_
    obtain ⟨x, hx, -⟩ := exists_trimStart b
    rw [hx, ← List.append_assoc, List.getLast?_append, Option.mem_def.1 hc]
    rfl
  obtain ⟨x, hx, hbx⟩ := exists_trimEnd a
  obtain ⟨y, hy, hby⟩ := exists_trimStart b
  refine ⟨x ++ y, List.forall_mem_append.2 ⟨hbx, hby⟩, ?_⟩
  rw [ha, hb, ← List.append_assoc, ← hx, List.append_assoc, ← hy]

end SqlComposer.Text
