import SqlComposer.Proofs.Names

/-!
# Words of small letters

The names of fields and of native types are such words: nothing else occurs in them, and reading
them without regard to letter case changes nothing.
-/

namespace SqlComposer.Text

open CharClass

/-- Whether a text is a word of small letters, and not a single one. -/
@[mk_iff]
structure IsSmallWord (w : Text) : Prop where
  letters : ∀ c ∈ w, c.isLower = true
  two_le : 2 ≤ w.length

instance (w : Text) : Decidable (IsSmallWord w) :=
  decidable_of_iff (w.all Char.isLower = true ∧ 2 ≤ w.length)
    (by rw [isSmallWord_iff, List.all_eq_true])

/-- What holds of the 26 small letters. -/
theorem of_small {p : Char → Bool} (hp : ∀ n ∈ List.range' 97 26, p (Char.ofNat n) = true)
    {c : Char} (hc : c.isLower = true) : p c = true := by
  obtain ⟨ha, hz⟩ := Bool.and_eq_true_iff.1 hc
  have hbounds : 97 ≤ c.toNat ∧ c.toNat ≤ 122 := ⟨of_decide_eq_true ha, of_decide_eq_true hz⟩
  have := hp c.toNat (List.mem_range'_1.2 (by omega))
  rwa [Char.ofNat_toNat] at this

namespace IsSmallWord

variable {w : Text}

theorem exists_cons_cons (hw : IsSmallWord w) : ∃ c e es, w = c :: e :: es := by
  match w, hw.two_le with
  | c :: e :: es, _ => exact ⟨c, e, es, rfl⟩

theorem not_mem (hw : IsSmallWord w) {c : Char} (hc : c.isLower = false) : c ∉ w :=
  fun h => absurd (hw.letters c h) (by simp [hc])

theorem tight (hw : IsSmallWord w) : w.Tight := by
  obtain ⟨c, e, es, rfl⟩ := hw.exists_cons_cons
  exact tight_of_forall (List.cons_ne_nil _ _) fun a ha => isBlank_of (by decide) (hw.letters a ha)

theorem asciiLower (hw : IsSmallWord w) : Text.asciiLower w = w :=
  (List.map_congr_left fun _ hc => of_decide_eq_true
    (of_small (p := fun c => c.toLower = c) (by decide) (hw.letters _ hc))).trans (List.map_id w)

end IsSmallWord

end SqlComposer.Text
