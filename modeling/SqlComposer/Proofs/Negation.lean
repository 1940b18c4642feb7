import SqlComposer.Proofs.Membership

/-!
# Negated comparisons

A key that ends in NOT negates the member of what stands in front of it, which is compiled as a key
of its own. Such a key is cut at a blank, so what stands in front is shorter, and the compilation
comes to a key that does not end in NOT.
-/

namespace SqlComposer

open CharClass

namespace Key

variable {d : Dialect} {t key rest core : Text}

/-! ### Keys that end in NOT -/

theorem upper_of_not (h : Text.sameLetters t "not" = true) : Text.asciiUpper t = "NOT" := by
  rw [← Text.asciiUpper_asciiLower, beq_iff_eq.1 h]
  decide

theorem isBlank_of_not (h : Text.sameLetters t "not" = true) : ∀ c ∈ t, isBlank c = false := by
  intro c hc
  have hm : c.toLower ∈ Text.asciiLower "not" := beq_iff_eq.1 h ▸ List.mem_map_of_mem hc
  have hall : ∀ e ∈ Text.asciiLower "not", isBlank e = false := by simp [Text.asciiLower, isBlank]
  rw [← isBlank_toLower, hall _ hm]

theorem isComparisonSign_of_not {c : Char} {cs : Text}
    (h : Text.sameLetters (c :: cs) "not" = true) : isComparisonSign c = false := by
  have hc : c.toUpper = 'N' := (List.cons.inj (upper_of_not h)).1
  refine Bool.eq_false_iff.2 fun hs => ?_
  simp only [isComparisonSign, Bool.or_eq_true, beq_iff_eq] at hs
  rcases hs with ((rfl | rfl) | rfl) | rfl <;> exact absurd hc (by decide)

theorem isBlank_of_isComparisonSign {c : Char} (h : isComparisonSign c = true) :
    isBlank c = false :=
  Token.of_isComparisonSign (by decide) h

/-- In front of NOT there is a blank, and in front of that the rest of the key. -/
theorem exists_blank_of_not (h : Text.sameLetters (split d key).2 "not" = true) :
    ∃ gap c, isBlank c = true ∧ Text.trim key = (split d key).1 ++ gap ++ c :: (split d key).2 := by
  rcases split_eq_cutAt d key with hs | ⟨n, ⟨c, cs, hdrop, hc⟩, hs⟩
  · rw [hs] at h
    cases h
  · obtain ⟨gap, hgap, hk, -, -⟩ := exists_split d key
    have hop : (split d key).2 = Text.trim (c :: cs) := by rw [hs, cutAt, hdrop]
    have hblank : isBlank c = true := by
      refine hc.resolve_right fun hsign => ?_
      have hn := isBlank_of_isComparisonSign hsign
      have htrim : Text.trim (c :: cs) = c :: Text.trimEnd cs := by
        rw [Text.trim, Text.trimStart_of_head? (by simpa using hn), Text.trimEnd_cons hn]
      rw [hop, htrim] at h
      rw [isComparisonSign_of_not h] at hsign
      cases hsign
    -- The blank at the cut is trimmed, so there is one in the gap.
    have hne : gap ≠ [] := by
      rintro rfl
      have hf := Text.length_trim_le ((Text.trim key).take n)
      have ho := Text.length_trim_le cs
      have hl := congrArg List.length (List.take_append_drop n (Text.trim key))
      have hk := congrArg List.length hk
      rw [hop, hs, cutAt, ← List.singleton_append, Text.trim_append_of_blank (by simpa)] at hk
      rw [hdrop] at hl
      simp only [List.length_append, List.length_cons, List.length_nil] at hf ho hl hk
      omega
    obtain ⟨gap, e, rfl⟩ := (List.eq_nil_or_concat' gap).resolve_left hne
    exact ⟨gap, e, hgap e (by simp), by simpa using hk⟩

theorem length_add_four_le (h : Text.sameLetters (split d key).2 "not" = true) :
    (split d key).1.length + 4 ≤ key.length := by
  obtain ⟨gap, c, -, hk⟩ := exists_blank_of_not h
  have ht := Text.length_trim_le key
  have hn : (split d key).2.length = 3 := by
    simpa [Text.asciiLower] using congrArg List.length (beq_iff_eq.1 h)
  have hl := congrArg List.length hk
  simp only [List.length_append, List.length_cons] at hl
  omega

/-- A list of one value is written under such a key as any other list is. -/
theorem isPlainMembership_of_not (h : Text.sameLetters (split d key).2 "not" = true) :
    isPlainMembership key = false := by
  obtain ⟨gap, c, hc, hk⟩ := exists_blank_of_not h
  obtain ⟨lead, hlead, -⟩ := Text.exists_trimStart key
  have hne : Text.trimEnd (Text.trimStart key) ≠ [] := by
    rw [← Text.trim.eq_def, hk]
    simp
  have hend : Text.trimEnd key = (lead ++ (split d key).1 ++ gap) ++ c :: (split d key).2 := by
    rw [hlead, Text.trimEnd_append_of_ne_nil hne, ← Text.trim.eq_def, ← hlead, hk]
    simp
  have htwice : isPlainMembership key = isPlainMembership (Text.trimEnd key) := by
    rw [isPlainMembership, isPlainMembership,
      Text.trimEnd_of_getLast? (Text.getLast?_trimEnd key)]
  have hn : (split d key).2 ≠ [] := fun hn => by
    rw [hn] at h
    cases h
  rw [htwice, hend, isPlainMembership_append hc hn (isBlank_of_not h), upper_of_not h]
  rfl

/-! ### Chains of negations -/

/-- Whether the member of a key is the negation of the member of another, what is left of the key
without a NOT at its end. -/
structure Negates (d : Dialect) (key rest : Text) : Prop where
  isConnective : isConnective key = false
  split : (split d key).1 = rest
  not : Text.sameLetters (Key.split d key).2 "not" = true

/-- Whether so many NOTs at the end of a key lead to another key. -/
inductive NegatesTimes (d : Dialect) : Nat → Text → Text → Prop where
  | zero (key : Text) : NegatesTimes d 0 key key
  | succ {n : Nat} {key rest core : Text} (h : Negates d key rest)
      (hr : NegatesTimes d n rest core) : NegatesTimes d (n + 1) key core

theorem Negates.length (h : Negates d key rest) : rest.length + 4 ≤ key.length :=
  h.split ▸ length_add_four_le h.not

theorem wellFounded_negates (d : Dialect) : WellFounded fun rest key => Negates d key rest :=
  Subrelation.wf (fun h => Nat.lt_of_lt_of_le (by omega) h.length)
    (InvImage.wf List.length Nat.lt_wfRel.wf)

theorem NegatesTimes.length {n : Nat} (h : NegatesTimes d n key core) :
    core.length + 4 * n ≤ key.length := by
  induction h with
  | zero => simp
  | succ h _ ih =>
    have := h.length
    omega

/-- The NOTs at the end of a key come to an end. -/
theorem exists_negatesTimes (d : Dialect) (key : Text) :
    ∃ n core, NegatesTimes d n key core ∧ ∀ rest, ¬Negates d core rest := by
  induction key using (wellFounded_negates d).induction with
  | _ key ih =>
    by_cases hk : ∃ rest, Negates d key rest
    · obtain ⟨rest, hrest⟩ := hk
      obtain ⟨n, core, hn, hcore⟩ := ih rest hrest
      exact ⟨n + 1, core, .succ hrest hn, hcore⟩
    · exact ⟨0, key, .zero key, fun rest hrest => hk ⟨rest, hrest⟩⟩

end Key

/-! ### Members of negated keys -/

namespace Condition

variable {sc : Scope} {key rest core : Text}

/-- The negation of a member; without a member it holds of every row. -/
def negation (member : Option Text) : Option Text :=
  some ((group "NOT" member.toList).getD "1 = 1")

theorem negation_some (m : Text) : negation (some m) = some ("NOT (" ++ m ++ ")") := by
  have hk : Key.joint? "NOT" = some (.and, true) := by decide
  rw [negation, Option.toList_some, group_eq hk]
  rfl

/-- A key that ends in NOT is compiled as what is left of it, and negated. -/
theorem eval_leaf_of_negates (h : Key.Negates sc.source.dialect key rest) (x : Comparand) :
    sc.source.eval (leaf sc key x) = negation (sc.source.eval (leaf sc rest x)) := by
  have hm : membershipValue sc.source.dialect key x = none := by
    match x with
    | .one v => rfl
    | .many [] => rfl
    | .many [v] =>
      rw [membershipValue_one, Key.isPlainMembership_of_not h.not, Bool.and_false]
      rfl
    | .many (_ :: _ :: _) => rfl
  rw [leaf, if_neg (by simp [h.isConnective])]
  simp only [hm, h.not, dite_true, h.split]
  rw [Source.eval_bind]
  rfl

theorem eval_leaf_of_negatesTimes {n : Nat} (h : Key.NegatesTimes sc.source.dialect n key core)
    (x : Comparand) :
    sc.source.eval (leaf sc key x) = negation^[n] (sc.source.eval (leaf sc core x)) := by
  induction h with
  | zero => rfl
  | succ h _ ih => rw [eval_leaf_of_negates h, ih, Function.iterate_succ_apply']

theorem eval_members_compare (sc : Scope) (key : Text) (x : Comparand) :
    sc.source.eval (members sc (.entries [(key, .compare x)])) =
      (sc.source.eval (leaf sc key x)).toList :=
  (eval_entryTexts key (.compare x) []).trans (List.append_nil _)

/-- Under a key that ends in NOT the member is NOT and, in parentheses, the member of what stands in
front. However many NOTs there are, compiling any key comes to one without: each NOT takes at least
four characters off the key, and the member is negated once for each. -/
theorem members_not (sc : Scope) {key rest op : Text}
    (hs : Key.split sc.source.dialect key = (rest, op)) (hn : Text.sameLetters op "not" = true)
    (hk : Key.isConnective key = false) (hr : Key.isConnective rest = false) :
    (∀ x, ∃ m, sc.source.eval (members sc (.entries [(rest, .compare x)])) = [m] ∧
      sc.source.eval (members sc (.entries [(key, .compare x)])) = ["NOT (" ++ m ++ ")"]) ∧
    (WellFounded fun rest key => Key.Negates sc.source.dialect key rest) ∧
    ∀ key, ∃ n core, Key.NegatesTimes sc.source.dialect n key core ∧
      (∀ rest, ¬Key.Negates sc.source.dialect core rest) ∧ core.length + 4 * n ≤ key.length ∧
      ∀ x, sc.source.eval (leaf sc key x) = negation^[n] (sc.source.eval (leaf sc core x)) := by
  have hneg : Key.Negates sc.source.dialect key rest := ⟨hk, by rw [hs], by rwa [hs]⟩
  refine ⟨fun x => ?_, Key.wellFounded_negates _, fun key => ?_⟩
  · have hm : sc.source.eval (leaf sc rest x) = some (comparisonText sc rest x) :=
      eval_leaf (by simp [hr]) x
    refine ⟨comparisonText sc rest x, ?_, ?_⟩
    · rw [eval_members_compare, hm, Option.toList_some]
    · rw [eval_members_compare, eval_leaf_of_negates hneg, hm, negation_some, Option.toList_some]
  · obtain ⟨n, core, hn, hcore⟩ := Key.exists_negatesTimes sc.source.dialect key
    exact ⟨n, core, hn, hcore, hn.length, eval_leaf_of_negatesTimes hn⟩

/-- Two NOTs behind a word that is no operator, and a list of one value. -/
theorem members_not_twice :
    let key : Text := "Post.a b NOT Not"
    let rest : Text := "Post.a b NOT"
    let sc : Scope := ⟨{}, true, none⟩
    let members (key : Text) : List Text :=
      sc.source.eval (members sc (.entries [(key, .compare (.many [.natural 5]))]))
    Key.split .mySql key = (rest, "Not".toList) ∧ Text.sameLetters "Not" "not" = true ∧
      Key.isConnective key = false ∧ Key.isConnective rest = false ∧
      members key = ["NOT (NOT (\x60Post\x60.\x60a\x60 b = (5)))".toList] := by
  intro key rest sc members
  have hs : Key.split .mySql key = (rest, "Not".toList) := by decide +kernel
  have hn : Text.sameLetters "Not" "not" = true := by decide +kernel
  have hk : Key.isConnective key = false := by decide +kernel
  have hr : Key.isConnective rest = false := by decide +kernel
  obtain ⟨m, hm, hneg⟩ := (members_not sc hs hn hk hr).1 (.many [.natural 5])
  have hrest : members rest = ["NOT (\x60Post\x60.\x60a\x60 b = (5))".toList] := by decide +kernel
  obtain rfl := List.singleton_inj.1 (hm.symm.trans hrest)
  exact ⟨hs, hn, hk, hr, hneg⟩

end Condition

end SqlComposer
