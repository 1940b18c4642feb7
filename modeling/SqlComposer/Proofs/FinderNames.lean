import SqlComposer.Finder
import SqlComposer.Proofs.Fragment
import SqlComposer.Proofs.SmallWords

/-!
# Names of finders

A name that is spelled from fields, in camel case with `And` or `Or` between them, is read back as
these fields. The reader looks for the joining word in the snake-case text, with an underscore on
both sides of it; so it is found as a word only, and no word of a field is one.
-/

namespace SqlComposer

namespace Text

open CharClass

variable {w run rest j x y : Text} {ws : List Text} {c : Char}

/-! ### Words in camel case -/

/-- A word with a capital in front. -/
def capital : Text → Text
  | [] => []
  | c :: cs => c.toUpper :: cs

/-- A name of words, each with a capital in front. -/
def camelCase (ws : List Text) : Text :=
  ws.flatMap capital

theorem isUpper_of_small (hc : c.isLower = true) : isUpper c = false :=
  Bool.not_eq_true' _ ▸ of_small (p := fun c => !isUpper c) (by decide) hc

theorem toLower_of_small (hc : c.isLower = true) : toLower c = [c] :=
  of_decide_eq_true (of_small (p := fun c => toLower c = [c]) (by decide) hc)

theorem toLower_toUpper_of_small (hc : c.isLower = true) : toLower c.toUpper = [c] :=
  of_decide_eq_true (of_small (p := fun c => toLower c.toUpper = [c]) (by decide) hc)

/-! ### Cutting names into words -/

/-- A run of small letters ends the word that has been read in front of a capital. -/
theorem caseWords_run (hrun : ∀ c ∈ run, c.isLower = true) (hne : run ≠ [])
    (hrest : ∀ c ∈ rest.head?, isUpper c = true) (mode : CaseMode) (word : Text) :
    caseWords mode word (run ++ rest) = (word ++ run) :: caseWords .boundary [] rest := by
  induction run generalizing mode word with
  | nil => exact absurd rfl hne
  | cons c cs ih =>
    obtain ⟨hc, hcs⟩ := List.forall_mem_cons.1 hrun
    have hmode : mode.after c = .lower := by
      rw [CaseMode.after, if_pos (of_small (by decide) hc)]
    -- The last letter of the run is the one that a capital may follow.
    cases cs with
    | nil =>
      cases rest with
      | nil => rfl
      | cons e es => simp [caseWords, hmode, hrest e rfl]
    | cons e es =>
      have he : isUpper e = false := isUpper_of_small (hcs e List.mem_cons_self)
      have := ih hcs (List.cons_ne_nil e es) .lower (word ++ [c])
      simpa [caseWords, hmode, he, isUpper_of_small hc] using this

/-- A word with a capital ends in front of the next capital, because there is a small letter between
the two. -/
theorem caseWords_capital_append (hw : IsSmallWord w) (hrest : ∀ c ∈ rest.head?, isUpper c = true) :
    caseWords .boundary [] (capital w ++ rest) = capital w :: caseWords .boundary [] rest := by
  obtain ⟨c, e, es, rfl⟩ := hw.exists_cons_cons
  obtain ⟨hc, hes⟩ := List.forall_mem_cons.1 hw.letters
  have hmode : CaseMode.boundary.after c.toUpper = .upper :=
    of_decide_eq_true (of_small (p := fun c => CaseMode.boundary.after c.toUpper = .upper)
      (by decide) hc)
  have := caseWords_run hes (List.cons_ne_nil e es) hrest .upper [c.toUpper]
  simpa [capital, caseWords, hmode] using this

theorem head?_camelCase (hws : ∀ w ∈ ws, IsSmallWord w) :
    ∀ c ∈ (camelCase ws).head?, isUpper c = true := by
  cases ws with
  | nil => nofun
  | cons w ws =>
    obtain ⟨c, e, es, rfl⟩ := (hws w List.mem_cons_self).exists_cons_cons
    have hc := (hws _ List.mem_cons_self).letters c List.mem_cons_self
    rintro _ ⟨⟩
    exact of_small (p := fun c => isUpper c.toUpper) (by decide) hc

theorem caseWords_camelCase (hws : ∀ w ∈ ws, IsSmallWord w) :
    caseWords .boundary [] (camelCase ws) = ws.map capital := by
  induction ws with
  | nil => rfl
  | cons w ws ih =>
    obtain ⟨hw, hws⟩ := List.forall_mem_cons.1 hws
    rw [camelCase, List.flatMap_cons]
    exact (caseWords_capital_append hw (head?_camelCase hws)).trans (congrArg _ (ih hws))

theorem isAlphanumeric_camelCase (hws : ∀ w ∈ ws, IsSmallWord w) :
    ∀ c ∈ camelCase ws, isAlphanumeric c = true := by
  intro c hc
  obtain ⟨w, hw, hc⟩ := List.mem_flatMap.1 hc
  obtain ⟨e, d, es, rfl⟩ := (hws w hw).exists_cons_cons
  obtain ⟨he, hes⟩ := List.forall_mem_cons.1 (hws _ hw).letters
  rcases List.mem_cons.1 hc with rfl | hc
  · exact of_small (p := fun c => isAlphanumeric c.toUpper) (by decide) he
  · exact of_small (by decide) (hes c hc)

/-- The words of a name in camel case are found again. -/
theorem nameWords_camelCase (hws : ∀ w ∈ ws, IsSmallWord w) :
    nameWords (camelCase ws) = ws.map capital := by
  have hcut : cutFirst (fun c => !isAlphanumeric c) (camelCase ws) = none :=
    cutFirst_eq_none_iff.2 fun c hc => by rw [isAlphanumeric_camelCase hws c hc]; rfl
  rw [nameWords, splitBy_eq, hcut, List.flatMap_singleton, caseWords_camelCase hws]

theorem lowerWord_of_small (hw : ∀ c ∈ w, c.isLower = true) : lowerWord w = w := by
  fun_induction lowerWord w with
  | case1 => rfl
  | case2 c hsigma =>
    obtain rfl := beq_iff_eq.1 hsigma
    exact absurd (hw _ List.mem_cons_self) (by decide)
  | case3 c hsigma => exact toLower_of_small (hw c List.mem_cons_self)
  | case4 c cs hcs ih =>
    obtain ⟨hc, hcs⟩ := List.forall_mem_cons.1 hw
    rw [toLower_of_small hc, ih hcs, List.singleton_append]

theorem lowerWord_capital (hw : IsSmallWord w) : lowerWord (capital w) = w := by
  obtain ⟨c, e, es, rfl⟩ := hw.exists_cons_cons
  obtain ⟨hc, hes⟩ := List.forall_mem_cons.1 hw.letters
  rw [capital, lowerWord, toLower_toUpper_of_small hc, lowerWord_of_small hes,
    List.singleton_append]
  exact List.cons_ne_nil e es

/-- A name in camel case becomes its words with underscores between them. -/
theorem snakeCase_camelCase (hws : ∀ w ∈ ws, IsSmallWord w) :
    snakeCase (camelCase ws) = join ['_'] ws := by
  have hlower : ws.map (lowerWord ∘ capital) = ws :=
    (List.map_congr_left fun w hw => lowerWord_capital (hws w hw)).trans (List.map_id ws)
  rw [snakeCase, nameWords_camelCase hws, List.map_map, hlower]

/-! ### Words as fragments -/

/-- A word with underscores around it. -/
def flanked (j : Text) : Text :=
  '_' :: j ++ ['_']

theorem splitOn_append_flanked (hj : '_' ∉ j) (x y : Text) :
    (x ++ flanked j ++ y).splitOn '_' = x.splitOn '_' ++ j :: y.splitOn '_' := by
  have : x ++ flanked j ++ y = x ++ '_' :: (j ++ '_' :: y) := by simp [flanked]
  rw [this, List.splitOn_append_cons_self, List.splitOn_append_cons_self_of_not_mem hj]

theorem splitOn_join (hne : ws ≠ []) (hws : ∀ w ∈ ws, '_' ∉ w) :
    (join ['_'] ws).splitOn '_' = ws :=
  List.splitOn_intercalate '_' hws hne

/-- A word with underscores around it occurs among words only as one of them. -/
theorem mem_of_flanked_isInfix (hj : '_' ∉ j) (hne : ws ≠ []) (hws : ∀ w ∈ ws, '_' ∉ w)
    (h : flanked j <:+: join ['_'] ws) : j ∈ ws := by
  obtain ⟨x, y, hxy⟩ := h
  rw [← splitOn_join hne hws, ← hxy, splitOn_append_flanked hj]
  exact List.mem_append_right _ List.mem_cons_self

theorem isPrefix_join (sep : Text) (hne : ws ≠ []) (us : List Text) :
    join sep ws <+: join sep (ws ++ us) := by
  cases us with
  | nil => exact (List.append_nil ws).symm ▸ List.prefix_rfl
  | cons u us =>
    rw [join_append sep hne (List.cons_ne_nil u us), List.append_assoc]
    exact List.prefix_append _ _

/-- Words among which it is not are in front of its first occurrence. -/
theorem length_join_le_of_flanked (hj : '_' ∉ j) (hne : ws ≠ []) (hws : ∀ w ∈ ws, '_' ∉ w)
    (hmem : j ∉ ws) {b : Text} (h : join ['_'] ws ++ flanked j ++ b = x ++ flanked j ++ y) :
    (join ['_'] ws).length ≤ x.length := by
  have hsplit := congrArg (List.splitOn '_') h
  rw [splitOn_append_flanked hj, splitOn_append_flanked hj, splitOn_join hne hws] at hsplit
  have hprefix : ∃ us, x.splitOn '_' = ws ++ us := by
    rcases List.append_eq_append_iff.1 hsplit with ⟨us, hx, -⟩ | ⟨us, hx, hus⟩
    · exact ⟨us, hx⟩
    · cases us with
      | nil => exact ⟨[], by rw [hx, List.append_nil, List.append_nil]⟩
      | cons u us =>
        obtain rfl := (List.cons_eq_cons.1 hus).1
        exact absurd (hx ▸ List.mem_append_right _ List.mem_cons_self) hmem
  obtain ⟨us, hus⟩ := hprefix
  have hle := (isPrefix_join ['_'] hne us).length_le
  rw [← hus] at hle
  exact hle.trans_eq (congrArg List.length (List.intercalate_splitOn '_'))

/-- Rows of words are cut at a word that is in none of them. -/
theorem pieces_join_flanked (hj : '_' ∉ j) {wss : List (List Text)} (hne : wss ≠ [])
    (hwss : ∀ ws ∈ wss, ws ≠ [] ∧ (∀ w ∈ ws, '_' ∉ w) ∧ j ∉ ws) :
    pieces (flanked j) (join (flanked j) (wss.map (join ['_']))) = wss.map (join ['_']) := by
  induction wss with
  | nil => exact absurd rfl hne
  | cons ws wss ih =>
    obtain ⟨⟨hn, hws, hmem⟩, hwss⟩ := List.forall_mem_cons.1 hwss
    cases wss with
    | nil =>
      rw [List.map_singleton, join_singleton,
        pieces_of_not_isInfix fun h => hmem (mem_of_flanked_isInfix hj hn hws h)]
    | cons vs vss =>
      have hsep : flanked j ≠ [] := List.cons_ne_nil _ _
      rw [List.map_cons, List.map_cons, join_cons_cons,
        pieces_append hsep fun x y => length_join_le_of_flanked hj hn hws hmem,
        ← List.map_cons, ih (List.cons_ne_nil _ _) hwss]

/-! ### Rows of words -/

/-- Rows of words as one row, with a word between neighbours. -/
def joinWords (j : Text) (wss : List (List Text)) : List Text :=
  [j].intercalate wss

theorem joinWords_cons_cons (j : Text) (ws vs : List Text) (wss : List (List Text)) :
    joinWords j (ws :: vs :: wss) = ws ++ j :: joinWords j (vs :: wss) := by
  rw [joinWords, List.intercalate_cons_cons, List.append_assoc]
  rfl

@[simp] theorem joinWords_singleton (j : Text) (ws : List Text) : joinWords j [ws] = ws :=
  List.intercalate_singleton

theorem mem_joinWords {wss : List (List Text)} (h : w ∈ joinWords j wss) :
    w = j ∧ 2 ≤ wss.length ∨ ∃ ws ∈ wss, w ∈ ws := by
  induction wss with
  | nil => cases h
  | cons ws wss ih =>
    cases wss with
    | nil => exact .inr ⟨ws, List.mem_cons_self, by simpa using h⟩
    | cons vs vss =>
      rw [joinWords_cons_cons, List.mem_append, List.mem_cons] at h
      rcases h with h | h | h
      · exact .inr ⟨ws, List.mem_cons_self, h⟩
      · exact .inl ⟨h, by simp⟩
      · rcases ih h with ⟨rfl, -⟩ | ⟨us, hus, hw⟩
        · exact .inl ⟨rfl, by simp⟩
        · exact .inr ⟨us, List.mem_cons_of_mem _ hus, hw⟩

theorem joinWords_ne_nil {wss : List (List Text)} (hne : wss ≠ []) (hwss : ∀ ws ∈ wss, ws ≠ []) :
    joinWords j wss ≠ [] := by
  obtain ⟨ws, wss, rfl⟩ := List.exists_cons_of_ne_nil hne
  have hws := hwss ws List.mem_cons_self
  cases wss with
  | nil => rwa [joinWords_singleton]
  | cons vs vss =>
    rw [joinWords_cons_cons]
    exact List.append_ne_nil_of_left_ne_nil hws _

theorem camelCase_joinWords (j : Text) (wss : List (List Text)) :
    camelCase (joinWords j wss) = join (capital j) (wss.map camelCase) := by
  induction wss with
  | nil => rfl
  | cons ws wss ih =>
    cases wss with
    | nil => rw [joinWords_singleton, List.map_singleton, join_singleton]
    | cons vs vss =>
      rw [joinWords_cons_cons, List.map_cons, List.map_cons, join_cons_cons, ← List.map_cons, ← ih]
      simp [camelCase]

theorem join_joinWords (j : Text) {wss : List (List Text)} (hwss : ∀ ws ∈ wss, ws ≠ []) :
    join ['_'] (joinWords j wss) = join (flanked j) (wss.map (join ['_'])) := by
  induction wss with
  | nil => rfl
  | cons ws wss ih =>
    obtain ⟨hws, hwss⟩ := List.forall_mem_cons.1 hwss
    cases wss with
    | nil => rw [joinWords_singleton, List.map_singleton, join_singleton]
    | cons vs vss =>
      have hne := joinWords_ne_nil (j := j) (List.cons_ne_nil vs vss) hwss
      have hword := join_append ['_'] (List.cons_ne_nil j []) hne
      rw [List.singleton_append, join_singleton] at hword
      rw [joinWords_cons_cons, join_append _ hws (List.cons_ne_nil _ _), hword, ih hwss]
      simp [flanked, join_cons_cons]

end Text

namespace Finder

open Text

variable {fields : List (List Text)} {head : Text} {kind : FinderKind} {either : Bool}

/-! ### Spelling -/

/-- What the name of a finder begins with, in lower case. -/
def prefixOf : FinderKind → Text
  | .first => "findby"
  | .all => "findallby"

/-- The word between two fields. -/
def joiner (either : Bool) : Text :=
  if either then "or" else "and"

/-- Fields in camel case, with the joining word between them. -/
def spelled (either : Bool) (fields : List (List Text)) : Text :=
  join (capital (joiner either)) (fields.map camelCase)

/-- A word of a field joins no fields. -/
@[mk_iff]
structure IsFieldWord (w : Text) : Prop extends IsSmallWord w where
  ne_and : w ≠ "and"
  ne_or : w ≠ "or"

instance (w : Text) : Decidable (IsFieldWord w) :=
  decidable_of_iff' _ (isFieldWord_iff w)

/-- The names of fields in snake case. -/
def names (fields : List (List Text)) : List Text :=
  fields.map (join ['_'])

/-- The condition that each field, under an alias, is its argument. -/
def comparisons (label : Text) (names : List Text) (arguments : List Value) : Condition :=
  .entries ((names.zip arguments).map fun p => (Field.qualify label p.1, .compare (.one p.2)))

/-! ### Reading -/

theorem kindOf_append (hhead : asciiLower head = prefixOf kind) (rest : Text) :
    kindOf (head ++ rest) = some (kind, rest) := by
  have hlower : asciiLower (head ++ rest) = prefixOf kind ++ asciiLower rest := by
    rw [asciiLower_append, hhead]
  have hdrop : ∀ n, (prefixOf kind).length = n → (head ++ rest).drop n = rest := by
    rintro n rfl
    rw [← hhead, asciiLower, List.length_map, List.drop_left]
  rw [kindOf, hlower]
  cases kind with
  | first => rw [hdrop 6 rfl]; rfl
  | all => rw [hdrop 9 rfl]; rfl

theorem isSmallWord_joiner (either : Bool) : IsSmallWord (joiner either) := by
  cases either <;> decide

theorem IsFieldWord.ne_joiner {w : Text} (hw : IsFieldWord w) (either : Bool) :
    w ≠ joiner either := by
  cases either with
  | false => exact hw.ne_and
  | true => exact hw.ne_or

section

variable (hne : fields ≠ []) (hfields : ∀ ws ∈ fields, ws ≠ [] ∧ ∀ w ∈ ws, IsFieldWord w)

include hfields in
theorem isSmallWord_of_mem {w : Text} (hw : w ∈ joinWords (joiner either) fields) :
    IsSmallWord w := by
  rcases mem_joinWords hw with ⟨rfl, -⟩ | ⟨ws, hws, hw⟩
  · exact isSmallWord_joiner either
  · exact ((hfields ws hws).2 w hw).toIsSmallWord

include hfields in
theorem snakeCase_spelled (either : Bool) :
    snakeCase (spelled either fields) = join ['_'] (joinWords (joiner either) fields) := by
  rw [spelled, ← camelCase_joinWords,
    snakeCase_camelCase fun w hw => isSmallWord_of_mem hfields hw]

/-- One field has no joining word in it. -/
theorem joinWords_joiner (either : Bool) (fields : List (List Text)) :
    joinWords (joiner either) fields =
      joinWords (joiner (either && 2 ≤ fields.length)) fields := by
  match fields with
  | [] => rfl
  | [ws] => rw [joinWords_singleton, joinWords_singleton]
  | _ :: _ :: _ => simp

include hne hfields in
/-- `Or` is found where it joins fields. -/
theorem has_or (either : Bool) :
    has "_or_" (join ['_'] (joinWords (joiner either) fields)) =
      (either && 2 ≤ fields.length) := by
  have hrows : ∀ ws ∈ fields, ws ≠ [] := fun ws hws => (hfields ws hws).1
  rw [Bool.eq_iff_iff, has_iff, Bool.and_eq_true, decide_eq_true_eq]
  constructor
  · intro h
    have hmem : joiner true ∈ joinWords (joiner either) fields :=
      mem_of_flanked_isInfix (by decide) (joinWords_ne_nil hne hrows)
        (fun w hw => (isSmallWord_of_mem hfields hw).not_mem (by decide)) h
    rcases mem_joinWords hmem with ⟨he, hlength⟩ | ⟨ws, hws, hw⟩
    · cases either with
      | false => exact absurd he (by decide)
      | true => exact ⟨rfl, hlength⟩
    · exact absurd rfl (((hfields ws hws).2 _ hw).ne_joiner true)
  · rintro ⟨rfl, hlength⟩
    match fields, hlength with
    | ws :: vs :: wss, _ =>
      rw [join_joinWords _ hrows, List.map_cons, List.map_cons, join_cons_cons]
      exact ⟨_, _, rfl⟩

include hne hfields in
theorem pieces_spelled (either : Bool) :
    pieces (flanked (joiner either)) (join ['_'] (joinWords (joiner either) fields)) =
      names fields := by
  rw [join_joinWords _ fun ws hws => (hfields ws hws).1]
  refine pieces_join_flanked ((isSmallWord_joiner either).not_mem (by decide)) hne
    fun ws hws => ⟨(hfields ws hws).1, fun w hw => ?_, fun hw => ?_⟩
  · exact ((hfields ws hws).2 w hw).not_mem (by decide)
  · exact ((hfields ws hws).2 _ hw).ne_joiner either rfl

include hne hfields in
theorem snakeCase_spelled_ne_nil (either : Bool) : snakeCase (spelled either fields) ≠ [] := by
  have hwords : joinWords (joiner either) fields ≠ [] :=
    joinWords_ne_nil hne fun ws hws => (hfields ws hws).1
  obtain ⟨w, ws, hw⟩ := List.exists_cons_of_ne_nil hwords
  have hsmall : IsSmallWord w :=
    isSmallWord_of_mem hfields (hw ▸ List.mem_cons_self)
  obtain ⟨c, e, es, rfl⟩ := hsmall.exists_cons_cons
  rw [snakeCase_spelled hfields, hw]
  exact fun h => List.cons_ne_nil _ _ (List.prefix_nil.1
    (h ▸ isPrefix_join ['_'] (List.cons_ne_nil (c :: e :: es) []) ws))

include hne hfields in
/-- The name of a finder that is spelled from fields asks for these fields, each with its argument,
if there are as many arguments as fields. -/
theorem parse_spelled (hhead : asciiLower head = prefixOf kind) (either : Bool) (label : Text)
    (arguments : List Value) :
    parse (head ++ spelled either fields) label arguments =
      if arguments.length = fields.length then
        .ok ⟨kind, names fields,
          if either && 2 ≤ fields.length then
            Condition.connect "OR" (comparisons label (names fields) arguments)
          else comparisons label (names fields) arguments⟩
      else
        .error (.argumentCount (head ++ spelled either fields) fields.length arguments.length) := by
  have hempty : (snakeCase (spelled either fields)).isEmpty = false :=
    List.isEmpty_eq_false_iff.2 (snakeCase_spelled_ne_nil hne hfields either)
  have hsep : ∀ e, (if e then "_or_" else "_and_" : Text) = flanked (joiner e) := by decide
  have hpieces := pieces_spelled hne hfields (either && 2 ≤ fields.length)
  rw [← joinWords_joiner, ← snakeCase_spelled hfields] at hpieces
  have hor := has_or hne hfields either
  rw [← snakeCase_spelled hfields] at hor
  have hlength : (names fields).length = fields.length := List.length_map _
  rw [parse, kindOf_append hhead]
  simp only [hempty, hor, hsep, hpieces, hlength, ne_eq, ite_not, Bool.false_eq_true, if_false]
  rfl

end

/-- A name of two fields, one of them of two words, with `Or` between them. -/
theorem parse_spelled_title_or_authorId :
    parse "findAllByTitleOrAuthorId" "Post" [.text "a", .natural 3] =
      .ok ⟨.all, ["title", "author_id"],
        Condition.connect "OR" (.entries [("Post.title", .compare (.one (.text "a"))),
          ("Post.author_id", .compare (.one (.natural 3)))])⟩ := by
  have hhead : asciiLower "findAllBy" = prefixOf .all := by decide
  have hfields : ∀ ws ∈ [["title".toList], ["author".toList, "id".toList]],
      ws ≠ [] ∧ ∀ w ∈ ws, IsFieldWord w := by decide
  exact parse_spelled (by decide) hfields hhead true "Post" [.text "a", .natural 3]

end Finder

end SqlComposer
