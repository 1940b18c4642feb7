import SqlComposer.Association.Plan
import SqlComposer.Proofs.Fragment
import SqlComposer.Proofs.Names

/-!
# References to the owner

A query of its own does not select from the owner, so pieces of SQL that mention a field of it are
dropped from its conditions. A piece is judged by its characters: it goes if the alias of the owner
stands in it with a dot behind. Every piece that refers to the owner goes. Others go too if the
alias stands inside a token, as the end of a longer name or in a string literal.
-/

namespace SqlComposer

open Identifier

theorem filter_eq_filter_iff {α : Type} {p q : α → Bool} {l : List α} :
    l.filter p = l.filter q ↔ ∀ a ∈ l, p a = q a := by
  constructor
  · intro h a ha
    have hm := congrArg (a ∈ ·) h
    simpa [ha, ← Bool.eq_iff_iff] using hm
  · exact List.filter_congr

namespace Token

variable {d : Dialect} {owner a b sql : Text} {ts : List Token}

/-! ### Names in front of dots -/

/-- The tokens of a reference to a field, up to its dot. -/
def reference (owner : Text) : List Token :=
  [⟨.ident, owner⟩, ⟨.dot, ['.']⟩]

/-- Whether a fragment refers to a field of an owner. -/
def Refers (d : Dialect) (owner sql : Text) : Prop :=
  reference owner <:+: tokenize d sql

instance : Decidable (Refers d owner sql) :=
  inferInstanceAs (Decidable (_ <:+: _))

/-- Whether the alias of an owner and a dot stand in a fragment without a token that begins there:
as the end of a longer name, in a string literal or in a quoted identifier. -/
def Poses (d : Dialect) (owner sql : Text) : Prop :=
  ∃ us u vs x y, tokenize d sql = us ++ u :: vs ∧ u.text = x ++ y ∧ x ≠ [] ∧ y ≠ [] ∧
    owner ++ ['.'] <+: y ++ textOf vs

/-- A text is cut between two tokens of it or inside one. -/
theorem split_or_inside (ts : List Token) (h : textOf ts = a ++ b) :
    (∃ us vs, ts = us ++ vs ∧ textOf us = a ∧ textOf vs = b) ∨
      ∃ us u vs x y, ts = us ++ u :: vs ∧ u.text = x ++ y ∧ x ≠ [] ∧ y ≠ [] ∧
        b = y ++ textOf vs := by
  induction ts generalizing a with
  | nil =>
    obtain ⟨rfl, rfl⟩ := List.append_eq_nil_iff.1 h.symm
    exact .inl ⟨[], [], rfl, rfl, rfl⟩
  | cons u us ih =>
    rw [textOf_cons] at h
    rcases List.append_eq_append_iff.1 h with ⟨e, rfl, he⟩ | ⟨e, hu, rfl⟩
    · rcases ih he with ⟨us', vs, rfl, rfl, rfl⟩ | ⟨us', v, vs, x, y, rfl, hv, hx, hy, rfl⟩
      · exact .inl ⟨u :: us', vs, rfl, rfl, rfl⟩
      · exact .inr ⟨u :: us', v, vs, x, y, rfl, hv, hx, hy, rfl⟩
    · rcases List.eq_nil_or_concat a with rfl | ⟨a', c, rfl⟩
      · exact .inl ⟨[], u :: us, rfl, rfl, by rw [textOf_cons, hu]; rfl⟩
      · rcases List.eq_nil_or_concat e with rfl | ⟨e', c', rfl⟩
        · rw [List.append_nil] at hu
          exact .inl ⟨[u], us, rfl, by rw [textOf_cons, hu]; simp, rfl⟩
        · exact .inr ⟨[], u, us, _, _, rfl, hu, by simp, by simp, rfl⟩

theorem isDigit_of_isIdentStart {c : Char} (h : isIdentStart c = true) : c.isDigit = false := by
  by_contra hd
  rw [Bool.not_eq_false, Char.isDigit, Bool.and_eq_true, decide_eq_true_eq, decide_eq_true_eq,
    ge_iff_le, UInt32.le_iff_toNat_le, UInt32.le_iff_toNat_le] at hd
  have h48 : 48 ≤ c.toNat := hd.1
  have h57 : c.toNat ≤ 57 := hd.2
  have hdigits : ∀ n ∈ List.range 58, 48 ≤ n → isIdentStart (Char.ofNat n) = false := by
    decide +kernel
  have hc := hdigits c.toNat (List.mem_range.2 (by omega)) h48
  rw [Char.ofNat_toNat, h] at hc
  cases hc

theorem start_of_isIdentStart (d : Dialect) {c : Char} (h : isIdentStart c = true) :
    start d c = .letter := by
  have hp := isPathChar_of_isNameChar (isNameChar_of_isIdentStart h)
  have hn := fun e => beq_of_isPathChar (e := e) hp
  rw [start, isBlank_of_isPathChar hp, beq_of_isPathChar hp (isPathChar_startQuote d),
    hn '\x60' (by decide), hn '\'' (by decide), hn '"' (by decide), isDigit_of_isIdentStart h, h]
  rfl

/-- An identifier ends in front of a dot. -/
theorem identLength_append_dot {t : Text} (h : identLength t = t.length) (b : Text) :
    identLength (t ++ '.' :: b) = t.length := by
  induction t with
  | nil =>
    have hdot : isIdentContinue '.' = false := by decide +kernel
    simp [identLength, hdot]
  | cons c cs ih =>
    have hhead : cs.head?.any isIdentContinue = true →
        (cs ++ '.' :: b).head?.any isIdentContinue = true := by
      cases cs <;> simp
    rw [identLength] at h
    rw [List.cons_append, identLength]
    split_ifs at h with hc hhyphen
    · rw [if_pos hc, ih (by simpa using h)]
      rfl
    · rw [Bool.and_eq_true] at hhyphen
      rw [if_neg hc, if_pos (Bool.and_eq_true_iff.2 ⟨hhyphen.1, hhead hhyphen.2⟩),
        ih (by simpa using h)]
      rfl

/-- Where a token begins with the alias of an owner and a dot, there is a reference. -/
theorem tokenize_reference (hi : isIdentifier owner = true)
    (ho : tokenize d owner = [⟨.ident, owner⟩]) (b : Text) :
    tokenize d (owner ++ ['.'] ++ b) = reference owner ++ tokenize d b := by
  obtain ⟨⟨c, cs, hc, hext⟩, -⟩ := ho ▸ separate_tokenize d owner
  have hstart : start d c = .letter := by
    have howner : owner = c :: cs := hc
    rw [howner, isIdentifier, Bool.and_eq_true] at hi
    exact start_of_isIdentStart d hi.1
  have hname : Ends d ⟨.ident, owner⟩ ('.' :: b) := by
    refine ⟨c, cs, hc, ?_⟩
    rw [hstart] at hext ⊢
    have hl : identLength cs = cs.length := by simpa [Start.extent] using hext
    rw [Start.extent, identLength_append_dot hl]
  have hdot : Ends d ⟨.dot, ['.']⟩ b := by
    refine ⟨'.', [], rfl, ?_⟩
    cases d <;> rfl
  rw [List.append_assoc]
  exact hname.tokenize_append.trans (congrArg _ hdot.tokenize_append)

theorem Refers.isInfix (h : Refers d owner sql) : owner ++ ['.'] <:+: sql := by
  obtain ⟨us, vs, h⟩ := h
  refine ⟨textOf us, textOf vs, ?_⟩
  rw [← textOf_tokenize d sql, ← h, textOf_append, textOf_append]
  rfl

theorem Poses.isInfix (h : Poses d owner sql) : owner ++ ['.'] <:+: sql := by
  obtain ⟨us, u, vs, x, y, h, hu, -, -, z, hz⟩ := h
  refine ⟨textOf us ++ x, z, ?_⟩
  rw [← textOf_tokenize d sql, h, textOf_append, textOf_cons, hu, List.append_assoc x, ← hz]
  simp

/-- The alias of an owner and a dot stand in a fragment where it refers to the owner, or else where
no token begins. -/
theorem isInfix_iff (hi : isIdentifier owner = true) (ho : tokenize d owner = [⟨.ident, owner⟩]) :
    owner ++ ['.'] <:+: sql ↔ Refers d owner sql ∨ Poses d owner sql := by
  constructor
  · rintro ⟨a, b, rfl⟩
    have htext := textOf_tokenize d (a ++ (owner ++ ['.']) ++ b)
    rw [List.append_assoc] at htext
    rcases split_or_inside _ htext with
      ⟨us, vs, hts, -, hvs⟩ | ⟨us, u, vs, x, y, hts, hu, hx, hy, hb⟩
    · left
      have hsep := (Separate.append_iff.1 (hts ▸ separate_tokenize d _)).2
      have hvs' : vs = reference owner ++ tokenize d b := by
        rw [← tokenize_reference hi ho, ← hvs, hsep.tokenize_textOf]
      refine ⟨us, tokenize d b, ?_⟩
      rw [List.append_assoc a, hts, hvs', List.append_assoc]
    · right
      exact ⟨us, u, vs, x, y, by rw [List.append_assoc a, hts], hu, hx, hy, b, hb⟩
  · rintro (h | h)
    · exact h.isInfix
    · exact h.isInfix

end Token

namespace Condition

variable {d : Dialect} {owner : Text} {c : Condition}

/-! ### Conjuncts -/

mutual

/-- What a condition asks for, through conjunctions in it, as far as it is not empty. -/
def conjuncts : Condition → List Condition
  | .bool b => [.bool b]
  | .raw sql => if Text.blank sql then [] else [.raw sql]
  | .all cs => conjunctsEach cs
  | .entries es => if es.isEmpty then [] else [.entries es]

def conjunctsEach : List Condition → List Condition
  | [] => []
  | c :: cs => conjuncts c ++ conjunctsEach cs

end

/-- Whether a condition is a piece of SQL in which the alias of an owner stands with a dot behind
it. -/
def mentions (owner : Text) : Condition → Bool
  | .raw sql => Text.has (owner ++ ".") sql
  | _ => false

/-- Whether a condition is a piece of SQL that refers to a field of an owner. -/
def refersTo (d : Dialect) (owner : Text) : Condition → Bool
  | .raw sql => Token.Refers d owner sql
  | _ => false

theorem mentions_of_refersTo (h : c.refersTo d owner = true) : c.mentions owner = true := by
  cases c with
  | raw sql => exact Text.has_iff.2 (Token.Refers.isInfix (of_decide_eq_true h))
  | bool b => cases h
  | all cs => cases h
  | entries es => cases h

mutual

theorem conjuncts_of_isEmpty : ∀ {c : Condition}, c.isEmpty = true → c.conjuncts = []
  | .bool b, h => by cases h
  | .raw sql, h => if_pos h
  | .all cs, h => conjunctsEach_of_allEmpty h
  | .entries es, h => if_pos h

theorem conjunctsEach_of_allEmpty :
    ∀ {cs : List Condition}, allEmpty cs = true → conjunctsEach cs = []
  | [], _ => rfl
  | c :: cs, h => by
    obtain ⟨hc, hcs⟩ := Bool.and_eq_true_iff.1 h
    rw [conjunctsEach, conjuncts_of_isEmpty hc, conjunctsEach_of_allEmpty hcs, List.append_nil]

end

mutual

/-- Without an owner the conjuncts stay as they are, in order, but for those that mention it. -/
theorem conjuncts_withoutOwner (owner : Text) : ∀ c : Condition,
    (c.withoutOwner owner).conjuncts = c.conjuncts.filter fun m => !m.mentions owner
  | .bool b => rfl
  | .raw sql => by
    rw [withoutOwner, conjuncts]
    cases hm : Text.has (owner ++ ".") sql with
    | true =>
      rw [if_pos rfl]
      split
      · rfl
      · rw [List.filter_cons_of_neg (by rw [mentions, hm]; decide)]
        rfl
    | false =>
      rw [if_neg Bool.false_ne_true, conjuncts]
      split
      · rfl
      · rw [List.filter_cons_of_pos (by rw [mentions, hm]; decide)]
        rfl
  | .all cs => conjunctsEach_withoutOwnerEach owner cs
  | .entries es => by
    rw [withoutOwner, conjuncts]
    split <;> rfl

theorem conjunctsEach_withoutOwnerEach (owner : Text) : ∀ cs : List Condition,
    conjunctsEach (withoutOwnerEach owner cs) = (conjunctsEach cs).filter fun m => !m.mentions owner
  | [] => rfl
  | c :: cs => by
    rw [withoutOwnerEach, conjunctsEach, List.filter_append, ← conjuncts_withoutOwner owner c,
      ← conjunctsEach_withoutOwnerEach owner cs]
    split
    · next he => rw [conjuncts_of_isEmpty he, List.nil_append]
    · rw [conjunctsEach]

end

/-! ### What is dropped -/

/-- Of the conjuncts of a condition the pieces that mention the owner are dropped, and nothing else.
Every piece that refers to the owner is dropped. Nothing but such pieces is dropped exactly if every
piece that mentions the owner refers to it; what mentions it refers to it, or the alias only poses
as a reference. -/
theorem conjuncts_withoutOwner_eq_iff (d : Dialect) (owner : Text) (c : Condition) :
    ((c.withoutOwner owner).conjuncts = c.conjuncts.filter fun m => !m.mentions owner) ∧
      (∀ m ∈ c.conjuncts, m.refersTo d owner = true → m ∉ (c.withoutOwner owner).conjuncts) ∧
      ((c.withoutOwner owner).conjuncts = (c.conjuncts.filter fun m => !m.refersTo d owner) ↔
        ∀ m ∈ c.conjuncts, m.mentions owner = true → m.refersTo d owner = true) ∧
      (isIdentifier owner = true → Token.tokenize d owner = [⟨.ident, owner⟩] → ∀ sql,
        (raw sql).mentions owner = true ↔ Token.Refers d owner sql ∨ Token.Poses d owner sql) := by
  have hkept := conjuncts_withoutOwner owner c
  refine ⟨hkept, ?_, ?_, ?_⟩
  · intro m hm hr
    rw [hkept, List.mem_filter, mentions_of_refersTo hr]
    simp
  · rw [hkept, filter_eq_filter_iff]
    constructor
    · intro h m hm hmentions
      simpa [hmentions] using h m hm
    · intro h m hm
      rw [Bool.not_inj_iff, Bool.eq_iff_iff]
      exact ⟨h m hm, mentions_of_refersTo⟩
  · intro hi ho sql
    rw [← Token.isInfix_iff hi ho]
    exact Text.has_iff

/-- A name that ends in the alias of the owner poses as a reference. -/
theorem conjuncts_withoutOwner_author :
    Token.tokenize .mySql "Author" = [⟨.ident, "Author"⟩] ∧
      ((raw "CoAuthor.active = 1").mentions "Author" = true ↔
        Token.Refers .mySql "Author" "CoAuthor.active = 1" ∨
          Token.Poses .mySql "Author" "CoAuthor.active = 1") := by
  have hi : isIdentifier "Author" = true := by decide +kernel
  have ho : Token.tokenize .mySql "Author" = [⟨.ident, "Author"⟩] := by decide +kernel
  exact ⟨ho, (conjuncts_withoutOwner_eq_iff .mySql "Author" empty).2.2.2 hi ho _⟩

/-- A condition on a name that ends in the alias of the owner is dropped, and so is one on a string
literal with the alias and a dot in it. Neither refers to the owner. -/
theorem drops_other_names :
    let name : Text := "CoAuthor.active = 1"
    let literal : Text := "title = 'see Author.'"
    let c : Condition := .all [.raw name, .raw literal]
    isIdentifier "Author" = true ∧
      (∀ d, ¬Token.Refers d "Author" name ∧ ¬Token.Refers d "Author" literal) ∧
      (c.withoutOwner "Author").conjuncts = [] ∧ c.conjuncts.length = 2 := by
  intro name literal c
  refine ⟨by decide +kernel, ?_, ?_, ?_⟩
  · intro d
    cases d <;> decide +kernel
  · exact List.length_eq_zero_iff.1 (by decide +kernel)
  · decide +kernel

end Condition

end SqlComposer
