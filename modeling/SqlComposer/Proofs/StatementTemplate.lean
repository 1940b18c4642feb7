import Mathlib.Data.List.Nodup
import SqlComposer.Statement.Template
import SqlComposer.Proofs.Fragment

/-!
# Clauses in the places of a template

A template is written down as words with blanks between them: keywords, slots between braces, and
in INSERT a slot between parentheses. A statement is what comes of going through the words and
writing the keyword or the clause of each behind a blank, unless there is nothing to write. Each
clause stands in one place, and nothing in it is read as a part of the template. Only in INSERT the
fields are searched for slots again.
-/

namespace SqlComposer

/-! ### The words of a template -/

namespace StatementKind

def template : StatementKind → List TemplatePart
  | .select => selectTemplate
  | .insert => insertTemplate
  | .update => updateTemplate
  | .delete => deleteTemplate
  | .schema => []

/-- A template as it is written down. -/
def templateText : StatementKind → Text
  | .select =>
    "SELECT \x7bfields\x7d FROM \x7btable\x7d \x7balias\x7d \x7bjoins\x7d \x7bconditions\x7d " ++
      "\x7bgroup\x7d \x7bhaving\x7d \x7border\x7d \x7blimit\x7d \x7block\x7d"
  | .insert => "INSERT INTO \x7btable\x7d (\x7bfields\x7d) VALUES \x7bvalues\x7d"
  | .update =>
    "UPDATE \x7btable\x7d \x7balias\x7d \x7bjoins\x7d SET \x7bfields\x7d \x7bconditions\x7d"
  | .delete =>
    "DELETE \x7btarget\x7d FROM \x7btable\x7d \x7balias\x7d \x7bjoins\x7d \x7bconditions\x7d"
  | .schema => []

end StatementKind

/-- A part of a template as it is written down. -/
def TemplatePart.word : TemplatePart → Text
  | .keyword w => w
  | .slot s => s.mention
  | .enclosed s => "(" ++ s.mention ++ ")"

/-- The keyword that a part of a template is. -/
def TemplatePart.keyword? : TemplatePart → Option Text
  | .keyword w => some w
  | _ => none

/-- The slot that is filled in at a part of a template. -/
def TemplatePart.slot? : TemplatePart → Option Slot
  | .keyword _ => none
  | .slot s => some s
  | .enclosed s => some s

theorem StatementKind.words_templateText (kind : StatementKind) :
    Text.words kind.templateText = kind.template.map TemplatePart.word := by
  cases kind <;> decide +kernel

/-! ### Going through the words -/

/-- What a text becomes when another is written behind it. -/
def Text.writeBehind (written t : Text) : Text :=
  if written.isEmpty then t else written ++ ' ' :: t

/-- The name of a slot that is a word of its own. -/
def Slot.nameOf? (word : Text) : Option Text :=
  ((Text.after? "\x7b" word).bind (Text.before? "\x7d")).filter fun name =>
    !name.contains '\x7b' && !name.contains '\x7d'

namespace Clauses

/-- The clause of the slot of a name; empty if there is none. -/
def named (c : Clauses) (name : Text) : Text :=
  match Slot.all.find? fun s => s.name == name with
  | some s => c.clause s
  | none => []

/-- What is written after a word of a template. -/
def writeWord (c : Clauses) (written word : Text) : Text :=
  match Slot.nameOf? word with
  | some name =>
    let t := Text.trim (c.named name)
    if t.isEmpty then written else written.writeBehind t
  | none => written.writeBehind (c.fillMentions word)

/-- What is written after all words of a template. -/
def writeTemplate (c : Clauses) (template : Text) : Text :=
  (Text.words template).foldl c.writeWord []

end Clauses

/-! ### Mentions of slots -/

/-- Whether no slot is mentioned in a text. -/
def Unmentioned (t : Text) : Prop :=
  ∀ s : Slot, ¬s.mention <:+: t

namespace Unmentioned

variable {t u : Text}

theorem of_not_mem (h : '\x7b' ∉ t) : Unmentioned t :=
  fun _ hs => h (hs.subset List.mem_cons_self)

theorem mono (h : Unmentioned t) (hu : u <:+: t) : Unmentioned u :=
  fun s hs => h s (hs.trans hu)

/-- Parentheses end no mention. -/
theorem enclosed (h : Unmentioned t) : Unmentioned ("(" ++ t ++ ")") := by
  intro s hs
  have hs : s.mention <:+: '(' :: (t ++ [')']) := hs
  rcases List.infix_cons_iff.1 hs with hp | hs
  · have := (List.cons_prefix_cons.1 hp).1
    cases this
  · rcases List.infix_concat_iff.1 hs with hp | hs
    · -- A mention ends in a brace.
      have hne : s.mention ≠ [] := List.cons_ne_nil _ _
      have hlast : s.mention.getLast? = some '\x7d' := List.getLast?_concat
      obtain ⟨u, hu⟩ := hp
      have hu := congrArg List.getLast? hu
      rw [List.getLast?_concat, List.getLast?_append_of_ne_nil u hne, hlast] at hu
      cases hu
    · exact h s hs

end Unmentioned

theorem Text.isInfix_trim (t : Text) : Text.trim t <:+: t :=
  (Text.isPrefix_trimEnd _).isInfix.trans (List.dropWhile_suffix _).isInfix

namespace Clauses

variable {c : Clauses} {t : Text}

theorem foldl_replace_mention (c : Clauses) (h : Unmentioned t) (slots : List Slot) :
    slots.foldl (fun t s => Text.replace s.mention (c.filling s) t) t = t := by
  induction slots with
  | nil => rfl
  | cons s slots ih => rw [List.foldl_cons, Text.replace_of_not_isInfix (h s), ih]

theorem fillMentions_of_unmentioned (c : Clauses) (h : Unmentioned t) : c.fillMentions t = t :=
  c.foldl_replace_mention h Slot.all

/-- Fields that mention no slot stand between parentheses as they are. -/
theorem fill_enclosed (h : Unmentioned c.fields) :
    c.fill (.enclosed .fields) = "(" ++ Text.trim c.fields ++ ")" := by
  have hpieces : Text.pieces (Slot.mention .fields) ("(" ++ Slot.mention .fields ++ ")") =
      ["(".toList, ")".toList] := by decide +kernel
  have hreplace : Text.replace (Slot.mention .fields) (c.filling .fields)
      ("(" ++ Slot.mention .fields ++ ")") = "(" ++ Text.trim c.fields ++ ")" := by
    rw [Text.replace, hpieces, Text.join_cons_cons, Text.join_singleton]
    rfl
  have hrest : Slot.all = .fields :: Slot.all.tail := rfl
  rw [fill, fillMentions, hrest, List.foldl_cons, hreplace]
  exact c.foldl_replace_mention (h.mono (Text.isInfix_trim _)).enclosed _

end Clauses

/-! ### Words and parts -/

/-- Writing texts behind each other joins those that are not empty. -/
theorem Text.foldl_writeBehind (ts : List Text) (written : Text) :
    ts.foldl (fun w t => if t.isEmpty then w else w.writeBehind t) written =
      Text.unwords ((written :: ts).filter fun t => !t.isEmpty) := by
  induction ts generalizing written with
  | nil => cases written <;> simp [unwords, join]
  | cons t ts ih =>
    rw [List.foldl_cons, ih]
    cases t with
    | nil => simp [List.filter_cons]
    | cons a t =>
      cases written with
      | nil => rfl
      | cons b written =>
        cases hts : ts.filter fun t => !t.isEmpty with
        | nil => simp [writeBehind, hts, unwords, join_cons_cons]
        | cons u us => simp [writeBehind, hts, unwords, join_cons_cons]

theorem Text.after?_eq_none {head t : Text} (h : ¬head <+: t) : Text.after? head t = none :=
  if_neg fun hp => h (List.isPrefixOf_iff_prefix.1 hp)

namespace Slot

theorem nameOf?_mention (s : Slot) : nameOf? s.mention = some s.name := by
  cases s <;> decide +kernel

theorem nameOf?_enclosed (s : Slot) : nameOf? ("(" ++ s.mention ++ ")") = none := rfl

theorem nameOf?_of_not_mem {word : Text} (h : '\x7b' ∉ word) : nameOf? word = none := by
  have hafter : Text.after? "\x7b" word = none :=
    Text.after?_eq_none fun hp => h (hp.subset List.mem_cons_self)
  rw [nameOf?, hafter]
  rfl

end Slot

/-- Replacing what begins otherwise leaves the first character. -/
theorem Text.head?_replace {old t : Text} {a : Char} (h : old.head? ≠ some a)
    (ht : t.head? = some a) (new : Text) : (Text.replace old new t).head? = some a := by
  obtain ⟨u, rfl⟩ := List.head?_eq_some_iff.1 ht
  have hp : ¬(old.isEmpty = false ∧ old.isPrefixOf (a :: u) = true) := by
    rintro ⟨hn, hp⟩
    cases old with
    | nil => cases hn
    | cons b old =>
      have hb : b = a := (List.cons_prefix_cons.1 (List.isPrefixOf_iff_prefix.1 hp)).1
      exact h (congrArg some hb)
  rw [replace, pieces, if_neg hp]
  split
  · rfl
  · next w ws _ => cases ws <;> simp [join_cons_cons]

namespace Clauses

variable {c : Clauses}

theorem named_name (c : Clauses) (s : Slot) : c.named s.name = c.clause s := by
  cases s <;> rfl

/-- What is no brace stays in front. -/
theorem head?_foldl_replace (c : Clauses) {a : Char} {t : Text} (ha : a ≠ '\x7b')
    (ht : t.head? = some a) (slots : List Slot) :
    (slots.foldl (fun t s => Text.replace s.mention (c.filling s) t) t).head? = some a := by
  induction slots generalizing t with
  | nil => exact ht
  | cons s slots ih =>
    have hs : s.mention.head? ≠ some a := fun h => ha (Option.some.inj h).symm
    exact ih (Text.head?_replace hs ht _)

/-- The word of a part is written as the part is filled in. -/
theorem writeWord_word (c : Clauses) {p : TemplatePart}
    (hp : ∀ w, p = .keyword w → w ≠ [] ∧ '\x7b' ∉ w) (written : Text) :
    c.writeWord written p.word =
      if (c.fill p).isEmpty then written else written.writeBehind (c.fill p) := by
  cases p with
  | keyword w =>
    obtain ⟨hn, hb⟩ := hp w rfl
    rw [writeWord, TemplatePart.word, Slot.nameOf?_of_not_mem hb,
      c.fillMentions_of_unmentioned (.of_not_mem hb), fill, List.isEmpty_eq_false_iff.2 hn]
    rfl
  | slot s =>
    simp only [writeWord, TemplatePart.word, Slot.nameOf?_mention, named_name]
    rfl
  | enclosed s =>
    have hhead : (c.fill (.enclosed s)).head? = some '(' :=
      c.head?_foldl_replace (by decide) rfl Slot.all
    have hn : (c.fill (.enclosed s)).isEmpty = false := by
      obtain ⟨t, ht⟩ := List.head?_eq_some_iff.1 hhead
      rw [ht, List.isEmpty_cons]
    rw [writeWord, TemplatePart.word, Slot.nameOf?_enclosed, hn]
    rfl

end Clauses

/-- The keywords of the templates are words without braces. -/
theorem StatementKind.keyword_mem_template {kind : StatementKind} {w : Text}
    (h : .keyword w ∈ kind.template) : w ≠ [] ∧ '\x7b' ∉ w := by
  have hall : ∀ p ∈ kind.template, ∀ v ∈ p.keyword?, v ≠ [] ∧ '\x7b' ∉ v := by
    cases kind <;> decide +kernel
  exact hall _ h w rfl

/-- A statement is what is written by going through the words of its template. -/
theorem StatementKind.render_eq_writeTemplate {kind : StatementKind} (hk : kind ≠ .schema)
    (c : Clauses) : kind.render c = c.writeTemplate kind.templateText := by
  have hrender : kind.render c = c.render kind.template := by
    cases kind <;> first | rfl | exact absurd rfl hk
  have hwords : (kind.template.map TemplatePart.word).foldl c.writeWord [] =
      (kind.template.map c.fill).foldl
        (fun w t => if t.isEmpty then w else Text.writeBehind w t) [] := by
    rw [List.foldl_map, List.foldl_map]
    refine List.foldl_ext _ _ _ fun written p hp => c.writeWord_word (fun w hw => ?_) written
    exact keyword_mem_template (hw ▸ hp)
  rw [Clauses.writeTemplate, words_templateText, hwords, Text.foldl_writeBehind, hrender,
    Clauses.render, List.filter_cons_of_neg (by simp)]

/-! ### One place for each clause -/

namespace Clauses

variable {c : Clauses} {slot : Slot} {parts : List TemplatePart}

/-- The clauses with another text for a slot. -/
def put (c : Clauses) (slot : Slot) (t : Text) : Clauses :=
  match slot with
  | .fields => { c with fields := t }
  | .table => { c with table := t }
  | .aliasName => { c with aliasName := t }
  | .target => { c with target := t }
  | .joins => { c with joins := t }
  | .conditions => { c with conditions := t }
  | .group => { c with group := t }
  | .having => { c with having := t }
  | .order => { c with order := t }
  | .limit => { c with limit := t }
  | .lock => { c with lock := t }
  | .values => { c with values := t }

@[simp] theorem clause_put_self (c : Clauses) (slot : Slot) (t : Text) :
    (c.put slot t).clause slot = t := by
  cases slot <;> rfl

theorem clause_put_of_ne {other : Slot} (h : other ≠ slot) (c : Clauses) (t : Text) :
    (c.put slot t).clause other = c.clause other := by
  cases slot <;> cases other <;> first | rfl | exact absurd rfl h

/-- A part of a template as it is written where no clause is searched for slots. -/
def place (c : Clauses) : TemplatePart → Text
  | .keyword w => w
  | .slot s => c.filling s
  | .enclosed s => "(" ++ c.filling s ++ ")"

theorem place_put_of_ne {p : TemplatePart} (h : p.slot? ≠ some slot) (c : Clauses) (t : Text) :
    (c.put slot t).place p = c.place p := by
  cases p with
  | keyword w => rfl
  | slot s =>
    have hs : s ≠ slot := fun hs => h (congrArg some hs)
    rw [place, place, filling, filling, clause_put_of_ne hs]
  | enclosed s =>
    have hs : s ≠ slot := fun hs => h (congrArg some hs)
    rw [place, place, filling, filling, clause_put_of_ne hs]

/-- What stands in front of the clause of a part, and what behind it. -/
theorem exists_place_put {p : TemplatePart} (h : p.slot? = some slot) :
    ∃ front back, ∀ (c : Clauses) t, (c.put slot t).place p = front ++ Text.trim t ++ back := by
  cases p with
  | keyword w => cases h
  | slot s =>
    obtain rfl := Option.some.inj h
    exact ⟨[], [], fun c t => by simp [place, filling]⟩
  | enclosed s =>
    obtain rfl := Option.some.inj h
    exact ⟨"(", ")", fun c t => by simp [place, filling]⟩

end Clauses

/-- A text among others has a place of its own when they are joined. -/
theorem Text.exists_join_append (sep : Text) (ts us : List Text) :
    ∃ front back, ∀ t, join sep (ts ++ t :: us) = front ++ t ++ back := by
  induction ts with
  | nil =>
    cases us with
    | nil => exact ⟨[], [], fun t => by simp⟩
    | cons u us => exact ⟨[], sep ++ join sep (u :: us), fun t => by simp [join_cons_cons]⟩
  | cons t' ts ih =>
    obtain ⟨front, back, h⟩ := ih
    refine ⟨t' ++ sep ++ front, back, fun t => ?_⟩
    obtain ⟨v, vs, hv⟩ := List.exists_cons_of_ne_nil
      (List.append_ne_nil_of_right_ne_nil ts (List.cons_ne_nil t us))
    rw [List.cons_append, hv, join_cons_cons, ← hv, h]
    simp only [List.append_assoc]

namespace Clauses

/-- A clause that is not blank stands in its place, whatever it is. -/
theorem exists_render_put {parts : List TemplatePart} {slot : Slot} (c : Clauses)
    (hn : (parts.filterMap TemplatePart.slot?).Nodup)
    (hs : slot ∈ parts.filterMap TemplatePart.slot?) :
    ∃ front back, ∀ t, Text.blank t = false →
      Text.unwords ((parts.map (c.put slot t).place).filter fun t => !t.isEmpty) =
        front ++ Text.trim t ++ back := by
  obtain ⟨p, hp, hslot⟩ := List.mem_filterMap.1 hs
  obtain ⟨ps, qs, rfl⟩ := List.append_of_mem hp
  obtain ⟨a, b, hab⟩ := exists_place_put hslot
  -- No other part has this slot, so what the clause is changes no other part.
  have hother : ∀ q ∈ ps ++ qs, q.slot? ≠ some slot := by
    intro q hq hqs
    rw [List.filterMap_append, List.filterMap_cons_some hslot, List.nodup_middle,
      List.nodup_cons, ← List.filterMap_append] at hn
    exact hn.1 (List.mem_filterMap.2 ⟨q, hq, hqs⟩)
  have hmap : ∀ ts : List TemplatePart, (∀ q ∈ ts, q ∈ ps ++ qs) → ∀ t,
      ts.map (c.put slot t).place = ts.map c.place := fun ts hts t =>
    List.map_congr_left fun q hq => place_put_of_ne (hother q (hts q hq)) c t
  obtain ⟨front, back, hjoin⟩ := Text.exists_join_append [' ']
    ((ps.map c.place).filter fun t => !t.isEmpty) ((qs.map c.place).filter fun t => !t.isEmpty)
  refine ⟨front ++ a, b ++ back, fun t ht => ?_⟩
  have htrim : Text.trim t ≠ [] := by
    rw [ne_eq, ← List.isEmpty_iff, Text.isEmpty_trim, ht]
    exact Bool.false_ne_true
  have hne : (!((c.put slot t).place p).isEmpty) = true := by simp [hab, htrim]
  rw [List.map_append, List.map_cons, hmap ps (fun q hq => List.mem_append_left _ hq) t,
    hmap qs (fun q hq => List.mem_append_right _ hq) t, List.filter_append, List.filter_cons,
    if_pos hne, Text.unwords, hjoin, hab]
  simp only [List.append_assoc]

/-- A statement without mentions of slots in the fields that INSERT searches. -/
theorem render_eq_places {kind : StatementKind} {c : Clauses} (hk : kind ≠ .schema)
    (hm : kind = .insert → Unmentioned c.fields) :
    kind.render c =
      Text.unwords ((kind.template.map c.place).filter fun t => !t.isEmpty) := by
  cases kind with
  | schema => exact absurd rfl hk
  | select => rfl
  | update => rfl
  | delete => rfl
  | insert =>
    have hfill : StatementKind.insertTemplate.map c.fill =
        StatementKind.insertTemplate.map c.place := by
      simp only [StatementKind.insertTemplate, List.map_cons, List.map_nil, fill_enclosed (hm rfl)]
      rfl
    exact congrArg (fun ts => Text.unwords (ts.filter fun t => !t.isEmpty)) hfill

end Clauses

open Clauses in
/-- A statement is its template with a clause in each slot, where a clause that is blank leaves no
trace and the others stand trimmed behind a blank. It is what comes of going through the words of
the template. Whatever the clause of a slot is, it stands as it is in one place, around which the
statement does not depend on it. INSERT does so with fields that mention no slot. -/
theorem StatementKind.render_places_clauses (c : Clauses) :
    (render .select c = Text.unwords (present
        ["SELECT", c.fields, "FROM", c.table, c.aliasName, c.joins, c.conditions, c.group, c.having,
         c.order, c.limit, c.lock]) ∧
      render .update c = Text.unwords (present
        ["UPDATE", c.table, c.aliasName, c.joins, "SET", c.fields, c.conditions]) ∧
      render .delete c = Text.unwords (present
        ["DELETE", c.target, "FROM", c.table, c.aliasName, c.joins, c.conditions])) ∧
    (Unmentioned c.fields → render .insert c = Text.unwords (present
        ["INSERT", "INTO", c.table, "(" ++ Text.trim c.fields ++ ")", "VALUES", c.values])) ∧
    ∀ kind : StatementKind, kind ≠ .schema →
      kind.render c = c.writeTemplate kind.templateText ∧
        ∀ slot ∈ kind.template.filterMap TemplatePart.slot?, ∃ front back, ∀ t,
          Text.blank t = false → (kind = .insert → Unmentioned (c.put slot t).fields) →
            kind.render (c.put slot t) = front ++ Text.trim t ++ back := by
  refine ⟨⟨?_, ?_, ?_⟩, fun hm => ?_, fun kind hk => ⟨render_eq_writeTemplate hk c, ?_⟩⟩
  · rfl
  · rfl
  · rfl
  · have htrim : Text.trim ("(" ++ Text.trim c.fields ++ ")") =
        "(" ++ Text.trim c.fields ++ ")" := by
      refine Text.trim_of_ends (by rintro _ ⟨⟩; rfl) fun b hb => ?_
      rw [List.getLast?_append] at hb
      cases hb
      rfl
    have hplaces : (StatementKind.template .insert).map c.place =
        (["INSERT", "INTO", c.table, "(" ++ Text.trim c.fields ++ ")", "VALUES", c.values] :
          List Text).map Text.trim := by
      simp only [List.map_cons, htrim]
      rfl
    rw [render_eq_places (by simp) fun _ => hm, hplaces, present]
  · intro slot hs
    have hn : (kind.template.filterMap TemplatePart.slot?).Nodup := by cases kind <;> decide
    obtain ⟨front, back, h⟩ := exists_render_put c hn hs
    exact ⟨front, back, fun t ht hm => by rw [render_eq_places hk hm, h t ht]⟩

/-- Values that mention slots, behind fields with a marker in them and blanks around them. -/
theorem StatementKind.render_places_clauses_mention :
    let c : Clauses :=
      { table := "posts", fields := " id, \x7b$key$\x7d ", values := "('\x7bfields\x7d  FROM')" }
    Unmentioned c.fields ∧
      render .insert c =
        "INSERT INTO posts (id, \x7b$key$\x7d) VALUES ('\x7bfields\x7d  FROM')".toList := by
  intro c
  have hm : Unmentioned c.fields := fun s => by cases s <;> decide +kernel
  refine ⟨hm, ?_⟩
  rw [(render_places_clauses c).2.1 hm]
  decide +kernel

end SqlComposer
