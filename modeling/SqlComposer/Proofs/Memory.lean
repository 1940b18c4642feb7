import SqlComposer.DataSource
import SqlComposer.OrderedMap.Lemmas
import SqlComposer.Proofs.Json

/-!
# The memory does not show

The description of a question names everything that its answer depends on but the separator of
virtual fields, which a data source never changes. A memory whose keys do not collide therefore
keeps only answers that would be given again, whatever has been done with the data source since,
and a composition ends in what it ends in without the memory.
-/

namespace SqlComposer

/-! ### Questions -/

/-- A question to a data source. -/
inductive Question where
  | name (t : Text)
  | fields (r : FieldRequest)

namespace Question

def method : Question → Text
  | .name _ => "name"
  | .fields _ => "fields"

def arguments : Question → Json
  | .name t => .string t
  | .fields r => r.toJson

/-- The description of a question to a source. -/
def describe (q : Question) (s : Source) : Text :=
  s.describe q.method q.arguments

/-- The answer of a source without memory. -/
def answer (q : Question) (s : Source) : Answer :=
  match q with
  | .name t => .text (s.dialect.quoteName t)
  | .fields r => .list (s.fieldList r)

end Question

theorem Dialect.name_inj {d e : Dialect} (h : d.name = e.name) : d = e := by
  revert h
  cases d <;> cases e <;> decide

theorem FieldRequest.toJson_inj {r r' : FieldRequest} (h : r.toJson = r'.toJson) : r = r' := by
  simp only [toJson, OrderedMap.mapValues, Json.array.injEq, List.cons.injEq, Json.string.injEq,
    Json.object.injEq, Json.bool.injEq, and_true] at h
  obtain ⟨ha, hn, hm, ht, hc, hv, hr, hq⟩ := h
  have hv := OrderedMap.ext_entries (Json.members_inj hv)
  have hc := Json.strings_inj hc
  have hr := Json.strings_inj hr
  cases r
  cases r'
  simp_all

theorem Source.unnumbered_identity (s : Source) : s.identity.Unnumbered :=
  ⟨trivial, Json.unnumbered_optional s.schema, trivial, Json.unnumbered_strings _, trivial⟩

namespace Question

theorem unnumbered_arguments (q : Question) : q.arguments.Unnumbered := by
  cases q with
  | name t => trivial
  | fields r =>
    exact ⟨trivial, trivial, trivial, trivial, Json.unnumbered_strings _,
      Json.unnumbered_members _, Json.unnumbered_strings _, trivial, trivial⟩

/-- A description tells the question and the dialect. -/
theorem describe_inj {q q' : Question} {s s' : Source} (h : q.describe s = q'.describe s') :
    q = q' ∧ s.dialect = s'.dialect := by
  have hu : ∀ (q : Question) (s : Source),
      (Json.array [s.identity, .string q.method, q.arguments]).Unnumbered :=
    fun q s => ⟨s.unnumbered_identity, trivial, q.unnumbered_arguments, trivial⟩
  have h := Json.print_inj (hu q s) (hu q' s') h
  simp only [Source.identity, Json.array.injEq, List.cons.injEq, Json.object.injEq, Prod.mk.injEq,
    Json.string.injEq, and_true, true_and] at h
  obtain ⟨⟨_, _, hd, _⟩, hm, ha⟩ := h
  refine ⟨?_, Dialect.name_inj hd⟩
  cases q with
  | name t =>
    cases q' with
    | name u => rw [Json.string.inj ha]
    | fields r => exact absurd hm (by simp [method])
  | fields r =>
    cases q' with
    | name u => exact absurd hm (by simp [method])
    | fields r' => rw [FieldRequest.toJson_inj ha]

/-- An answer depends on the dialect and the separator only. -/
theorem answer_congr {s s' : Source} (q : Question) (hd : s.dialect = s'.dialect)
    (hs : s.separator = s'.separator) : q.answer s = q.answer s' := by
  cases q with
  | name t => rw [answer, answer, hd]
  | fields r =>
    have hw : r.writeVirtual s = r.writeVirtual s' := by
      funext field
      rw [FieldRequest.writeVirtual, FieldRequest.writeVirtual, hd, hs]
    have hc : r.compose s = r.compose s' := by
      rw [FieldRequest.compose, FieldRequest.compose, hw, hd]
    rw [answer, answer, Source.fieldList, Source.fieldList, hc, hd]

end Question

/-! ### Computations with a memory -/

section Gives

variable {α β : Type} {I : Memo → Prop}

/-- Whether a computation ends in a result from every memory with a property, and keeps the
property. -/
def Gives (I : Memo → Prop) (x : StateM Memo α) (a : α) : Prop :=
  ∀ m, I m → (x.run m).1 = a ∧ I (x.run m).2

theorem Gives.pure (a : α) : Gives I (Pure.pure a) a :=
  fun _ hm => ⟨rfl, hm⟩

theorem Gives.bind {x : StateM Memo α} {f : α → StateM Memo β} {a : α} {b : β} (hx : Gives I x a)
    (hf : Gives I (f a) b) : Gives I (x >>= f) b := by
  intro m hm
  obtain ⟨ha, hI⟩ := hx m hm
  have h := hf _ hI
  rw [← ha] at h
  exact h

/-- Whether looking an answer up and working it out come to the same from every memory with a
property. -/
def Transparent (s : Source) (I : Memo → Prop) : Prop :=
  ∀ (q : Question) (x : StateM Memo Answer), Gives I x (q.answer s) →
    Gives I (s.remember q.method q.arguments x) (q.answer s)

variable {s : Source}

theorem Transparent.answerName (h : Transparent s I) (t : Text) :
    Gives I (s.answerName t) (s.dialect.quoteName t) := by
  rw [Source.answerName]
  refine Gives.bind (h (.name t) _ ?_) (Gives.pure _)
  rw [Question.answer]
  split
  · next u hu =>
    rw [Dialect.quoteName_of_known hu]
    exact Gives.pure _
  · next rest hr =>
    have := Identifier.length_of_form_eq_distinct hr
    rw [Dialect.quoteName_of_distinct hr]
    exact Gives.bind (h.answerName rest) (Gives.pure _)
  · next e l hf =>
    have := Identifier.length_of_form_eq_aliased hf
    rw [Dialect.quoteName_of_aliased hf]
    exact Gives.bind (h.answerName e) (Gives.bind (h.answerName l) (Gives.pure _))
termination_by t.length

theorem Gives.run {onName : Text → StateM Memo Text}
    {onFields : FieldRequest → StateM Memo (List Text)} {f : Text → Text}
    {g : FieldRequest → List Text} (hf : ∀ t, Gives I (onName t) (f t))
    (hg : ∀ r, Gives I (onFields r) (g r)) (p : Render α) :
    Gives I (p.run onName onFields) (p.eval f g) := by
  induction p with
  | done a => exact Gives.pure a
  | name t k ih => exact Gives.bind (hf t) (ih (f t))
  | fields r k ih => exact Gives.bind (hg r) (ih (g r))

theorem Transparent.answerFields (h : Transparent s I) (r : FieldRequest) :
    Gives I (s.answerFields r) (s.fieldList r) := by
  rw [Source.answerFields]
  refine Gives.bind (h (.fields r) _ ?_) (Gives.pure _)
  exact Gives.bind (Gives.run h.answerName (fun _ => Gives.pure _) _) (Gives.pure _)

/-- A composition ends in its result without memory. -/
theorem Transparent.run (h : Transparent s I) (p : Render α) :
    Gives I (p.run s.answerName s.answerFields) (s.eval p) :=
  Gives.run h.answerName h.answerFields p

end Gives

/-! ### Memories -/

namespace Memo

/-- What holds of the memory of a source: descriptions are told apart by their keys, and an answer
that is kept is the answer to its question, under the settings of the time. -/
structure Faithful (separator : Text) (m : Memo) : Prop where
  injective : Function.Injective m.hash
  answer : ∀ (q : Question) (s : Source) (a : Answer), s.separator = separator →
    m.answers.get? (q.method, m.hash (q.describe s)) = some a → a = q.answer s

variable {separator : Text} {m : Memo}

theorem Faithful.of_empty (hi : Function.Injective m.hash) (he : m.answers = ∅) :
    m.Faithful separator := by
  refine ⟨hi, fun q s a _ h => ?_⟩
  rw [he] at h
  cases h

theorem Faithful.put (h : m.Faithful separator) {s : Source} (hs : s.separator = separator)
    (q : Question) : (m.put q.method (m.hash (q.describe s)) (q.answer s)).Faithful separator := by
  unfold Memo.put
  split
  · refine ⟨h.injective, fun q' s' a hs' ha => ?_⟩
    rw [OrderedMap.get?_insert] at ha
    split at ha
    · next hk =>
      obtain ⟨rfl, hd⟩ := Question.describe_inj (h.injective (Prod.mk.inj hk).2)
      rw [← Option.some.inj ha]
      exact q'.answer_congr hd.symm (hs.trans hs'.symm)
    · exact h.answer q' s' a hs' ha
  · exact h

theorem hash_put (m : Memo) (method key : Text) (a : Answer) :
    (m.put method key a).hash = m.hash := by
  unfold Memo.put
  split <;> rfl

end Memo

section Remember

variable {s : Source} {method : Text} {arguments : Json} {x : StateM Memo Answer} {m : Memo}

theorem Source.run_remember_of_disabled (h : m.enabled = false) :
    (s.remember method arguments x).run m = x.run m := by
  simp only [remember, StateT.run_bind, StateT.run_get, pure_bind, h]
  rfl

theorem Source.run_remember_of_hit (h : m.enabled = true) {a : Answer}
    (ha : m.answers.get? (method, m.hash (s.describe method arguments)) = some a) :
    (s.remember method arguments x).run m = (a, m) := by
  simp only [remember, StateT.run_bind, StateT.run_get, pure_bind, Memo.get?, h, if_true, ha]
  rfl

theorem Source.run_remember_of_miss (h : m.enabled = true)
    (ha : m.answers.get? (method, m.hash (s.describe method arguments)) = none) :
    (s.remember method arguments x).run m =
      ((x.run m).1,
        (x.run m).2.put method (m.hash (s.describe method arguments)) (x.run m).1) := by
  simp only [remember, StateT.run_bind, StateT.run_get, pure_bind, Memo.get?, h, if_true, ha]
  rfl

end Remember

/-- A faithful memory is as good as none. -/
theorem transparent_of_faithful (s : Source) (hash : Text → Text) :
    Transparent s fun m => m.Faithful s.separator ∧ m.hash = hash := by
  rintro q x hx m ⟨hm, rfl⟩
  cases he : m.enabled with
  | false =>
    rw [Source.run_remember_of_disabled he]
    exact hx m ⟨hm, rfl⟩
  | true =>
    cases ha : m.answers.get? (q.method, m.hash (q.describe s)) with
    | some a =>
      rw [Source.run_remember_of_hit he ha]
      exact ⟨hm.answer q s a rfl ha, hm, rfl⟩
    | none =>
      rw [Source.run_remember_of_miss he ha]
      obtain ⟨hr, hm', hh⟩ := hx m ⟨hm, rfl⟩
      have hput := hm'.put rfl q
      rw [hh, ← hr] at hput
      exact ⟨hr, hput, (Memo.hash_put _ _ _ _).trans hh⟩

/-- A memory that is off is as good as none. -/
theorem transparent_of_disabled (s : Source) : Transparent s fun m => m.enabled = false := by
  intro q x hx m hm
  rw [Source.run_remember_of_disabled hm]
  exact hx m hm

/-! ### Data sources -/

namespace DataSource

/-- Whether the memory of a data source is faithful under its settings. -/
def Faithful (ds : DataSource) : Prop :=
  ds.memo.Faithful ds.source.separator

variable {ds : DataSource}

theorem Faithful.run {α : Type} (h : ds.Faithful) (p : Source → Render α) :
    (ds.run p).1 = ds.source.eval (p ds.source) ∧ (ds.run p).2.Faithful := by
  have hr := (transparent_of_faithful ds.source ds.memo.hash).run (p ds.source) ds.memo ⟨h, rfl⟩
  exact ⟨hr.1, hr.2.1⟩

theorem run_of_disabled {α : Type} (h : ds.memo.enabled = false) (p : Source → Render α) :
    (ds.run p).1 = ds.source.eval (p ds.source) :=
  ((transparent_of_disabled ds.source).run (p ds.source) ds.memo h).1

end DataSource

/-- Whether a memory holds nothing yet and no two descriptions have the same key. -/
structure Memo.Fresh (m : Memo) : Prop where
  empty : m.answers = ∅
  injective : Function.Injective m.hash

theorem Memo.Fresh.faithful {m : Memo} (h : m.Fresh) (separator : Text) : m.Faithful separator :=
  .of_empty h.injective h.empty

/-! ### Runs -/

/-- What is done with a data source. -/
inductive Command : Type 1 where
  | setDialect (d : Dialect)
  | setSchema (schema : Option Text)
  | setCaching (caching : Bool)
  | flush
  | withMemo (memo : Memo)
  | clone
  | call {α : Type} (p : Source → Render α)

namespace Command

/-- The data sources that take the place of one: itself after the command, and a copy if that was
the command. -/
def apply (ds : DataSource) : Command → List DataSource
  | .setDialect d => [(ds.setDialect d).2]
  | .setSchema schema => [(ds.setSchema schema).2]
  | .setCaching caching => [ds.setCaching caching]
  | .flush => [ds.flush]
  | .withMemo memo => [ds.withMemo memo]
  | .clone => [ds, ds]
  | .call p => [(ds.run p).2]

/-- Whether a memory that is given to a data source is fresh. -/
def Fresh : Command → Prop
  | .withMemo memo => memo.Fresh
  | _ => True

theorem faithful_apply {c : Command} (hc : c.Fresh) {ds : DataSource} (h : ds.Faithful) :
    ∀ out ∈ c.apply ds, out.Faithful := by
  cases c with
  | setDialect d => exact List.forall_mem_singleton.2 h
  | setSchema schema => exact List.forall_mem_singleton.2 h
  | setCaching caching => exact List.forall_mem_singleton.2 ⟨h.injective, h.answer⟩
  | flush => exact List.forall_mem_singleton.2 (.of_empty h.injective rfl)
  | withMemo memo => exact List.forall_mem_singleton.2 (.of_empty hc.injective hc.empty)
  | clone => exact List.forall_mem_cons.2 ⟨h, List.forall_mem_singleton.2 h⟩
  | call p => exact List.forall_mem_singleton.2 (h.run p).2

/-- The data sources after a command to the one at a place. -/
def step (pool : List DataSource) (c : Nat × Command) : List DataSource :=
  match pool[c.1]? with
  | some ds => pool.take c.1 ++ c.2.apply ds ++ pool.drop (c.1 + 1)
  | none => pool

/-- The data sources after commands, each to the one at a place. -/
def exec (pool : List DataSource) (cs : List (Nat × Command)) : List DataSource :=
  cs.foldl step pool

theorem faithful_step {pool : List DataSource} (h : ∀ ds ∈ pool, ds.Faithful) {c : Nat × Command}
    (hc : c.2.Fresh) : ∀ ds ∈ step pool c, ds.Faithful := by
  unfold step
  cases hp : pool[c.1]? with
  | none => exact h
  | some ds =>
    intro out hout
    rcases List.mem_append.1 hout with hout | hout
    · rcases List.mem_append.1 hout with hout | hout
      · exact h out (List.mem_of_mem_take hout)
      · exact faithful_apply hc (h ds (List.mem_of_getElem? hp)) out hout
    · exact h out (List.mem_of_mem_drop hout)

theorem faithful_exec {pool : List DataSource} (h : ∀ ds ∈ pool, ds.Faithful)
    {cs : List (Nat × Command)} (hc : ∀ c ∈ cs, c.2.Fresh) :
    ∀ ds ∈ exec pool cs, ds.Faithful := by
  induction cs generalizing pool with
  | nil => exact h
  | cons c cs ih =>
    rw [List.forall_mem_cons] at hc
    exact ih (faithful_step h hc.1) hc.2

end Command

/-- Whatever has been done with data sources, a call to one ends as it ends under the same settings
with the memory off. -/
theorem DataSource.run_exec {pool : List DataSource} (h : ∀ ds ∈ pool, ds.memo.Fresh)
    {cs : List (Nat × Command)} (hc : ∀ c ∈ cs, c.2.Fresh) {ds : DataSource}
    (hds : ds ∈ Command.exec pool cs) {plain : DataSource} (hs : plain.source = ds.source)
    (hm : plain.memo.enabled = false) {α : Type} (p : Source → Render α) :
    (ds.run p).1 = (plain.run p).1 := by
  have hf := Command.faithful_exec (fun ds hd => (h ds hd).faithful _) hc ds hds
  rw [(hf.run p).1, run_of_disabled hm, hs]

/-- A name asked for in one dialect, and of a copy of the data source in another. -/
theorem DataSource.run_exec_copy :
    let p : Source → Render Text := fun _ => Render.ask "Post.id"
    let first := ((ofSource {}).run p).2
    let copy := (first.setDialect .postgreSql).2
    [copy, first] = Command.exec [ofSource {}]
        [(0, .call p), (0, .clone), (0, .setDialect .postgreSql)] ∧
      (copy.run p).1 = (run ⟨{ dialect := .postgreSql }, { enabled := false }⟩ p).1 := by
  intro p first copy
  let plain : DataSource := ⟨{ dialect := .postgreSql }, { enabled := false }⟩
  have hc : ∀ c ∈ [(0, .call p), (0, .clone), (0, Command.setDialect .postgreSql)], c.2.Fresh := by
    simp [Command.Fresh]
  have hp : ∀ ds ∈ [ofSource {}], ds.memo.Fresh :=
    List.forall_mem_singleton.2 ⟨rfl, Function.injective_id⟩
  have hs : plain.source = copy.source := rfl
  exact ⟨rfl, run_exec hp hc (List.mem_cons_self : copy ∈ [copy, first]) hs rfl p⟩

end SqlComposer
