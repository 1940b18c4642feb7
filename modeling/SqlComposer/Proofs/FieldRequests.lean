import SqlComposer.Proofs.SelectedFields
import SqlComposer.Proofs.SplitTopLevel
import SqlComposer.Proofs.UniformQuotes

/-!
# Requests for the same fields

A select list depends on the requested pieces in the order in which they appear first. So it does
not show how they are written: several in one entry or an entry for each, once or again further on.
-/

namespace SqlComposer

/-! ### First appearances -/

section FirstAppearances

variable {α β : Type} [BEq α] [LawfulBEq α] [BEq β] [LawfulBEq β] {as as' bs bs' l l' : List α}

theorem eraseDups_append_of_subset (h : ∀ b ∈ bs, b ∈ as) :
    (as ++ bs).eraseDups = as.eraseDups := by
  have hb : bs.removeAll as = [] := List.filter_eq_nil_iff.2 fun b hb => by simp [h b hb]
  rw [List.eraseDups_append, hb, List.eraseDups_nil, List.append_nil]

theorem removeAll_congr (h : ∀ a, a ∈ as ↔ a ∈ as') (bs : List α) :
    bs.removeAll as = bs.removeAll as' :=
  List.filter_congr fun b _ => by simp [h]

theorem mem_congr_of_eraseDups (h : l.eraseDups = l'.eraseDups) (a : α) : a ∈ l ↔ a ∈ l' := by
  rw [← List.mem_eraseDups, h, List.mem_eraseDups]

theorem isEmpty_congr_of_eraseDups (h : l.eraseDups = l'.eraseDups) : l.isEmpty = l'.isEmpty := by
  have hmem := mem_congr_of_eraseDups h
  rw [Bool.eq_iff_iff, List.isEmpty_iff, List.isEmpty_iff, List.eq_nil_iff_forall_not_mem,
    List.eq_nil_iff_forall_not_mem]
  simp only [hmem]

/-- What comes from the elements of a list appears first where they appear first. -/
theorem eraseDups_flatMap_eraseDups (f : α → List β) (l : List α) :
    (l.eraseDups.flatMap f).eraseDups = (l.flatMap f).eraseDups := by
  induction l using List.reverseRecOn with
  | nil => rfl
  | append_singleton l a ih =>
    rw [List.flatMap_append, List.flatMap_singleton]
    by_cases ha : a ∈ l
    · have hf : ∀ b ∈ f a, b ∈ l.flatMap f := fun b hb => List.mem_flatMap.2 ⟨a, ha, hb⟩
      rw [eraseDups_append_of_subset (List.forall_mem_singleton.2 ha),
        eraseDups_append_of_subset hf, ih]
    · have hl : [a].removeAll l = [a] := by simp [List.removeAll, ha]
      have hs : [a].eraseDups = [a] := by simp [List.eraseDups_cons]
      have hf : ∀ b, b ∈ l.eraseDups.flatMap f ↔ b ∈ l.flatMap f := by
        simp [List.mem_flatMap, List.mem_eraseDups]
      rw [List.eraseDups_append, hl, hs, List.flatMap_append,
        List.flatMap_singleton, List.eraseDups_append, ih, removeAll_congr hf,
        ← List.eraseDups_append]

theorem eraseDups_filterMap_congr (f : α → Option β) (h : l.eraseDups = l'.eraseDups) :
    (l.filterMap f).eraseDups = (l'.filterMap f).eraseDups := by
  rw [List.filterMap_eq_flatMap_toList, List.filterMap_eq_flatMap_toList,
    ← eraseDups_flatMap_eraseDups, h, eraseDups_flatMap_eraseDups]

theorem eraseDups_map_congr (f : α → β) (h : l.eraseDups = l'.eraseDups) :
    (l.map f).eraseDups = (l'.map f).eraseDups := by
  rw [← List.filterMap_eq_map]
  exact eraseDups_filterMap_congr _ h

theorem eraseDups_filter_congr (p : α → Bool) (h : l.eraseDups = l'.eraseDups) :
    (l.filter p).eraseDups = (l'.filter p).eraseDups := by
  rw [← List.filterMap_eq_filter]
  exact eraseDups_filterMap_congr _ h

theorem eraseDups_append_congr (ha : as.eraseDups = as'.eraseDups)
    (hb : bs.eraseDups = bs'.eraseDups) : (as ++ bs).eraseDups = (as' ++ bs').eraseDups := by
  rw [List.eraseDups_append, List.eraseDups_append, ha,
    removeAll_congr (mem_congr_of_eraseDups ha)]
  exact congrArg _ (eraseDups_filter_congr _ hb)

end FirstAppearances

/-! ### Pieces of a request -/

namespace FieldRequest

variable {s : Source} {d : Dialect} {ps ps' requested requested' : List Text}

theorem wantsAll_congr (r : FieldRequest) (h : ps.eraseDups = ps'.eraseDups) :
    r.wantsAll ps = r.wantsAll ps' := by
  have hany : ∀ p : Text → Bool, ps.any p = ps'.any p := by
    intro p
    rw [Bool.eq_iff_iff, List.any_eq_true, List.any_eq_true]
    simp only [mem_congr_of_eraseDups h]
  rw [wantsAll, wantsAll, isEmpty_congr_of_eraseDups h, hany]

/-- The request with other fields asked for. -/
def asking (r : FieldRequest) (requested : List Text) : FieldRequest :=
  { r with requested }

/-- The columns of a select list appear first where their pieces do. -/
theorem columnPieces_congr (r : FieldRequest)
    (h : ((r.asking requested).pieces d).eraseDups = ((r.asking requested').pieces d).eraseDups) :
    ((r.asking requested).columnPieces d).eraseDups =
      ((r.asking requested').columnPieces d).eraseDups := by
  have hempty : ((r.asking requested).pieces d).isEmpty =
      ((r.asking requested').pieces d).isEmpty :=
    isEmpty_congr_of_eraseDups h
  have hall : (r.asking requested).wantsAll ((r.asking requested).pieces d) =
      (r.asking requested').wantsAll ((r.asking requested').pieces d) := r.wantsAll_congr h
  rw [columnPieces, columnPieces, hempty, hall]
  split_ifs
  · rfl
  · exact h
  · exact eraseDups_filter_congr _ h

/-- So do its virtual fields. -/
theorem virtualPieces_congr (r : FieldRequest)
    (h : ((r.asking requested).pieces d).eraseDups = ((r.asking requested').pieces d).eraseDups) :
    ((r.asking requested).virtualPieces d).eraseDups =
      ((r.asking requested').virtualPieces d).eraseDups := by
  have hall : (r.asking requested).wantsAll ((r.asking requested).pieces d) =
      (r.asking requested').wantsAll ((r.asking requested').pieces d) := r.wantsAll_congr h
  refine eraseDups_filterMap_congr _ ?_
  rw [virtualNames, virtualNames, hall]
  split_ifs
  · rfl
  · exact eraseDups_map_congr _ (eraseDups_filter_congr _ h)

/-- A select list depends on the pieces in the order of their first appearance. -/
theorem fieldList_congr (s : Source) (r : FieldRequest)
    (h : ((r.asking requested).pieces s.dialect).eraseDups =
      ((r.asking requested').pieces s.dialect).eraseDups) :
    s.fieldList (r.asking requested) = s.fieldList (r.asking requested') := by
  rw [fieldList_eq, fieldList_eq]
  exact eraseDups_append_congr (eraseDups_map_congr _ (r.columnPieces_congr h))
    (eraseDups_map_congr _ (r.virtualPieces_congr h))

end FieldRequest

/-- Each piece of an entry is one piece of itself. -/
theorem Token.flatMap_splitTopLevel (d : Dialect) (entry : Text) :
    (splitTopLevel d entry).flatMap (splitTopLevel d) = splitTopLevel d entry := by
  have hpiece : ∀ p ∈ splitTopLevel d entry, splitTopLevel d p = [p] := fun p hp =>
    ((items_splitTopLevel d entry).isPiece p hp).splitTopLevel_eq
  rw [List.flatMap_congr hpiece, List.flatMap_singleton']

namespace DataSource

variable {ds es : DataSource}

theorem Reliable.run_fields (h : ds.Reliable) (m : Model) (label : Option Text)
    (requested : List Text) (quoting : Bool) :
    (ds.run fun s => s.fields m label requested quoting).1 =
      ds.source.fieldList ((m.fieldRequest label [] quoting).asking requested) :=
  h.run _

/-- A select list holds no text twice, and it does not show how its fields are asked for: one data
source gives the same as another with its settings that is asked for the pieces of an entry in place
of the entry, or for an entry again further on. -/
theorem fields_ignore_spelling (hds : ds.Reliable) (hes : es.Reliable) (hs : es.source = ds.source)
    (m : Model) (label : Option Text) (quoting : Bool) :
    let fields (ds : DataSource) (requested : List Text) : List Text :=
      (ds.run fun s => s.fields m label requested quoting).1
    (∀ requested, (fields ds requested).Nodup) ∧
      (∀ front entry back,
        fields es (front ++ Token.splitTopLevel ds.source.dialect entry ++ back) =
          fields ds (front ++ [entry] ++ back)) ∧
      ∀ front entry middle back,
        fields es (front ++ [entry] ++ middle ++ [entry] ++ back) =
          fields ds (front ++ [entry] ++ middle ++ back) := by
  intro fields
  have hcongr : ∀ requested requested' : List Text,
      (requested.flatMap (Token.splitTopLevel ds.source.dialect)).eraseDups =
        (requested'.flatMap (Token.splitTopLevel ds.source.dialect)).eraseDups →
      fields es requested = fields ds requested' := by
    intro requested requested' h
    simp only [fields, hes.run_fields, hds.run_fields, hs]
    exact FieldRequest.fieldList_congr _ _ h
  refine ⟨fun requested => ?_, fun front entry back => hcongr _ _ ?_,
    fun front entry middle back => hcongr _ _ ?_⟩
  · simp only [fields, hds.run_fields, FieldRequest.fieldList_eq]
    exact nodup_eraseDups _
  · simp only [List.flatMap_append, Token.flatMap_splitTopLevel, List.flatMap_singleton]
  · simp only [List.flatMap_append, List.flatMap_singleton]
    refine eraseDups_append_congr (eraseDups_append_of_subset fun p hp => ?_) rfl
    simp [hp]

/-- A call and a name in one entry, asked for apart once the first answer is remembered. -/
theorem fields_ignore_spelling_call :
    let posts : Model := { name := "Post" }
    let ds := ofSource {}
    let fields (ds : DataSource) (requested : List Text) : List Text :=
      (ds.run fun s => s.fields posts none requested true).1
    let es := (ds.run fun s => s.fields posts none ["title, CONCAT(id, ', ', title)"] true).2
    ds.Reliable ∧ es.Reliable ∧ es.source = ds.source ∧
      fields es ["title", "CONCAT(id, ', ', title)"] =
        fields ds ["title, CONCAT(id, ', ', title)"] := by
  intro posts ds fields es
  have hp : ∀ ds ∈ [ofSource {}], ds.memo.Fresh :=
    List.forall_mem_singleton.2 ⟨rfl, Function.injective_id⟩
  have hds : ds.Reliable := .inr ⟨[ds], [], hp, by simp, List.mem_cons_self⟩
  have hes : es.Reliable := .inr ⟨[ds], [(0, .call _)], hp, by simp [Command.Fresh],
    List.mem_cons_self⟩
  have hpieces : Token.splitTopLevel .mySql "title, CONCAT(id, ', ', title)" =
      ["title".toList, "CONCAT(id, ', ', title)".toList] := by decide +kernel
  have h := (fields_ignore_spelling hds hes rfl posts none true).2.1 []
    "title, CONCAT(id, ', ', title)" []
  simp only [List.nil_append, List.append_nil] at h
  exact ⟨hds, hes, rfl, hpieces ▸ h⟩

end DataSource

end SqlComposer
