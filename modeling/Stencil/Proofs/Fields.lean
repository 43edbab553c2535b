import Mathlib.Data.String.Basic
import Stencil.Catalog.Reader

/-!
# Fields in order

The fields of an object are ordered by name (`Json.Fields.Ordered`). Fields that are put in
keep the order (`Ordered.insert`, `Ordered.merge`), and fields that are in order already are
the fields of their list (`Ordered.ofList_eq`). The options of a catalog that is read are such
fields (`Catalog.ordered_options_of_read?`).
-/

namespace Stencil

namespace Json.Fields

variable {fs gs : Fields} {f : String × Json} {k : String} {v : Json}

/-- Fields ordered by name, no name coming twice. -/
def Ordered (fs : Fields) : Prop := fs.Pairwise fun f g => f.1 < g.1

theorem ordered_nil : Ordered [] := List.Pairwise.nil

theorem eq_or_mem_of_mem_insert (h : f ∈ insert k v fs) : f = (k, v) ∨ f ∈ fs := by
  induction fs with
  | nil => exact .inl (List.mem_singleton.1 h)
  | cons g fs ih =>
    rw [insert] at h
    split at h
    · exact List.mem_cons.1 h
    · split at h
      · exact (List.mem_cons.1 h).imp_right (List.mem_cons_of_mem _)
      · rcases List.mem_cons.1 h with rfl | h
        · exact .inr List.mem_cons_self
        · exact (ih h).imp_right (List.mem_cons_of_mem _)

theorem Ordered.insert (h : fs.Ordered) (k : String) (v : Json) : (insert k v fs).Ordered := by
  induction fs with
  | nil => exact List.pairwise_singleton _ _
  | cons g fs ih =>
    rw [Ordered, List.pairwise_cons] at h
    rw [Fields.insert]
    split
    · next hlt =>
      refine List.pairwise_cons.2 ⟨fun f hf => ?_, List.pairwise_cons.2 h⟩
      rcases List.mem_cons.1 hf with rfl | hf
      · exact hlt
      · exact hlt.trans (h.1 f hf)
    · next hlt =>
      split
      · next heq =>
        subst heq
        exact List.pairwise_cons.2 h
      · next hne =>
        refine List.pairwise_cons.2 ⟨fun f hf => ?_, ih h.2⟩
        rcases eq_or_mem_of_mem_insert hf with rfl | hf
        · exact lt_of_le_of_ne (not_lt.1 hlt) hne
        · exact h.1 f hf

theorem Ordered.merge (h : fs.Ordered) (gs : Fields) : (merge fs gs).Ordered := by
  induction gs generalizing fs with
  | nil => exact h
  | cons g gs ih => exact ih (h.insert g.1 g.2)

theorem ordered_ofList (fs : List (String × Json)) : (ofList fs).Ordered := ordered_nil.merge fs

/-- A field whose name comes after all others goes to the end. -/
theorem insert_of_forall_lt (h : ∀ f ∈ fs, f.1 < k) : insert k v fs = fs ++ [(k, v)] := by
  induction fs with
  | nil => rfl
  | cons g fs ih =>
    rw [List.forall_mem_cons] at h
    rw [insert, if_neg h.1.asymm, if_neg h.1.ne, ih h.2, List.cons_append]

/-- Fields whose names come after all others go to the end, in order. -/
theorem Ordered.merge_eq_append (h : Ordered (fs ++ gs)) : Fields.merge fs gs = fs ++ gs := by
  induction gs generalizing fs with
  | nil => exact (List.append_nil fs).symm
  | cons g gs ih =>
    have hlt : ∀ f ∈ fs, f.1 < g.1 := fun f hf =>
      (List.pairwise_append.1 h).2.2 f hf g List.mem_cons_self
    rw [List.append_cons] at h
    rw [Fields.merge, List.foldl_cons, ← Fields.merge, insert_of_forall_lt hlt, ih h,
      List.append_assoc, List.singleton_append]

/-- Fields in order are the fields of their list. -/
theorem Ordered.ofList_eq (h : fs.Ordered) : ofList fs = fs :=
  Ordered.merge_eq_append (show Ordered ([] ++ fs) from h)

theorem get?_eq_none_of_forall_lt (h : ∀ f ∈ fs, k < f.1) : get? k fs = none := by
  induction fs with
  | nil => rfl
  | cons f fs ih =>
    rw [List.forall_mem_cons] at h
    rw [get?, if_neg h.1.ne', ih h.2]

/-- Nothing is found before the first of fields in order. -/
theorem Ordered.head_le (h : Ordered (f :: fs)) (hk : get? k (f :: fs) = some v) : f.1 ≤ k := by
  by_contra hlt
  obtain ⟨hall, -⟩ := List.pairwise_cons.1 h
  rw [not_le] at hlt
  have hbelow : ∀ g ∈ f :: fs, k < g.1 :=
    List.forall_mem_cons.2 ⟨hlt, fun g hg => hlt.trans (hall g hg)⟩
  rw [get?_eq_none_of_forall_lt hbelow] at hk
  cases hk

theorem get?_cons_self (f : String × Json) (fs : Fields) : get? f.1 (f :: fs) = some f.2 :=
  if_pos rfl

/-- Fields in order are told by what is found in them. -/
theorem Ordered.ext (hfs : fs.Ordered) (hgs : gs.Ordered) (h : ∀ k, get? k fs = get? k gs) :
    fs = gs := by
  induction fs generalizing gs with
  | nil =>
    cases gs with
    | nil => rfl
    | cons g gs => exact nomatch (h g.1).trans (get?_cons_self g gs)
  | cons f fs ih =>
    cases gs with
    | nil => exact nomatch (h f.1).symm.trans (get?_cons_self f fs)
    | cons g gs =>
      have hle : f.1 ≤ g.1 := hfs.head_le ((h g.1).trans (get?_cons_self g gs))
      have hge : g.1 ≤ f.1 := hgs.head_le ((h f.1).symm.trans (get?_cons_self f fs))
      have hkey : f.1 = g.1 := le_antisymm hle hge
      have hvalue : f.2 = g.2 := by
        rw [← Option.some.injEq, ← get?_cons_self f fs, h, hkey, get?_cons_self]
      obtain ⟨hf, hfs⟩ := List.pairwise_cons.1 hfs
      obtain ⟨hg, hgs⟩ := List.pairwise_cons.1 hgs
      refine congrArg₂ _ (Prod.ext hkey hvalue) (ih hfs hgs fun k => ?_)
      by_cases hk : f.1 = k
      · subst hk
        rw [get?_eq_none_of_forall_lt hf, get?_eq_none_of_forall_lt (hkey ▸ hg)]
      · have hrest := h k
        rwa [get?, get?, if_neg hk, if_neg (hkey ▸ hk)] at hrest

end Json.Fields

/-! ### Options of catalogs -/

namespace Catalog

theorem ordered_of_fieldsOf {v : Toml.Value} {fs : Json.Fields} (h : fieldsOf v = some fs) :
    fs.Ordered := by
  obtain ⟨entries, -, rfl⟩ := Option.map_eq_some_iff.1 h
  exact Json.Fields.ordered_ofList _

theorem Entry.ordered_options_of_ofValue? {v : Toml.Value} {e : Entry}
    (h : Entry.ofValue? v = some e) : e.options.Ordered := by
  simp only [Entry.ofValue?, Option.bind_eq_bind, Option.bind_eq_some_iff, Option.pure_def,
    Option.some.injEq] at h
  obtain ⟨r, -, _, -, _, -, _, -, _, -, _, -, _, -, options, hoptions, rfl⟩ := h
  rw [Record.read] at hoptions
  split at hoptions
  · exact ordered_of_fieldsOf hoptions
  · rw [Option.some.injEq] at hoptions
    exact hoptions ▸ Json.Fields.ordered_nil

theorem ofValue?_of_mem_listOf {α : Type} {read : Toml.Value → Option α} {v : Toml.Value}
    {l : List α} (h : listOf read v = some l) {x : α} (hx : x ∈ l) : ∃ v', read v' = some x := by
  cases v with
  | array items =>
    rw [listOf] at h
    induction items generalizing l with
    | nil =>
      cases h
      cases hx
    | cons item items ih =>
      simp only [List.mapM_cons, Option.bind_eq_bind, Option.bind_eq_some_iff, Option.pure_def,
        Option.some.injEq] at h
      obtain ⟨y, hy, ys, hys, rfl⟩ := h
      rcases List.mem_cons.1 hx with rfl | hx
      · exact ⟨item, hy⟩
      · exact ih hx hys
  | _ => cases h

/-- The options of a catalog that is read are in order. -/
theorem ordered_options_of_read? {text : String} {c : Catalog} (h : read? text = some c) :
    ∀ e ∈ c.templates, e.options.Ordered := by
  simp only [read?, Option.bind_eq_bind, Option.bind_eq_some_iff, Option.pure_def,
    Option.some.injEq] at h
  obtain ⟨entries, -, templates, htemplates, _, -, rfl⟩ := h
  intro e he
  rw [Record.read] at htemplates
  split at htemplates
  · obtain ⟨v, hv⟩ := ofValue?_of_mem_listOf htemplates he
    exact Entry.ordered_options_of_ofValue? hv
  · rw [Option.some.injEq] at htemplates
    subst htemplates
    cases he

end Catalog

end Stencil
