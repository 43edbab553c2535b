import Mathlib.Data.Finset.Card
import Stencil.Proofs.OrderedMap
import Stencil.Section.Basic

/-!
# Insertions into section tables

A section table as those who use it see it, by spellings: its names as texts
(`Table.names`), the content that a spelling finds (`Table.lookup`). It is built from a
list of sections and changed by edits, which put in one section or several
(`Table.Edit`, `Table.edited`).

Edits are insertions one after the other, and all that is seen of a table is told by the
insertions that led to it, the first ones included (`Table.Holds`): the names stand where
they were first put in, in any spelling, and a spelling finds what was put in last under
its name (`LastUnder`).

* `edited_eq`: some edits are one list of sections put in, in turn;
* `holds_ofSections`: what the table of a list of sections holds;
* `table_follows_insertions`: what a table holds after any edits, and what one more
  insertion answers and changes (`Table.Replaced`).
-/

namespace Stencil

namespace OrderedMap

variable {κ : Type} [DecidableEq κ]

/-- What is listed first is told apart by an injective view as well. -/
theorem map_eraseDups {κ' : Type} [DecidableEq κ'] {f : κ → κ'} (hf : Function.Injective f)
    (ks : List κ) : ks.eraseDups.map f = (ks.map f).eraseDups := by
  induction ks using List.reverseRecOn with
  | nil => rfl
  | append_singleton ks k ih =>
    rw [List.map_append, List.map_singleton, eraseDups_concat, eraseDups_concat, ← ih]
    by_cases hk : k ∈ ks
    · rw [if_pos hk, if_pos (List.mem_map_of_mem hk)]
    · rw [if_neg hk, if_neg ((List.mem_map_of_injective hf).not.2 hk), List.map_append,
        List.map_singleton]

end OrderedMap

namespace Section

variable {γ : Type}

/-- What is chosen last from a list is followed by nothing that could be chosen. -/
theorem getLast?_filter_eq_some_iff {α : Type} {p : α → Bool} {l : List α} {a : α} :
    (l.filter p).getLast? = some a ↔
      p a = true ∧ ∃ before after, l = before ++ a :: after ∧ ∀ b ∈ after, ¬p b = true := by
  rw [List.getLast?_filter, List.find?_eq_some_iff_append]
  refine and_congr_right fun _ => ⟨?_, ?_⟩
  · rintro ⟨after, before, hl, hafter⟩
    refine ⟨before.reverse, after.reverse, ?_, fun b hb => ?_⟩
    · rw [← List.reverse_reverse l, hl]
      simp
    · simpa using hafter b (List.mem_reverse.1 hb)
  · rintro ⟨before, after, rfl, hafter⟩
    refine ⟨after.reverse, before.reverse, by simp, fun b hb => ?_⟩
    simpa using hafter b (List.mem_reverse.1 hb)

theorem Name.text_injective : Function.Injective Name.text := by
  rintro ⟨s, _⟩ ⟨_, _⟩ rfl
  rfl

/-- In some sections, the last one under the name of `spelling` has the given content. -/
def LastUnder (sections : List (String × Content γ)) (spelling : String) (content : Content γ) :
    Prop :=
  ∃ before s after, sections = before ++ (s, content) :: after ∧ fold s = fold spelling ∧
    ∀ e ∈ after, fold e.1 ≠ fold spelling

namespace Table

/-! ### Tables by spellings -/

/-- The names of a table, as texts. -/
def names (t : Table γ) : List String := t.keys.map Name.text

/-- What is found under a spelling of a name. -/
def lookup (t : Table γ) (spelling : String) : Option (Content γ) := t.get? (.of spelling)

/-- Whether a spelling finds anything. -/
def has (t : Table γ) (spelling : String) : Bool := t.contains (.of spelling)

/-- A change of a table that puts sections in. -/
inductive Edit (γ : Type)
  /-- One section is put in. -/
  | insert (spelling : String) (content : Content γ)
  /-- Several sections are put in, in turn. -/
  | extend (sections : List (String × Content γ))

/-- The sections that an edit puts in. -/
def Edit.sections : Edit γ → List (String × Content γ)
  | insert spelling content => [(spelling, content)]
  | extend sections => sections

/-- The table after an edit. -/
def edit (t : Table γ) : Edit γ → Table γ
  | .insert spelling content => (t.replace spelling content).2
  | .extend sections => t.extend sections

/-- The table after some edits, in turn. -/
def edited (t : Table γ) (edits : List (Edit γ)) : Table γ := edits.foldl edit t

/-- What a table holds after the given insertions into the empty one. -/
structure Holds (t : Table γ) (sections : List (String × Content γ)) : Prop where
  /-- The names are listed in the order in which they first came. -/
  names_eq : t.names = (sections.map fun s => fold s.1).eraseDups
  /-- No name is listed twice. -/
  nodup_names : t.names.Nodup
  /-- Names are listed in the form to which their spellings are folded. -/
  fold_of_mem : ∀ n ∈ t.names, fold n = n
  /-- What was put in last under a name is found. -/
  lookup_eq_some_iff : ∀ spelling content,
    t.lookup spelling = some content ↔ LastUnder sections spelling content
  /-- Nothing is found where nothing was put in. -/
  lookup_eq_none_iff : ∀ spelling,
    t.lookup spelling = none ↔ ∀ s ∈ sections, fold s.1 ≠ fold spelling
  /-- There is something exactly where something is found. -/
  has_eq : ∀ spelling, t.has spelling = (t.lookup spelling).isSome
  /-- There are as many sections as there are names. -/
  size_eq : t.size = (sections.map fun s => fold s.1).toFinset.card

/-- What putting in one section answers, and the table `t'` that it makes of `t`. -/
structure Replaced (t : Table γ) (spelling : String) (content : Content γ)
    (answer : Option (Content γ)) (t' : Table γ) : Prop where
  /-- The answer is what was found until now. -/
  answer_eq : answer = t.lookup spelling
  /-- The content is found from now on. -/
  lookup_eq : ∀ other, fold other = fold spelling → t'.lookup other = some content
  /-- Under other names the same is found as before. -/
  lookup_of_ne : ∀ other, fold other ≠ fold spelling → t'.lookup other = t.lookup other
  /-- Names stay where they are, and a new one goes to the end. -/
  names_eq : t'.names = if fold spelling ∈ t.names then t.names else t.names ++ [fold spelling]

/-! ### Insertions in turn -/

theorem extend_append (t : Table γ) (sections sections' : List (String × Content γ)) :
    t.extend (sections ++ sections') = (t.extend sections).extend sections' := by
  rw [extend, List.map_append]
  exact List.foldl_append

theorem edit_eq (t : Table γ) (e : Edit γ) : t.edit e = t.extend e.sections := by
  cases e with
  | insert spelling content => rfl
  | extend sections => rfl

/-- Some edits put their sections in, one after the other. -/
theorem edited_eq (t : Table γ) (edits : List (Edit γ)) :
    t.edited edits = t.extend (edits.flatMap Edit.sections) := by
  induction edits generalizing t with
  | nil => rfl
  | cons e edits ih => rw [List.flatMap_cons, extend_append, ← edit_eq, ← ih]; rfl

theorem ofSections_edited (seed : List (String × Content γ)) (edits : List (Edit γ)) :
    (ofSections seed).edited edits = ofSections (seed ++ edits.flatMap Edit.sections) := by
  rw [edited_eq, ofSections, ofSections, extend_append]

/-! ### What a table holds -/

variable {t : Table γ} {sections : List (String × Content γ)} {spelling : String}
  {content : Content γ}

/-- Sections come in the order in which their names first come, whatever their spelling. -/
theorem keys_ofSections (sections : List (String × Content γ)) :
    (ofSections sections).keys = (sections.map fun s => Name.of s.1).eraseDups := by
  show (OrderedMap.ofList _).keys = _
  rw [OrderedMap.keys_ofList, List.map_map]
  rfl

/-- Of the sections whose names are spellings of one, the last is found. -/
theorem get?_ofSections (sections : List (String × Content γ)) (name : Name) :
    (ofSections sections).get? name =
      (sections.filter fun s => decide (Name.of s.1 = name)).getLast?.map Prod.snd := by
  show (OrderedMap.ofList _).get? name = _
  rw [OrderedMap.get?_ofList, List.filter_map, List.getLast?_map, Option.map_map]
  rfl

theorem mem_names_iff : fold spelling ∈ t.names ↔ Name.of spelling ∈ t.keys :=
  List.mem_map_of_injective (a := Name.of spelling) Name.text_injective

theorem fold_of_mem_names {n : String} (h : n ∈ t.names) : fold n = n := by
  obtain ⟨name, -, rfl⟩ := List.mem_map.1 h
  exact name.fold_text

theorem nodup_names (t : Table γ) : t.names.Nodup := t.nodup_keys.map Name.text_injective

theorem names_ofSections (sections : List (String × Content γ)) :
    (ofSections sections).names = (sections.map fun s => fold s.1).eraseDups := by
  rw [names, keys_ofSections, OrderedMap.map_eraseDups Name.text_injective, List.map_map]
  rfl

theorem lookup_ofSections_eq_some_iff :
    (ofSections sections).lookup spelling = some content ↔
      LastUnder sections spelling content := by
  rw [lookup, get?_ofSections, Option.map_eq_some_iff]
  constructor
  · rintro ⟨⟨s, _⟩, hlast, rfl⟩
    obtain ⟨hs, before, after, rfl, hafter⟩ := getLast?_filter_eq_some_iff.1 hlast
    refine ⟨before, s, after, rfl, Name.of_eq_iff.1 (of_decide_eq_true hs), fun e he => ?_⟩
    exact fun heq => hafter e he (decide_eq_true (Name.of_eq_iff.2 heq))
  · rintro ⟨before, s, after, rfl, hs, hafter⟩
    refine ⟨(s, content), getLast?_filter_eq_some_iff.2 ⟨?_, before, after, rfl, ?_⟩, rfl⟩
    · exact decide_eq_true (Name.of_eq_iff.2 hs)
    · exact fun e he heq => hafter e he (Name.of_eq_iff.1 (of_decide_eq_true heq))

theorem lookup_eq_none_iff : t.lookup spelling = none ↔ fold spelling ∉ t.names := by
  rw [mem_names_iff, OrderedMap.mem_keys_iff, lookup, Option.not_isSome_iff_eq_none]

theorem size_eq_card (t : Table γ) : t.size = t.names.toFinset.card := by
  rw [List.toFinset_card_of_nodup t.nodup_names, names, List.length_map, OrderedMap.keys,
    List.length_map]
  rfl

/-- What the table of a list of sections holds. -/
theorem holds_ofSections (sections : List (String × Content γ)) :
    (ofSections sections).Holds sections where
  names_eq := names_ofSections sections
  nodup_names := nodup_names _
  fold_of_mem _ := fold_of_mem_names
  lookup_eq_some_iff _ _ := lookup_ofSections_eq_some_iff
  lookup_eq_none_iff spelling := by
    rw [lookup_eq_none_iff, names_ofSections, List.mem_eraseDups]
    simp only [List.mem_map, not_exists, not_and, ne_eq]
  has_eq _ := rfl
  size_eq := by
    rw [size_eq_card, names_ofSections]
    congr 1
    ext n
    rw [List.mem_toFinset, List.mem_toFinset, List.mem_eraseDups]

/-- What putting in one section answers and changes. -/
theorem replaced_replace (t : Table γ) (spelling : String) (content : Content γ) :
    t.Replaced spelling content (t.replace spelling content).1 (t.replace spelling content).2 where
  answer_eq := rfl
  lookup_eq other h := by
    rw [lookup, Name.of_eq_iff.2 h]
    exact t.get?_insert_self (.of spelling) content
  lookup_of_ne other h := t.get?_insert_of_ne (fun heq => h (Name.of_eq_iff.1 heq)) content
  names_eq := by
    rw [names, replace, OrderedMap.keys_insert]
    by_cases hmem : Name.of spelling ∈ t.keys
    · rw [if_pos hmem, if_pos (mem_names_iff.2 hmem)]
      rfl
    · rw [if_neg hmem, if_neg (mem_names_iff.not.2 hmem), List.map_append]
      rfl

/-- After any edits, a table holds what was put in, from the first section on. One more
    section that is put in answers what was found until then and changes nothing else, and
    to put in two lists in turn is to put in the one they make together. -/
theorem table_follows_insertions (seed : List (String × Content γ)) (edits : List (Edit γ)) :
    ((ofSections seed).edited edits).Holds (seed ++ edits.flatMap Edit.sections) ∧
    (∀ spelling content, ((ofSections seed).edited edits).Replaced spelling content
      (((ofSections seed).edited edits).replace spelling content).1
      (((ofSections seed).edited edits).replace spelling content).2) ∧
    ∀ sections sections', (((ofSections seed).edited edits).extend sections).extend sections' =
      ((ofSections seed).edited edits).extend (sections ++ sections') := by
  refine ⟨?_, replaced_replace _, fun sections sections' => (extend_append _ _ _).symm⟩
  rw [ofSections_edited]
  exact holds_ofSections _

-- Letters outside of ASCII have no case here: there are two names in three spellings.
example : ((ofSections [("tête", .literal "1")]).edited [.insert "TÊTE" (.literal "2"),
      .extend [("TêTE", .literal "3")]] : Table Empty).names = ["TêTE", "TÊTE"] := by
  decide +kernel

end Table

end Section

end Stencil
