import Mathlib.Data.List.Forall2
import Stencil.Proofs.Locality
import Stencil.Proofs.Piece

/-!
# Letter case of references

A text can be written in another way without being another text to an expansion: with the
letters in its placeholders in the other case (`Recased`). What is no placeholder is as it
was, and so the same placeholders are found (`Recased.pieces`), of the same names.

When all texts of sections are changed so, walks through them meet the same names, and
close the same circle; and as all placeholders are replaced, texts are expanded to the same
text. So from a layout and sections that were changed in this way, and are listed under
names in any case, the same comes out (`resolve_eq_of_recased`).
-/

namespace Stencil

open Section (Name fold)

namespace Placeholder

variable {name name' rest cs : List Char} {ps : List Piece} {text text' : String}

/-- A piece is written as another one, but for the case of letters in a placeholder. -/
inductive Piece.Recases : Piece → Piece → Prop
  | char (c : Char) : Recases (.char c) (.char c)
  | reference {name name' : List Char} : name.map Char.toUpper = name'.map Char.toUpper →
      Recases (.reference name) (.reference name')

instance (p p' : Piece) : Decidable (Piece.Recases p p') :=
  match p, p' with
  | .char c, .char d => decidable_of_iff (c = d) ⟨fun h => h ▸ .char c, fun h => by cases h; rfl⟩
  | .reference name, .reference name' =>
    decidable_of_iff (name.map Char.toUpper = name'.map Char.toUpper)
      ⟨.reference, fun h => by cases h; assumption⟩
  | .char _, .reference _ => .isFalse nofun
  | .reference _, .char _ => .isFalse nofun

/-- A text is written as another one, but for the case of letters in placeholders. -/
def Recased (text text' : String) : Prop :=
  ∃ ps, List.Forall₂ Piece.Recases (pieces text.toList) ps ∧
    text'.toList = ps.flatMap Piece.written

/-! ### Placeholders -/

theorem isNameChar_toUpper (c : Char) : isNameChar c.toUpper = isNameChar c := by
  rcases Section.toUpper_eq_self_or_lt c with h | h
  · rw [h]
  · exact Section.forall_ascii (P := fun c => isNameChar c.toUpper = isNameChar c)
      (by decide +kernel) h

theorem IsName.recase (h : IsName name) (heq : name.map Char.toUpper = name'.map Char.toUpper) :
    IsName name' := by
  refine ⟨fun hnil => h.1 ?_, fun c hc => ?_⟩
  · rwa [hnil, List.map_nil, List.map_eq_nil_iff] at heq
  · have hmem : c.toUpper ∈ name.map Char.toUpper := heq ▸ List.mem_map_of_mem hc
    obtain ⟨d, hd, hdc⟩ := List.mem_map.1 hmem
    rw [← isNameChar_toUpper, ← hdc, isNameChar_toUpper]
    exact h.2 d hd

/-- A first sign stays where it is. -/
theorem exists_append_sign_of_recases (h : List.Forall₂ Piece.Recases (pieces cs) ps)
    (hname : '@' ∉ name) (hps : ps.flatMap Piece.written = name ++ '@' :: rest) :
    ∃ rest', cs = name ++ '@' :: rest' := by
  induction name generalizing cs ps with
  | nil =>
    cases ps with
    | nil => cases hps
    | cons p' ps =>
      obtain ⟨p, qs, hp, -, hcs⟩ := List.forall₂_cons_right_iff.1 h
      rw [← flatMap_written_pieces cs, hcs, List.flatMap_cons]
      cases hp with
      | char c =>
        obtain rfl : c = '@' := (List.cons.inj hps).1
        exact ⟨_, rfl⟩
      | reference => exact ⟨_, rfl⟩
  | cons c name ih =>
    rw [List.mem_cons, not_or] at hname
    cases ps with
    | nil => cases hps
    | cons p' ps =>
      obtain ⟨p, qs, hp, hqs, hcs⟩ := List.forall₂_cons_right_iff.1 h
      cases hp with
      | char d =>
        obtain ⟨rfl, hrest⟩ := List.cons.inj hps
        have htext : cs = d :: qs.flatMap Piece.written := by
          rw [← flatMap_written_pieces cs, hcs]
          rfl
        rw [htext, pieces_cons_of_ne (Ne.symm hname.1)] at hcs
        rw [← (List.cons.inj hcs).2] at hqs
        obtain ⟨rest', hrest'⟩ := ih hqs hname.2 hrest
        exact ⟨rest', by rw [htext, hrest', List.cons_append]⟩
      | reference => exact absurd (List.cons.inj hps).1 hname.1

/-- With letters in another case, the same placeholders are found. -/
theorem pieces_of_recases (h : List.Forall₂ Piece.Recases (pieces cs) ps) :
    pieces (ps.flatMap Piece.written) = ps := by
  fun_induction pieces cs generalizing ps with
  | case1 =>
    cases h
    rw [List.flatMap_nil, pieces]
  | case2 cs name rest hclosed ih =>
    obtain ⟨p', ps, hp, hps, rfl⟩ := List.forall₂_cons_left_iff.1 h
    cases hp with
    | @reference _ name' heq =>
      have hname' : IsName name' := (closedName?_eq_some_iff.1 hclosed).1.recase heq
      have htext : (Piece.reference name' :: ps).flatMap Piece.written =
          '@' :: (name' ++ '@' :: ps.flatMap Piece.written) := by
        simp [Piece.written]
      rw [htext, pieces_of_closedName? (closedName?_eq_some_iff.2 ⟨hname', rfl⟩), ih hps]
  | case3 cs hclosed ih =>
    obtain ⟨p', ps, hp, hps, rfl⟩ := List.forall₂_cons_left_iff.1 h
    cases hp
    -- A name that is closed now would have been closed before.
    have hclosed' : closedName? (ps.flatMap Piece.written) = none := by
      rw [Option.eq_none_iff_forall_ne_some]
      rintro ⟨name, rest⟩ hsome
      obtain ⟨hname, htext⟩ := closedName?_eq_some_iff.1 hsome
      obtain ⟨rest', rfl⟩ := exists_append_sign_of_recases hps
        (fun hmem => not_isNameChar_sign (hname.2 _ hmem)) htext
      rw [closedName?_eq_some_iff.2 ⟨hname, rfl⟩] at hclosed
      cases hclosed
    rw [List.flatMap_cons, Piece.written, List.singleton_append,
      pieces_of_closedName?_eq_none hclosed', ih hps]
  | case4 c cs hc ih =>
    obtain ⟨p', ps, hp, hps, rfl⟩ := List.forall₂_cons_left_iff.1 h
    cases hp
    rw [List.flatMap_cons, Piece.written, List.singleton_append, pieces_cons_of_ne hc, ih hps]

theorem Recased.pieces (h : Recased text text') :
    List.Forall₂ Piece.Recases (pieces text.toList) (pieces text'.toList) := by
  obtain ⟨ps, hps, htext⟩ := h
  rwa [htext, pieces_of_recases hps]

theorem recased_iff : Recased text text' ↔
    List.Forall₂ Piece.Recases (Placeholder.pieces text.toList)
      (Placeholder.pieces text'.toList) :=
  ⟨Recased.pieces, fun h => ⟨_, h, (flatMap_written_pieces _).symm⟩⟩

instance (text text' : String) : Decidable (Recased text text') :=
  decidable_of_iff _ recased_iff.symm

theorem of_eq_of_recases (h : name.map Char.toUpper = name'.map Char.toUpper) :
    Name.of (String.ofList name) = Name.of (String.ofList name') := by
  rw [Name.of_eq_iff, fold, fold, String.toList_ofList, String.toList_ofList, h]

/-- A text mentions the same names, in the same order. -/
theorem Recased.references_eq (h : Recased text text') : references text' = references text := by
  have hnames : ∀ {ps ps'}, List.Forall₂ Piece.Recases ps ps' →
      (ps'.filterMap Piece.name?).map Name.of = (ps.filterMap Piece.name?).map Name.of := by
    intro ps ps' h
    induction h with
    | nil => rfl
    | cons hp _ ih =>
      cases hp with
      | char c => exact ih
      | reference heq => exact congrArg₂ List.cons (of_eq_of_recases heq).symm ih
  rw [references, references, scan, scan, hnames h.pieces]

theorem recased_empty : Recased "" "" := ⟨[], by simp [Placeholder.pieces], rfl⟩

end Placeholder

namespace Section

open Placeholder

/-- All texts are written as others, but for the case of letters in placeholders. -/
def Texts.Recased (texts texts' : Texts) : Prop :=
  ∀ n, Option.Rel Placeholder.Recased (texts n) (texts' n)

section

variable {texts texts' : Texts} {layout layout' out : String} {n : Name} {t : String}

theorem Texts.Recased.exists_eq_some (h : texts.Recased texts') (ht : texts n = some t) :
    ∃ t', texts' n = some t' ∧ Placeholder.Recased t t' := by
  have hn := h n
  rw [ht] at hn
  cases htexts' : texts' n with
  | none =>
    rw [htexts'] at hn
    cases hn
  | some t' =>
    rw [htexts'] at hn
    cases hn with
    | some ht' => exact ⟨t', rfl, ht'⟩

theorem Texts.Recased.mentionsAs (h : texts.Recased texts') : texts.MentionsAs texts' := by
  intro n t ht
  obtain ⟨t', ht', hrecased⟩ := h.exists_eq_some ht
  exact ⟨t', ht', hrecased.references_eq⟩

/-! ### Plain expansions -/

theorem Spells.recase (htexts : texts.Recased texts') {ps ps' : List Piece} {cs : List Char}
    (h : Spells texts ps cs) (hps : List.Forall₂ Piece.Recases ps ps') : Spells texts' ps' cs := by
  induction h generalizing ps' with
  | nil =>
    cases hps
    exact .nil
  | char _ ih =>
    obtain ⟨p', ps', hp, hrest, rfl⟩ := List.forall₂_cons_left_iff.1 hps
    cases hp
    exact .char (ih hrest)
  | reference ht _ _ ihi ih =>
    obtain ⟨p', ps', hp, hrest, rfl⟩ := List.forall₂_cons_left_iff.1 hps
    cases hp with
    | reference heq =>
      obtain ⟨t', ht', hrecased⟩ := htexts.exists_eq_some ht
      exact .reference (of_eq_of_recases heq ▸ ht') (ihi hrecased.pieces) (ih hrest)

/-- All placeholders are replaced, in whatever case they are written. -/
theorem Expands.recase (htexts : texts.Recased texts')
    (hlayout : Placeholder.Recased layout layout') (h : Expands texts layout out) :
    Expands texts' layout' out :=
  Spells.recase htexts h hlayout.pieces

/-- The same names are new in the texts that are met. -/
theorem news_eq_of_recased (known : List Name) {ts ts' : List String}
    (h : List.Forall₂ Placeholder.Recased ts ts') : news known ts' = news known ts := by
  induction h generalizing known with
  | nil => rfl
  | cons ht _ ih => rw [news, news, ht.references_eq, ih]

theorem forall₂_textsMet (htexts : texts.Recased texts')
    (hlayout : Placeholder.Recased layout layout') (met : List Name) :
    List.Forall₂ Placeholder.Recased (textsMet texts layout met) (textsMet texts' layout' met) := by
  refine .cons hlayout ?_
  refine List.rel_filterMap (R := Eq) (fun n m hnm => ?_) (List.forall₂_same.2 fun _ _ => rfl)
  exact hnm ▸ htexts n

end

/-! ### Tables -/

variable {γ σ : Type}

/-- Two contents are written down, the one as the other but for the case of letters in
    placeholders. -/
def Content.Recased (c c' : Content γ) : Prop :=
  ∃ t t', c = .literal t ∧ c' = .literal t' ∧ Placeholder.Recased t t'

/-- The sections of a table are those of another one, in another letter case. -/
def Table.Recased (sections sections' : Table γ) : Prop :=
  OrderedMap.Related Content.Recased sections.entries sections'.entries

/-- The table of some sections that were written down. -/
def Table.ofTexts (sections : List (String × String)) : Table γ :=
  .ofSections (sections.map fun s => (s.1, .literal s.2))

/-- A section is another one, with its name in another letter case and its text written as the
    other but for the case of letters in placeholders. -/
def SectionRecased (s s' : String × String) : Prop :=
  fold s.1 = fold s'.1 ∧ Placeholder.Recased s.2 s'.2

instance (s s' : String × String) : Decidable (SectionRecased s s') :=
  inferInstanceAs (Decidable (_ ∧ _))

theorem Table.recased_ofTexts {ss ss' : List (String × String)}
    (h : List.Forall₂ SectionRecased ss ss') :
    Table.Recased (γ := γ) (.ofTexts ss) (.ofTexts ss') := by
  refine OrderedMap.Related.insertMany ?_ .nil
  simp only [OrderedMap.Related, List.map_map, List.forall₂_map_left_iff,
    List.forall₂_map_right_iff]
  exact h.imp fun s s' hs => ⟨Name.of_eq_iff.2 hs.1, _, _, rfl, rfl, hs.2⟩

section

variable {sections sections' : Table γ}

theorem Table.Recased.keys_eq (h : sections.Recased sections') :
    sections'.keys = sections.keys :=
  OrderedMap.Related.map_fst_eq h

theorem Table.Recased.content (h : sections.Recased sections') (n : Name) :
    Content.Recased (sections.content n) (sections'.content n) := by
  have hfind := OrderedMap.Related.find h n
  rw [Table.content, Table.content, OrderedMap.get?, OrderedMap.get?]
  generalize OrderedMap.find n sections.entries = c at hfind
  generalize OrderedMap.find n sections'.entries = c' at hfind
  cases hfind with
  | none => exact ⟨"", "", rfl, rfl, recased_empty⟩
  | some hc => exact hc

theorem Table.Recased.pure (h : sections.Recased sections') (run : γ → σ → String × σ) :
    sections.Pure run ∧ sections'.Pure run := by
  constructor
  · refine Table.pure_of_content fun n => ?_
    obtain ⟨t, t', ht, -, -⟩ := h.content n
    rw [ht]
    exact fun _ _ => rfl
  · refine Table.pure_of_content fun n => ?_
    obtain ⟨t, t', -, ht', -⟩ := h.content n
    rw [ht']
    exact fun _ _ => rfl

theorem Table.Recased.texts (h : sections.Recased sections') (run : γ → σ → String × σ)
    (world world' : σ) : (sections.texts run world).Recased (sections'.texts run world') := by
  intro n
  obtain ⟨t, t', ht, ht', hrecased⟩ := h.content n
  rw [Table.texts, Table.texts, ht, ht']
  exact .some hrecased

end

/-! ### Layouts -/

section

variable (run : γ → σ → String × σ) {layout layout' : String}
  {sections sections' : List (String × String)}

/-- From a layout and sections that are written down, with the letters in placeholders and
    in the names of sections in any case, the same text comes out and the same names are
    missing, or the same circle is closed. -/
theorem resolve_eq_of_recased (hlayout : Placeholder.Recased layout layout')
    (hsections : List.Forall₂ SectionRecased sections sections') (world world' : σ) :
    (resolve run (.literal layout') (.ofTexts sections') world').result.map
        (fun e => (e.text, e.missing)) =
      (resolve run (.literal layout) (.ofTexts sections) world).result.map
        fun e => (e.text, e.missing) := by
  have htable : Table.Recased (γ := γ) (.ofTexts sections) (.ofTexts sections') :=
    Table.recased_ofTexts hsections
  have htexts := htable.texts run world world'
  obtain ⟨hpure, hpure'⟩ := htable.pure run
  rcases resolve_expands_or_circles (.literal layout) world hpure with
    ⟨e, he, hexp⟩ | ⟨chain, he, hc⟩
  · obtain ⟨e', he', htext⟩ := exists_resolve_eq_ok_of_expands (.literal layout') world' hpure'
      (hexp.recase htexts hlayout)
    -- The names that are missing are those that are new in the texts that the walk meets.
    obtain ⟨met, hmet, hmissing, -⟩ :=
      resolve_missing_eq_news he (resolve_texts_within _ world hpure world)
    obtain ⟨met', hmet', hmissing', -⟩ :=
      resolve_missing_eq_news he' (resolve_texts_within _ world' hpure' world')
    have hrefs : references layout' = references layout := hlayout.references_eq
    obtain rfl : met = met' := (hmet.of_mentionsAs htexts.mentionsAs).unique (hrefs ▸ hmet')
    have hnews := news_eq_of_recased (OrderedMap.keys (Table.ofTexts (γ := γ) sections))
      (forall₂_textsMet htexts hlayout met)
    have hsame : e'.missing = e.missing := by
      rw [hmissing, hmissing', htable.keys_eq]
      exact congrArg List.flatten hnews
    rw [he, he', Except.map, Except.map, htext, hsame]
  · have hc' : Circles _ [] (references layout') chain :=
      hlayout.references_eq ▸ hc.of_mentionsAs htexts.mentionsAs
    rw [he, resolve_eq_error_of_circles (.literal layout') world' hpure' hc']

/-- The word behind the last sign is in no placeholder, and has to stay as it was. -/
theorem resolve_eq_of_recased_title :
    Placeholder.Recased "@Title@, @gone@ me@Title" "@tITLE@, @GONE@ me@Title" ∧
    List.Forall₂ SectionRecased [("title", "Mrs @name@"), ("NAME", "Hurst")]
      [("TITLE", "Mrs @Name@"), ("name", "Hurst")] ∧
    (resolve fixedAnswer (.literal "@tITLE@, @GONE@ me@Title")
          (.ofTexts [("TITLE", "Mrs @Name@"), ("name", "Hurst")]) 1).result.map
        (fun e => (e.text, e.missing)) =
      (resolve fixedAnswer (.literal "@Title@, @gone@ me@Title")
          (.ofTexts [("title", "Mrs @name@"), ("NAME", "Hurst")]) 0).result.map
        fun e => (e.text, e.missing) := by
  have hlayout : Placeholder.Recased "@Title@, @gone@ me@Title" "@tITLE@, @GONE@ me@Title" := by
    decide +kernel
  have hsections : List.Forall₂ SectionRecased [("title", "Mrs @name@"), ("NAME", "Hurst")]
      [("TITLE", "Mrs @Name@"), ("name", "Hurst")] := by decide +kernel
  exact ⟨hlayout, hsections, resolve_eq_of_recased fixedAnswer hlayout hsections 0 1⟩

end

end Section

end Stencil
