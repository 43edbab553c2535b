import Mathlib.Data.List.Basic
import Mathlib.Logic.Relation
import Stencil.Placeholder

/-!
# References

A text *mentions* the names of its placeholders, in whatever letter case they
are written. When the texts of sections are known (`Texts`), a section *refers*
to the names that its text mentions, and the sections that count for a layout
are those *reachable* from it. A section that can be reached from itself lies on
a cycle (`OnCycle`).

The texts need not be known for every name, so that the texts seen so far during
a walk are such texts as well: what is known stays known as more texts come
(`Texts.Within`), and so do references and ways from the layout. To the walk through
sections it only matters which names their texts mention (`Texts.MentionsAs`).

A name is *grounded* if its text is known and mentions only grounded names: no
way down from it goes on for ever, and none meets a name without a text. A
grounded name lies on no cycle (`Grounded.not_onCycle`).
-/

namespace Stencil

open Section (Name)

namespace Placeholder

/-- A text has a placeholder that is a spelling of the name `n`. -/
def Mentions (text : String) (n : Name) : Prop := ∃ spelling ∈ scan text, Name.of spelling = n

theorem mem_references {text : String} {n : Name} : n ∈ references text ↔ Mentions text n := by
  simp [references, Mentions]

@[simp] theorem references_empty : references "" = [] := by
  simp [references, scan, pieces, Name.distinct]

/-- The name in a placeholder is mentioned. -/
theorem mentions_of_mem_pieces {text : String} {name : List Char}
    (h : Piece.reference name ∈ pieces text.toList) : Mentions text (.of (String.ofList name)) :=
  ⟨String.ofList name, List.mem_filterMap.2 ⟨_, h, rfl⟩, rfl⟩

/-- A mentioned name is that in a placeholder. -/
theorem Mentions.exists_mem_pieces {text : String} {n : Name} (h : Mentions text n) :
    ∃ name, Piece.reference name ∈ pieces text.toList ∧ Name.of (String.ofList name) = n := by
  obtain ⟨spelling, hs, rfl⟩ := h
  obtain ⟨p, hp, hname⟩ := List.mem_filterMap.1 hs
  cases p with
  | char c => cases hname
  | reference name =>
    rw [Piece.name?, Option.some.injEq] at hname
    exact ⟨name, hp, by rw [hname]⟩

theorem Piece.filled_congr {f g : Name → Option String} {p : Piece}
    (h : ∀ name, p = .reference name →
      f (.of (String.ofList name)) = g (.of (String.ofList name))) :
    p.filled f = p.filled g := by
  cases p with
  | char c => rfl
  | reference name => simp only [Piece.filled, h name rfl]

/-- Only the texts of mentioned names matter. -/
theorem substitute_congr {f g : Name → Option String} {text : String}
    (h : ∀ n, Mentions text n → f n = g n) : substitute f text = substitute g text := by
  rw [substitute, substitute, List.flatMap_congr fun p hp => Piece.filled_congr fun name hname =>
    h _ (mentions_of_mem_pieces (hname ▸ hp))]

/-- A text that mentions nothing stays as it is. -/
theorem substitute_of_references_eq_nil {values : Name → Option String} {text : String}
    (h : references text = []) : substitute values text = text := by
  refine (substitute_congr fun n hn => ?_).trans (substitute_none text)
  rw [← mem_references, h] at hn
  exact absurd hn List.not_mem_nil

end Placeholder

namespace Section

open Placeholder

/-- What is known of the texts of sections. -/
abbrev Texts := Name → Option String

/-- All that is known of the texts of sections is known in other texts as well. -/
def Texts.Within (texts texts' : Texts) : Prop := ∀ n t, texts n = some t → texts' n = some t

theorem Texts.Within.refl (texts : Texts) : texts.Within texts := fun _ _ h => h

theorem Texts.Within.trans {texts₁ texts₂ texts₃ : Texts} (h₁ : texts₁.Within texts₂)
    (h₂ : texts₂.Within texts₃) : texts₁.Within texts₃ :=
  fun n t h => h₂ n t (h₁ n t h)

/-- For all that is known of the texts of sections, other texts of theirs are known that
    mention the same names in the same order. -/
def Texts.MentionsAs (texts texts' : Texts) : Prop :=
  ∀ n t, texts n = some t → ∃ t', texts' n = some t' ∧ references t' = references t

theorem Texts.Within.mentionsAs {texts texts' : Texts} (h : texts.Within texts') :
    texts.MentionsAs texts' := fun n t ht => ⟨t, h n t ht, rfl⟩

/-- The text of the section `m` mentions the name `n`. -/
def Refers (texts : Texts) (m n : Name) : Prop := ∃ t, texts m = some t ∧ Mentions t n

/-- The names met on some way down from a layout. -/
inductive Reachable (texts : Texts) (layout : String) : Name → Prop
  | mention {n : Name} : Mentions layout n → Reachable texts layout n
  | step {m n : Name} : Reachable texts layout m → Refers texts m n → Reachable texts layout n

/-- The section `n` can be reached from itself. -/
def OnCycle (texts : Texts) (n : Name) : Prop := Relation.TransGen (Refers texts) n n

variable {texts texts' : Texts} {layout : String} {m n : Name}

theorem refers_iff {t : String} (h : texts m = some t) : Refers texts m n ↔ Mentions t n := by
  refine ⟨fun ⟨t', ht', hn⟩ => ?_, fun hn => ⟨t, h, hn⟩⟩
  rw [h, Option.some.injEq] at ht'
  exact ht' ▸ hn

theorem Refers.mono (hle : texts.Within texts') (h : Refers texts m n) : Refers texts' m n :=
  let ⟨t, ht, hn⟩ := h
  ⟨t, hle m t ht, hn⟩

theorem Reachable.mono (hle : texts.Within texts') (h : Reachable texts layout n) :
    Reachable texts' layout n := by
  induction h with
  | mention hn => exact .mention hn
  | step _ hmn ih => exact .step ih (hmn.mono hle)

/-- The way down goes on from wherever it has come. -/
theorem Reachable.reflTransGen (h : Reachable texts layout m)
    (hmn : Relation.ReflTransGen (Refers texts) m n) : Reachable texts layout n := by
  induction hmn with
  | refl => exact h
  | tail _ hkn ih => exact .step ih hkn

/-- Names among which are those in the layout, and those in their own texts, are all
    that can be reached. -/
theorem Reachable.mem_of_closed {ns : List Name} (hl : references layout ⊆ ns)
    (hns : ∀ m ∈ ns, ∀ t ∈ texts m, references t ⊆ ns) (h : Reachable texts layout n) : n ∈ ns := by
  induction h with
  | mention hn => exact hl (mem_references.2 hn)
  | @step m n _ hmn ih =>
    obtain ⟨t, ht, hn⟩ := hmn
    exact hns m ih t ht (mem_references.2 hn)

/-! ### Grounded names -/

/-- No way down from the name `n` goes on for ever or meets a name without a
    text. -/
inductive Grounded (texts : Texts) : Name → Prop
  | intro {n : Name} {t : String} : texts n = some t → (∀ m, Mentions t m → Grounded texts m) →
      Grounded texts n

theorem Grounded.of_references {t : String} {ms : List Name} (ht : texts n = some t)
    (href : references t = ms) (h : ∀ m ∈ ms, Grounded texts m) : Grounded texts n :=
  .intro ht fun m hm => h m (href ▸ mem_references.2 hm)

theorem Grounded.of_refers (h : Grounded texts m) (hmn : Refers texts m n) : Grounded texts n := by
  cases h with
  | intro ht hg => exact hg n ((refers_iff ht).1 hmn)

theorem Grounded.isSome (h : Grounded texts n) : (texts n).isSome := by
  cases h with
  | intro ht _ =>
    rw [ht]
    rfl

/-- A grounded name lies on no cycle. -/
theorem Grounded.not_onCycle (h : Grounded texts n) : ¬OnCycle texts n := by
  induction h with
  | @intro n t ht _ ih =>
    -- The first name on the way around is itself on the cycle.
    intro hn
    obtain ⟨m, hnm, hmn⟩ := Relation.TransGen.head'_iff.1 hn
    exact ih m ((refers_iff ht).1 hnm) (Relation.TransGen.tail' hmn hnm)

/-- If a layout mentions only grounded names, all that is reachable from it is
    grounded. -/
theorem Reachable.grounded (hl : ∀ m, Mentions layout m → Grounded texts m)
    (h : Reachable texts layout n) : Grounded texts n := by
  induction h with
  | mention hn => exact hl _ hn
  | step _ hmn ih => exact ih.of_refers hmn

end Section

end Stencil
