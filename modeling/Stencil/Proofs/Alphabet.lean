import Stencil.Proofs.Reading
import Stencil.Proofs.Recovery

/-!
# The alphabet of names

Names are documented to be made of the letters and digits of ASCII, `_` and `-`
(`isPlainNameChar`). As case is ignored by Unicode's rules where placeholders are found,
two more letters are taken for letters of a name, the long s and the Kelvin sign
(`isNameChar_iff`); and as names are folded by the rules of ASCII, they stay in the name
as they are. So `@ſ@` is found to be a placeholder, of a section that is hardly there,
and vanishes from the text (`scan_long_s`).

Such a letter in a placeholder is all there is between what is documented and what is
done (`scan_plain_iff`).
-/

namespace Stencil

open Section (Name Table Content fold)

namespace Placeholder

variable {alphabet alphabet' : Char → Bool} {c : Char} {gap name cs : List Char}

/-! ### Letters -/

/-- A character of which names are documented to be made. -/
def isPlainNameChar (c : Char) : Bool := c.isAlphanum || c == '_' || c == '-'

/-- A character of which names are documented to be made when they are in upper case. -/
def isFoldedNameChar (c : Char) : Bool := c.isUpper || c.isDigit || c == '_' || c == '-'

/-- Two letters are found in names that are not documented, the long s and the Kelvin
    sign. -/
theorem isNameChar_iff : isNameChar c ↔ isPlainNameChar c ∨ c = '\u017F' ∨ c = '\u212A' := by
  rw [← Char.toNat_inj (c := c) (d := '\u017F'), ← Char.toNat_inj (c := c) (d := '\u212A')]
  simp only [isNameChar, isPlainNameChar, Bool.or_eq_true, beq_iff_eq, or_assoc]
  rfl

theorem not_isPlainNameChar_sign : ¬isPlainNameChar '@' := by decide

theorem lt_of_isPlainNameChar (h : isPlainNameChar c) : c.toNat < 128 := by
  have hlt : ∀ high : Char, c.val ≤ high.val → high.toNat < 128 → c.toNat < 128 :=
    fun high hle hhigh => Nat.lt_of_le_of_lt (UInt32.le_iff_toNat_le.1 hle) hhigh
  have hcases : ((c.isUpper ∨ c.isLower) ∨ c.isDigit) ∨ c = '_' ∨ c = '-' := by
    have h' : (c.isUpper || c.isLower || c.isDigit || c == '_' || c == '-') = true := h
    simpa only [Bool.or_eq_true, beq_iff_eq, or_assoc] using h'
  rcases hcases with ((h | h) | h) | rfl | rfl
  · exact hlt 'Z' (of_decide_eq_true h).2 (by decide)
  · exact hlt 'z' (of_decide_eq_true (Bool.and_eq_true_iff.1 h).2) (by decide)
  · exact hlt '9' (of_decide_eq_true (Bool.and_eq_true_iff.1 h).2) (by decide)
  · decide
  · decide

/-- In upper case, the plain ones among the characters of names are as documented, and no
    others. -/
theorem isFoldedNameChar_toUpper_iff (h : isNameChar c) :
    isFoldedNameChar c.toUpper ↔ isPlainNameChar c := by
  rcases isNameChar_iff.1 h with hplain | rfl | rfl
  · exact Section.forall_ascii (P := fun c => isFoldedNameChar c.toUpper ↔ isPlainNameChar c)
      (by decide +kernel) (lt_of_isPlainNameChar hplain)
  · decide
  · decide

/-! ### Readings over a smaller alphabet -/

theorem IsNameOver.mono (h : IsNameOver alphabet' name) (hle : ∀ c, alphabet' c → alphabet c) :
    IsNameOver alphabet name := ⟨h.1, fun c hc => hle c (h.2 c hc)⟩

theorem Clear.anti (h : Clear alphabet gap cs) (hle : ∀ c, alphabet' c → alphabet c) :
    Clear alphabet' gap cs := fun after hafter hne ⟨name, rest, hname, heq⟩ =>
  h after hafter hne ⟨name, rest, hname.mono hle, heq⟩

namespace Reading

variable {r : Reading}

theorem Leftmost.isNameOver_of_mem (h : r.Leftmost alphabet) {name : String}
    (hname : name ∈ r.names) : IsNameOver alphabet name.toList := by
  induction r with
  | last gap => exact absurd hname List.not_mem_nil
  | next gap first rest ih =>
    rcases List.mem_cons.1 hname with rfl | hname
    · rw [String.toList_ofList]
      exact h.2.1
    · exact ih h.2.2 hname

/-- A leftmost reading is that over a smaller alphabet, too, if its names are over this
    one. -/
theorem Leftmost.restrict (h : r.Leftmost alphabet) (hle : ∀ c, alphabet' c → alphabet c)
    (hnames : ∀ name ∈ r.names, ∀ c ∈ name.toList, alphabet' c) : r.Leftmost alphabet' := by
  induction r with
  | last gap => exact Clear.anti h hle
  | next gap name rest ih =>
    obtain ⟨hgap, hname, hrest⟩ := h
    refine ⟨hgap.anti hle, ⟨hname.1, fun c hc => ?_⟩, ih hrest fun name' hname' =>
      hnames name' (List.mem_cons_of_mem _ hname')⟩
    exact hnames _ List.mem_cons_self c (by rwa [String.toList_ofList])

end Reading

/-- No letter outside of ASCII stands in a placeholder of the text. -/
def NamesPlainly (text : String) : Prop :=
  ∀ name ∈ scan text, '\u017F' ∉ name.toList ∧ '\u212A' ∉ name.toList

section

variable {text : String} {r : Reading}

theorem isNameOver_of_mem_scan {name : String} (h : name ∈ scan text) :
    IsNameOver isNameChar name.toList := by
  obtain ⟨r, hr, hchars⟩ := exists_leftmost isNameChar text.toList
  exact hr.isNameOver_of_mem (hr.scan_eq hchars ▸ h)

theorem namesPlainly_iff :
    NamesPlainly text ↔ ∀ name ∈ scan text, ∀ c ∈ name.toList, isPlainNameChar c := by
  refine forall₂_congr fun name hname => ⟨fun h c hc => ?_, fun h => ⟨fun hc => ?_, fun hc => ?_⟩⟩
  · rcases isNameChar_iff.1 ((isNameOver_of_mem_scan hname).2 c hc) with hplain | rfl | rfl
    · exact hplain
    · exact absurd hc h.1
    · exact absurd hc h.2
  · exact absurd (h _ hc) (by decide)
  · exact absurd (h _ hc) (by decide)

/-- Scanning finds what is documented exactly if all names that it finds are plain. -/
theorem scan_eq_names_iff (hr : r.Leftmost isPlainNameChar) (hchars : r.chars = text.toList) :
    scan text = r.names ↔ NamesPlainly text := by
  rw [namesPlainly_iff]
  constructor
  · intro hscan name hname
    exact (hr.isNameOver_of_mem (hscan ▸ hname)).2
  · intro hplain
    obtain ⟨r', hr', hchars'⟩ := exists_leftmost isNameChar text.toList
    have hscan := hr'.scan_eq hchars'
    have hplain' : r'.Leftmost isPlainNameChar :=
      hr'.restrict (fun c hc => isNameChar_iff.2 (.inl hc)) (hscan ▸ hplain)
    rw [hscan, hplain'.eq_of_chars_eq not_isPlainNameChar_sign hr (hchars'.trans hchars.symm)]

/-- The names that a text mentions are in documented characters exactly if they are written
    in such. -/
theorem forall_mentions_isFoldedNameChar_iff :
    (∀ n, Mentions text n → ∀ c ∈ n.text.toList, isFoldedNameChar c) ↔ NamesPlainly text := by
  have hfold : ∀ name ∈ scan text, (∀ c ∈ (Name.of name).text.toList, isFoldedNameChar c) ↔
      ∀ c ∈ name.toList, isPlainNameChar c := by
    intro name hname
    rw [Name.text_of, fold, String.toList_ofList, List.forall_mem_map]
    exact forall₂_congr fun c hc =>
      isFoldedNameChar_toUpper_iff ((isNameOver_of_mem_scan hname).2 c hc)
  rw [namesPlainly_iff]
  constructor
  · intro h name hname
    exact (hfold name hname).1 (h _ ⟨name, hname, rfl⟩)
  · rintro h n ⟨name, hname, rfl⟩
    exact (hfold name hname).2 (h name hname)

end

theorem references_eq_nil_iff {text : String} : references text = [] ↔ scan text = [] := by
  rw [references]
  cases scan text with
  | nil => simp [Name.distinct]
  | cons name names => simp [Name.distinct]

end Placeholder

namespace Section

open Placeholder

variable {γ σ : Type} (run : γ → σ → String × σ) (world : σ) {text : String}

theorem resolve_of_references_eq_nil (h : references text = []) (sections : Table γ) :
    (resolve run (.literal text) sections world).result = .ok ⟨text, [], sections⟩ := by
  have hexpand : expand run (depthBound sections) text (.start sections world) =
      (.ok text, .start sections world) := by
    rw [expand, expandWith, h]
  simp only [resolve, Content.materialize, hexpand]
  rfl

/-- A text comes out as it is, with all tables, exactly if there is no placeholder in it. -/
theorem forall_resolve_eq_iff :
    (∀ sections : Table γ,
      (resolve run (.literal text) sections world).result = .ok ⟨text, [], sections⟩) ↔
      scan text = [] := by
  rw [← references_eq_nil_iff]
  refine ⟨fun h => ?_, resolve_of_references_eq_nil run world⟩
  -- With no sections at all, a name in the text would be missing.
  have hpure : (∅ : Table γ).Pure run := fun _ _ hn => nomatch hn
  refine List.eq_nil_iff_forall_not_mem.2 fun n hn => ?_
  have hmissing := (mem_missing_iff hpure (h ∅) n).2
    ⟨.mention (mem_references.1 hn), List.not_mem_nil⟩
  exact absurd hmissing List.not_mem_nil

/-- Every text has one leftmost reading over the documented characters. What is found is what
    this reading has, and names are in the documented characters, exactly if no letter outside
    of ASCII stands in a placeholder that is found; and if there is no documented placeholder,
    this is what it takes that the text comes out as it is. -/
theorem scan_plain_iff (text : String) : ∃ r : Reading,
    (∀ r' : Reading, r'.Leftmost isPlainNameChar ∧ r'.chars = text.toList ↔ r' = r) ∧
    (scan text = r.names ↔ NamesPlainly text) ∧
    ((∀ n, Mentions text n → ∀ c ∈ n.text.toList, isFoldedNameChar c) ↔ NamesPlainly text) ∧
    (r.names = [] →
      ((∀ sections : Table γ,
        (resolve run (.literal text) sections world).result = .ok ⟨text, [], sections⟩) ↔
        NamesPlainly text)) := by
  obtain ⟨r, hr⟩ := exists_leftmost_iff not_isPlainNameChar_sign text.toList
  obtain ⟨hleft, hchars⟩ := (hr r).2 rfl
  have hscan := scan_eq_names_iff hleft hchars
  refine ⟨r, hr, hscan, forall_mentions_isFoldedNameChar_iff, fun hnames => ?_⟩
  rw [forall_resolve_eq_iff, ← hscan, hnames]

/-- A long s between two signs is no documented placeholder. But it is found, and vanishes
    from the text. -/
theorem scan_long_s :
    (Reading.last "@\u017F@".toList).Leftmost isPlainNameChar ∧
    scan "@\u017F@" ≠ (Reading.last "@\u017F@".toList).names ∧
    ¬(∀ n, Mentions "@\u017F@" n → ∀ c ∈ n.text.toList, isFoldedNameChar c) ∧
    ∃ e, (resolve fixedAnswer (.literal "@\u017F@") ∅ 0).result = .ok e ∧
      e.text = "" ∧ e.missing = [.of "\u017F"] := by
  have hscan : scan "@\u017F@" = ["\u017F"] := by decide +kernel
  have hclear : Clear isPlainNameChar ['@', '\u017F', '@'] [] := by
    refine clear_cons_iff.2 ⟨?_, clear_cons_iff.2 ⟨?_, clear_cons_iff.2 ⟨?_, clear_nil⟩⟩⟩
    · -- The long s would be the first letter of the name.
      rintro ⟨name, rest, ⟨hne, hname⟩, heq⟩
      obtain ⟨c, name, rfl⟩ := List.exists_cons_of_ne_nil hne
      obtain rfl : '\u017F' = c := (List.cons.inj (List.cons.inj heq).2).1
      exact absurd (hname _ List.mem_cons_self) (by decide)
    · rintro ⟨name, rest, -, heq⟩
      exact absurd (List.cons.inj heq).1 (by decide)
    · rintro ⟨name, rest, -, heq⟩
      exact absurd (List.cons.inj heq).2 (by simp)
  have hresolve : ∃ e, (resolve fixedAnswer (.literal "@\u017F@") ∅ 0).result = .ok e ∧
      (e.text, e.missing) = ("", [.of "\u017F"]) :=
    exists_of_toOption_map_eq (by decide +kernel)
  obtain ⟨e, he, hout⟩ := hresolve
  refine ⟨hclear, hscan ▸ List.cons_ne_nil _ _, fun h => ?_, e, he, Prod.mk.inj hout⟩
  have hmentions : Mentions "@\u017F@" (.of "\u017F") := ⟨_, hscan ▸ List.mem_cons_self, rfl⟩
  exact absurd (h _ hmentions '\u017F' (by decide +kernel)) (by decide)

end Section

end Stencil
