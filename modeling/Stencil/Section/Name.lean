/-!
# Section names

Sections are named without regard to the case of ASCII letters: a name is kept
in upper case (`Section.Name`), and every spelling stands for the name it folds
to (`Name.of`). Letters outside ASCII are left as they are.

* `Name.of_text`: a name is its own spelling;
* `Name.of_eq_iff`: two spellings stand for one name exactly when they fold to
  the same text;
* `Name.distinct_append`: the first appearances in one list after another.
-/

namespace Stencil.Section

/-- A text with its ASCII letters in upper case. -/
def fold (s : String) : String := String.ofList (s.toList.map Char.toUpper)

/-- What holds of each code below 128 holds of the characters of ASCII. -/
theorem forall_ascii {P : Char → Prop} (h : ∀ n < 128, P (.ofNat n)) {c : Char}
    (hc : c.toNat < 128) : P c := by
  have hn := h c.toNat hc
  rwa [Char.ofNat_toNat] at hn

/-- Only characters of ASCII have an upper case here. -/
theorem toUpper_eq_self_or_lt (c : Char) : c.toUpper = c ∨ c.toNat < 128 := by
  by_cases h : c.val ≥ 'a'.val ∧ c.val ≤ 'z'.val
  · exact .inr (Nat.lt_of_le_of_lt (UInt32.le_iff_toNat_le.1 h.2) (by decide))
  · exact .inl (dif_neg h)

theorem toUpper_toUpper (c : Char) : c.toUpper.toUpper = c.toUpper := by
  rcases toUpper_eq_self_or_lt c with h | h
  · rw [h, h]
  · exact forall_ascii (P := fun c => c.toUpper.toUpper = c.toUpper) (by decide +kernel) h

theorem fold_fold (s : String) : fold (fold s) = fold s := by
  have h : Char.toUpper ∘ Char.toUpper = Char.toUpper := funext toUpper_toUpper
  simp only [fold, String.toList_ofList, List.map_map, h]

/-- The name of a section, in upper case. -/
structure Name where
  /-- The name as text. -/
  text : String
  /-- It has no ASCII letter in lower case. -/
  fold_text : fold text = text
  deriving DecidableEq

namespace Name

/-- The name that `s` is a spelling of. -/
def of (s : String) : Name := ⟨fold s, fold_fold s⟩

@[simp] theorem text_of (s : String) : (of s).text = fold s := rfl

theorem of_text (n : Name) : of n.text = n := by
  cases n with
  | mk text h => simp [of, h]

theorem of_eq_iff {s t : String} : of s = of t ↔ fold s = fold t := by simp [of]

/-- The distinct names of a list, in the order of their first appearance. -/
def distinct : List Name → List Name
  | [] => []
  | n :: ns => n :: (distinct ns).filter (fun m => decide (m ≠ n))

@[simp] theorem mem_distinct {n : Name} {ns : List Name} : n ∈ distinct ns ↔ n ∈ ns := by
  induction ns with
  | nil => simp [distinct]
  | cons m ms ih =>
    by_cases h : n = m
    · simp [distinct, h]
    · simp [distinct, h, ih]

theorem nodup_distinct (ns : List Name) : (distinct ns).Nodup := by
  induction ns with
  | nil => simp [distinct]
  | cons m ms ih =>
    rw [distinct, List.nodup_cons]
    exact ⟨by simp, ih.sublist List.filter_sublist⟩

theorem distinct_of_nodup {ns : List Name} (h : ns.Nodup) : distinct ns = ns := by
  induction ns with
  | nil => rfl
  | cons m ms ih =>
    rw [List.nodup_cons] at h
    rw [distinct, ih h.2, List.filter_eq_self.2]
    intro n hn
    exact decide_eq_true fun hnm => h.1 (hnm ▸ hn)

/-- In two lists one after the other, the names of the second one come after those
    of the first, without the names that are there already. -/
theorem distinct_append (ns ms : List Name) :
    distinct (ns ++ ms) = distinct ns ++ (distinct ms).filter fun m => decide (m ∉ ns) := by
  induction ns with
  | nil => simp [distinct, List.filter_eq_self.2]
  | cons n ns ih =>
    rw [List.cons_append, distinct, distinct, ih, List.filter_append, List.filter_filter,
      List.cons_append]
    simp only [List.mem_cons, not_or, Bool.decide_and]

theorem distinct_distinct_append (ns ms : List Name) :
    distinct (distinct ns ++ ms) = distinct (ns ++ ms) := by
  simp only [distinct_append, distinct_of_nodup (nodup_distinct ns), mem_distinct]

/-- Names that are there already can be left out. -/
theorem distinct_append_append_of_subset {ns ms : List Name} (h : ∀ m ∈ ms, m ∈ ns)
    (ks : List Name) : distinct (ns ++ (ms ++ ks)) = distinct (ns ++ ks) := by
  have hms : (distinct ms).filter (fun m => decide (m ∉ ns)) = [] := by
    rw [List.filter_eq_nil_iff]
    intro m hm
    simp [h m (mem_distinct.1 hm)]
  rw [distinct_append, distinct_append, distinct_append, List.filter_append, hms,
    List.nil_append, List.filter_filter]
  congr 1
  refine List.filter_congr fun k _ => ?_
  have hk : k ∉ ns → k ∉ ms := fun hkn hkm => hkn (h k hkm)
  simpa using hk

end Name

end Stencil.Section
