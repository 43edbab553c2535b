/-!
# Blank characters

White space in the sense of Unicode: the characters with the property
`White_Space`, which are more than those of ASCII (the no-break space is one,
the zero-width space is none). The expressions of tags are stripped of it on
both sides (`trim`).

* `trim_eq_nil_iff`: nothing is left of a text exactly when it holds blanks
  only.
-/

namespace Stencil.Text

/-- A character with the Unicode property `White_Space`. -/
def isBlank (c : Char) : Bool :=
  let n := c.toNat
  (0x09 ≤ n && n ≤ 0x0D) || n == 0x20 || n == 0x85 || n == 0xA0 || n == 0x1680 ||
    (0x2000 ≤ n && n ≤ 0x200A) || n == 0x2028 || n == 0x2029 || n == 0x202F ||
    n == 0x205F || n == 0x3000

/-- A text without the blanks at its end. -/
def trimEnd (cs : List Char) : List Char := (cs.reverse.dropWhile isBlank).reverse

/-- A text without the blanks at both ends. -/
def trim (cs : List Char) : List Char := trimEnd (cs.dropWhile isBlank)

theorem dropWhile_isBlank_eq_nil_iff {cs : List Char} :
    cs.dropWhile isBlank = [] ↔ ∀ c ∈ cs, isBlank c := by
  induction cs with
  | nil => simp
  | cons c cs ih =>
    by_cases h : isBlank c
    · simp [h, ih]
    · simp [h]

theorem trim_eq_nil_iff {cs : List Char} : trim cs = [] ↔ ∀ c ∈ cs, isBlank c := by
  rw [trim, trimEnd, List.reverse_eq_nil_iff, dropWhile_isBlank_eq_nil_iff]
  constructor
  · intro h
    cases hd : cs.dropWhile isBlank with
    | nil => exact dropWhile_isBlank_eq_nil_iff.1 hd
    | cons c rest =>
      have hc : isBlank c := h c (by simp [hd])
      have hn : ¬ isBlank c := by
        have := List.head_dropWhile_not isBlank (l := cs) (by simp [hd])
        simpa [hd] using this
      exact absurd hc hn
  · intro h c hc
    exact h c ((List.dropWhile_suffix isBlank).subset (List.mem_reverse.1 hc))

end Stencil.Text
