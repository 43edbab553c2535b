import Mathlib.Data.List.Basic
import Stencil.Placeholder

/-!
# Pieces of a text

What is a placeholder: a name (`IsName`) between two signs, where a text is read
from left to right. Each kind of piece begins a text in one case
(`pieces_of_closedName?`, `pieces_of_closedName?_eq_none`, `pieces_cons_of_ne`);
and whatever stands before, the last pieces of a text are read as if they were the
whole of it (`exists_eq_pieces_of_suffix`).

So a placeholder stands in its text as it is written (`exists_append_of_mem_pieces`),
and characters that were read outside placeholders do not contain one
(`not_infix_pieces`).
-/

namespace Stencil.Placeholder

variable {name rest cs : List Char} {ps : List Piece} {c : Char}

/-- Some characters that are a name when they stand between two signs. -/
def IsName (name : List Char) : Prop := name ≠ [] ∧ ∀ c ∈ name, isNameChar c

theorem not_isNameChar_sign : ¬isNameChar '@' := by decide

/-- A closed name is a name in front of a sign. -/
theorem closedName?_eq_some_iff :
    closedName? cs = some (name, rest) ↔ IsName name ∧ cs = name ++ '@' :: rest := by
  constructor
  · intro h
    refine ⟨?_, eq_of_closedName? h⟩
    rw [closedName?] at h
    split at h
    · next c n r hn hr =>
      obtain ⟨rfl, rfl⟩ := Prod.mk.inj (Option.some.inj h)
      refine ⟨List.cons_ne_nil _ _, fun d hd => ?_⟩
      rw [← hn] at hd
      exact List.all_eq_true.1 List.all_takeWhile d hd
    · cases h
  · rintro ⟨⟨hne, hname⟩, rfl⟩
    have htake : (name ++ '@' :: rest).takeWhile isNameChar = name := by
      rw [List.takeWhile_append_of_pos hname,
        List.takeWhile_cons_of_neg not_isNameChar_sign, List.append_nil]
    have hdrop : (name ++ '@' :: rest).dropWhile isNameChar = '@' :: rest := by
      rw [List.dropWhile_append_of_pos hname,
        List.dropWhile_cons_of_neg not_isNameChar_sign]
    rw [closedName?, htake, hdrop]
    cases name with
    | nil => exact absurd rfl hne
    | cons c name => rfl

theorem pieces_of_closedName? (h : closedName? cs = some (name, rest)) :
    pieces ('@' :: cs) = .reference name :: pieces rest := by
  rw [pieces, if_pos rfl]
  split
  · next h' =>
    rw [h, Option.some.injEq, Prod.mk.injEq] at h'
    rw [h'.1, h'.2]
  · next h' =>
    rw [h] at h'
    cases h'

theorem pieces_of_closedName?_eq_none (h : closedName? cs = none) :
    pieces ('@' :: cs) = .char '@' :: pieces cs := by
  rw [pieces, if_pos rfl]
  split
  · next h' =>
    rw [h] at h'
    cases h'
  · rfl

theorem pieces_cons_of_ne (h : c ≠ '@') : pieces (c :: cs) = .char c :: pieces cs := by
  rw [pieces, if_neg h]

/-- The last pieces of a text are the pieces of its last part. -/
theorem exists_eq_pieces_of_suffix (h : ps <:+ pieces cs) : ∃ cs', ps = pieces cs' := by
  fun_induction pieces cs with
  | case1 => exact ⟨[], by rw [List.suffix_nil.1 h, pieces]⟩
  | case2 cs name rest hclosed ih =>
    rcases List.suffix_cons_iff.1 h with rfl | h
    · exact ⟨'@' :: cs, (pieces_of_closedName? hclosed).symm⟩
    · exact ih h
  | case3 cs hclosed ih =>
    rcases List.suffix_cons_iff.1 h with rfl | h
    · exact ⟨'@' :: cs, (pieces_of_closedName?_eq_none hclosed).symm⟩
    · exact ih h
  | case4 c cs hc ih =>
    rcases List.suffix_cons_iff.1 h with rfl | h
    · exact ⟨c :: cs, (pieces_cons_of_ne hc).symm⟩
    · exact ih h

/-- A placeholder stands in the text from which it was read. -/
theorem exists_append_of_mem_pieces (h : .reference name ∈ pieces cs) :
    IsName name ∧ ∃ before after, cs = before ++ '@' :: (name ++ '@' :: after) := by
  obtain ⟨qs, ps, hps⟩ := List.append_of_mem h
  obtain ⟨cs', hcs'⟩ := exists_eq_pieces_of_suffix (hps ▸ List.suffix_append qs _)
  have hname : IsName name := by
    cases cs' with
    | nil => simp [pieces] at hcs'
    | cons c cs' =>
      by_cases hc : c = '@'
      · subst hc
        cases hclosed : closedName? cs' with
        | none =>
          rw [pieces_of_closedName?_eq_none hclosed] at hcs'
          cases hcs'
        | some r =>
          rw [pieces_of_closedName? hclosed] at hcs'
          cases hcs'
          exact (closedName?_eq_some_iff.1 hclosed).1
      · rw [pieces_cons_of_ne hc] at hcs'
        cases hcs'
  refine ⟨hname, qs.flatMap Piece.written, ps.flatMap Piece.written, ?_⟩
  rw [← flatMap_written_pieces cs, hps]
  simp [Piece.written]

/-- Characters that belong to no placeholder do not spell one. -/
theorem not_infix_pieces (hname : IsName name) :
    ¬(Piece.reference name).written.map Piece.char <:+: pieces cs := by
  rintro ⟨before, after, h⟩
  rw [List.append_assoc] at h
  obtain ⟨cs', hcs'⟩ := exists_eq_pieces_of_suffix (h ▸ List.suffix_append before _)
  -- The pieces that begin with the first sign spell a text that begins with a
  -- placeholder, and so would begin with that.
  have hwritten : cs' = '@' :: (name ++ '@' :: after.flatMap Piece.written) := by
    rw [← flatMap_written_pieces cs', ← hcs']
    simp [Piece.written, List.flatMap_map]
  rw [hwritten, pieces_of_closedName? (closedName?_eq_some_iff.2 ⟨hname, rfl⟩)] at hcs'
  cases hcs'

/-- The character that a piece is, if it is no placeholder. -/
def Piece.char? : Piece → Option Char
  | .char c => some c
  | .reference _ => none

end Stencil.Placeholder
