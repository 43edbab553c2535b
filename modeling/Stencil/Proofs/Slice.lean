import Mathlib.Data.String.Basic
import Stencil.Tag.Basic

/-!
# Slices of a text

A text is stored in UTF-8, and a place in it is a range of bytes. Not every range
can be cut out: both of its ends must lie between characters, or at the ends of
the text (`String.Pos.Raw.IsValid`), and the first one must not come after the
second. `slice?` cuts out a range if this is so, and gives nothing else.

A piece that stands in a text behind some others has its place where their bytes
end (`Span.ofPiece`). It can be cut out there (`slice?_ofPiece`), and unless it is
empty its place is one in the text (`isPlaceIn_ofPiece`).
-/

namespace Stencil

theorem byteLength_eq_utf8Len (cs : List Char) : byteLength cs = String.utf8Len cs := by
  induction cs with
  | nil => rfl
  | cons c cs ih => rw [byteLength_cons, String.utf8Len_cons, ih, Nat.add_comm]

/-- The bytes of the characters of a text are the bytes of the text. -/
theorem byteLength_toList (text : String) : byteLength text.toList = text.utf8ByteSize := by
  rw [byteLength_eq_utf8Len, String.utf8Len_toList]

theorem byteLength_pos {cs : List Char} (h : cs ≠ []) : 0 < byteLength cs := by
  cases cs with
  | nil => exact absurd rfl h
  | cons c cs => exact Nat.add_pos_left c.utf8Size_pos _

/-- The place of a piece of a text that begins at byte `start`. -/
def Span.ofPiece (start : Nat) (piece : List Char) : Span := ⟨start, start + byteLength piece⟩

@[simp] theorem Span.stop_ofPiece (start : Nat) (piece : List Char) :
    (Span.ofPiece start piece).stop = start + byteLength piece := rfl

/-- A range that covers something of a text, and no part of a character. -/
structure Span.IsPlaceIn (s : Span) (text : String) : Prop where
  start_lt_stop : s.start < s.stop
  stop_le : s.stop ≤ text.utf8ByteSize
  start_isValid : String.Pos.Raw.IsValid text ⟨s.start⟩
  stop_isValid : String.Pos.Raw.IsValid text ⟨s.stop⟩

/-- The part of a text in a range of bytes, if the text can be cut at both ends of
    the range. -/
def slice? (text : String) (s : Span) : Option String :=
  if s.start ≤ s.stop ∧ String.Pos.Raw.IsValid text ⟨s.start⟩ ∧
      String.Pos.Raw.IsValid text ⟨s.stop⟩ then
    some (String.Pos.Raw.extract text ⟨s.start⟩ ⟨s.stop⟩)
  else none

variable {text : String} {before piece after : List Char}

/-- A text can be cut behind any of its characters. -/
theorem isValid_byteLength (h : text.toList = before ++ after) :
    String.Pos.Raw.IsValid text ⟨byteLength before⟩ := by
  refine String.Pos.Raw.isValid_iff_exists_append.2 ⟨.ofList before, .ofList after, ?_, ?_⟩
  · rw [← String.ofList_append, ← h, String.ofList_toList]
  · rw [String.rawEndPos_ofList, byteLength_eq_utf8Len]

/-- A piece of a text is what stands in its place. -/
theorem slice?_ofPiece (h : text.toList = before ++ (piece ++ after)) :
    slice? text (.ofPiece (byteLength before) piece) = some (String.ofList piece) := by
  have hstop : String.Pos.Raw.IsValid text ⟨byteLength before + byteLength piece⟩ := by
    rw [← byteLength_append]
    exact isValid_byteLength (by rw [h, List.append_assoc])
  rw [slice?, if_pos ⟨Nat.le_add_right _ _, isValid_byteLength h, hstop⟩, Option.some.injEq]
  have hextract := String.extract_of_valid before piece after
  rw [List.append_assoc, ← h, String.ofList_toList, ← byteLength_eq_utf8Len,
    ← byteLength_eq_utf8Len] at hextract
  exact hextract

/-- The rest of a text is what stands up to its end. -/
theorem slice?_rest (h : text.toList = before ++ after) :
    slice? text ⟨byteLength before, text.utf8ByteSize⟩ = some (String.ofList after) := by
  rw [← byteLength_toList, h, byteLength_append]
  exact slice?_ofPiece (show text.toList = before ++ (after ++ []) by rw [h, List.append_nil])

theorem le_of_slice? {s : Span} {part : String} (h : slice? text s = some part) :
    s.start ≤ s.stop := by
  rw [slice?] at h
  split at h
  · next hs => exact hs.1
  · cases h

theorem isPlaceIn_ofPiece (h : text.toList = before ++ (piece ++ after)) (hne : piece ≠ []) :
    (Span.ofPiece (byteLength before) piece).IsPlaceIn text where
  start_lt_stop := Nat.lt_add_of_pos_right (byteLength_pos hne)
  stop_le := by
    rw [← byteLength_toList, h, byteLength_append, byteLength_append, Span.stop_ofPiece]
    omega
  start_isValid := isValid_byteLength h
  stop_isValid := by
    rw [Span.stop_ofPiece, ← byteLength_append]
    exact isValid_byteLength (by rw [h, List.append_assoc])

end Stencil
