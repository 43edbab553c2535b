import Stencil.Section.Name

/-!
# Placeholders

A section is referred to by its name between two signs `@`, as in `@HEADER@`.
A text is read from left to right into pieces (`Placeholder.pieces`): a sign
that is followed by a name and a second sign begins a placeholder, and reading
goes on behind the second sign; any other character is itself. So placeholders
do not overlap, and in `@A@B@` there is one only.

A name is made of letters, digits, `_` and `-`. The letters are those of ASCII,
in both cases, and the two characters outside it that match one of them when
case is ignored: the long s `ſ` and the Kelvin sign `K`.

* `flatMap_written_pieces`: the pieces spell the text they were read from;
* `Placeholder.scan` lists the names as they are written,
  `Placeholder.substitute` puts texts in the place of placeholders. Both are
  given by the pieces, so they agree on what a placeholder is, and a text that
  was put in is not read again.
-/

namespace Stencil.Placeholder

open Section (Name)

/-- A character of which section names are made. -/
def isNameChar (c : Char) : Bool :=
  c.isAlphanum || c == '_' || c == '-' || c.toNat == 0x17F || c.toNat == 0x212A

/-- A piece of a text. -/
inductive Piece
  /-- A character that belongs to no placeholder. -/
  | char (c : Char)
  /-- A placeholder, with the name in it. -/
  | reference (name : List Char)
  deriving DecidableEq

/-- The text that a piece was read from. -/
def Piece.written : Piece → List Char
  | .char c => [c]
  | .reference name => '@' :: (name ++ ['@'])

/-- The name that a piece refers to, as it is written. -/
def Piece.name? : Piece → Option String
  | .char _ => none
  | .reference name => some (String.ofList name)

/-- A name closed by a sign at the beginning of a text, which is what follows
    the opening sign, and the rest behind the closing one. -/
def closedName? (cs : List Char) : Option (List Char × List Char) :=
  match cs.takeWhile isNameChar, cs.dropWhile isNameChar with
  | c :: name, '@' :: rest => some (c :: name, rest)
  | _, _ => none

theorem eq_of_closedName? {cs name rest : List Char} (h : closedName? cs = some (name, rest)) :
    cs = name ++ '@' :: rest := by
  rw [closedName?] at h
  split at h
  · next c n r hn hr =>
    obtain ⟨rfl, rfl⟩ := Prod.mk.inj (Option.some.inj h)
    rw [← hn, ← hr, List.takeWhile_append_dropWhile]
  · exact absurd h (by simp)

theorem length_lt_of_closedName? {cs name rest : List Char}
    (h : closedName? cs = some (name, rest)) : rest.length < cs.length := by
  rw [eq_of_closedName? h]
  simp only [List.length_append, List.length_cons]
  omega

/-- The pieces of a text, from left to right. -/
def pieces : List Char → List Piece
  | [] => []
  | c :: cs =>
    if c = '@' then
      match _h : closedName? cs with
      | some (name, rest) => .reference name :: pieces rest
      | none => .char c :: pieces cs
    else .char c :: pieces cs
termination_by cs => cs.length
decreasing_by
  · have := length_lt_of_closedName? _h
    simp only [List.length_cons]
    omega
  · simp
  · simp

/-- The pieces spell the text they were read from. -/
theorem flatMap_written_pieces (cs : List Char) : (pieces cs).flatMap Piece.written = cs := by
  fun_induction pieces cs with
  | case1 => rfl
  | case2 cs name rest h ih => simp [Piece.written, ih, eq_of_closedName? h]
  | case3 cs h ih => simp [Piece.written, ih]
  | case4 c cs hc ih => simp [Piece.written, ih]

/-- The names of the placeholders of a text, as they are written, in order. -/
def scan (text : String) : List String := (pieces text.toList).filterMap Piece.name?

/-- The sections a text refers to, in the order of first mention. -/
def references (text : String) : List Name := Name.distinct ((scan text).map Name.of)

/-- What stands in the place of a piece when `values` gives the texts of
    sections: a placeholder without a text stays as it is written. -/
def Piece.filled (values : Name → Option String) : Piece → List Char
  | .char c => [c]
  | .reference name =>
    match values (Name.of (String.ofList name)) with
    | some text => text.toList
    | none => Piece.written (.reference name)

/-- A text with the texts of sections in the place of their placeholders. -/
def substitute (values : Name → Option String) (text : String) : String :=
  String.ofList ((pieces text.toList).flatMap (Piece.filled values))

/-- Without texts nothing changes. -/
theorem substitute_none (text : String) : substitute (fun _ => none) text = text := by
  have h : Piece.filled (fun _ => none) = Piece.written := by
    funext p
    cases p <;> rfl
  rw [substitute, h, flatMap_written_pieces, String.ofList_toList]

end Stencil.Placeholder
