/-!
# Escaped text

The five characters that mean something in markup are replaced by entities
(`Tag.escape`). Reading the entities back in one pass from left to right
(`Tag.unescape`) gives the text that was escaped, also when that text held
entities or pieces of them.

* `unescape_escape`: escaping loses nothing;
* `escape_append`: texts can be escaped piece by piece.
-/

namespace Stencil.Tag

/-- What stands for a character in escaped text. -/
def entity (c : Char) : List Char :=
  if c = '&' then ['&', 'a', 'm', 'p', ';']
  else if c = '<' then ['&', 'l', 't', ';']
  else if c = '>' then ['&', 'g', 't', ';']
  else if c = '"' then ['&', 'q', 'u', 'o', 't', ';']
  else if c = '\'' then ['&', '#', '3', '9', ';']
  else [c]

/-- A text with the characters of markup replaced by entities. -/
def escape (cs : List Char) : List Char := cs.flatMap entity

/-- A text with the five entities replaced by the characters they stand for. -/
def unescape : List Char → List Char
  | '&' :: 'a' :: 'm' :: 'p' :: ';' :: cs => '&' :: unescape cs
  | '&' :: 'l' :: 't' :: ';' :: cs => '<' :: unescape cs
  | '&' :: 'g' :: 't' :: ';' :: cs => '>' :: unescape cs
  | '&' :: 'q' :: 'u' :: 'o' :: 't' :: ';' :: cs => '"' :: unescape cs
  | '&' :: '#' :: '3' :: '9' :: ';' :: cs => '\'' :: unescape cs
  | c :: cs => c :: unescape cs
  | [] => []

theorem escape_append (cs ds : List Char) : escape (cs ++ ds) = escape cs ++ escape ds :=
  List.flatMap_append

theorem unescape_cons {c : Char} (h : c ≠ '&') (cs : List Char) :
    unescape (c :: cs) = c :: unescape cs := by
  rw [unescape] <;> simp [h]

theorem unescape_escape (cs : List Char) : unescape (escape cs) = cs := by
  induction cs with
  | nil => rfl
  | cons c cs ih =>
    rw [escape, List.flatMap_cons, ← escape]
    by_cases h₁ : c = '&'
    · simp [entity, h₁, unescape, ih]
    by_cases h₂ : c = '<'
    · simp [entity, h₂, unescape, ih]
    by_cases h₃ : c = '>'
    · simp [entity, h₃, unescape, ih]
    by_cases h₄ : c = '"'
    · simp [entity, h₄, unescape, ih]
    by_cases h₅ : c = '\''
    · simp [entity, h₅, unescape, ih]
    simp [entity, h₁, h₂, h₃, h₄, h₅, unescape_cons h₁, ih]

end Stencil.Tag
