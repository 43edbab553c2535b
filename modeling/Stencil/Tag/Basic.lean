/-!
# Tags

A text may hold tags, which are filled with data: `<%= path %>` stands for the
value at a path as it is, `<%- path %>` for the same value with the characters
that mean something in markup escaped. A text is read into segments, and a tag
remembers where it stands: a `Span` of bytes, as texts are stored in UTF-8.

Four things can be wrong with a tag (`TagError`), and each error tells where its
tag stands. The first three are errors of the text alone.
-/

namespace Stencil

/-- A range of bytes in a text. -/
structure Span where
  /-- The offset of the first byte. -/
  start : Nat
  /-- The offset behind the last byte. -/
  stop : Nat
  deriving DecidableEq

/-- A range as it is shown. -/
def Span.text (s : Span) : String := s.start.repr ++ ".." ++ s.stop.repr

/-- The bytes that some characters take in UTF-8. -/
def byteLength : List Char → Nat
  | [] => 0
  | c :: cs => c.utf8Size + byteLength cs

@[simp] theorem byteLength_nil : byteLength [] = 0 := rfl

@[simp] theorem byteLength_cons (c : Char) (cs : List Char) :
    byteLength (c :: cs) = c.utf8Size + byteLength cs := rfl

@[simp] theorem byteLength_append (cs ds : List Char) :
    byteLength (cs ++ ds) = byteLength cs + byteLength ds := by
  induction cs with
  | nil => simp
  | cons c cs ih => simp [ih, Nat.add_assoc]

/-- What is wrong with a tag. -/
inductive TagError
  /-- It is never closed. -/
  | unterminated (span : Span)
  /-- It is of no known kind; its text is given. -/
  | unsupported (tag : String) (span : Span)
  /-- It has no path. -/
  | emptyExpression (span : Span)
  /-- Its variable has no value; the name is given. -/
  | undefined (name : String) (span : Span)
  deriving DecidableEq

namespace TagError

/-- Where the tag stands. -/
def span : TagError → Span
  | unterminated s => s
  | unsupported _ s => s
  | emptyExpression s => s
  | undefined _ s => s

/-- What an error is called. -/
def message : TagError → String
  | unterminated s => "unterminated tag at " ++ s.text
  | unsupported tag s => "unsupported tag '" ++ tag ++ "' at " ++ s.text
  | emptyExpression s => "empty expression at " ++ s.text
  | undefined name _ => "undefined variable '" ++ name ++ "'"

/-- What is written beside the tag in a report. -/
def label : TagError → String
  | unterminated _ => "tag opened here is never closed with '%>'"
  | unsupported _ _ => "only '<%= path %>' and '<%- path %>' are supported"
  | emptyExpression _ => "expected a variable path"
  | undefined name _ => "'" ++ name ++ "' is not in the render context"

end TagError

namespace Tag

/-- A piece of a text with tags. -/
inductive Segment
  /-- Text to be taken as it is, never empty. -/
  | text (cs : List Char)
  /-- A tag, with its path and its place. -/
  | tag (escaped : Bool) (path : String) (span : Span)
  deriving DecidableEq

end Tag

end Stencil
