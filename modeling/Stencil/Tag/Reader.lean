import Stencil.Tag.Basic
import Stencil.Text.Blank

/-!
# Reading tags

A text is cut into segments from left to right (`Tag.parse`). An opener `<%`
begins a tag wherever it stands, and the first `%>` behind it closes the tag;
outside of tags `%>` is ordinary text. The body between the two begins with `=`
or `-`, which tells the kind of tag, and the rest of it, stripped of white
space, is the path. The whole text is read before anything is looked up, so an
error of reading is that of the first malformed tag.

* `append_of_breakAt?`: cutting a text at a delimiter loses nothing else.
-/

namespace Stencil.Tag

/-- The text before the first occurrence of the delimiter `d₁ d₂`, and the text
    behind it. -/
def breakAt? (d₁ d₂ : Char) : List Char → Option (List Char × List Char)
  | [] => none
  | [_] => none
  | a :: b :: rest =>
    if a = d₁ ∧ b = d₂ then some ([], rest)
    else (breakAt? d₁ d₂ (b :: rest)).map fun (before, after) => (a :: before, after)

theorem append_of_breakAt? {d₁ d₂ : Char} {cs before after : List Char}
    (h : breakAt? d₁ d₂ cs = some (before, after)) : cs = before ++ d₁ :: d₂ :: after := by
  fun_induction breakAt? d₁ d₂ cs generalizing before with
  | case1 => simp at h
  | case2 => simp at h
  | case3 a b rest hab =>
    obtain ⟨rfl, rfl⟩ := Prod.mk.inj (Option.some.inj h)
    simp [hab.1, hab.2]
  | case4 a b rest _ ih =>
    obtain ⟨⟨u, v⟩, hu, huv⟩ := Option.map_eq_some_iff.1 h
    obtain ⟨rfl, rfl⟩ := Prod.mk.inj huv
    simp [ih hu]

theorem length_lt_of_breakAt? {d₁ d₂ : Char} {cs before after : List Char}
    (h : breakAt? d₁ d₂ cs = some (before, after)) : after.length < cs.length := by
  rw [append_of_breakAt? h]
  simp only [List.length_append, List.length_cons]
  omega

/-- A text segment, unless there is nothing in it. -/
def textSegment (cs : List Char) : List Segment := if cs = [] then [] else [.text cs]

/-- The tag with the given body, standing at `span`. -/
def ofBody (body : List Char) (span : Span) : Except TagError Segment :=
  let tagged (escaped : Bool) (expression : List Char) : Except TagError Segment :=
    match Text.trim expression with
    | [] => .error (.emptyExpression span)
    | c :: cs => .ok (.tag escaped (String.ofList (c :: cs)) span)
  match body with
  | '=' :: expression => tagged false expression
  | '-' :: expression => tagged true expression
  | _ => .error (.unsupported (String.ofList ('<' :: '%' :: (body ++ ['%', '>']))) span)

/-- The segments of a text that begins at byte `offset`. -/
def parseFrom (offset : Nat) (cs : List Char) : Except TagError (List Segment) :=
  match _ho : breakAt? '<' '%' cs with
  | none => .ok (textSegment cs)
  | some (before, rest) =>
    let start := offset + byteLength before
    match hc : breakAt? '%' '>' rest with
    | none => .error (.unterminated ⟨start, start + 2 + byteLength rest⟩)
    | some (body, after) =>
      let stop := start + 2 + byteLength body + 2
      match ofBody body ⟨start, stop⟩ with
      | .error e => .error e
      | .ok tag =>
        match parseFrom stop after with
        | .error e => .error e
        | .ok segments => .ok (textSegment before ++ tag :: segments)
termination_by cs.length
decreasing_by
  have := length_lt_of_breakAt? _ho
  have := length_lt_of_breakAt? hc
  omega

/-- The segments of a text. -/
def parse (text : String) : Except TagError (List Segment) := parseFrom 0 text.toList

/-- Whether the tags of a text are well formed. -/
def check (text : String) : Except TagError Unit := (parse text).map fun _ => ()

end Stencil.Tag
