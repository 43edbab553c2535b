import Stencil.Toml.Basic

/-!
# Building tables

A TOML document names the places of its values by paths, which go through
tables that may not have been mentioned yet. A table under construction
therefore remembers how it came about: a table on the way of a header, or of a
dotted key, is *implicit* until a header of its own defines it; one on the way
of a dotted key is also *dotted*, and is only entered by dotted keys. An array
of tables grows by one with each header of its own, and all paths through it
lead into its last table. Nothing is defined twice, and what was written as a
value is closed.

* `Entries.modifyAt_nil`: an empty path leads to the table it starts from.
-/

namespace Stencil.Toml

/-- A part of a document under construction. -/
inductive Node
  /-- A finished value. -/
  | leaf (value : Value)
  /-- A table: whether it is implicit, whether it is dotted, and its entries. -/
  | table (implicit dotted : Bool) (entries : List (String × Node))
  /-- An array of tables: the entries of the last one, and of those before it, in
      reverse. -/
  | elements (last : List (String × Node)) (earlier : List (List (String × Node)))

mutual

/-- The value that was built. -/
def Node.toValue : Node → Value
  | .leaf v => v
  | .table _ _ entries => .table (entriesToValue entries)
  | .elements last earlier => .array (elementsToValue earlier [.table (entriesToValue last)])

/-- The entries that were built. -/
def entriesToValue : List (String × Node) → List (String × Value)
  | [] => []
  | (k, n) :: es => (k, n.toValue) :: entriesToValue es

/-- The tables that were built, the given ones being in reverse, in front of
    `later`. -/
def elementsToValue : List (List (String × Node)) → List Value → List Value
  | [], later => later
  | es :: earlier, later => elementsToValue earlier (.table (entriesToValue es) :: later)

end

/-- The entries of a table under construction. -/
abbrev Entries := List (String × Node)

namespace Entries

/-- The node under a key. -/
def find? (key : String) : Entries → Option Node
  | [] => none
  | (k, n) :: es => if k = key then some n else find? key es

/-- The entries with a node under a key, at the end if the key is new. -/
def store (key : String) (node : Node) : Entries → Entries
  | [] => [(key, node)]
  | (k, n) :: es => if k = key then (key, node) :: es else (k, n) :: store key node es

/-- Changes the table at the end of a path, creating implicit tables on the way.
    The change is told whether the table is dotted. A path of a dotted key
    creates dotted tables and enters implicit ones only. -/
def modifyAt (byKey : Bool) (change : Bool → Entries → Option Entries) :
    (path : List String) → (dotted : Bool) → Entries → Option Entries
  | [], dotted, es => change dotted es
  | key :: path, _, es =>
    match find? key es with
    | none => do
      let sub ← modifyAt byKey change path byKey []
      return store key (.table true byKey sub) es
    | some (.leaf _) => none
    | some (.table implicit dotted sub) =>
      if byKey && !implicit then none
      else do
        let sub ← modifyAt byKey change path dotted sub
        return store key (.table implicit dotted sub) es
    | some (.elements last earlier) => do
      let last ← modifyAt byKey change path false last
      return store key (.elements last earlier) es

@[simp] theorem modifyAt_nil (byKey : Bool) (change : Bool → Entries → Option Entries)
    (dotted : Bool) (es : Entries) : modifyAt byKey change [] dotted es = change dotted es := rfl

/-- The entries with a value under a dotted key, which is given by the keys of
    the tables on its way and the key in the last one. -/
def addEntry (path : List String) (key : String) (value : Value) (es : Entries) :
    Option Entries :=
  let add (dotted : Bool) (es : Entries) : Option Entries :=
    if dotted = path.isEmpty ∨ (find? key es).isSome then none
    else some (es ++ [(key, .leaf value)])
  modifyAt true add path false es

/-- The entries with several values under dotted keys. -/
def addEntries (lines : List (List String × String × Value)) (es : Entries) : Option Entries :=
  lines.foldlM (fun es line => addEntry line.1 line.2.1 line.2.2 es) es

/-- The entries with a table defined by a header and filled with the lines behind
    it. The table must be new, or implicit and not dotted. -/
def addTable (path : List String) (key : String) (lines : List (List String × String × Value))
    (es : Entries) : Option Entries :=
  let add (_ : Bool) (es : Entries) : Option Entries := do
    let base ←
      match find? key es with
      | none => some []
      | some (.table true false sub) => some sub
      | some _ => none
    return store key (.table false false (← addEntries lines base)) es
  modifyAt false add path false es

/-- The entries with one more table in an array of tables, filled with the lines
    behind its header. -/
def addElement (path : List String) (key : String)
    (lines : List (List String × String × Value)) (es : Entries) : Option Entries :=
  let add (_ : Bool) (es : Entries) : Option Entries := do
    let earlier ←
      match find? key es with
      | none => some []
      | some (.elements last earlier) => some (last :: earlier)
      | some _ => none
    return store key (.elements (← addEntries lines []) earlier) es
  modifyAt false add path false es

end Entries

end Stencil.Toml
