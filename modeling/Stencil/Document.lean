import Stencil.OrderedMap

/-!
# Documents

Where rendered templates are shown: a document (`Document`) has elements with
ids, and takes new markup for an element in one step, or refuses it.

A `Page` keeps its elements in the order in which they were mounted and takes
all markup for those it has. A `Still` shows the same markup under every id and
takes none.

* `element?_replace?`: what a page shows after it took new markup.
-/

namespace Stencil

/-- Somewhere to show markup in elements with ids. -/
class Document (δ : Type) where
  /-- The markup of an element, if there is such an element. -/
  element? : δ → (id : String) → Option String
  /-- The document with new markup for an element, unless it is refused. -/
  replace? : δ → (id markup : String) → Option δ

/-- Whether a document has an element. -/
def Document.contains {δ : Type} [Document δ] (d : δ) (id : String) : Bool :=
  (Document.element? d id).isSome

/-- A document that holds its elements in memory. -/
structure Page where
  /-- The markup of the elements, in the order in which they were mounted. -/
  elements : OrderedMap String String

namespace Page

/-- The page without elements. -/
def blank : Page := ⟨∅⟩

/-- The page with an element, new or with new markup. -/
def mount (p : Page) (id markup : String) : Page := ⟨p.elements.insert id markup⟩

/-- The page without an element. -/
def unmount (p : Page) (id : String) : Page := ⟨p.elements.erase id⟩

/-- How many elements there are. -/
def size (p : Page) : Nat := p.elements.size

instance : Document Page where
  element? p id := p.elements.get? id
  replace? p id markup := if p.elements.contains id then some (p.mount id markup) else none

theorem element?_replace? {p q : Page} {id markup : String}
    (h : Document.replace? p id markup = some q) (id' : String) :
    Document.element? q id' = if id' = id then some markup else Document.element? p id' := by
  simp only [Document.replace?] at h
  split at h
  · obtain rfl := Option.some.inj h
    simp only [Document.element?, mount]
    split
    · next hid => rw [hid, OrderedMap.get?_insert_self]
    · next hid => rw [OrderedMap.get?_insert_of_ne _ hid]
  · exact absurd h (by simp)

end Page

/-- A document that shows one markup under every id and never changes. -/
structure Still where
  /-- The markup. -/
  markup : String

instance : Document Still where
  element? s _ := some s.markup
  replace? _ _ _ := none

end Stencil
