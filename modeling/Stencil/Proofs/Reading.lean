import Stencil.Proofs.Piece

/-!
# Readings

What it means to find the placeholders of a text, said without reading it piece by
piece. A *reading* of a text cuts it into gaps and the names of placeholders between
them (`Reading`). Most readings overlook something: `@A@B@` is also a gap, and `@A`
in front of a placeholder `B`. A reading is *leftmost* if it overlooks nothing: no
placeholder of what is still to be read begins in a gap (`Reading.Leftmost`).

Which characters make a name is left open here (the `alphabet`), as long as the sign is
none of them. Then every text has a leftmost reading (`exists_leftmost`), and only one
(`Reading.Leftmost.eq_of_chars_eq`), whatever may look like a placeholder in it.

Both `scan` and `substitute` go by the leftmost reading (`exists_unique_reading`): the one
lists its names, the other puts texts in their place between its gaps.
-/

namespace Stencil.Placeholder

open Section (Name)

variable {alphabet : Char → Bool} {cs cs' gap gap' name name' rest rest' : List Char}

/-! ### Beginnings -/

/-- Some characters of an alphabet, at least one. -/
def IsNameOver (alphabet : Char → Bool) (name : List Char) : Prop :=
  name ≠ [] ∧ ∀ c ∈ name, alphabet c

/-- A placeholder begins the text. -/
def Begins (alphabet : Char → Bool) (cs : List Char) : Prop :=
  ∃ name rest, IsNameOver alphabet name ∧ cs = '@' :: (name ++ '@' :: rest)

/-- No placeholder begins in the characters `gap`, behind which `cs` comes. -/
def Clear (alphabet : Char → Bool) (gap cs : List Char) : Prop :=
  ∀ after, after <:+ gap → after ≠ [] → ¬Begins alphabet (after ++ cs)

theorem begins_sign (hname : IsNameOver alphabet name) :
    Begins alphabet ('@' :: (name ++ '@' :: rest)) := ⟨name, rest, hname, rfl⟩

theorem clear_nil : Clear alphabet [] cs := fun _ hafter hne =>
  absurd (List.suffix_nil.1 hafter) hne

theorem clear_cons_iff {c : Char} :
    Clear alphabet (c :: gap) cs ↔ ¬Begins alphabet (c :: (gap ++ cs)) ∧ Clear alphabet gap cs := by
  constructor
  · intro h
    exact ⟨h _ (List.suffix_refl _) (List.cons_ne_nil _ _),
      fun after hafter => h after (hafter.trans (List.suffix_cons c gap))⟩
  · rintro ⟨hbegins, hclear⟩ after hafter hne
    rcases List.suffix_cons_iff.1 hafter with rfl | hafter
    · exact hbegins
    · exact hclear after hafter hne

/-- No placeholder begins at any place of a text that is clear to its end. -/
theorem Clear.not_begins (h : Clear alphabet (gap ++ cs) []) : ¬Begins alphabet cs := by
  intro hbegins
  have hne : cs ≠ [] := by
    obtain ⟨name, rest, -, rfl⟩ := hbegins
    exact List.cons_ne_nil _ _
  exact h cs (List.suffix_append gap cs) hne (by rwa [List.append_nil])

/-- Gaps in front of placeholders end where the first placeholder begins. -/
theorem Clear.eq_of_append_eq (h : Clear alphabet gap cs) (h' : Clear alphabet gap' cs')
    (hcs : Begins alphabet cs) (hcs' : Begins alphabet cs') (heq : gap ++ cs = gap' ++ cs') :
    gap = gap' ∧ cs = cs' := by
  -- What one gap has more than the other would begin with a placeholder.
  rcases List.append_eq_append_iff.1 heq with ⟨more, rfl, rfl⟩ | ⟨more, rfl, rfl⟩
  · by_cases hmore : more = []
    · simp [hmore]
    · exact absurd hcs (h' more (List.suffix_append _ _) hmore)
  · by_cases hmore : more = []
    · simp [hmore]
    · exact absurd hcs' (h more (List.suffix_append _ _) hmore)

/-- A name ends where the first sign stands. -/
theorem eq_of_append_sign_eq (h : '@' ∉ name) (h' : '@' ∉ name')
    (heq : name ++ '@' :: rest = name' ++ '@' :: rest') : name = name' ∧ rest = rest' := by
  rcases List.append_eq_append_iff.1 heq with ⟨more, rfl, hmore⟩ | ⟨more, rfl, hmore⟩
  · cases more with
    | nil => simpa using hmore
    | cons c more =>
      obtain rfl : '@' = c := (List.cons.inj hmore).1
      simp at h'
  · cases more with
    | nil => simpa using hmore.symm
    | cons c more =>
      obtain rfl : '@' = c := (List.cons.inj hmore).1
      simp at h

theorem IsNameOver.sign_not_mem (hsign : ¬alphabet '@') (h : IsNameOver alphabet name) :
    '@' ∉ name := fun hmem => hsign (h.2 _ hmem)

/-! ### Readings of a text -/

/-- A text cut into gaps and the names of placeholders between them. -/
inductive Reading
  /-- The gap behind the last placeholder. -/
  | last (gap : List Char)
  /-- A gap and the name in the placeholder behind it, and what comes then. -/
  | next (gap name : List Char) (rest : Reading)

namespace Reading

/-- The text that is cut. -/
def chars : Reading → List Char
  | last gap => gap
  | next gap name rest => gap ++ '@' :: (name ++ '@' :: rest.chars)

/-- The names in the placeholders, in order. -/
def names : Reading → List String
  | last _ => []
  | next _ name rest => String.ofList name :: rest.names

/-- The gaps with the texts of names between them; a placeholder whose name has none stays
    as it is written. -/
def filled (values : Name → Option String) : Reading → List Char
  | last gap => gap
  | next gap name rest =>
    gap ++ ((values (.of (String.ofList name))).elim ('@' :: (name ++ ['@'])) String.toList ++
      rest.filled values)

/-- The characters in the gaps and the placeholders, one by one. -/
def toPieces : Reading → List Piece
  | last gap => gap.map .char
  | next gap name rest => gap.map .char ++ .reference name :: rest.toPieces

/-- No placeholder over the alphabet begins in a gap, and there are names in the
    placeholders. -/
def Leftmost (alphabet : Char → Bool) : Reading → Prop
  | last gap => Clear alphabet gap []
  | next gap name rest =>
    Clear alphabet gap ('@' :: (name ++ '@' :: rest.chars)) ∧ IsNameOver alphabet name ∧
      rest.Leftmost alphabet

/-- The reading with one more character in front. -/
def cons (c : Char) : Reading → Reading
  | last gap => last (c :: gap)
  | next gap name rest => next (c :: gap) name rest

@[simp] theorem chars_cons (c : Char) (r : Reading) : (r.cons c).chars = c :: r.chars := by
  cases r <;> rfl

theorem Leftmost.cons {r : Reading} {c : Char} (h : r.Leftmost alphabet)
    (hc : ¬Begins alphabet (c :: r.chars)) : (r.cons c).Leftmost alphabet := by
  cases r with
  | last gap =>
    rw [chars, ← List.append_nil gap] at hc
    exact clear_cons_iff.2 ⟨hc, h⟩
  | next gap name rest => exact ⟨clear_cons_iff.2 ⟨hc, h.1⟩, h.2⟩

/-- A text has one leftmost reading only. -/
theorem Leftmost.eq_of_chars_eq (hsign : ¬alphabet '@') {r r' : Reading}
    (h : r.Leftmost alphabet) (h' : r'.Leftmost alphabet) (heq : r.chars = r'.chars) : r = r' := by
  induction r generalizing r' with
  | last gap =>
    cases r' with
    | last gap' => exact congrArg last heq
    | next gap' name' rest' =>
      -- The second reading has a placeholder where the first one has a gap.
      obtain rfl : gap = gap' ++ '@' :: (name' ++ '@' :: rest'.chars) := heq
      exact absurd (begins_sign h'.2.1) h.not_begins
  | next gap name rest ih =>
    cases r' with
    | last gap' =>
      obtain rfl : gap ++ '@' :: (name ++ '@' :: rest.chars) = gap' := heq
      exact absurd (begins_sign h.2.1) h'.not_begins
    | next gap' name' rest' =>
      obtain ⟨rfl, hbehind⟩ :=
        h.1.eq_of_append_eq h'.1 (begins_sign h.2.1) (begins_sign h'.2.1) heq
      obtain ⟨rfl, hrest⟩ := eq_of_append_sign_eq (h.2.1.sign_not_mem hsign)
        (h'.2.1.sign_not_mem hsign) (List.cons.inj hbehind).2
      rw [ih h.2.2 h'.2.2 hrest]

end Reading

/-- There is a leftmost reading of every text. -/
theorem exists_leftmost (alphabet : Char → Bool) (cs : List Char) :
    ∃ r : Reading, r.Leftmost alphabet ∧ r.chars = cs := by
  -- What is still to be read gets shorter, by a placeholder or by a character.
  induction hn : cs.length using Nat.strongRecOn generalizing cs with
  | ind n ih =>
    cases cs with
    | nil => exact ⟨.last [], clear_nil, rfl⟩
    | cons c cs =>
      subst hn
      by_cases hbegins : Begins alphabet (c :: cs)
      · obtain ⟨name, rest, hname, heq⟩ := hbegins
        rw [heq]
        have hlt : rest.length < (c :: cs).length := by
          rw [heq]
          simp only [List.length_cons, List.length_append]
          omega
        obtain ⟨r, hr, rfl⟩ := ih _ hlt rest rfl
        exact ⟨.next [] name r, ⟨clear_nil, hname, hr⟩, rfl⟩
      · obtain ⟨r, hr, rfl⟩ := ih _ (Nat.lt_succ_self cs.length) cs rfl
        exact ⟨r.cons c, hr.cons hbegins, r.chars_cons c⟩

/-- Every text has one leftmost reading. -/
theorem exists_leftmost_iff (hsign : ¬alphabet '@') (cs : List Char) :
    ∃ r : Reading, ∀ r' : Reading, r'.Leftmost alphabet ∧ r'.chars = cs ↔ r' = r := by
  obtain ⟨r, hr, hchars⟩ := exists_leftmost alphabet cs
  refine ⟨r, fun r' => ⟨fun h => ?_, fun h => h ▸ ⟨hr, hchars⟩⟩⟩
  exact h.1.eq_of_chars_eq hsign hr (h.2.trans hchars.symm)

/-! ### What is read -/

/-- A character at which no placeholder begins is a piece by itself. -/
theorem pieces_of_not_begins {c : Char} (h : ¬Begins isNameChar (c :: cs)) :
    pieces (c :: cs) = .char c :: pieces cs := by
  by_cases hc : c = '@'
  · subst hc
    apply pieces_of_closedName?_eq_none
    cases hclosed : closedName? cs with
    | none => rfl
    | some r =>
      obtain ⟨hname, rfl⟩ := closedName?_eq_some_iff.1 hclosed
      exact absurd (begins_sign hname) h
  · exact pieces_cons_of_ne hc

theorem Clear.pieces_append (h : Clear isNameChar gap cs) :
    pieces (gap ++ cs) = gap.map .char ++ pieces cs := by
  induction gap with
  | nil => rfl
  | cons c gap ih =>
    obtain ⟨hbegins, hgap⟩ := clear_cons_iff.1 h
    rw [List.cons_append, pieces_of_not_begins hbegins, ih hgap, List.map_cons, List.cons_append]

namespace Reading

variable {r : Reading}

/-- The pieces of a text are those of its leftmost reading. -/
theorem Leftmost.pieces_chars (h : r.Leftmost isNameChar) : pieces r.chars = r.toPieces := by
  induction r with
  | last gap =>
    have hpieces := Clear.pieces_append h
    rwa [List.append_nil, pieces, List.append_nil] at hpieces
  | next gap name rest ih =>
    obtain ⟨hgap, hname, hrest⟩ := h
    rw [chars, hgap.pieces_append, pieces_of_closedName? (closedName?_eq_some_iff.2 ⟨hname, rfl⟩),
      ih hrest, toPieces]

theorem filterMap_name?_toPieces (r : Reading) : r.toPieces.filterMap Piece.name? = r.names := by
  have hgap : ∀ gap : List Char, (gap.map Piece.char).filterMap Piece.name? = [] := by
    simp [Piece.name?]
  induction r with
  | last gap => rw [toPieces, hgap, names]
  | next gap name rest ih => simp [toPieces, names, hgap, ih, Piece.name?]

theorem flatMap_filled_toPieces (values : Name → Option String) (r : Reading) :
    r.toPieces.flatMap (Piece.filled values) = r.filled values := by
  have hgap : ∀ gap : List Char, (gap.map Piece.char).flatMap (Piece.filled values) = gap := by
    simp [List.flatMap_map, Piece.filled]
  induction r with
  | last gap => rw [toPieces, hgap, filled]
  | next gap name rest ih =>
    rw [toPieces, List.flatMap_append, hgap, List.flatMap_cons, ih, filled, Piece.filled]
    cases values (.of (String.ofList name)) <;> rfl

/-- Scanning gives the names of the leftmost reading. -/
theorem Leftmost.scan_eq {text : String} (h : r.Leftmost isNameChar)
    (hchars : r.chars = text.toList) : scan text = r.names := by
  rw [scan, ← hchars, h.pieces_chars, r.filterMap_name?_toPieces]

/-- Substituting fills the leftmost reading. -/
theorem Leftmost.substitute_eq {text : String} (h : r.Leftmost isNameChar)
    (hchars : r.chars = text.toList) (values : Name → Option String) :
    substitute values text = String.ofList (r.filled values) := by
  rw [substitute, ← hchars, h.pieces_chars, r.flatMap_filled_toPieces]

end Reading

/-- Every text has one leftmost reading. Scanning gives the names of that reading as they
    are written, and substituting gives its gaps with the text of each name between them,
    or the placeholder itself for a name without a text. So without any texts nothing
    changes, and what is put in is not read. -/
theorem exists_unique_reading (text : String) : ∃ r : Reading,
    (∀ r' : Reading, r'.Leftmost isNameChar ∧ r'.chars = text.toList ↔ r' = r) ∧
    scan text = r.names ∧
    (∀ values, substitute values text = String.ofList (r.filled values)) ∧
    substitute (fun _ => none) text = text := by
  obtain ⟨r, hr⟩ := exists_leftmost_iff not_isNameChar_sign text.toList
  obtain ⟨hleft, hchars⟩ := (hr r).2 rfl
  exact ⟨r, hr, hleft.scan_eq hchars, hleft.substitute_eq hchars, substitute_none text⟩

end Stencil.Placeholder
