import Stencil.Proofs.Filling
import Stencil.Proofs.Place
import Stencil.Report

/-!
# Where reports point to

A report names the line and the column at which an error is said to begin. Which place that is
depends on how a text is divided into lines: a place (`placeFrom`) is told with a predicate that
says where lines end, among others where the drawing ends them (`endsLine`) or at line feeds only
(`feedsLine`).

The drawing counts in characters, and places increase with the number of characters before them
(`placeFrom_eq_or_lt`). The range of an error counts bytes, so the place that is named is that of
the tag only if nothing but characters of one byte stand before it. Of all others the place is one
too far on, or it is not named at all, where the range leaves the text.

* `Notice.position?_eq`: the place that a drawing names;
* `Tag.exists_opened_of_error`: every error begins where a tag is opened;
* `points_at_tag_iff`: when a report names the place of the tag.
-/

namespace Stencil

/-! ### Places -/

namespace Report

/-- Whether the drawing ends a line with the first of some characters. -/
def endsLine : List Char → Bool
  | [] => false
  | c :: cs => isTerminator c && !(c == '\r' && cs.head? == some '\n')

/-- Whether the first of some characters is a line feed. -/
def feedsLine (cs : List Char) : Bool := cs.head? == some '\n'

/-- The line and the column of the character behind the first `n` ones, when these begin at the
    given line and column and lines end as `ends` says. There is no line behind the last
    character. -/
def placeFrom (ends : List Char → Bool) (line col : Nat) : (n : Nat) → List Char → Nat × Nat
  | 0, _ => (line, col)
  | n + 1, [] => (line, col + (n + 1))
  | n + 1, c :: cs =>
    if ends (c :: cs) = true ∧ cs ≠ [] then placeFrom ends (line + 1) 1 n cs
    else placeFrom ends line (col + 1) n cs

/-- The line and the column of the character behind the first `n` ones of a text, both counted
    from one. -/
def placeOf (ends : List Char → Bool) (n : Nat) (text : List Char) : Nat × Nat :=
  placeFrom ends 1 1 n text

theorem endsLine_of_feedsLine {cs : List Char} (h : feedsLine cs = true) : endsLine cs = true := by
  cases cs with
  | nil => cases h
  | cons c cs =>
    obtain rfl : c = '\n' := by simpa [feedsLine] using h
    rfl

section

variable {ends ends' : List Char → Bool} {line line' col col' n o : Nat} {cs : List Char}

@[simp] theorem placeFrom_nil (ends : List Char → Bool) (line col n : Nat) :
    placeFrom ends line col n [] = (line, col + n) := by
  cases n <;> rfl

/-- Whoever goes on comes to a column further on, or to a later line. -/
theorem placeFrom_eq_or_lt (ends : List Char → Bool) (line col n : Nat) (cs : List Char) :
    placeFrom ends line col n cs = (line, col + n) ∨
      line < (placeFrom ends line col n cs).1 := by
  induction cs generalizing line col n with
  | nil => exact .inl (placeFrom_nil ..)
  | cons c cs ih =>
    cases n with
    | zero => exact .inl rfl
    | succ n =>
      rw [placeFrom]
      split
      · rcases ih (line + 1) 1 n with h | h
        · exact .inr (by rw [h]; exact Nat.lt_succ_self _)
        · exact .inr (Nat.lt_of_succ_lt h)
      · rcases ih line (col + 1) n with h | h
        · exact .inl (by rw [h, Nat.add_assoc, Nat.add_comm 1])
        · exact .inr h

theorem le_placeFrom (ends : List Char → Bool) (line col n : Nat) (cs : List Char) :
    line ≤ (placeFrom ends line col n cs).1 := by
  rcases placeFrom_eq_or_lt ends line col n cs with h | h
  · exact (congrArg Prod.fst h).ge
  · exact h.le

theorem placeFrom_eq_self_iff : placeFrom ends line col n cs = (line, col) ↔ n = 0 := by
  refine ⟨fun h => ?_, fun h => h ▸ rfl⟩
  rcases placeFrom_eq_or_lt ends line col n cs with h' | h'
  · simpa using congrArg Prod.snd (h'.symm.trans h)
  · rw [h] at h'
    exact absurd h' (Nat.lt_irrefl _)

/-- Where lines end more often, who is on a later line stays on one. -/
theorem placeFrom_lt_placeFrom (hends : ∀ cs, ends cs = true → ends' cs = true)
    (hline : line < line') (hle : n ≤ o) :
    (placeFrom ends line col n cs).1 < (placeFrom ends' line' col' o cs).1 := by
  induction cs generalizing line line' col col' n o with
  | nil =>
    rw [placeFrom_nil]
    exact hline.trans_le (le_placeFrom ..)
  | cons c cs ih =>
    cases n with
    | zero => exact hline.trans_le (le_placeFrom ..)
    | succ n =>
      obtain ⟨o, rfl⟩ := Nat.exists_eq_add_one_of_ne_zero (Nat.ne_zero_of_lt hle)
      have hle := Nat.le_of_succ_le_succ hle
      rw [placeFrom, placeFrom]
      by_cases h : ends (c :: cs) = true ∧ cs ≠ []
      · rw [if_pos h, if_pos (h.imp_left (hends _))]
        exact ih (Nat.succ_lt_succ hline) hle
      · rw [if_neg h]
        split
        · exact ih (Nat.lt_succ_of_lt hline) hle
        · exact ih hline hle

/-- The place behind `o` characters is that behind `n` of them, told with fewer ends of lines, only
    if both numbers are the same and no line ends before in one way alone. -/
theorem placeFrom_eq_placeFrom_iff (hends : ∀ cs, ends cs = true → ends' cs = true)
    (hle : n ≤ o) :
    placeFrom ends' line col o cs = placeFrom ends line col n cs ↔
      o = n ∧ ∀ i < n, i + 1 < cs.length → ends (cs.drop i) = ends' (cs.drop i) := by
  induction cs generalizing line col n o with
  | nil => simp
  | cons c cs ih =>
    cases n with
    | zero => exact placeFrom_eq_self_iff.trans (by simp)
    | succ n =>
      obtain ⟨o, rfl⟩ := Nat.exists_eq_add_one_of_ne_zero (Nat.ne_zero_of_lt hle)
      have hle := Nat.le_of_succ_le_succ hle
      have hsplit : (∀ i < n + 1, i + 1 < (c :: cs).length →
            ends ((c :: cs).drop i) = ends' ((c :: cs).drop i)) ↔
          (cs ≠ [] → ends (c :: cs) = ends' (c :: cs)) ∧
            ∀ i < n, i + 1 < cs.length → ends (cs.drop i) = ends' (cs.drop i) := by
        rw [Nat.forall_lt_succ_left]
        simp [List.length_pos_iff]
      rw [placeFrom, placeFrom, hsplit, Nat.add_right_cancel_iff]
      by_cases h : ends (c :: cs) = true ∧ cs ≠ []
      · have h' := h.imp_left (hends _)
        rw [if_pos h, if_pos h', ih hle, h.1, h'.1]
        simp
      · by_cases h' : ends' (c :: cs) = true ∧ cs ≠ []
        · -- From a line that ends in one way alone, the places are on different lines.
          have hlt : (placeFrom ends line (col + 1) n cs).1 <
              (placeFrom ends' (line + 1) 1 o cs).1 :=
            placeFrom_lt_placeFrom hends (Nat.lt_succ_self line) hle
          rw [if_neg h, if_pos h']
          refine iff_of_false (fun heq => hlt.ne' (congrArg Prod.fst heq)) fun hsame => h ?_
          exact ⟨(hsame.2.1 h'.2).trans h'.1, h'.2⟩
        · have hsame (hne : cs ≠ []) : ends (c :: cs) = ends' (c :: cs) := by
            rw [Bool.eq_false_iff.2 fun hc => h ⟨hc, hne⟩,
              Bool.eq_false_iff.2 fun hc => h' ⟨hc, hne⟩]
          rw [if_neg h, if_neg h', ih hle]
          exact and_congr_right fun _ => (and_iff_right hsame).symm

end

/-! ### Places in drawings -/

section

variable {l first : List Char} {ls rest : List (List Char)} {cs : List Char} {k : Nat}

theorem lines_cons (c : Char) (cs : List Char) :
    lines (c :: cs) = if endsLine (c :: cs) = true then [c] :: lines cs else onto c (lines cs) :=
  rfl

/-- The first line of a text begins as the text does. -/
theorem exists_lines_cons (c : Char) (cs : List Char) :
    ∃ l ls, lines (c :: cs) = (c :: l) :: ls := by
  rw [lines_cons]
  split
  · exact ⟨[], lines cs, rfl⟩
  · cases lines cs with
    | nil => exact ⟨[], [], rfl⟩
    | cons l ls => exact ⟨l, ls, rfl⟩

theorem exists_lines (h : cs ≠ []) : ∃ first rest, lines cs = first :: rest := by
  obtain ⟨c, cs, rfl⟩ := List.exists_cons_of_ne_nil h
  obtain ⟨l, ls, hlines⟩ := exists_lines_cons c cs
  exact ⟨c :: l, ls, hlines⟩

theorem first_ne_nil (hcs : lines cs = first :: rest) : first ≠ [] := by
  cases cs with
  | nil => cases hcs
  | cons c cs =>
    obtain ⟨l, ls, hlines⟩ := exists_lines_cons c cs
    rw [← (List.cons.inj (hlines.symm.trans hcs)).1]
    exact List.cons_ne_nil _ _

theorem lineAt?_cons (o : Nat) (l : Line) (ls : List Line) :
    lineAt? o (l :: ls) = (lineAt? o ls).or (if l.offset ≤ o then some l else none) := by
  rw [lineAt?, List.filter_cons]
  split
  · next h =>
    rw [if_pos (of_decide_eq_true h), List.getLast?_cons]
    cases hrest : lineAt? o ls <;> rw [lineAt?] at hrest <;> rw [hrest] <;> rfl
  · next h => rw [if_neg fun hle => h (decide_eq_true hle), Option.or_none, lineAt?]

/-- No line of those that begin behind an offset is the line there. -/
theorem lineAt?_numbered_of_lt {o : Nat} (number offset : Nat) (ls : List (List Char))
    (h : o < offset) : lineAt? o (numbered number offset ls) = none := by
  induction ls generalizing number offset with
  | nil => rfl
  | cons l ls ih =>
    rw [numbered, lineAt?_cons, ih _ _ (Nat.lt_add_right _ h), Option.none_or,
      if_neg (Nat.not_le.2 h)]

/-- The line of a character of the first line is the first one. -/
theorem lineAt?_numbered (number offset : Nat) (ls : List (List Char)) (h : k < l.length) :
    lineAt? (offset + k) (numbered number offset (l :: ls)) = some ⟨number, offset, l⟩ := by
  rw [numbered, lineAt?_cons, lineAt?_numbered_of_lt _ _ _ (Nat.add_lt_add_left h _),
    Option.none_or, if_pos (Nat.le_add_right _ _)]

@[simp] theorem position_add (number offset k : Nat) (l : List Char) :
    (⟨number, offset, l⟩ : Line).position (offset + k) = (number + 1, k + 1) := by
  rw [Line.position, Nat.add_sub_cancel_left]

/-- The line at an offset and the column on it are the place there, also when some characters are
    put in front of the first line. -/
theorem exists_lineAt? (hcs : lines cs = first :: rest) (front : List Char)
    (number offset k : Nat) :
    ∃ l, lineAt? (offset + (front.length + k)) (numbered number offset ((front ++ first) :: rest)) =
        some l ∧
      l.position (offset + (front.length + k)) =
        placeFrom endsLine (number + 1) (front.length + 1) k cs := by
  induction cs generalizing first rest front number offset k with
  | nil => cases hcs
  | cons c cs ih =>
    cases k with
    | zero =>
      have hlt : front.length + 0 < (front ++ first).length := by
        rw [List.length_append]
        exact Nat.add_lt_add_left (List.length_pos_iff.2 (first_ne_nil hcs)) _
      exact ⟨_, lineAt?_numbered number offset rest hlt, position_add ..⟩
    | succ k =>
      rw [lines_cons] at hcs
      rw [placeFrom]
      by_cases hnil : cs = []
      · -- The end of the text belongs to the last line.
        subst hnil
        have hlines : (if endsLine [c] = true then [c] :: lines [] else onto c (lines [])) =
            [[c]] := by split <;> rfl
        obtain ⟨rfl, rfl⟩ := List.cons.inj (hlines.symm.trans hcs)
        refine ⟨⟨number, offset, front ++ [c]⟩, ?_, ?_⟩
        · rw [numbered, lineAt?_cons, if_pos (Nat.le_add_right _ _)]
          rfl
        · rw [if_neg fun h => h.2 rfl, placeFrom_nil, position_add, Nat.add_assoc,
            Nat.add_comm (k + 1), Nat.add_assoc, Nat.add_assoc, Nat.add_comm k]
      · obtain ⟨first', rest', hrest⟩ := exists_lines hnil
        rw [hrest] at hcs
        split at hcs
        · next hends =>
          obtain ⟨rfl, rfl⟩ := List.cons.inj hcs
          have hoffset : offset + (front.length + (k + 1)) =
              offset + (front ++ [c]).length + (([] : List Char).length + k) := by
            rw [List.length_append, List.length_singleton, List.length_nil]
            omega
          obtain ⟨l, hl, hposition⟩ :=
            ih hrest [] (number + 1) (offset + (front ++ [c]).length) k
          rw [if_pos ⟨hends, hnil⟩, hoffset]
          exact ⟨l, by rw [numbered, lineAt?_cons, ← List.nil_append first', hl, Option.some_or],
            hposition⟩
        · next hends =>
          obtain ⟨rfl, rfl⟩ := List.cons.inj hcs
          have hlength : (front ++ [c]).length = front.length + 1 := List.length_append
          have hoffset : front.length + (k + 1) = front.length + 1 + k := by omega
          rw [if_neg fun h => hends h.1, hoffset, List.append_cons front, ← hlength]
          exact ih hrest (front ++ [c]) number offset k

/-- A drawing names the place of the character whose number is the offset it is given, unless the
    range leaves the text. -/
theorem Notice.position?_eq (n : Notice) (hne : cs ≠ []) :
    n.position? cs =
      if cs.length < n.start ∨ cs.length < n.stop - 1 then none
      else some (placeOf endsLine n.start cs) := by
  obtain ⟨first, rest, hcs⟩ := exists_lines hne
  obtain ⟨l, hl, hposition⟩ := exists_lineAt? hcs [] 0 0 n.start
  obtain ⟨l', hl', -⟩ := exists_lineAt? hcs [] 0 0 (n.stop - 1)
  simp only [List.length_nil, List.nil_append, Nat.zero_add] at hl hl' hposition
  rw [position?, extent?, hcs]
  split
  · rfl
  · rw [hl, hl', placeOf, ← hposition]
    rfl

end

/-! ### Reports -/

/-- A report begins with the headline and, if there is a place at which its error is said to begin,
    with the line that names the file and this place. Without a place it is the headline alone. -/
theorem Notice.draw_cases (n : Notice) (cs : List Char) :
    (∀ place, n.position? cs = some place → ∃ width,
      (Ink.error.paint "Error:" ++ " " ++ n.message ++ "\n" ++ n.drawPlace width place).toList <+:
        (n.draw cs).toList) ∧
      (n.position? cs = none →
        n.draw cs = Ink.error.paint "Error:" ++ " " ++ n.message ++ "\n") := by
  rw [position?, draw]
  cases n.extent? cs with
  | none => exact ⟨fun _ h => (nomatch h), fun _ => rfl⟩
  | some extent =>
    obtain ⟨first, last⟩ := extent
    refine ⟨fun place h => ⟨(last.number + 1).repr.length, ?_⟩, fun h => nomatch h⟩
    obtain rfl : first.position n.start = place := Option.some.inj h
    simp only [String.toList_append]
    -- Six pieces are drawn behind the line that names the place.
    iterate 6 refine List.IsPrefix.trans ?_ (List.prefix_append _ _)
    exact List.prefix_rfl

end Report

/-! ### Places of errors -/

namespace Tag

/-- A malformed tag is where it is opened. -/
theorem Malformed.start_span {start : Nat} {rest : List Char} {e : TagError}
    (h : Malformed start rest e) : e.span.start = start := by
  cases h <;> rfl

/-- At the place of a tag, a tag is opened. -/
theorem Division.exists_opened {text : String} {before after : List Char} (d : Division)
    (h : text.toList = before ++ (d.chars ++ after)) :
    ∀ s ∈ places (d.segments (byteLength before)),
      ∃ front rest, text.toList = front ++ '<' :: '%' :: rest ∧ byteLength front = s.start := by
  induction d generalizing before with
  | last t => simp
  | tag t g d ih =>
    obtain ⟨htag, hbehind⟩ := Division.eq_append_of_tag h
    rw [places_segments_tag, ← byteLength_append, ← byteLength_append, List.forall_mem_cons]
    exact ⟨⟨_, _, htag, rfl⟩, ih hbehind⟩

/-- What is wrong with a text is wrong where a tag is opened in it. -/
theorem exists_opened_of_error {text : String} {e : TagError}
    (he : check text = .error e ∨ ∃ c, interpolate text c = .error e) :
    ∃ before rest, text.toList = before ++ '<' :: '%' :: rest ∧
      byteLength before = e.span.start := by
  have hmalformed (h : parse text = .error e) : ∃ before rest,
      text.toList = before ++ '<' :: '%' :: rest ∧ byteLength before = e.span.start := by
    obtain ⟨d, rest, htext, hm⟩ := parse_eq_error_iff.1 h
    exact ⟨_, rest, htext, hm.start_span.symm⟩
  rcases he with he | ⟨c, he⟩
  · exact hmalformed (check_eq_error_iff.1 he)
  · cases hparse : parse text with
    | error e' =>
      obtain rfl : e' = e :=
        Except.error.inj ((interpolate_of_parse_eq_error hparse c).symm.trans he)
      exact hmalformed hparse
    | ok segments =>
      -- The tag without a value is one of those that were read.
      obtain ⟨d, hd, rfl⟩ := parse_eq_ok_iff.1 hparse
      cases (interpolate_eq_iff hparse).1 he with
      | undefined hfirst =>
        obtain ⟨before, escaped, path, span, after, hsegments, -, -, rfl⟩ := hfirst
        have hmem : span ∈ places (d.segments (byteLength [])) := by
          rw [byteLength_nil, hsegments]
          exact List.mem_filterMap.2 ⟨_, List.mem_append_right _ List.mem_cons_self, rfl⟩
        exact d.exists_opened (by rw [hd, List.append_nil, List.nil_append]) span hmem

end Tag

theorem length_le_byteLength (cs : List Char) : cs.length ≤ byteLength cs := by
  induction cs with
  | nil => exact Nat.le_refl _
  | cons c cs ih =>
    have := c.utf8Size_pos
    rw [List.length_cons, byteLength_cons]
    omega

/-- As many bytes as characters are those of characters of one byte. -/
theorem byteLength_eq_length_iff {cs : List Char} :
    byteLength cs = cs.length ↔ ∀ c ∈ cs, c.utf8Size = 1 := by
  induction cs with
  | nil => simp
  | cons c cs ih =>
    have := c.utf8Size_pos
    have := length_le_byteLength cs
    rw [List.forall_mem_cons, ← ih, List.length_cons, byteLength_cons]
    omega

namespace Report

section

variable {text : String} {e : TagError} {ends : List Char → Bool} {before rest : List Char}

/-- The place that the report of an error names is the one behind some characters exactly if their
    bytes are as many as the offset of the error, the range does not leave the text, and no line
    ends among them in the drawing alone. -/
theorem position?_eq_placeOf_iff (file : String)
    (hends : ∀ cs, ends cs = true → endsLine cs = true)
    (htext : text.toList = before ++ '<' :: '%' :: rest)
    (hstart : byteLength before = e.span.start) :
    (Notice.ofTagError e file).position? text.toList =
        some (placeOf ends before.length text.toList) ↔
      (∀ c ∈ before, c.utf8Size = 1) ∧ e.span.stop ≤ text.length + 1 ∧
        ∀ i < before.length, ends (text.toList.drop i) = endsLine (text.toList.drop i) := by
  have hne : text.toList ≠ [] := by
    rw [htext]
    exact List.append_ne_nil_of_right_ne_nil _ (List.cons_ne_nil _ _)
  have hlength : text.length = before.length + rest.length + 2 := by
    rw [← String.length_toList, htext, List.length_append]
    rfl
  have hplace : placeOf endsLine (byteLength before) text.toList =
      placeOf ends before.length text.toList ↔ _ :=
    placeFrom_eq_placeFrom_iff hends (length_le_byteLength before)
  have hsame : (∀ i < before.length, i + 1 < text.toList.length →
        ends (text.toList.drop i) = endsLine (text.toList.drop i)) ↔
      ∀ i < before.length, ends (text.toList.drop i) = endsLine (text.toList.drop i) := by
    refine forall₂_congr fun i hi => forall_prop_of_true ?_
    rw [String.length_toList]
    omega
  rw [Notice.position?_eq _ hne, String.length_toList]
  show (if text.length < e.span.start ∨ text.length < e.span.stop - 1 then none
    else some (placeOf endsLine e.span.start text.toList)) = _ ↔ _
  rw [← hstart, ← byteLength_eq_length_iff, ← hsame]
  split
  · next hout => exact iff_of_false (fun h => nomatch h) fun ⟨hbytes, hstop, _⟩ => by omega
  · next hin =>
    rw [Option.some_inj, hplace]
    exact and_congr_right fun _ => (and_iff_right (by omega)).symm

end

/-- An error is where a tag is opened in its text. The report names the place of the character
    whose number is the offset in bytes at which the error begins, and names no place if the range
    leaves the text. So it names the place of the tag exactly if nothing but characters of one byte
    stand before it and the range does not leave the text. For whom lines end with line feeds only,
    the drawing must not end lines before the tag with something else, besides. -/
theorem points_at_tag_iff {text : String} {e : TagError}
    (he : Tag.check text = .error e ∨ ∃ c, Tag.interpolate text c = .error e) (file : String) :
    let place? := (Notice.ofTagError e file).position? text.toList
    (∀ place, place? = some place → ∃ width,
      (Ink.error.paint "Error:" ++ " " ++ e.message ++ "\n" ++
        (Notice.ofTagError e file).drawPlace width place).toList <+:
          (ofTagError e text file).toList) ∧
    (place? = none →
      ofTagError e text file = Ink.error.paint "Error:" ++ " " ++ e.message ++ "\n") ∧
    (place? = if text.length < e.span.start ∨ text.length < e.span.stop - 1 then none
      else some (placeOf endsLine e.span.start text.toList)) ∧
    ∃ before rest, text.toList = before ++ '<' :: '%' :: rest ∧
      byteLength before = e.span.start ∧
      (place? = some (placeOf endsLine before.length text.toList) ↔
        (∀ c ∈ before, c.utf8Size = 1) ∧ e.span.stop ≤ text.length + 1) ∧
      (place? = some (placeOf feedsLine before.length text.toList) ↔
        (∀ c ∈ before, c.utf8Size = 1) ∧ e.span.stop ≤ text.length + 1 ∧
          ∀ i < before.length, endsLine (text.toList.drop i) = true →
            feedsLine (text.toList.drop i) = true) := by
  obtain ⟨before, rest, htext, hstart⟩ := Tag.exists_opened_of_error he
  have hne : text.toList ≠ [] := by
    rw [htext]
    exact List.append_ne_nil_of_right_ne_nil _ (List.cons_ne_nil _ _)
  obtain ⟨hplace, hnone⟩ := (Notice.ofTagError e file).draw_cases text.toList
  refine ⟨hplace, hnone, ?_, before, rest, htext, hstart, ?_, ?_⟩
  · rw [Notice.position?_eq _ hne, String.length_toList]
    rfl
  · rw [position?_eq_placeOf_iff file (fun _ h => h) htext hstart]
    simp
  · rw [position?_eq_placeOf_iff file (fun _ => endsLine_of_feedsLine) htext hstart]
    refine and_congr_right fun _ => and_congr_right fun _ => forall₂_congr fun i _ => ?_
    exact ⟨fun h hends => h.trans hends, fun h => Bool.eq_iff_iff.2 ⟨endsLine_of_feedsLine, h⟩⟩

/-- Behind a character of two bytes, the report of a tag names the column behind its first one. -/
theorem points_at_tag_iff_accented :
    Tag.interpolate "é<%= x %>" .empty = .error (.undefined "x" ⟨2, 10⟩) ∧
      ∃ before rest, "é<%= x %>".toList = before ++ '<' :: '%' :: rest ∧
        byteLength before = 2 ∧
        (Notice.ofTagError (.undefined "x" ⟨2, 10⟩) "page.tpl").position? "é<%= x %>".toList ≠
          some (placeOf endsLine before.length "é<%= x %>".toList) := by
  have he : Tag.interpolate "é<%= x %>" .empty = .error (.undefined "x" ⟨2, 10⟩) := by
    decide +kernel
  obtain ⟨-, -, -, before, rest, htext, hstart, hplace, -⟩ :=
    points_at_tag_iff (.inr ⟨_, he⟩) "page.tpl"
  refine ⟨he, before, rest, htext, hstart, fun h => ?_⟩
  have hbytes := (hplace.1 h).1
  cases before with
  | nil => cases hstart
  | cons c before =>
    obtain rfl : 'é' = c := (List.cons.inj htext).1
    exact absurd (hbytes 'é' List.mem_cons_self) (by decide)

/-- The place that is named is one column too far on. -/
theorem position?_accented :
    Tag.interpolate "é<%= x %>" .empty = .error (.undefined "x" ⟨2, 10⟩) ∧
      byteLength ['é'] = 2 ∧
      (Notice.ofTagError (.undefined "x" ⟨2, 10⟩) "page.tpl").position? "é<%= x %>".toList =
        some (1, 3) ∧
      placeOf endsLine 1 "é<%= x %>".toList = (1, 2) ∧
      placeOf feedsLine 1 "é<%= x %>".toList = (1, 2) := by
  decide +kernel

end Report

end Stencil
