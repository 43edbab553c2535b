import Stencil.Proofs.Filling

/-!
# Joined texts with tags

Two texts with tags that are joined are read like each by itself, unless the place where
they meet parts the two characters of an opener (`OpensAcross`). The segments are those of
the first text and then those of the second one; where plain texts meet, they are one
(`joined`). And the tags of the second text have moved: they stand further on by all bytes
of the first one (`Span.shift`), and so do its errors.

* `parseFrom_add`: what is read further on in a text is the same, moved;
* `parseFrom_append`: behind a text that can be divided, reading goes on as with a text of
  its own;
* `fillAll_joined`: joined segments are filled one after the other, and the first error
  is that of the first ones;
* `interpolate_append`: how a joined text is filled, with all errors of reading before those
  of filling.
-/

namespace Stencil

/-- The range that is `n` bytes further on. -/
def Span.shift (n : Nat) (s : Span) : Span := ⟨s.start + n, s.stop + n⟩

theorem Span.ofPiece_add (start n : Nat) (piece : List Char) :
    Span.ofPiece (start + n) piece = (Span.ofPiece start piece).shift n := by
  rw [Span.ofPiece, Span.ofPiece, Span.shift, Nat.add_right_comm]

/-- The error of the same tag when it stands `n` bytes further on. -/
def TagError.shift (n : Nat) : TagError → TagError
  | unterminated s => unterminated (s.shift n)
  | unsupported tag s => unsupported tag (s.shift n)
  | emptyExpression s => emptyExpression (s.shift n)
  | undefined name s => undefined name (s.shift n)

namespace Tag

/-- The segment when it stands `n` bytes further on. -/
def Segment.shift (n : Nat) : Segment → Segment
  | .text cs => .text cs
  | .tag escaped path span => .tag escaped path (span.shift n)

/-- Some segments followed by others; two plain texts that meet are one. -/
def joined : List Segment → List Segment → List Segment
  | [], ts => ts
  | [.text u], .text v :: ts => .text (u ++ v) :: ts
  | s :: ss, ts => s :: joined ss ts

/-- The first character of an opener is the last one of a text, and the second one is the
    first of another. -/
def OpensAcross (front back : List Char) : Prop :=
  front.getLast? = some '<' ∧ back.head? = some '%'

instance (front back : List Char) : Decidable (OpensAcross front back) :=
  inferInstanceAs (Decidable (_ ∧ _))

variable {front back more cs u v : List Char} {ss ts : List Segment} {n : Nat}

/-! ### Further on in a text -/

theorem map_shift_textSegment (cs : List Char) :
    (textSegment cs).map (Segment.shift n) = textSegment cs := by
  rw [textSegment]
  split <;> rfl

theorem Division.segments_add (d : Division) (offset n : Nat) :
    d.segments (offset + n) = (d.segments offset).map (Segment.shift n) := by
  induction d generalizing offset with
  | last t => exact (map_shift_textSegment t.chars).symm
  | tag t g d ih =>
    simp only [segments, List.map_append, List.map_cons, map_shift_textSegment]
    rw [Nat.add_right_comm, Span.ofPiece_add, ← ih]
    rfl

theorem Malformed.shift {start : Nat} {rest : List Char} {e : TagError}
    (h : Malformed start rest e) (n : Nat) : Malformed (start + n) rest (e.shift n) := by
  cases h with
  | unterminated hc =>
    rw [TagError.shift, ← Span.ofPiece_add]
    exact .unterminated hc
  | unsupported hrest hbody h₁ h₂ =>
    rw [TagError.shift, ← Span.ofPiece_add]
    exact .unsupported hrest hbody h₁ h₂
  | emptyExpression hrest hbody hsign hblank =>
    rw [TagError.shift, ← Span.ofPiece_add]
    exact .emptyExpression hrest hbody hsign hblank

/-- What is read `n` bytes further on is the same, moved. -/
theorem parseFrom_add (offset n : Nat) (cs : List Char) :
    parseFrom (offset + n) cs =
      ((parseFrom offset cs).map (List.map (Segment.shift n))).mapError (TagError.shift n) := by
  rcases exists_division_or_malformed cs with ⟨d, rfl⟩ | ⟨d, rest, rfl, hm⟩
  · rw [parseFrom_chars, parseFrom_chars, d.segments_add]
    rfl
  · obtain ⟨e, he⟩ := hm (offset + byteLength d.chars)
    have hshift := he.shift n
    rw [Nat.add_right_comm] at hshift
    rw [parseFrom_malformed d offset he, parseFrom_malformed d (offset + n) hshift]
    rfl

theorem Segment.fill_shift (c : Context) (s : Segment) :
    (s.shift n).fill c = (s.fill c).mapError (TagError.shift n) := by
  cases s with
  | text cs => rfl
  | tag escaped path span =>
    rw [shift, fill, fill, lookup, lookup]
    cases c.get? (pathRoot path) <;> rfl

/-- Segments are filled the same wherever they stand. -/
theorem fillAll_shift (c : Context) (ss : List Segment) :
    fillAll c (ss.map (Segment.shift n)) = (fillAll c ss).mapError (TagError.shift n) := by
  induction ss with
  | nil => rfl
  | cons s ss ih =>
    rw [List.map_cons, fillAll, fillAll, Segment.fill_shift, ih]
    cases s.fill c with
    | error e => rfl
    | ok cs => cases fillAll c ss <;> rfl

/-! ### Joined segments -/

theorem joined_tag_cons (escaped : Bool) (path : String) (span : Span) (ss ts : List Segment) :
    joined (.tag escaped path span :: ss) ts = .tag escaped path span :: joined ss ts := by
  rw [joined]
  simp

/-- Plain texts that meet are one, with what stands behind the second one. -/
theorem joined_textSegment (h : ∀ w, ts.head? ≠ some (.text w)) :
    joined (textSegment u) (textSegment v ++ ts) = textSegment (u ++ v) ++ ts := by
  by_cases hu : u = []
  · rw [hu]
    rfl
  · have huv : u ++ v ≠ [] := fun h => hu (List.append_eq_nil_iff.1 h).1
    rw [textSegment, if_neg hu, textSegment, textSegment, if_neg huv]
    by_cases hv : v = []
    · rw [if_pos hv, hv, List.append_nil, List.nil_append]
      cases ts with
      | nil => rfl
      | cons t ts =>
        cases t with
        | text w => exact absurd rfl (h w)
        | tag => rfl
    · rw [if_neg hv]
      rfl

theorem joined_textSegment_append (u : List Char) (escaped : Bool) (path : String) (span : Span)
    (ss ts : List Segment) :
    joined (textSegment u ++ .tag escaped path span :: ss) ts =
      textSegment u ++ .tag escaped path span :: joined ss ts := by
  by_cases hu : u = []
  · rw [textSegment, if_pos hu]
    exact joined_tag_cons escaped path span ss ts
  · rw [textSegment, if_neg hu]
    exact congrArg (List.cons _) (joined_tag_cons escaped path span ss ts)

/-- Joined segments are filled one after the other. -/
theorem fillAll_joined (c : Context) (ss ts : List Segment) :
    fillAll c (joined ss ts) = do
      let cs ← fillAll c ss
      return cs ++ (← fillAll c ts) := by
  fun_induction joined ss ts with
  | case1 ts => cases fillAll c ts <;> rfl
  | case2 u v ts =>
    rw [fillAll, fillAll, fillAll, fillAll]
    cases fillAll c ts with
    | error e => rfl
    | ok cs =>
      refine congrArg Except.ok ?_
      rw [List.append_nil, List.append_assoc]
  | case3 s ss ts h ih =>
    rw [fillAll, fillAll, ih]
    cases s.fill c with
    | error e => rfl
    | ok cs =>
      cases fillAll c ss with
      | error e => rfl
      | ok ds =>
        cases fillAll c ts with
        | error e => rfl
        | ok es => exact congrArg Except.ok (List.append_assoc cs ds es).symm

/-! ### Joined texts -/

/-- A body is read as a tag, or not at all. -/
theorem ofBody_ne_text (body : List Char) (span : Span) (w : List Char) :
    ofBody body span ≠ .ok (.text w) := by
  intro h
  unfold ofBody at h
  split at h
  · dsimp only at h
    split at h <;> cases h
  · dsimp only at h
    split at h <;> cases h
  · cases h

theorem OpensAcross.append_right (h : OpensAcross front back) (more : List Char) :
    OpensAcross front (back ++ more) :=
  ⟨h.1, by rw [List.head?_append, h.2]; rfl⟩

theorem OpensAcross.append_left (h : OpensAcross front back) (more : List Char) :
    OpensAcross (more ++ front) back :=
  ⟨by rw [List.getLast?_append, h.1]; rfl, h.2⟩

/-- Two texts without openers make one, unless an opener is parted by them. -/
theorem PlainText.exists_append (t t' : PlainText) (h : ¬OpensAcross t.chars t'.chars) :
    ∃ t'' : PlainText, t''.chars = t.chars ++ t'.chars := by
  refine ⟨⟨t.chars ++ t'.chars, fun hopened => ?_⟩, rfl⟩
  rcases List.infix_append_iff.1 hopened with hfront | hback | ⟨l, l', heq, hl, hl'⟩
  · exact t.not_opened hfront
  · exact t'.not_opened hback
  · rcases List.cons_eq_append_iff.1 heq with ⟨rfl, rfl⟩ | ⟨m, rfl, hm⟩
    · exact t'.not_opened hl'.isInfix
    rcases List.cons_eq_append_iff.1 hm with ⟨rfl, rfl⟩ | ⟨m', rfl, hm'⟩
    · obtain ⟨before, hbefore⟩ := hl
      obtain ⟨after, hafter⟩ := hl'
      exact h ⟨by rw [← hbefore, List.getLast?_concat], by rw [← hafter]; rfl⟩
    · obtain ⟨rfl, rfl⟩ := List.nil_eq_append_iff.1 hm'
      exact t.not_opened hl.isInfix

theorem parseFrom_plain_append (t : PlainText) (h : ¬OpensAcross t.chars cs) (offset : Nat) :
    parseFrom offset (t.chars ++ cs) =
      (parseFrom (offset + byteLength t.chars) cs).map (joined (textSegment t.chars)) := by
  rcases plain_or_unclosed_or_enclosed cs with
    ⟨t', rfl⟩ | ⟨t', rest, rfl, hc⟩ | ⟨t', body, after, rfl, hbody⟩
  · obtain ⟨t'', ht''⟩ := t.exists_append t' h
    have hnil : ∀ w, ([] : List Segment).head? ≠ some (.text w) := nofun
    have hjoined := joined_textSegment (u := t.chars) (v := t'.chars) hnil
    rw [List.append_nil, List.append_nil] at hjoined
    rw [← ht'', parseFrom_plain, parseFrom_plain, ht'', Except.map, hjoined]
  · obtain ⟨t'', ht''⟩ := t.exists_append t' fun h' => h (h'.append_right _)
    rw [← List.append_assoc, ← ht'', parseFrom_unclosed offset t'' hc, parseFrom_unclosed _ t' hc,
      ht'', byteLength_append, ← Nat.add_assoc]
    rfl
  · obtain ⟨t'', ht''⟩ := t.exists_append t' fun h' => h (h'.append_right _)
    rw [← List.append_assoc, ← ht'', parseFrom_enclosed offset t'' hbody,
      parseFrom_enclosed _ t' hbody, ht'', byteLength_append, ← Nat.add_assoc]
    cases htag : ofBody body (.ofPiece (offset + byteLength t.chars + byteLength t'.chars)
        (enclosed body)) with
    | error e => rfl
    | ok tag =>
      cases parseFrom (offset + byteLength t.chars + byteLength t'.chars +
          byteLength (enclosed body)) after with
      | error e => rfl
      | ok segments =>
        have hhead : ∀ w, (tag :: segments).head? ≠ some (.text w) := by
          rintro w ⟨⟩
          exact ofBody_ne_text _ _ w htag
        exact congrArg Except.ok (joined_textSegment hhead).symm

/-- Behind a text that can be divided, reading goes on as with a text of its own. -/
theorem parseFrom_append (d : Division) (h : ¬OpensAcross d.chars cs) (offset : Nat) :
    parseFrom offset (d.chars ++ cs) =
      (parseFrom (offset + byteLength d.chars) cs).map (joined (d.segments offset)) := by
  induction d generalizing offset with
  | last t => exact parseFrom_plain_append t h offset
  | tag t g d ih =>
    have hd : ¬OpensAcross d.chars cs := fun h' => h (by
      rw [Division.chars, ← List.append_assoc]
      exact h'.append_left _)
    rw [Division.chars, List.append_assoc, List.append_assoc, Written.chars,
      parseFrom_enclosed offset t g.not_closed_sign, ofBody_written, ← Written.chars, ih hd,
      byteLength_append, byteLength_append, ← Nat.add_assoc, ← Nat.add_assoc, Except.bind]
    cases parseFrom (offset + byteLength t.chars + byteLength g.chars + byteLength d.chars) cs with
    | error e => rfl
    | ok segments =>
      exact congrArg Except.ok (joined_textSegment_append t.chars _ _ _ _ segments).symm

/-- What is read in a joined text: the first error is that of the second text, as the first
    one has none. -/
theorem parse_append {a b : String} {d : Division} (hd : d.chars = a.toList)
    (h : ¬OpensAcross a.toList b.toList) :
    parse (a ++ b) =
      ((parse b).map fun ts => joined (d.segments 0) (ts.map (.shift a.utf8ByteSize))).mapError
        (.shift a.utf8ByteSize) := by
  rw [parse, String.toList_append, ← hd, parseFrom_append d (hd ▸ h), hd, byteLength_toList,
    parseFrom_add, parse]
  cases parseFrom 0 b.toList <;> rfl

theorem check_append {a b : String} (ha : check a = .ok ()) (h : ¬OpensAcross a.toList b.toList) :
    check (a ++ b) = (check b).mapError (.shift a.utf8ByteSize) := by
  obtain ⟨ss, hss⟩ := check_eq_ok_iff.1 ha
  obtain ⟨d, hd, -⟩ := parse_eq_ok_iff.1 hss
  rw [check, parse_append hd h, check]
  cases parse b <;> rfl

/-- A joined text is filled in three stages: the second part is read, the first part is
    filled, and then the second one. -/
theorem interpolate_append_eq_bind {a b : String} (ha : check a = .ok ())
    (h : ¬OpensAcross a.toList b.toList) (c : Context) :
    interpolate (a ++ b) c =
      ((check b).mapError (TagError.shift a.utf8ByteSize)).bind fun _ =>
        (interpolate a c).bind fun out =>
          ((interpolate b c).mapError (TagError.shift a.utf8ByteSize)).map (out ++ ·) := by
  obtain ⟨ss, hss⟩ := check_eq_ok_iff.1 ha
  obtain ⟨d, hd, rfl⟩ := parse_eq_ok_iff.1 hss
  rw [interpolate_eq_bind, interpolate_eq_bind, interpolate_eq_bind, parse_append hd h, hss, check]
  cases parse b with
  | error e => rfl
  | ok ts =>
    simp only [Except.map, Except.mapError, Except.bind]
    rw [fillAll_joined, fillAll_shift]
    cases fillAll c (d.segments 0) with
    | error e => rfl
    | ok cs =>
      cases fillAll c ts with
      | error e => rfl
      | ok ds => exact congrArg Except.ok String.ofList_append

/-- A joined text is filled if both of its parts are. -/
theorem interpolate_append_eq_ok_iff {a b out : String} (ha : check a = .ok ())
    (h : ¬OpensAcross a.toList b.toList) (c : Context) :
    interpolate (a ++ b) c = .ok out ↔
      ∃ x y, interpolate a c = .ok x ∧ interpolate b c = .ok y ∧ out = x ++ y := by
  rw [interpolate_append_eq_bind ha h]
  cases hb : check b with
  | error e =>
    rw [interpolate_of_parse_eq_error (check_eq_error_iff.1 hb)]
    simp [Except.mapError, Except.bind]
  | ok =>
    cases interpolate a c with
    | error e => simp [Except.mapError, Except.bind]
    | ok x => cases interpolate b c <;> simp [Except.mapError, Except.bind, Except.map, eq_comm]

/-- A joined text fails as its second part does, if that cannot be read; else as its first
    part does, where a tag is not defined; else again as its second part does; and else it is
    filled as the one and then as the other. The errors of the second part stand further on
    by the bytes of the first one. -/
theorem interpolate_append {a b : String} (ha : check a = .ok ())
    (h : ¬OpensAcross a.toList b.toList) (c : Context) :
    interpolate (a ++ b) c =
      match check b, interpolate a c, interpolate b c with
      | .error e, _, _ => .error (e.shift a.utf8ByteSize)
      | .ok (), .error e, _ => .error e
      | .ok (), .ok _, .error e => .error (e.shift a.utf8ByteSize)
      | .ok (), .ok out, .ok out' => .ok (out ++ out') := by
  rw [interpolate_append_eq_bind ha h]
  cases check b with
  | error e => rfl
  | ok =>
    cases interpolate a c with
    | error e => rfl
    | ok out => cases interpolate b c <;> rfl

/-- A closer is parted, which is none outside of tags; and the tag of the second part has an
    accented letter far in front of it, which takes two bytes. -/
theorem interpolate_append_moved :
    check "é<%= x %>%" = .ok () ∧ ¬OpensAcross "é<%= x %>%".toList "><%- y %>".toList ∧
    interpolate ("é<%= x %>%" ++ "><%- y %>") ⟨[("x", .string "1")]⟩ =
      .error (.undefined "y" ⟨12, 20⟩) := by
  have ha : check "é<%= x %>%" = .ok () := by decide +kernel
  have h : ¬OpensAcross "é<%= x %>%".toList "><%- y %>".toList := by decide +kernel
  refine ⟨ha, h, ?_⟩
  rw [interpolate_append ha h]
  decide +kernel

-- An opener that is parted is one in the joined text only.
example : interpolate "<" .empty = .ok "<" ∧ interpolate "%>" .empty = .ok "%>" ∧
    interpolate ("<" ++ "%>") .empty = .error (.unterminated ⟨0, 3⟩) := by
  decide +kernel

end Tag

end Stencil
