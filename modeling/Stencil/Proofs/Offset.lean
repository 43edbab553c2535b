import Stencil.Proofs.Place

/-!
# Reading by offsets

A text can be read with nothing kept but how far reading has come, as an offset in
bytes. A turn of this reading (`turn?`) looks for the next opener from there and for
the closer behind it, and cuts out what stands before and between them. Each cut
fails where the text cannot be cut, and with it the whole reading (`readFrom?`).

It never fails: an offset that reading comes to lies behind some characters of the
text, and so do all the offsets that are found from there. What is read by offsets
is what is read from the characters (`readFrom?_byteLength`).

* `parse_error_first_malformed`: an error is that of the first malformed tag, every
  place is one in the text, and no cut fails.
-/

namespace Stencil.Tag

/-- How many bytes stand before the first occurrence of a delimiter. -/
def offset? (d₁ d₂ : Char) (text : String) : Option Nat :=
  (breakAt? d₁ d₂ text.toList).map fun cut => byteLength cut.1

/-- The tag that looks up what an expression is without its blanks. -/
def expressionTag (escaped : Bool) (expression : String) (span : Span) :
    Except TagError Segment :=
  match Text.trim expression.toList with
  | [] => .error (.emptyExpression span)
  | c :: path => .ok (.tag escaped (String.ofList (c :: path)) span)

/-- The tag of a text with the given body, standing at `span`. The expression is cut
    out behind the first byte of the body, and an unknown tag out of the text. -/
def bodyTag? (text body : String) (span : Span) : Option (Except TagError Segment) :=
  match body.toList.head? with
  | some '=' => (slice? body ⟨1, body.utf8ByteSize⟩).map fun cs => expressionTag false cs span
  | some '-' => (slice? body ⟨1, body.utf8ByteSize⟩).map fun cs => expressionTag true cs span
  | _ => (slice? text span).map fun tag => .error (.unsupported tag span)

/-- How a turn of reading ends. -/
inductive Turn
  /-- There are no more tags. -/
  | done (segments : List Segment)
  /-- A tag is malformed. -/
  | failed (e : TagError)
  /-- There was a tag, and reading goes on at `next`. -/
  | found (segments : List Segment) (next : Nat)

/-- The turn that has come to an opener at byte `start`, `before` standing before
    it. -/
def tagTurn? (text before : String) (start : Nat) : Option Turn := do
  let behind ← slice? text ⟨start + 2, text.utf8ByteSize⟩
  match offset? '%' '>' behind with
  | none => return .failed (.unterminated ⟨start, text.utf8ByteSize⟩)
  | some offset =>
    let close := start + 2 + offset
    let body ← slice? text ⟨start + 2, close⟩
    match ← bodyTag? text body ⟨start, close + 2⟩ with
    | .error e => return .failed e
    | .ok tag => return .found (textSegment before.toList ++ [tag]) (close + 2)

/-- A turn of reading from byte `pos`. -/
def turn? (text : String) (pos : Nat) : Option Turn := do
  let rest ← slice? text ⟨pos, text.utf8ByteSize⟩
  match offset? '<' '%' rest with
  | none => return .done (textSegment rest.toList)
  | some offset =>
    let before ← slice? text ⟨pos, pos + offset⟩
    tagTurn? text before (pos + offset)

theorem lt_of_tagTurn? {text before : String} {start next : Nat} {segments : List Segment}
    (h : tagTurn? text before start = some (.found segments next)) :
    start < next ∧ start < text.utf8ByteSize := by
  rw [tagTurn?, Option.bind_eq_bind, Option.bind_eq_some_iff] at h
  obtain ⟨behind, hbehind, h⟩ := h
  have hle : start + 2 ≤ text.utf8ByteSize := le_of_slice? hbehind
  split at h
  · cases h
  · simp only [Option.bind_eq_bind, Option.bind_eq_some_iff] at h
    obtain ⟨body, -, tag, -, h⟩ := h
    split at h
    · cases h
    · cases h
      omega

/-- Reading goes on, and does so within the text. -/
theorem lt_of_turn? {text : String} {pos next : Nat} {segments : List Segment}
    (h : turn? text pos = some (.found segments next)) :
    pos < next ∧ pos < text.utf8ByteSize := by
  rw [turn?, Option.bind_eq_bind, Option.bind_eq_some_iff] at h
  obtain ⟨rest, -, h⟩ := h
  split at h
  · cases h
  · simp only [Option.bind_eq_some_iff] at h
    obtain ⟨before, -, h⟩ := h
    have := lt_of_tagTurn? h
    omega

/-- The segments of a text from byte `pos` on. -/
def readFrom? (text : String) (pos : Nat) : Option (Except TagError (List Segment)) :=
  match _h : turn? text pos with
  | none => none
  | some (.done segments) => some (.ok segments)
  | some (.failed e) => some (.error e)
  | some (.found segments next) =>
    (readFrom? text next).map fun result => result.map fun rest => segments ++ rest
termination_by text.utf8ByteSize - pos
decreasing_by
  have := lt_of_turn? _h
  omega

section

variable {text : String} {before after body cs : List Char} {d₁ d₂ : Char}

theorem offset?_eq_none (h : ¬[d₁, d₂] <:+: cs) : offset? d₁ d₂ (String.ofList cs) = none := by
  rw [offset?, String.toList_ofList, breakAt?_eq_none_iff.2 h]
  rfl

theorem offset?_append (hne : d₁ ≠ d₂) (h : ¬[d₁, d₂] <:+: before) :
    offset? d₁ d₂ (String.ofList (before ++ d₁ :: d₂ :: after)) = some (byteLength before) := by
  rw [offset?, String.toList_ofList, breakAt?_append hne h]
  rfl

/-- An expression stands behind the one byte of its sign. -/
theorem slice?_expression {sign : Char} (hsign : sign.utf8Size = 1) (expression : List Char) :
    slice? (String.ofList (sign :: expression))
      ⟨1, (String.ofList (sign :: expression)).utf8ByteSize⟩ = some (String.ofList expression) := by
  rw [← hsign]
  exact slice?_rest (show (String.ofList (sign :: expression)).toList = [sign] ++ expression
    from String.toList_ofList)

/-- Cutting a tag out gives what its body alone tells. -/
theorem bodyTag?_ofList {span : Span}
    (h : slice? text span = some (String.ofList (enclosed body))) :
    bodyTag? text (String.ofList body) span = some (ofBody body span) := by
  rw [bodyTag?, String.toList_ofList]
  split
  · next hsign =>
    obtain ⟨expression, rfl⟩ := List.head?_eq_some_iff.1 hsign
    rw [slice?_expression (by decide), Option.map_some, expressionTag, String.toList_ofList]
    rfl
  · next hsign =>
    obtain ⟨expression, rfl⟩ := List.head?_eq_some_iff.1 hsign
    rw [slice?_expression (by decide), Option.map_some, expressionTag, String.toList_ofList]
    rfl
  · next h₁ h₂ => rw [h, Option.map_some, ofBody_of_head? h₁ h₂]

theorem byteLength_append_opener (cs : List Char) :
    byteLength (cs ++ ['<', '%']) = byteLength cs + 2 := by
  rw [byteLength_append, byteLength_opened, byteLength_nil]

theorem eq_append_opener (h : text.toList = before ++ '<' :: '%' :: cs) :
    text.toList = before ++ ['<', '%'] ++ cs := by
  rw [h, List.append_assoc]
  rfl

/-- An opener that is never closed is the end of reading. -/
theorem tagTurn?_unclosed (part : String) (h : text.toList = before ++ '<' :: '%' :: cs)
    (hc : ¬['%', '>'] <:+: cs) :
    tagTurn? text part (byteLength before) =
      some (.failed (.unterminated (.ofPiece (byteLength before) ('<' :: '%' :: cs)))) := by
  rw [tagTurn?, ← byteLength_append_opener, slice?_rest (eq_append_opener h), Option.bind_eq_bind,
    Option.bind_some, offset?_eq_none hc, Span.ofPiece, ← byteLength_append, ← h,
    byteLength_toList]
  rfl

/-- Behind an opener that is closed, the tag is that of the body between the two. -/
theorem tagTurn?_enclosed (part : String) (h : text.toList = before ++ (enclosed body ++ cs))
    (hbody : ¬['%', '>'] <:+: body) :
    tagTurn? text part (byteLength before) =
      match ofBody body (.ofPiece (byteLength before) (enclosed body)) with
      | .error e => some (.failed e)
      | .ok tag => some (.found (textSegment part.toList ++ [tag])
          (byteLength before + byteLength (enclosed body))) := by
  have hbehind := eq_append_opener (h.trans (by rw [enclosed_append]))
  have hstop : byteLength before + byteLength (enclosed body) =
      byteLength before + 2 + byteLength body + 2 := by
    rw [byteLength_enclosed]
    omega
  rw [tagTurn?, Span.ofPiece, hstop, ← byteLength_append_opener, slice?_rest hbehind,
    Option.bind_eq_bind, Option.bind_some, offset?_append (by decide) hbody]
  simp only [Option.bind_eq_bind]
  rw [← Span.ofPiece, slice?_ofPiece hbehind, Option.bind_some, byteLength_append_opener, ← hstop,
    ← Span.ofPiece, bodyTag?_ofList (slice?_ofPiece h), Option.bind_some]
  cases ofBody body (.ofPiece (byteLength before) (enclosed body)) <;> rfl

theorem turn?_plain (t : PlainText) (h : text.toList = before ++ t.chars) :
    turn? text (byteLength before) = some (.done (textSegment t.chars)) := by
  rw [turn?, slice?_rest h, Option.bind_eq_bind, Option.bind_some, offset?_eq_none t.not_opened,
    String.toList_ofList]
  rfl

theorem turn?_opened (t : PlainText) (h : text.toList = before ++ (t.chars ++ '<' :: '%' :: cs)) :
    turn? text (byteLength before) =
      tagTurn? text (String.ofList t.chars) (byteLength (before ++ t.chars)) := by
  rw [turn?, slice?_rest h, Option.bind_eq_bind, Option.bind_some,
    offset?_append (by decide) t.not_opened]
  simp only
  rw [← Span.ofPiece, slice?_ofPiece h, Option.bind_some, byteLength_append]

/-- A reading is its first turn and what is read behind it. -/
theorem readFrom?_eq (text : String) (pos : Nat) :
    readFrom? text pos =
      match turn? text pos with
      | none => none
      | some (.done segments) => some (.ok segments)
      | some (.failed e) => some (.error e)
      | some (.found segments next) =>
        (readFrom? text next).map fun result => result.map fun rest => segments ++ rest := by
  rw [readFrom?]
  split <;> simp only [*]

/-- What is read by offsets is what is read from the characters. -/
theorem readFrom?_byteLength (h : text.toList = before ++ cs) :
    readFrom? text (byteLength before) = some (parseFrom (byteLength before) cs) := by
  induction hn : cs.length using Nat.strong_induction_on generalizing before cs with
  | h n ih =>
    rw [readFrom?_eq]
    rcases plain_or_unclosed_or_enclosed cs with
      ⟨t, rfl⟩ | ⟨t, rest, rfl, hc⟩ | ⟨t, body, after, rfl, hbody⟩
    · rw [turn?_plain t h, parseFrom_plain]
    · rw [turn?_opened t h, tagTurn?_unclosed _ (by rw [h, List.append_assoc]) hc,
        parseFrom_unclosed _ t hc, byteLength_append]
    · have htag : text.toList = before ++ t.chars ++ (enclosed body ++ after) := by
        rw [h, List.append_assoc]
      have hafter : text.toList = before ++ t.chars ++ enclosed body ++ after := by
        rw [htag, List.append_assoc (before ++ t.chars)]
      have hlt := length_lt_enclosed t.chars body after
      rw [turn?_opened t (by rw [h, enclosed_append]), tagTurn?_enclosed _ htag hbody,
        parseFrom_enclosed _ t hbody, String.toList_ofList, ← byteLength_append before,
        ← byteLength_append]
      cases ofBody body (.ofPiece (byteLength (before ++ t.chars)) (enclosed body)) with
      | error e => rfl
      | ok tag =>
        simp only [Except.bind]
        rw [ih _ (hn ▸ hlt) hafter rfl]
        cases parseFrom (byteLength (before ++ t.chars ++ enclosed body)) after with
        | error e => rfl
        | ok segments => simp [Except.map]

/-! ### Errors -/

variable {rest : List Char} {e : TagError}

/-- A malformed tag goes up to the end of the text if there is no closer. -/
theorem Malformed.eq_unterminated_iff (h : text.toList = before ++ '<' :: '%' :: rest)
    (hm : Malformed (byteLength before) rest e) :
    e = .unterminated ⟨byteLength before, text.utf8ByteSize⟩ ↔ ¬['%', '>'] <:+: rest := by
  cases hm with
  | unterminated hc =>
    refine iff_of_true ?_ hc
    rw [Span.ofPiece, ← byteLength_append, ← h, byteLength_toList]
  | unsupported hrest =>
    exact iff_of_false TagError.noConfusion (not_not_intro (hrest ▸ pair_infix_append _ _))
  | emptyExpression hrest =>
    exact iff_of_false TagError.noConfusion (not_not_intro (hrest ▸ pair_infix_append _ _))

/-- The place of a malformed tag is one in the text. -/
theorem Malformed.isPlaceIn (h : text.toList = before ++ '<' :: '%' :: rest)
    (hm : Malformed (byteLength before) rest e) : e.span.IsPlaceIn text := by
  rcases hm.unclosed_or_refused with ⟨-, rfl⟩ | ⟨body, after, hrest, -, -, hspan⟩
  · have htext : text.toList = before ++ ('<' :: '%' :: rest ++ []) := by rw [h, List.append_nil]
    exact isPlaceIn_ofPiece htext (List.cons_ne_nil _ _)
  · have htext : text.toList = before ++ (enclosed body ++ after) := by
      rw [h, hrest, enclosed_append]
    rw [hspan]
    exact isPlaceIn_ofPiece htext (List.cons_ne_nil _ _)

end

/-- Reading fails with what is wrong at the first opener that begins no tag: the text
    before it can be divided, and no longer text before an opener can. What is wrong
    is told by the text behind the opener; the place told for it, and that of every
    tag which is read, is a place in the text. Read by offsets, the text is always
    cut where it can be cut. -/
theorem parse_error_first_malformed (text : String) :
    (∀ e, parse text = .error e ↔
      ∃ (d : Division) (rest : List Char), text.toList = d.chars ++ '<' :: '%' :: rest ∧
        (∀ (d' : Division) (rest' : List Char), text.toList = d'.chars ++ '<' :: '%' :: rest' →
          d'.chars <+: d.chars) ∧
        Malformed (byteLength d.chars) rest e ∧
        (e = .unterminated ⟨byteLength d.chars, text.utf8ByteSize⟩ ↔ ¬['%', '>'] <:+: rest)) ∧
    (∀ e, parse text = .error e → e.span.IsPlaceIn text) ∧
    (∀ segments, parse text = .ok segments → ∀ s ∈ places segments, s.IsPlaceIn text) ∧
    readFrom? text 0 = some (parse text) := by
  refine ⟨fun e => ⟨fun h => ?_, ?_⟩, fun e h => ?_, fun segments h => ?_, ?_⟩
  · obtain ⟨d, rest, hd, hm⟩ := parse_eq_error_iff.1 h
    exact ⟨d, rest, hd, fun d' rest' hd' => Division.isPrefix_of_malformed hm (hd.symm.trans hd'),
      hm, hm.eq_unterminated_iff hd⟩
  · rintro ⟨d, rest, hd, -, hm, -⟩
    exact parse_eq_error_iff.2 ⟨d, rest, hd, hm⟩
  · obtain ⟨d, rest, hd, hm⟩ := parse_eq_error_iff.1 h
    exact hm.isPlaceIn hd
  · obtain ⟨d, hd, rfl⟩ := parse_eq_ok_iff.1 h
    exact d.isPlaceIn (show text.toList = [] ++ (d.chars ++ []) by simp [hd])
  · exact readFrom?_byteLength (List.nil_append text.toList).symm

-- The two characters of an opener are no part of a closer.
example : parse "é<%>" = .error (.unterminated ⟨2, 5⟩) := by decide +kernel

end Stencil.Tag
