import Mathlib.Data.List.Infix
import Stencil.Proofs.Slice
import Stencil.Tag.Reader

/-!
# Divisions of a text

What a text with tags is, said without reading it. A text without openers `<%` is
plain (`PlainText`). A tag is written as an opener, a sign that tells its kind, a
body without closers `%>` that does not consist of blanks only, and a closer
(`Written`). A text is well formed if it can be divided into plain texts and the
tags between them (`Division`), and the segments of such a text are its plain texts
and its tags in order (`Division.segments`).

Where a text cannot be divided, there is a first opener that begins no tag. What is
wrong with it (`Malformed`) depends on what stands behind it: there is no closer, or
the text up to the first closer has no sign, or nothing but blanks behind the sign.

* `Division.eq_of_chars_eq`: there is one division only;
* `exists_division_or_malformed`: every text can be divided, or has a first
  malformed tag;
* `parseFrom_chars`, `parseFrom_malformed`: in the one case reading gives the
  segments, in the other it tells what is wrong;
* `Division.isPrefix_of_malformed`: no division leads up to an opener behind the
  first malformed tag.
-/

namespace Stencil.Tag

/-! ### Delimiters -/

section

variable {d₁ d₂ a b : Char} {cs before after : List Char}

theorem pair_infix_cons_cons :
    [d₁, d₂] <:+: a :: b :: cs ↔ (a = d₁ ∧ b = d₂) ∨ [d₁, d₂] <:+: b :: cs := by
  rw [List.infix_cons_iff, List.cons_prefix_cons, List.cons_prefix_cons]
  simp only [List.nil_prefix, and_true, eq_comm]

theorem not_pair_infix_singleton : ¬[d₁, d₂] <:+: [a] := fun h => by
  have := h.length_le
  simp at this

theorem pair_infix_cons_of_ne (h : a ≠ d₁) : [d₁, d₂] <:+: a :: cs ↔ [d₁, d₂] <:+: cs := by
  rw [List.infix_cons_iff, List.cons_prefix_cons]
  simp only [Ne.symm h, false_and, false_or]

theorem pair_infix_append (before after : List Char) :
    [d₁, d₂] <:+: before ++ d₁ :: d₂ :: after :=
  ⟨before, after, List.append_assoc ..⟩

/-- A text is not cut where the delimiter does not occur. -/
theorem breakAt?_eq_none_iff : breakAt? d₁ d₂ cs = none ↔ ¬[d₁, d₂] <:+: cs := by
  fun_induction breakAt? d₁ d₂ cs with
  | case1 => simp
  | case2 => simp [not_pair_infix_singleton]
  | case3 a b rest hab => simp [pair_infix_cons_cons, hab]
  | case4 a b rest hab ih => rw [Option.map_eq_none_iff, ih, pair_infix_cons_cons, or_iff_right hab]

theorem not_infix_of_breakAt? (h : breakAt? d₁ d₂ cs = some (before, after)) :
    ¬[d₁, d₂] <:+: before := by
  fun_induction breakAt? d₁ d₂ cs generalizing before with
  | case1 => cases h
  | case2 => cases h
  | case3 a b rest hab =>
    cases h
    simp
  | case4 a b rest hab ih =>
    obtain ⟨⟨u, v⟩, hu, huv⟩ := Option.map_eq_some_iff.1 h
    cases huv
    cases u with
    | nil => exact not_pair_infix_singleton
    | cons c u =>
      -- The next character is the one that was compared.
      have hcb : b = c := (List.cons.inj (append_of_breakAt? hu)).1
      rw [pair_infix_cons_cons, ← hcb]
      rintro (hac | hu')
      · exact hab hac
      · exact ih hu (hcb ▸ hu')

/-- A text is cut where the delimiter occurs first. -/
theorem breakAt?_append (hne : d₁ ≠ d₂) (h : ¬[d₁, d₂] <:+: before) (after : List Char) :
    breakAt? d₁ d₂ (before ++ d₁ :: d₂ :: after) = some (before, after) := by
  induction before with
  | nil => simp [breakAt?]
  | cons a before ih =>
    cases before with
    | nil =>
      have ha : ¬(a = d₁ ∧ d₁ = d₂) := fun ha => hne ha.2
      rw [List.singleton_append, breakAt?, if_neg ha, ← List.nil_append (d₁ :: d₂ :: after),
        ih (by simp)]
      rfl
    | cons b before =>
      rw [pair_infix_cons_cons, not_or] at h
      rw [List.cons_append, List.cons_append, breakAt?, if_neg h.1, ← List.cons_append, ih h.2]
      rfl

end

/-! ### Grammar -/

/-- A text without openers. -/
@[ext] structure PlainText where
  /-- The text. -/
  chars : List Char
  /-- No tag is opened in it. -/
  not_opened : ¬['<', '%'] <:+: chars

/-- What stands between an opener and a closer, together with the two. -/
def enclosed (body : List Char) : List Char := '<' :: '%' :: (body ++ ['%', '>'])

/-- A well-formed tag as it is written. -/
@[ext] structure Written where
  /-- Whether the value is escaped. -/
  escaped : Bool
  /-- What stands between the sign of the tag and its closer. -/
  body : List Char
  /-- The tag is not closed before its end. -/
  not_closed : ¬['%', '>'] <:+: body
  /-- There is something to look up. -/
  not_blank : ¬∀ c ∈ body, Text.isBlank c

namespace Written

/-- The sign that tells the kind of a tag. -/
def sign (g : Written) : Char := if g.escaped then '-' else '='

/-- The text of a tag. -/
def chars (g : Written) : List Char := enclosed (g.sign :: g.body)

/-- The path that a tag looks up. -/
def path (g : Written) : String := String.ofList (Text.trim g.body)

end Written

/-- A text divided into plain texts and the tags between them. -/
inductive Division
  /-- The plain text behind the last tag. -/
  | last (t : PlainText)
  /-- The plain text before the first tag, this tag, and what is behind it. -/
  | tag (t : PlainText) (g : Written) (d : Division)

namespace Division

/-- The text that is divided. -/
def chars : Division → List Char
  | last t => t.chars
  | tag t g d => t.chars ++ (g.chars ++ d.chars)

/-- The segments of a text that begins at byte `offset`. -/
def segments (offset : Nat) : Division → List Segment
  | last t => textSegment t.chars
  | tag t g d =>
    let span := Span.ofPiece (offset + byteLength t.chars) g.chars
    textSegment t.chars ++ .tag g.escaped g.path span :: d.segments span.stop

end Division

/-- What is wrong with an opener at byte `start` that begins no tag, when `rest`
    stands behind it. -/
inductive Malformed (start : Nat) (rest : List Char) : TagError → Prop
  /-- There is no closer. -/
  | unterminated : ¬['%', '>'] <:+: rest →
      Malformed start rest (.unterminated (.ofPiece start ('<' :: '%' :: rest)))
  /-- The body before the first closer has no sign. -/
  | unsupported {body after : List Char} : rest = body ++ '%' :: '>' :: after →
      ¬['%', '>'] <:+: body → body.head? ≠ some '=' → body.head? ≠ some '-' →
      Malformed start rest
        (.unsupported (String.ofList (enclosed body)) (.ofPiece start (enclosed body)))
  /-- Nothing but blanks stands behind the sign. -/
  | emptyExpression {sign : Char} {expression after : List Char} :
      rest = sign :: expression ++ '%' :: '>' :: after → ¬['%', '>'] <:+: sign :: expression →
      sign = '=' ∨ sign = '-' → (∀ c ∈ expression, Text.isBlank c) →
      Malformed start rest (.emptyExpression (.ofPiece start (enclosed (sign :: expression))))

/-! ### One tag -/

section

variable {t t' : PlainText} {g g' : Written} {body rest cs cs' : List Char}

theorem Written.not_closed_sign (g : Written) : ¬['%', '>'] <:+: g.sign :: g.body := by
  have hsign : g.sign ≠ '%' := by
    rw [Written.sign]
    split <;> decide
  rw [pair_infix_cons_of_ne hsign]
  exact g.not_closed

theorem enclosed_append (body cs : List Char) :
    enclosed body ++ cs = '<' :: '%' :: (body ++ '%' :: '>' :: cs) := by
  simp [enclosed]

theorem length_lt_enclosed (before body after : List Char) :
    after.length < (before ++ (enclosed body ++ after)).length := by
  rw [enclosed]
  simp only [List.length_append, List.length_cons]
  omega

/-- A text has no opener, or it is not closed behind the first one, or it is. -/
theorem plain_or_unclosed_or_enclosed (cs : List Char) :
    (∃ t : PlainText, cs = t.chars) ∨
    (∃ (t : PlainText) (rest : List Char), cs = t.chars ++ '<' :: '%' :: rest ∧
      ¬['%', '>'] <:+: rest) ∨
    ∃ (t : PlainText) (body after : List Char), cs = t.chars ++ (enclosed body ++ after) ∧
      ¬['%', '>'] <:+: body := by
  cases hopen : breakAt? '<' '%' cs with
  | none => exact .inl ⟨⟨cs, breakAt?_eq_none_iff.1 hopen⟩, rfl⟩
  | some cut =>
    obtain ⟨before, rest⟩ := cut
    let t : PlainText := ⟨before, not_infix_of_breakAt? hopen⟩
    have hcs : cs = t.chars ++ '<' :: '%' :: rest := append_of_breakAt? hopen
    cases hclose : breakAt? '%' '>' rest with
    | none => exact .inr (.inl ⟨t, rest, hcs, breakAt?_eq_none_iff.1 hclose⟩)
    | some cut =>
      obtain ⟨body, after⟩ := cut
      refine .inr (.inr ⟨t, body, after, ?_, not_infix_of_breakAt? hclose⟩)
      rw [hcs, enclosed_append, append_of_breakAt? hclose]

/-- A plain text does not go on behind an opener. -/
theorem PlainText.chars_ne (t t' : PlainText) (cs : List Char) :
    t.chars ≠ t'.chars ++ '<' :: '%' :: cs :=
  fun h => t.not_opened (h ▸ pair_infix_append t'.chars cs)

/-- The plain text before the first opener of a text is determined. -/
theorem eq_of_opened_eq (h : t.chars ++ '<' :: '%' :: cs = t'.chars ++ '<' :: '%' :: cs') :
    t = t' ∧ cs = cs' := by
  have hopen := breakAt?_append (by decide : '<' ≠ '%') t.not_opened cs
  rw [h, breakAt?_append (by decide) t'.not_opened, Option.some.injEq, Prod.mk.injEq] at hopen
  exact ⟨PlainText.ext hopen.1.symm, hopen.2.symm⟩

/-- The first plain text and the first tag of a text are determined. -/
theorem eq_of_tag_append_eq (h : t.chars ++ (g.chars ++ cs) = t'.chars ++ (g'.chars ++ cs')) :
    t = t' ∧ g = g' ∧ cs = cs' := by
  rw [Written.chars, Written.chars, enclosed_append, enclosed_append] at h
  obtain ⟨ht, hrest⟩ := eq_of_opened_eq h
  have hclose := breakAt?_append (by decide : '%' ≠ '>') g.not_closed_sign cs
  rw [hrest, breakAt?_append (by decide) g'.not_closed_sign, Option.some.injEq,
    Prod.mk.injEq, List.cons.injEq] at hclose
  obtain ⟨⟨hsign, hbody⟩, hcs⟩ := hclose
  have hinj : ∀ b b' : Bool, (if b then '-' else '=') = (if b' then '-' else '=') → b = b' := by
    decide
  exact ⟨ht, Written.ext (hinj _ _ hsign.symm) hbody.symm, hcs.symm⟩

theorem byteLength_opened (cs : List Char) : byteLength ('<' :: '%' :: cs) = 2 + byteLength cs := by
  have hopener : '<'.utf8Size + '%'.utf8Size = 2 := by decide
  rw [byteLength_cons, byteLength_cons, ← Nat.add_assoc, hopener]

theorem byteLength_enclosed (body : List Char) :
    byteLength (enclosed body) = 2 + byteLength body + 2 := by
  have hcloser : byteLength ['%', '>'] = 2 := by decide
  rw [enclosed, byteLength_opened, byteLength_append, hcloser, Nat.add_assoc]

theorem parseFrom_plain (offset : Nat) (t : PlainText) :
    parseFrom offset t.chars = .ok (textSegment t.chars) := by
  rw [parseFrom]
  split
  · rfl
  · next h =>
    rw [breakAt?_eq_none_iff.2 t.not_opened] at h
    cases h

theorem parseFrom_unclosed (offset : Nat) (t : PlainText) (h : ¬['%', '>'] <:+: rest) :
    parseFrom offset (t.chars ++ '<' :: '%' :: rest) =
      .error (.unterminated (.ofPiece (offset + byteLength t.chars) ('<' :: '%' :: rest))) := by
  have hopen := breakAt?_append (by decide : '<' ≠ '%') t.not_opened rest
  rw [parseFrom]
  split
  · next h' =>
    rw [hopen] at h'
    cases h'
  · next h' =>
    rw [hopen] at h'
    cases h'
    simp only
    split
    · rw [Span.ofPiece, byteLength_opened, Nat.add_assoc (offset + _)]
    · next hc =>
      rw [breakAt?_eq_none_iff.2 h] at hc
      cases hc

theorem parseFrom_enclosed (offset : Nat) (t : PlainText) (h : ¬['%', '>'] <:+: body)
    (cs : List Char) :
    parseFrom offset (t.chars ++ (enclosed body ++ cs)) =
      (ofBody body (.ofPiece (offset + byteLength t.chars) (enclosed body))).bind fun tag =>
        (parseFrom (offset + byteLength t.chars + byteLength (enclosed body)) cs).map
          fun segments => textSegment t.chars ++ tag :: segments := by
  have hopen := breakAt?_append (by decide : '<' ≠ '%') t.not_opened
    (body ++ '%' :: '>' :: cs)
  have hclose := breakAt?_append (by decide : '%' ≠ '>') h cs
  rw [enclosed_append, parseFrom]
  split
  · next h' =>
    rw [hopen] at h'
    cases h'
  · next h' =>
    rw [hopen] at h'
    cases h'
    simp only
    split
    · next hc =>
      rw [hclose] at hc
      cases hc
    · next hc =>
      rw [hclose] at hc
      cases hc
      have hstop : offset + byteLength t.chars + 2 + byteLength body + 2 =
          offset + byteLength t.chars + byteLength (enclosed body) := by
        rw [byteLength_enclosed]
        omega
      rw [hstop, ← Span.ofPiece]
      cases ofBody body (.ofPiece (offset + byteLength t.chars) (enclosed body)) with
      | error e => rfl
      | ok tag =>
        simp only [Except.bind]
        cases parseFrom (offset + byteLength t.chars + byteLength (enclosed body)) cs <;> rfl

theorem ofBody_written (g : Written) (span : Span) :
    ofBody (g.sign :: g.body) span = .ok (.tag g.escaped g.path span) := by
  obtain ⟨escaped, body, _, hblank⟩ := g
  rw [← Text.trim_eq_nil_iff] at hblank
  obtain ⟨c, path, hpath⟩ := List.exists_cons_of_ne_nil hblank
  cases escaped with
  | false => simp [ofBody, Written.sign, Written.path, hpath]
  | true => simp [ofBody, Written.sign, Written.path, hpath]

theorem ofBody_of_head? (h : body.head? ≠ some '=') (h' : body.head? ≠ some '-') (span : Span) :
    ofBody body span = .error (.unsupported (String.ofList (enclosed body)) span) := by
  rw [ofBody]
  · rfl
  · rintro expression rfl
    exact h rfl
  · rintro expression rfl
    exact h' rfl

theorem ofBody_blank {sign : Char} (hsign : sign = '=' ∨ sign = '-')
    (h : ∀ c ∈ body, Text.isBlank c) (span : Span) :
    ofBody (sign :: body) span = .error (.emptyExpression span) := by
  rw [← Text.trim_eq_nil_iff] at h
  rcases hsign with rfl | rfl
  · simp [ofBody, h]
  · simp [ofBody, h]

/-- A body without closers is that of a tag, or what is wrong with it is known. -/
theorem exists_written_or_malformed (hbody : ¬['%', '>'] <:+: body) (after : List Char) :
    (∃ g : Written, enclosed body = g.chars) ∨
      ∀ start, ∃ e, Malformed start (body ++ '%' :: '>' :: after) e := by
  by_cases hsign : body.head? ≠ some '=' ∧ body.head? ≠ some '-'
  · exact .inr fun start => ⟨_, .unsupported rfl hbody hsign.1 hsign.2⟩
  · obtain ⟨sign, expression, rfl⟩ : ∃ sign expression, body = sign :: expression := by
      cases body with
      | nil => exact absurd ⟨nofun, nofun⟩ hsign
      | cons sign expression => exact ⟨sign, expression, rfl⟩
    have hsign : sign = '=' ∨ sign = '-' := by
      simpa [Decidable.imp_iff_not_or, Decidable.not_not] using hsign
    by_cases hblank : ∀ c ∈ expression, Text.isBlank c
    · exact .inr fun start => ⟨_, .emptyExpression rfl hbody hsign hblank⟩
    · have hne : sign ≠ '%' := by
        rcases hsign with rfl | rfl
        · decide
        · decide
      refine .inl ⟨⟨sign == '-', expression, (pair_infix_cons_of_ne hne).not.1 hbody, hblank⟩, ?_⟩
      rcases hsign with rfl | rfl
      · simp [Written.chars, Written.sign]
      · simp [Written.chars, Written.sign]

/-- A malformed tag is never closed, or its body is refused. -/
theorem Malformed.unclosed_or_refused {start : Nat} {e : TagError}
    (h : Malformed start rest e) :
    (¬['%', '>'] <:+: rest ∧ e = .unterminated (.ofPiece start ('<' :: '%' :: rest))) ∨
    ∃ body after, rest = body ++ '%' :: '>' :: after ∧ ¬['%', '>'] <:+: body ∧
      ofBody body (.ofPiece start (enclosed body)) = .error e ∧
      e.span = .ofPiece start (enclosed body) := by
  cases h with
  | unterminated hc => exact .inl ⟨hc, rfl⟩
  | unsupported hrest hbody h₁ h₂ =>
    exact .inr ⟨_, _, hrest, hbody, ofBody_of_head? h₁ h₂ _, rfl⟩
  | emptyExpression hrest hbody hsign hblank =>
    exact .inr ⟨_, _, hrest, hbody, ofBody_blank hsign hblank _, rfl⟩

/-- What is malformed begins no tag. -/
theorem Malformed.ne_written {start : Nat} {e : TagError} (h : Malformed start rest e)
    (g : Written) (after : List Char) : '<' :: '%' :: rest ≠ g.chars ++ after := by
  intro heq
  have hrest : rest = (g.sign :: g.body) ++ '%' :: '>' :: after := by
    simpa [Written.chars, enclosed] using heq
  rcases h.unclosed_or_refused with ⟨hc, -⟩ | ⟨body, after', hrest', hbody, hrefused, -⟩
  · exact hc (hrest ▸ pair_infix_append _ _)
  · -- The body before the first closer is the same, but that of a tag is not refused.
    have hclose := breakAt?_append (by decide : '%' ≠ '>') g.not_closed_sign after
    rw [← hrest, hrest', breakAt?_append (by decide) hbody, Option.some.injEq,
      Prod.mk.injEq] at hclose
    rw [hclose.1, ofBody_written] at hrefused
    cases hrefused

end

/-! ### Whole texts -/

section

variable {rest : List Char} {start : Nat} {e : TagError}

/-- A text is divided in one way only. -/
theorem Division.eq_of_chars_eq {d d' : Division} (h : d.chars = d'.chars) : d = d' := by
  induction d generalizing d' with
  | last t =>
    cases d' with
    | last t' => rw [PlainText.ext h]
    | tag t' g' d' => exact absurd h (t.chars_ne t' _)
  | tag t g d ih =>
    cases d' with
    | last t' => exact absurd h.symm (t'.chars_ne t _)
    | tag t' g' d' =>
      obtain ⟨rfl, rfl, hd⟩ := eq_of_tag_append_eq h
      rw [ih hd]

theorem parseFrom_chars (d : Division) (offset : Nat) :
    parseFrom offset d.chars = .ok (d.segments offset) := by
  induction d generalizing offset with
  | last t => exact parseFrom_plain offset t
  | tag t g d ih =>
    rw [Division.chars, Written.chars, parseFrom_enclosed offset t g.not_closed_sign,
      ofBody_written, Except.bind, ← Written.chars, ih]
    rfl

/-- Behind a division, reading tells what is wrong with a malformed tag. -/
theorem parseFrom_malformed (d : Division) (offset : Nat)
    (h : Malformed (offset + byteLength d.chars) rest e) :
    parseFrom offset (d.chars ++ '<' :: '%' :: rest) = .error e := by
  induction d generalizing offset with
  | last t =>
    rcases h.unclosed_or_refused with ⟨hc, rfl⟩ | ⟨body, after, hrest, hbody, hrefused, -⟩
    · exact parseFrom_unclosed offset t hc
    · rw [Division.chars] at hrefused
      rw [hrest, ← enclosed_append, Division.chars, parseFrom_enclosed offset t hbody, hrefused]
      rfl
  | tag t g d ih =>
    rw [Division.chars, byteLength_append, byteLength_append, ← Nat.add_assoc,
      ← Nat.add_assoc] at h
    rw [Division.chars, Written.chars, List.append_assoc, List.append_assoc,
      parseFrom_enclosed offset t g.not_closed_sign, ofBody_written, Except.bind,
      ← Written.chars, ih _ h]
    rfl

/-- Every text can be divided, or has a first malformed tag. -/
theorem exists_division_or_malformed (cs : List Char) :
    (∃ d : Division, d.chars = cs) ∨
      ∃ (d : Division) (rest : List Char), cs = d.chars ++ '<' :: '%' :: rest ∧
        ∀ start, ∃ e, Malformed start rest e := by
  induction hn : cs.length using Nat.strong_induction_on generalizing cs with
  | h n ih =>
    rcases plain_or_unclosed_or_enclosed cs with
      ⟨t, rfl⟩ | ⟨t, rest, rfl, hc⟩ | ⟨t, body, after, rfl, hbody⟩
    · exact .inl ⟨.last t, rfl⟩
    · exact .inr ⟨.last t, rest, rfl, fun start => ⟨_, .unterminated hc⟩⟩
    rcases exists_written_or_malformed hbody after with ⟨g, hg⟩ | hm
    · have hlt := length_lt_enclosed t.chars body after
      rw [hg]
      rcases ih _ (hn ▸ hlt) after rfl with ⟨d, rfl⟩ | ⟨d, rest, rfl, hm⟩
      · exact .inl ⟨.tag t g d, rfl⟩
      · exact .inr ⟨.tag t g d, rest, by simp only [Division.chars, List.append_assoc], hm⟩
    · exact .inr ⟨.last t, _, by rw [enclosed_append, Division.chars], hm⟩

/-- No division leads up to an opener behind a malformed tag. -/
theorem Division.isPrefix_of_malformed {d d' : Division} {rest' : List Char}
    (hm : Malformed start rest e)
    (h : d.chars ++ '<' :: '%' :: rest = d'.chars ++ '<' :: '%' :: rest') :
    d'.chars <+: d.chars := by
  induction d generalizing d' with
  | last t =>
    cases d' with
    | last t' => rw [(eq_of_opened_eq h).1]
    | tag t' g' d' =>
      -- The malformed tag would be the tag that the other division has there.
      rw [Division.chars, Division.chars, List.append_assoc, List.append_assoc,
        Written.chars, enclosed_append] at h
      have hrest := (eq_of_opened_eq h).2
      refine absurd ?_ (hm.ne_written g' (d'.chars ++ '<' :: '%' :: rest'))
      rw [hrest, Written.chars, enclosed_append]
  | tag t g d ih =>
    cases d' with
    | last t' =>
      rw [Division.chars, Division.chars, List.append_assoc, List.append_assoc,
        Written.chars, enclosed_append] at h
      rw [← (eq_of_opened_eq h).1]
      exact List.prefix_append _ _
    | tag t' g' d' =>
      rw [Division.chars, Division.chars, List.append_assoc, List.append_assoc,
        List.append_assoc, List.append_assoc] at h
      obtain ⟨rfl, rfl, hd⟩ := eq_of_tag_append_eq h
      rw [Division.chars, Division.chars, List.prefix_append_right_inj,
        List.prefix_append_right_inj]
      exact ih hd

/-- The texts that can be read are those that can be divided. -/
theorem parse_eq_ok_iff {text : String} {segments : List Segment} :
    parse text = .ok segments ↔
      ∃ d : Division, d.chars = text.toList ∧ segments = d.segments 0 := by
  constructor
  · intro h
    rcases exists_division_or_malformed text.toList with ⟨d, hd⟩ | ⟨d, rest, hd, hm⟩
    · rw [parse, ← hd, parseFrom_chars, Except.ok.injEq] at h
      exact ⟨d, hd, h.symm⟩
    · obtain ⟨e, he⟩ := hm (0 + byteLength d.chars)
      rw [parse, hd, parseFrom_malformed d 0 he] at h
      cases h
  · rintro ⟨d, hd, rfl⟩
    rw [parse, ← hd, parseFrom_chars]

/-- Reading fails at the first malformed tag. -/
theorem parse_eq_error_iff {text : String} :
    parse text = .error e ↔
      ∃ (d : Division) (rest : List Char), text.toList = d.chars ++ '<' :: '%' :: rest ∧
        Malformed (byteLength d.chars) rest e := by
  constructor
  · intro h
    rcases exists_division_or_malformed text.toList with ⟨d, hd⟩ | ⟨d, rest, hd, hm⟩
    · rw [parse, ← hd, parseFrom_chars] at h
      cases h
    · obtain ⟨e', he'⟩ := hm (byteLength d.chars)
      rw [parse, hd, parseFrom_malformed d 0 (by rwa [Nat.zero_add]), Except.error.injEq] at h
      exact ⟨d, rest, hd, h ▸ he'⟩
  · rintro ⟨d, rest, hd, hm⟩
    rw [parse, hd, parseFrom_malformed d 0 (by rwa [Nat.zero_add])]

end

end Stencil.Tag
