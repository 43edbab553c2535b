import Stencil.Proofs.Joining

/-!
# Escaped tags

A tag `<%- path %>` puts in the text that `<%= path %>` puts in, escaped
(`interpolate_escaping`), whatever stands around it. In escaped text no character of
markup is left, and a sign `&` always begins one of the five entities; decoded in one pass
from left to right, it is the text that was escaped (`Escapes`).

An entity is put in for one character, and has one sign only, which is its first character
(`entity_eq_append_sign`). So the entities of an escaped text can be told apart, also where
the text that was escaped held entities or pieces of them.
-/

namespace Stencil.Tag

/-- The characters of markup that have no place in escaped text. -/
def markup : List Char := ['<', '>', '"', '\'']

/-- The texts that stand for characters in escaped text. -/
def entities : List (List Char) :=
  ["&amp;", "&lt;", "&gt;", "&quot;", "&#39;"].map String.toList

/-- What escaped text is, and for which text it stands. -/
structure Escapes (inserted shown : List Char) : Prop where
  /-- No character of markup is left. -/
  not_mem : ∀ m ∈ markup, m ∉ inserted
  /-- A sign begins an entity. -/
  entity_of_sign : ∀ before after, inserted = before ++ '&' :: after →
    ∃ e ∈ entities, e <+: '&' :: after
  /-- Decoded in one pass, it is the text for which it stands. -/
  unescape_eq : unescape inserted = shown

/-- A text, escaped. -/
def escapeText (text : String) : String := String.ofList (escape text.toList)

/-! ### Entities -/

variable {c m : Char} {before after : List Char}

theorem entity_of_not_mem (h : c ∉ '&' :: markup) : entity c = [c] := by
  simp only [markup, List.mem_cons, List.not_mem_nil, or_false, not_or] at h
  rw [entity, if_neg h.1, if_neg h.2.1, if_neg h.2.2.1, if_neg h.2.2.2.1, if_neg h.2.2.2.2]

theorem entity_mem_entities (h : c ∈ '&' :: markup) : entity c ∈ entities := by
  have hall : ('&' :: markup).all (entity · ∈ entities) := by decide +kernel
  exact of_decide_eq_true (List.all_eq_true.1 hall c h)

theorem not_mem_of_mem_entities {e : List Char} (he : e ∈ entities) (hm : m ∈ markup) : m ∉ e := by
  have hall : entities.all fun e => markup.all (· ∉ e) := by decide +kernel
  exact of_decide_eq_true (List.all_eq_true.1 (List.all_eq_true.1 hall e he) m hm)

theorem sign_not_mem_tail {e : List Char} (he : e ∈ entities) : '&' ∉ e.tail := by
  have hall : entities.all ('&' ∉ ·.tail) := by decide +kernel
  exact of_decide_eq_true (List.all_eq_true.1 hall e he)

theorem not_mem_entity (hm : m ∈ markup) (c : Char) : m ∉ entity c := by
  by_cases h : c ∈ '&' :: markup
  · exact not_mem_of_mem_entities (entity_mem_entities h) hm
  · rw [entity_of_not_mem h, List.mem_singleton]
    rintro rfl
    exact h (List.mem_cons_of_mem _ hm)

/-- A sign is the first character of an entity. -/
theorem entity_eq_append_sign (h : entity c = before ++ '&' :: after) :
    before = [] ∧ entity c ∈ entities := by
  by_cases hc : c ∈ '&' :: markup
  · have hentity := entity_mem_entities hc
    refine ⟨?_, hentity⟩
    cases before with
    | nil => rfl
    | cons b before =>
      have htail := sign_not_mem_tail hentity
      rw [h] at htail
      exact absurd (List.mem_append_right _ List.mem_cons_self) htail
  · have hmem : '&' ∈ entity c := h ▸ List.mem_append_right _ List.mem_cons_self
    rw [entity_of_not_mem hc, List.mem_singleton] at hmem
    exact absurd (hmem ▸ List.mem_cons_self) hc

/-! ### Escaped text -/

theorem not_mem_escape (hm : m ∈ markup) (cs : List Char) : m ∉ escape cs := by
  intro hmem
  obtain ⟨c, -, hc⟩ := List.mem_flatMap.1 hmem
  exact not_mem_entity hm c hc

theorem exists_entity_of_escape {cs : List Char} (h : escape cs = before ++ '&' :: after) :
    ∃ e ∈ entities, e <+: '&' :: after := by
  induction cs generalizing before with
  | nil => exact absurd h (by simp [escape])
  | cons c cs ih =>
    rw [escape, List.flatMap_cons, ← escape] at h
    rcases List.append_eq_append_iff.1 h with ⟨more, -, hmore⟩ | ⟨more, hmore, hafter⟩
    · exact ih hmore
    · cases more with
      | nil =>
        have hfirst : escape cs = [] ++ '&' :: after := hafter.symm
        exact ih hfirst
      | cons sign more =>
        obtain rfl : '&' = sign := (List.cons.inj hafter).1
        obtain ⟨rfl, hentity⟩ := entity_eq_append_sign hmore
        exact ⟨entity c, hentity, escape cs, by rw [hafter, hmore]; rfl⟩

theorem escapes_escape (cs : List Char) : Escapes (escape cs) cs where
  not_mem _ hm := not_mem_escape hm cs
  entity_of_sign _ _ := exists_entity_of_escape
  unescape_eq := unescape_escape cs

/-! ### Tags -/

/-- A tag as a text. -/
def Written.text (g : Written) : String := String.ofList g.chars

/-- The tag of the given kind that is written like another one. -/
def Written.withEscaped (g : Written) (escaped : Bool) : Written := { g with escaped := escaped }

theorem Written.parse_text (g : Written) :
    parse g.text = .ok [.tag g.escaped g.path (.ofPiece 0 g.chars)] := by
  let t : PlainText := ⟨[], by simp⟩
  have hd : (Division.tag t g (.last t)).chars = g.text.toList := by
    simp [Division.chars, text, t]
  exact parse_eq_ok_iff.2 ⟨.tag t g (.last t), hd, rfl⟩

/-- Both kinds of tags put in the same value, the one escaped. -/
theorem Segment.fill_escaped (c : Context) (path : String) (span : Span) :
    (Segment.tag true path span).fill c = ((Segment.tag false path span).fill c).map escape := by
  rw [fill, fill]
  cases lookup c path span <;> rfl

/-- The signs of both kinds of tags take one byte. -/
theorem Written.ofPiece_withEscaped (g : Written) (start : Nat) :
    Span.ofPiece start (g.withEscaped true).chars =
      Span.ofPiece start (g.withEscaped false).chars := by
  have hsign : '-'.utf8Size = '='.utf8Size := by decide
  show Span.ofPiece start (enclosed ('-' :: g.body)) = Span.ofPiece start (enclosed ('=' :: g.body))
  rw [Span.ofPiece, Span.ofPiece, byteLength_enclosed, byteLength_enclosed, byteLength_cons,
    byteLength_cons, hsign]

theorem Written.interpolate_text (g : Written) (c : Context) :
    interpolate g.text c =
      ((Segment.tag g.escaped g.path (.ofPiece 0 g.chars)).fill c).map String.ofList := by
  rw [interpolate_eq_bind, g.parse_text]
  show (fillAll c [.tag g.escaped g.path (.ofPiece 0 g.chars)]).map String.ofList = _
  rw [fillAll, fillAll]
  cases (Segment.tag g.escaped g.path (.ofPiece 0 g.chars)).fill c with
  | error e => rfl
  | ok cs => exact congrArg (fun cs => Except.ok (String.ofList cs)) (List.append_nil cs)

/-- A tag is a text by itself, in front of which no opener is parted. -/
theorem Written.not_opensAcross (g : Written) (front : List Char) :
    ¬OpensAcross front g.text.toList := by
  rintro ⟨-, hhead⟩
  rw [text, String.toList_ofList] at hhead
  cases hhead

/-- Behind a tag no opener is parted. -/
theorem Written.not_opensAcross_append (g : Written) (front : String) (back : List Char) :
    ¬OpensAcross (front ++ g.text).toList back := by
  have hclosed : g.chars = '<' :: '%' :: g.sign :: (g.body ++ ['%']) ++ ['>'] := by
    simp [chars, enclosed]
  rintro ⟨hlast, -⟩
  rw [String.toList_append, text, String.toList_ofList, hclosed, ← List.append_assoc,
    List.getLast?_concat] at hlast
  cases hlast

/-- An escaped tag puts in what the other one puts in, escaped, and fails as it does. -/
theorem Written.interpolate_withEscaped (g : Written) (c : Context) :
    interpolate (g.withEscaped true).text c =
      (interpolate (g.withEscaped false).text c).map escapeText := by
  rw [interpolate_text, interpolate_text, ofPiece_withEscaped]
  show ((Segment.tag true g.path _).fill c).map String.ofList =
    (((Segment.tag false g.path _).fill c).map String.ofList).map escapeText
  rw [Segment.fill_escaped]
  cases (Segment.tag false g.path (.ofPiece 0 (g.withEscaped false).chars)).fill c with
  | error e => rfl
  | ok cs => simp [Except.map, escapeText]

/-- A tag puts in the same whatever stands around it, if it is read as a tag. -/
theorem Written.interpolate_around (g : Written) (c : Context) {front back out : String}
    (h : check front = .ok ()) :
    interpolate (front ++ g.text ++ back) c = .ok out ↔
      ∃ x inserted y, interpolate front c = .ok x ∧ interpolate g.text c = .ok inserted ∧
        interpolate back c = .ok y ∧ out = x ++ inserted ++ y := by
  have htag : check g.text = .ok () := check_eq_ok_iff.2 ⟨_, g.parse_text⟩
  have hfront : check (front ++ g.text) = .ok () := by
    rw [check_append h (g.not_opensAcross _), htag]
    rfl
  rw [interpolate_append_eq_ok_iff hfront (g.not_opensAcross_append front _)]
  constructor
  · rintro ⟨x', y, hx', hy, rfl⟩
    obtain ⟨x, inserted, hx, hinserted, rfl⟩ :=
      (interpolate_append_eq_ok_iff h (g.not_opensAcross _) c).1 hx'
    exact ⟨x, inserted, y, hx, hinserted, hy, rfl⟩
  · rintro ⟨x, inserted, y, hx, hinserted, hy, rfl⟩
    exact ⟨x ++ inserted, y, (interpolate_append_eq_ok_iff h (g.not_opensAcross _) c).2
      ⟨x, inserted, hx, hinserted, rfl⟩, hy, rfl⟩

/-- An escaped tag puts in what the other one puts in for the same context, escaped; and it
    does so in every text in which it is read as a tag. Whatever is escaped has no character
    of markup left, each sign in it begins an entity, and decoded it is what it was. So
    escaping tells texts apart, and can be done piece by piece. -/
theorem interpolate_escaping (g : Written) (c : Context) :
    interpolate (g.withEscaped true).text c =
      (interpolate (g.withEscaped false).text c).map escapeText ∧
    (∀ front back out, check front = .ok () →
      (interpolate (front ++ (g.withEscaped true).text ++ back) c = .ok out ↔
        ∃ x inserted y, interpolate front c = .ok x ∧
          interpolate (g.withEscaped true).text c = .ok inserted ∧
          interpolate back c = .ok y ∧ out = x ++ inserted ++ y)) ∧
    (∀ cs, Escapes (escape cs) cs) ∧
    Function.Injective escape ∧
    ∀ cs ds, escape (cs ++ ds) = escape cs ++ escape ds :=
  ⟨g.interpolate_withEscaped c, fun _ _ _ h => (g.withEscaped true).interpolate_around c h,
    escapes_escape, Function.LeftInverse.injective unescape_escape, escape_append⟩

/-- An entity in a value comes out as a text that shows it. -/
theorem interpolate_escaping_entity :
    let g : Written := ⟨false, ['x'], by decide, fun h => absurd (h 'x' (by simp)) (by decide)⟩
    let c : Context := ⟨[("x", .string "&lt;")]⟩
    check "é" = .ok () ∧
      interpolate ("é" ++ (g.withEscaped true).text ++ "<") c = .ok "é&amp;lt;<" := by
  intro g c
  have hfront : check "é" = .ok () := by decide +kernel
  refine ⟨hfront, ((interpolate_escaping g c).2.1 "é" "<" _ hfront).2
    ⟨"é", "&amp;lt;", "<", ?_, ?_, ?_, by decide +kernel⟩⟩
  · decide +kernel
  · decide +kernel
  · decide +kernel

-- Pieces of entities, and an entity that was there already, come back as they were.
example : escape "&#3&lt;'&".toList = "&amp;#3&amp;lt;&#39;&amp;".toList ∧
    unescape "&amp;#3&amp;lt;&#39;&amp;".toList = "&#3&lt;'&".toList := by
  decide +kernel

end Stencil.Tag
