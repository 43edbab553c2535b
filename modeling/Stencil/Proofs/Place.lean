import Stencil.Proofs.Division

/-!
# Places of segments

A tag remembers where it stands (`Segment.span?`). Cut out of the text at these
places, the tags of a text and its plain texts between them make up the whole text
again (`Division.exists_sources`); every place covers its tag and no part of a
character (`Division.isPlaceIn`), and the places follow one another
(`Division.pairwise_places`).

So a text can be read exactly if it can be divided, and then its segments are those
of its one division, and nothing is lost (`parse_iff_division`).
-/

namespace Stencil.Tag

/-- The place of a segment, if it is a tag. -/
def Segment.span? : Segment → Option Span
  | .text _ => none
  | .tag _ _ span => some span

/-- The places of the tags among some segments, in order. -/
def places (segments : List Segment) : List Span := segments.filterMap Segment.span?

/-- What a segment stands for in a text: a plain text for itself, a tag for what is
    in its place. -/
def Segment.source? (text : String) : Segment → Option String
  | .text cs => some (String.ofList cs)
  | .tag _ _ span => slice? text span

section

variable {text : String} {before after : List Char} {offset : Nat}

theorem places_textSegment (cs : List Char) : places (textSegment cs) = [] := by
  rw [textSegment]
  split <;> rfl

@[simp] theorem places_segments_last (t : PlainText) :
    places ((Division.last t).segments offset) = [] :=
  places_textSegment t.chars

@[simp] theorem places_segments_tag (t : PlainText) (g : Written) (d : Division) :
    places ((Division.tag t g d).segments offset) =
      .ofPiece (offset + byteLength t.chars) g.chars ::
        places (d.segments (offset + byteLength t.chars + byteLength g.chars)) := by
  rw [Division.segments, places, List.filterMap_append, ← places, places_textSegment]
  rfl

/-- No tag stands before the text does. -/
theorem Division.le_start (d : Division) : ∀ s ∈ places (d.segments offset), offset ≤ s.start := by
  induction d generalizing offset with
  | last t => simp
  | tag t g d ih =>
    intro s hs
    rw [places_segments_tag, List.mem_cons] at hs
    rcases hs with rfl | hs
    · exact Nat.le_add_right _ _
    · have := ih s hs
      omega

/-- Every tag stands behind those before it. -/
theorem Division.pairwise_places (d : Division) :
    (places (d.segments offset)).Pairwise fun s s' => s.stop ≤ s'.start := by
  induction d generalizing offset with
  | last t => simp
  | tag t g d ih =>
    rw [places_segments_tag, List.pairwise_cons]
    exact ⟨d.le_start, ih⟩

theorem Written.chars_ne_nil (g : Written) : g.chars ≠ [] := List.cons_ne_nil _ _

/-- Where the first tag of a division stands in a text, and what is behind it. -/
theorem Division.eq_append_of_tag {t : PlainText} {g : Written} {d : Division}
    (h : text.toList = before ++ ((Division.tag t g d).chars ++ after)) :
    text.toList = before ++ t.chars ++ (g.chars ++ (d.chars ++ after)) ∧
      text.toList = before ++ t.chars ++ g.chars ++ (d.chars ++ after) := by
  rw [h, Division.chars]
  simp only [List.append_assoc, and_self]

/-- The places of tags are places in the text. -/
theorem Division.isPlaceIn (d : Division) (h : text.toList = before ++ (d.chars ++ after)) :
    ∀ s ∈ places (d.segments (byteLength before)), s.IsPlaceIn text := by
  induction d generalizing before with
  | last t => simp
  | tag t g d ih =>
    obtain ⟨htag, hbehind⟩ := Division.eq_append_of_tag h
    rw [places_segments_tag, ← byteLength_append, ← byteLength_append, List.forall_mem_cons]
    exact ⟨isPlaceIn_ofPiece htag g.chars_ne_nil, ih hbehind⟩

theorem exists_sources_textSegment (text : String) (cs : List Char) :
    ∃ pieces : List String,
      (textSegment cs).map (Segment.source? text) = pieces.map some ∧
        pieces.flatMap String.toList = cs := by
  rw [textSegment]
  split
  · next h => exact ⟨[], rfl, h.symm⟩
  · exact ⟨[.ofList cs], rfl, by simp⟩

/-- What the segments stand for makes up the text that is divided. -/
theorem Division.exists_sources (d : Division) (h : text.toList = before ++ (d.chars ++ after)) :
    ∃ pieces : List String,
      (d.segments (byteLength before)).map (Segment.source? text) = pieces.map some ∧
        pieces.flatMap String.toList = d.chars := by
  induction d generalizing before with
  | last t => exact exists_sources_textSegment text t.chars
  | tag t g d ih =>
    obtain ⟨htag, hbehind⟩ := Division.eq_append_of_tag h
    obtain ⟨ps, hps, hflat⟩ := exists_sources_textSegment text t.chars
    obtain ⟨qs, hqs, hflat'⟩ := ih hbehind
    refine ⟨ps ++ .ofList g.chars :: qs, ?_, ?_⟩
    · rw [Division.segments, List.map_append, List.map_cons, hps, Segment.source?,
        ← byteLength_append, slice?_ofPiece htag, Span.stop_ofPiece, ← byteLength_append, hqs,
        List.map_append, List.map_cons]
    · rw [List.flatMap_append, List.flatMap_cons, hflat, hflat', String.toList_ofList,
        Division.chars]

end

/-- A text can be read exactly if it can be divided into plain texts and tags. There
    is one division then, and its plain texts that are not empty and its tags are the
    segments, in order. What they stand for makes up the text again, and the places
    of the tags follow one another. -/
theorem parse_iff_division (text : String) :
    ((∃ segments, parse text = .ok segments) ↔ ∃ d : Division, d.chars = text.toList) ∧
    (∀ d d' : Division, d.chars = text.toList → d'.chars = text.toList → d = d') ∧
    (∀ d : Division, d.chars = text.toList → parse text = .ok (d.segments 0)) ∧
    ∀ segments, parse text = .ok segments →
      (∃ pieces : List String,
        segments.map (Segment.source? text) = pieces.map some ∧ String.join pieces = text) ∧
      (places segments).Pairwise (fun s s' => s.stop ≤ s'.start) ∧
      ∀ s ∈ places segments, s.start < s.stop := by
  refine ⟨⟨?_, ?_⟩, ?_, ?_, ?_⟩
  · rintro ⟨segments, h⟩
    obtain ⟨d, hd, -⟩ := parse_eq_ok_iff.1 h
    exact ⟨d, hd⟩
  · rintro ⟨d, hd⟩
    exact ⟨_, parse_eq_ok_iff.2 ⟨d, hd, rfl⟩⟩
  · exact fun d d' hd hd' => Division.eq_of_chars_eq (hd.trans hd'.symm)
  · exact fun d hd => parse_eq_ok_iff.2 ⟨d, hd, rfl⟩
  · intro segments h
    obtain ⟨d, hd, rfl⟩ := parse_eq_ok_iff.1 h
    have htext : text.toList = [] ++ (d.chars ++ []) := by simp [hd]
    obtain ⟨pieces, hpieces, hflat⟩ := d.exists_sources htext
    refine ⟨⟨pieces, hpieces, ?_⟩, d.pairwise_places, fun s hs => ?_⟩
    · rw [String.join_eq, ← List.flatMap_def, hflat, hd, String.ofList_toList]
    · exact (d.isPlaceIn htext s hs).start_lt_stop

example : parse "é<%= ñ %>%>" =
    .ok [.text ['é'], .tag false "ñ" ⟨2, 11⟩, .text ['%', '>']] := by
  decide +kernel

end Stencil.Tag
