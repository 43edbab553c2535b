import Stencil.Proofs.Division
import Stencil.Tag.Filling

/-!
# Filled texts

What filling gives is told by the tags of a text and the context alone. The path of
a tag begins with its root, which is the part of it before the first point. A tag is
*defined* in a context if its root is a name of the context
(`Segment.Defined`), whatever lies at the path; what it shows is the value at the
path, and nothing where there is none (`Segment.shown`). All that lies at a path lies
below what the root names (`Context.getPath?_eq`).

If all tags are defined, segments are filled with what they show, one after the
other; else the first tag that is not defined is the error (`Filled`). Filling does
just that (`fillAll_eq_iff`), and it comes after reading: a text that cannot be read
fails the same way in every context (`interpolate_of_check`).
-/

namespace Stencil

/-- The names of a context, in order. -/
def Context.keys (c : Context) : List String := c.fields.map Prod.fst

theorem Context.mem_keys_iff {c : Context} {key : String} :
    key ∈ c.keys ↔ (c.get? key).isSome := by
  rw [Context.keys, Context.get?]
  induction c.fields with
  | nil => simp
  | cons f fs ih =>
    by_cases h : f.1 = key
    · simp [Json.Fields.get?, h]
    · simp [Json.Fields.get?, h, ih, Ne.symm h]

/-- The first part of a text that is split at separators is what stands before the first
    of them. -/
theorem segments_eq_cons (sep : Char) (cs : List Char) :
    segments sep cs = cs.takeWhile (· ≠ sep) :: (segments sep cs).tail := by
  induction cs with
  | nil => rfl
  | cons c cs ih =>
    by_cases hc : c = sep
    · simp [segments, hc]
    · rw [segments, if_neg hc, ih]
      simp [hc]

/-- The root of a path is the first of its segments. -/
theorem pathSegments_eq_cons (path : String) :
    pathSegments path = pathRoot path :: (pathSegments path).tail := by
  rw [pathSegments, segments_eq_cons]
  rfl

/-- What lies at a path lies below what its root names. -/
theorem Context.getPath?_eq (c : Context) (path : String) :
    c.getPath? path = (c.get? (pathRoot path)).bind (·.follow (pathSegments path).tail) := by
  rw [getPath?, pathSegments, segments_eq_cons]
  rfl

namespace Tag

/-- The name with which the path of a segment begins, if the segment is a tag. -/
def Segment.root? : Segment → Option String
  | .text _ => none
  | .tag _ path _ => some (pathRoot path)

/-- A segment that is no tag, or one whose root is a name of the context. -/
def Segment.Defined (c : Context) (s : Segment) : Prop := ∀ root ∈ s.root?, root ∈ c.keys

/-- What a defined segment shows: a plain text itself, and a tag the value at its
    path, or nothing where there is none. -/
def Segment.shown (c : Context) : Segment → List Char
  | .text cs => cs
  | .tag escaped path _ =>
    match c.getPath? path with
    | none => []
    | some v => if escaped then escape (display v).toList else (display v).toList

/-- The error `e` is that the first tag which is not defined has no value. -/
def FirstUndefined (c : Context) (segments : List Segment) (e : TagError) : Prop :=
  ∃ before escaped path span after, segments = before ++ .tag escaped path span :: after ∧
    (∀ s ∈ before, s.Defined c) ∧ pathRoot path ∉ c.keys ∧ e = .undefined (pathRoot path) span

/-- What some segments are filled with: what they show, one after the other, if they
    are all defined, and else the error of the first one that is not. -/
inductive Filled (c : Context) (segments : List Segment) : Except TagError String → Prop
  | shown : (∀ s ∈ segments, s.Defined c) →
      Filled c segments (.ok (String.ofList (segments.flatMap (Segment.shown c))))
  | undefined {e : TagError} : FirstUndefined c segments e → Filled c segments (.error e)

section

variable {c : Context} {s : Segment} {segments : List Segment} {r : Except TagError String}
  {text : String} {e : TagError}

theorem Segment.fill_of_defined (h : s.Defined c) : s.fill c = .ok (s.shown c) := by
  cases s with
  | text cs => rfl
  | tag escaped path span =>
    obtain ⟨v, hv⟩ := Option.isSome_iff_exists.1 (Context.mem_keys_iff.1 (h _ rfl))
    rw [Segment.fill, lookup, hv, Segment.shown]
    cases c.getPath? path with
    | none => cases escaped <;> rfl
    | some w => cases escaped <;> rfl

theorem Segment.fill_of_not_mem {escaped : Bool} {path : String} {span : Span}
    (h : pathRoot path ∉ c.keys) :
    (Segment.tag escaped path span).fill c = .error (.undefined (pathRoot path) span) := by
  rw [Context.mem_keys_iff, Option.not_isSome_iff_eq_none] at h
  rw [Segment.fill, lookup, h]
  rfl

/-- Defined segments are filled with what they show, and filling goes on behind
    them. -/
theorem fillAll_append {before : List Segment} (h : ∀ s ∈ before, s.Defined c)
    (segments : List Segment) :
    fillAll c (before ++ segments) =
      (fillAll c segments).map fun cs => before.flatMap (Segment.shown c) ++ cs := by
  induction before with
  | nil => cases hr : fillAll c segments <;> simp [hr, Except.map]
  | cons s before ih =>
    rw [List.forall_mem_cons] at h
    rw [List.cons_append, fillAll, Segment.fill_of_defined h.1, ih h.2]
    cases fillAll c segments with
    | error e => rfl
    | ok cs => simp [bind, Except.bind, pure, Except.pure, Except.map]

theorem fillAll_of_filled (h : Filled c segments r) :
    (fillAll c segments).map String.ofList = r := by
  cases h with
  | shown h =>
    have hfill := fillAll_append h []
    rw [List.append_nil] at hfill
    rw [hfill, fillAll, Except.map, Except.map, List.append_nil]
  | undefined h =>
    obtain ⟨before, escaped, path, span, after, rfl, hbefore, hpath, rfl⟩ := h
    rw [fillAll_append hbefore, fillAll, Segment.fill_of_not_mem hpath]
    rfl

/-- All segments are defined, or there is a first one that is not. -/
theorem forall_defined_or_exists_firstUndefined (c : Context) (segments : List Segment) :
    (∀ s ∈ segments, s.Defined c) ∨ ∃ e, FirstUndefined c segments e := by
  induction segments with
  | nil => exact .inl (by simp)
  | cons s segments ih =>
    by_cases hs : s.Defined c
    · rcases ih with h | ⟨e, before, escaped, path, span, after, rfl, hbefore, h⟩
      · exact .inl (List.forall_mem_cons.2 ⟨hs, h⟩)
      · exact .inr ⟨e, s :: before, escaped, path, span, after, rfl,
          List.forall_mem_cons.2 ⟨hs, hbefore⟩, h⟩
    · cases s with
      | text cs => exact absurd nofun hs
      | tag escaped path span =>
        refine .inr ⟨_, [], escaped, path, span, segments, rfl, by simp, fun hroot => hs ?_, rfl⟩
        rintro root ⟨⟩
        exact hroot

/-- Filling gives what the segments are filled with, and nothing else. -/
theorem fillAll_eq_iff : (fillAll c segments).map String.ofList = r ↔ Filled c segments r := by
  refine ⟨?_, fillAll_of_filled⟩
  rintro rfl
  rcases forall_defined_or_exists_firstUndefined c segments with h | ⟨e, h⟩
  · rw [fillAll_of_filled (.shown h)]
    exact .shown h
  · rw [fillAll_of_filled (.undefined h)]
    exact .undefined h

/-- A text is read, and then its segments are filled. -/
theorem interpolate_eq_bind (text : String) (c : Context) :
    interpolate text c = (parse text).bind fun segments =>
      (fillAll c segments).map String.ofList := by
  rw [interpolate]
  cases parse text with
  | error e => rfl
  | ok segments =>
    show (fillAll c segments >>= fun cs => pure (String.ofList cs)) =
      (fillAll c segments).map String.ofList
    cases fillAll c segments <;> rfl

/-- A text that cannot be read fails in the same way in every context. -/
theorem interpolate_of_parse_eq_error (h : parse text = .error e) (c : Context) :
    interpolate text c = .error e := by
  rw [interpolate_eq_bind, h]
  rfl

/-- A text that can be read is filled as its segments are. -/
theorem interpolate_eq_iff (h : parse text = .ok segments) :
    interpolate text c = r ↔ Filled c segments r := by
  rw [← fillAll_eq_iff, interpolate_eq_bind, h]
  rfl

theorem check_eq_error_iff : check text = .error e ↔ parse text = .error e := by
  rw [check]
  cases parse text <;> simp [Except.map]

theorem check_eq_ok_iff : check text = .ok () ↔ ∃ segments, parse text = .ok segments := by
  rw [check]
  cases parse text <;> simp [Except.map]

end

/-- A text that fails the check fails in the same way in every context. Of a text
    that passes it, the tags of its division decide: it is filled exactly if all of
    them are defined, and with what they show; else the first one that is not is the
    error. A tag whose root is there shows nothing where nothing lies at its path below
    what the root names. -/
theorem interpolate_of_check (text : String) :
    (∀ e, check text = .error e → ∀ c, interpolate text c = .error e) ∧
    (check text = .ok () → ∃ d : Division, d.chars = text.toList ∧ ∀ c,
      ((∃ out, interpolate text c = .ok out) ↔ ∀ s ∈ d.segments 0, s.Defined c) ∧
      (∀ out, interpolate text c = .ok out →
        out = String.ofList ((d.segments 0).flatMap (Segment.shown c))) ∧
      ∀ e, interpolate text c = .error e ↔ FirstUndefined c (d.segments 0) e) ∧
    ∀ c escaped path span v, c.get? (pathRoot path) = some v →
      v.follow (pathSegments path).tail = none →
      (Segment.tag escaped path span).fill c = .ok [] := by
  refine ⟨fun e h c => ?_, fun h => ?_, fun c escaped path span v hv hnone => ?_⟩
  · exact interpolate_of_parse_eq_error (check_eq_error_iff.1 h) c
  · obtain ⟨segments, hparse⟩ := check_eq_ok_iff.1 h
    obtain ⟨d, hd, rfl⟩ := parse_eq_ok_iff.1 hparse
    refine ⟨d, hd, fun c => ⟨⟨?_, fun hdef => ?_⟩, fun out hout => ?_, fun e => ⟨fun he => ?_, ?_⟩⟩⟩
    · rintro ⟨out, hout⟩
      cases (interpolate_eq_iff hparse).1 hout with
      | shown hdef => exact hdef
    · exact ⟨_, (interpolate_eq_iff hparse).2 (.shown hdef)⟩
    · cases (interpolate_eq_iff hparse).1 hout with
      | shown => rfl
    · cases (interpolate_eq_iff hparse).1 he with
      | undefined hfirst => exact hfirst
    · exact fun hfirst => (interpolate_eq_iff hparse).2 (.undefined hfirst)
  · have hdef : (Segment.tag escaped path span).Defined c := by
      rintro root ⟨⟩
      exact Context.mem_keys_iff.2 (by rw [hv]; rfl)
    rw [Segment.fill_of_defined hdef, Segment.shown, Context.getPath?_eq, hv, Option.bind_some,
      hnone]

end Tag

end Stencil
