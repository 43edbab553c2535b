import Stencil.Section.Basic

/-!
# Expansion

The placeholders of a layout are replaced by their sections, whose own
placeholders are replaced before, and so on. An expansion is a walk through the
sections in the order of first mention, during which every section is
materialised at most once: its expanded text is kept and used again for every
other reference (`State.settled`). A section that is met again while it is being
unfolded refers back to itself, and the walk ends with the names that lead
around the circle.

A placeholder without a section is no error. All such names of a text are
recovered, with a warning, as empty sections before the first section of this
text is looked at (`State.recover`); the table with the recovered sections is
part of the result.

Generators may answer anything at all, even names never seen before, so neither
the table nor a text is a measure for the walk. But a recovered section is empty
and leads nowhere, and no section is unfolded inside itself: so the walk is
never deeper than the number of sections it was given, plus one, and this is the
depth to which `expand` goes down. An expansion given that depth does not end
with `Failure.tooDeep`.

What happened on the way is told beside the result (`Outcome`): the warnings,
what was materialised with which text, and the world that the generators left
behind. All of this is there also when the expansion failed.
-/

namespace Stencil.Section

/-- Why a layout cannot be expanded. -/
inductive Failure
  /-- A section refers back to itself, along the given names: the first is also
      the last. -/
  | circular (chain : List Name)
  /-- The walk went deeper than it was allowed to. -/
  | tooDeep
  deriving DecidableEq

/-- What a failure is called. -/
def Failure.message : Failure → String
  | .circular chain =>
    "circular section reference detected: " ++ String.intercalate " -> " (chain.map Name.text)
  | .tooDeep => "sections are nested too deeply"

/-- An expansion on its way. -/
structure State (γ σ : Type) where
  /-- The sections known so far: those given, then those recovered. -/
  working : Table γ
  /-- The expanded texts of the sections that are done with. -/
  settled : OrderedMap Name String
  /-- The sections being unfolded, the innermost last. -/
  unfolding : List Name
  /-- The names recovered, in order. -/
  missing : List Name
  /-- The names of every warning, in order. -/
  warnings : List (List Name)
  /-- The sections materialised, in order, with the texts they gave. -/
  trace : List (Name × String)
  /-- The world of the generators. -/
  world : σ

namespace State

variable {γ σ : Type}

/-- The state before the first section is looked at. -/
def start (sections : Table γ) (world : σ) : State γ σ where
  working := sections
  settled := ∅
  unfolding := []
  missing := []
  warnings := []
  trace := []
  world := world

/-- The names among `names` that have no section. -/
def unknown (s : State γ σ) (names : List Name) : List Name :=
  names.filter fun n => !s.working.contains n

/-- The state with the unknown ones among some distinct names recovered as empty
    sections, in order, and one warning if there are any. -/
def recover (s : State γ σ) (names : List Name) : State γ σ :=
  match s.unknown names with
  | [] => s
  | n :: ns =>
    { s with
      working := s.working.insertMany ((n :: ns).map fun m => (m, Content.empty))
      missing := s.missing ++ n :: ns
      warnings := s.warnings ++ [n :: ns] }

/-- The state in which the section `n` is begun, and its text. -/
def enter (run : γ → σ → String × σ) (n : Name) (s : State γ σ) : String × State γ σ :=
  let content := (s.working.get? n).getD Content.empty
  let (text, world) := content.materialize run s.world
  (text,
    { s with
      unfolding := s.unfolding ++ [n]
      trace := s.trace ++ [(n, text)]
      world := world })

/-- The state in which the innermost section is done with. -/
def leave (s : State γ σ) : State γ σ := { s with unfolding := s.unfolding.dropLast }

/-- The state in which the section `n` has the expanded text `text`. -/
def settle (n : Name) (text : String) (s : State γ σ) : State γ σ :=
  { s with settled := s.settled.insert n text }

/-- The names from `n`, which is being unfolded, down to `n` again. -/
def chain (s : State γ σ) (n : Name) : List Name :=
  s.unfolding.dropWhile (fun m => decide (m ≠ n)) ++ [n]

end State

section

variable {γ σ : Type}

/-- A step of the walk: it ends with a value or a failure, and in a state. -/
abbrev Walk (γ σ α : Type) := State γ σ → Except Failure α × State γ σ

/-- Visits some sections in turn, up to the first failure, and lists their
    expanded texts. -/
def visitAll (visit : Name → Walk γ σ String) : List Name → Walk γ σ (List (Name × String))
  | [], s => (.ok [], s)
  | n :: ns, s =>
    match visit n s with
    | (.error e, s) => (.error e, s)
    | (.ok text, s) =>
      match visitAll visit ns s with
      | (.error e, s) => (.error e, s)
      | (.ok rest, s) => (.ok ((n, text) :: rest), s)

/-- Expands a text, `visit` giving the expanded texts of the sections it refers
    to. -/
def expandWith (visit : Name → Walk γ σ String) (text : String) : Walk γ σ String := fun s =>
  match Placeholder.references text with
  | [] => (.ok text, s)
  | n :: ns =>
    match visitAll visit (n :: ns) (s.recover (n :: ns)) with
    | (.error e, s) => (.error e, s)
    | (.ok values, s) =>
      (.ok (Placeholder.substitute (fun m => OrderedMap.find m values) text), s)

/-- The expanded text of a section, at most `depth` sections down. -/
def visit (run : γ → σ → String × σ) : (depth : Nat) → Name → Walk γ σ String
  | 0, _, s => (.error .tooDeep, s)
  | depth + 1, n, s =>
    match s.settled.get? n with
    | some text => (.ok text, s)
    | none =>
      if n ∈ s.unfolding then (.error (.circular (s.chain n)), s)
      else
        let (text, s) := s.enter run n
        match expandWith (visit run depth) text s with
        | (.error e, s) => (.error e, s.leave)
        | (.ok expanded, s) => (.ok expanded, s.leave.settle n expanded)

/-- Expands a text, going at most `depth` sections down. -/
def expand (run : γ → σ → String × σ) (depth : Nat) (text : String) : Walk γ σ String :=
  expandWith (visit run depth) text

/-- A layout whose placeholders have all been replaced. -/
structure Expanded (γ : Type) where
  /-- The text. -/
  text : String
  /-- The names that had no section and were replaced by nothing. -/
  missing : List Name
  /-- The sections given, followed by empty ones under the missing names. -/
  sections : Table γ

/-- How an expansion ended, and what happened on the way. -/
structure Outcome (γ σ : Type) where
  /-- The expanded layout, or why there is none. -/
  result : Except Failure (Expanded γ)
  /-- The names of every warning, in order: one for each expanded text that had
      unknown names. -/
  warnings : List (List Name)
  /-- The sections materialised, in order, with the texts they gave. -/
  trace : List (Name × String)
  /-- The world that the generators left behind. -/
  world : σ

/-- How far down the walk through a table can lead. -/
def depthBound (sections : Table γ) : Nat := sections.size + 1

/-- Expands a layout with the given sections, `run` telling what generators
    do. -/
def resolve (run : γ → σ → String × σ) (layout : Content γ) (sections : Table γ) (world : σ) :
    Outcome γ σ :=
  let (text, world) := layout.materialize run world
  let (result, s) := expand run (depthBound sections) text (.start sections world)
  { result := result.map fun text => ⟨text, s.missing, s.working⟩
    warnings := s.warnings
    trace := s.trace
    world := s.world }

end

end Stencil.Section
