import Stencil.Proofs.Filling
import Stencil.Template.Rendering

/-!
# Layers of data

The data of a rendering are three layers: what a template tells about itself
(`Template.ownData`), what its hook computes from that and from nothing else
(`Template.Prepares`), and the external value, if it is an object. A path leads into the
highest layer that has its root, and into no other (`renderContext_layers`): where it leads
nowhere there, it leads nowhere at all, whatever the layers below have at the same path.

An object has no name twice (`Json.Fields.Distinct`). So a field that is put on top of
others is found there alone (`Json.Fields.get?_merge`), and what lies at a path in merged
fields lies there in one of the two layers (`Context.getPath?_merge`).
-/

namespace Stencil

/-! ### Objects -/

namespace Json

/-- No name comes twice in some fields. -/
def Fields.Distinct (fs : Fields) : Prop := (fs.map Prod.fst).Nodup

/-- Whether a value is an object with a field of the given name. -/
def hasField (key : String) : Json → Bool
  | object fs => Fields.contains key fs
  | _ => false

/-- The value at a path in a value, all of its segments followed. -/
def at? (path : String) (v : Json) : Option Json := v.follow (pathSegments path)

variable {upper lower : Fields}

/-- A field of the upper layer hides the one below it. -/
theorem Fields.get?_merge (h : upper.Distinct) (k : String) (lower : Fields) :
    get? k (merge lower upper) = (get? k upper).or (get? k lower) := by
  induction upper generalizing lower with
  | nil => rfl
  | cons f upper ih =>
    rw [Distinct, List.map_cons, List.nodup_cons] at h
    rw [merge, List.foldl_cons, ← merge, ih h.2, get?]
    by_cases hk : f.1 = k
    · have hnone : get? k upper = none := by
        rw [← Option.not_isSome_iff_eq_none, ← hk]
        exact (Context.mem_keys_iff (c := ⟨upper⟩)).not.1 h.1
      rw [if_pos hk, hnone, hk, get?_insert_self]
      rfl
    · rw [if_neg hk, get?_insert_of_ne (Ne.symm hk)]

end Json

theorem Json.at?_object (path : String) (fs : Json.Fields) :
    (Json.object fs).at? path =
      (Json.Fields.get? (pathRoot path) fs).bind (·.follow (pathSegments path).tail) := by
  rw [at?, pathSegments_eq_cons]
  rfl

namespace Context

/-- A context is the object of its fields. -/
theorem getPath?_eq_at? (c : Context) (path : String) :
    c.getPath? path = (Json.object c.fields).at? path := by
  rw [getPath?_eq, Json.at?_object]
  rfl

/-- A path leads into the upper layer if that has its root, and else into the lower one. -/
theorem getPath?_merge (c : Context) {upper : Json.Fields} (h : upper.Distinct) (path : String) :
    (c.merge upper).getPath? path =
      if (Json.object upper).hasField (pathRoot path) then (Json.object upper).at? path
      else c.getPath? path := by
  rw [getPath?_eq, get?, merge, Json.Fields.get?_merge h, getPath?_eq, Json.at?_object,
    Json.hasField, Json.Fields.contains]
  cases Json.Fields.get? (pathRoot path) upper <;> rfl

end Context

/-! ### Templates -/

namespace Template

variable {σ : Type}

/-- What a template tells about itself: its data source, its id, the number of the
    rendering and its options. -/
def ownFields (t : Template σ) (h : Hub σ) : Json.Fields :=
  [(Context.dataSourceKey, (t.source.map (Source.read h)).getD .null),
    (Context.domIdKey, .string t.id),
    (Context.drawKey, if 0 < t.draws then .ofNat t.draws else .null),
    (Context.optionKey, .object t.options)]

/-- The fields that are computed for a rendering, and the hub afterwards: there are none
    without a hook, and a hook is given what the template tells about itself. -/
inductive Prepares (t : Template σ) (h : Hub σ) : Json.Fields → Hub σ → Prop
  | none : t.prepare = none → Prepares t h [] h
  | hook {prepare : Preparation σ} {fields : Json.Fields} {client : σ} :
      t.prepare = some prepare →
      prepare (t.view h) ⟨t.ownFields h⟩ h.client = (fields, client) →
      Prepares t h fields { h with client := client }

theorem baseContext_eq (t : Template σ) (h : Hub σ) : t.baseContext h = ⟨t.ownFields h⟩ := by
  have hsource : ((t.snapshot? h).map Snapshot.value).getD .null =
      (t.source.map (Source.read h)).getD .null := by
    rw [snapshot?]
    cases t.source <;> rfl
  have hdraw : (t.currentDraw?.map Json.ofNat).getD .null =
      if 0 < t.draws then .ofNat t.draws else .null := by
    rw [currentDraw?]
    split <;> rfl
  rw [baseContext, hsource, hdraw, ownFields]
  rfl

theorem prepares_preparedFields (t : Template σ) (h : Hub σ) :
    t.Prepares h (t.preparedFields h).1 (t.preparedFields h).2 := by
  rw [preparedFields]
  cases hp : t.prepare with
  | none => exact .none hp
  | some prepare => exact .hook hp (by rw [baseContext_eq])

theorem renderContext_fst (t : Template σ) (external : Option Json) (h : Hub σ) :
    (t.renderContext external h).1 =
      withExternal ((t.baseContext h).merge (t.preparedFields h).1) external := rfl

/-- Data that are no object change nothing. -/
theorem withExternal_of_fields?_eq_none {v : Json} (hv : v.fields? = none) (c : Context) :
    withExternal c (some v) = c := by
  rw [withExternal, Context.mergeValue, hv]

/-- External data are put on top of what is there if they are an object. -/
theorem getPath?_withExternal (c : Context) {external : Option Json}
    (h : ∀ fs, external = some (.object fs) → Json.Fields.Distinct fs) (path : String) :
    (withExternal c external).getPath? path =
      if (external.getD .null).hasField (pathRoot path) then (external.getD .null).at? path
      else c.getPath? path := by
  cases external with
  | none => rfl
  | some v =>
    cases v with
    | object fs => exact c.getPath?_merge (h fs rfl) path
    | _ => rfl

/-- The hook of a template computes its fields from what the template tells about itself,
    the same for all external data, and data that are no object change nothing. A path leads
    into the external value if that is an object with its root, else into the computed fields
    if they have it, and else into what the template tells about itself. -/
theorem renderContext_layers (t : Template σ) (h : Hub σ) :
    ∃ fields h', t.Prepares h fields h' ∧
      (∀ external, (t.renderContext external h).2 = h') ∧
      (∀ v : Json, v.fields? = none → t.renderContext (some v) h = t.renderContext none h) ∧
      ∀ external, fields.Distinct →
        (∀ fs, external = some (.object fs) → Json.Fields.Distinct fs) →
        ∀ path, (t.renderContext external h).1.getPath? path =
          if (external.getD .null).hasField (pathRoot path) then (external.getD .null).at? path
          else if (Json.object fields).hasField (pathRoot path) then (Json.object fields).at? path
          else (Json.object (t.ownFields h)).at? path := by
  refine ⟨_, _, t.prepares_preparedFields h, fun _ => rfl, fun v hv => ?_,
    fun external hfields hexternal path => ?_⟩
  · exact Prod.ext (withExternal_of_fields?_eq_none hv _) rfl
  · rw [renderContext_fst, getPath?_withExternal _ hexternal, Context.getPath?_merge _ hfields,
      Context.getPath?_eq_at? (t.baseContext h), baseContext_eq]

/-- Options are hidden by a field of their name that is computed, also where it has less in it,
    and that field is hidden by one of the external value. -/
theorem renderContext_layers_hidden :
    let prepare : Preparation Unit := fun _ _ client => ([("option", .object [])], client)
    let t : Template Unit := { (Draft.blank Unit).build 1 ⟨0⟩ with
      options := [("title", .string "x")], prepare := some prepare }
    let shown (external : Option Json) :=
      ((t.renderContext external (.start ())).1.getPath? "option.title").map Tag.display
    shown none = none ∧
      shown (some (.object [("option", .object [("title", .string "y")])])) = some "y" := by
  intro prepare t shown
  obtain ⟨fields, h', hfields, -, -, hpath⟩ := renderContext_layers t (.start ())
  cases hfields with
  | none hnone => cases hnone
  | hook hprepare hrun =>
    obtain rfl := Option.some.inj hprepare
    obtain rfl := congrArg Prod.fst hrun
    have hdistinct (v : Json) : Json.Fields.Distinct [("option", v)] := List.nodup_cons.2 (by simp)
    let external : Json := .object [("option", .object [("title", .string "y")])]
    have hexternal : ∀ fs, some external = some (.object fs) → Json.Fields.Distinct fs := by
      intro fs hfs
      rw [← Json.object.inj (Option.some.inj hfs)]
      exact hdistinct _
    have hbelow := hpath none (hdistinct _) nofun "option.title"
    have habove := hpath (some external) (hdistinct _) hexternal "option.title"
    exact ⟨(congrArg (Option.map Tag.display) hbelow).trans (by decide +kernel),
      (congrArg (Option.map Tag.display) habove).trans (by decide +kernel)⟩

end Template

end Stencil
