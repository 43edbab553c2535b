import Stencil.Proofs.OrderedMap
import Stencil.Proofs.Snapshot
import Stencil.Template.Redraw

/-!
# Redraws are atomic

A redraw changes a template, a document and a hub, and it can end in four ways: the document has
no element of the template, the rendering fails, the document refuses the markup, or it takes it.
Whichever it is, the document has the new markup if and only if the redraw says so, and what is
announced is what the way it ends calls for.

A rendering comes before all that, and what it leaves of a hub is everything but the state of the
client (`Template.hub_render`), so it announces nothing. An announcement calls those who hear it
when it begins (`Template.Announces`), and the hook of the template answers with a reaction, which
runs (`Template.RunsHook`). Neither need come to an end, as handlers may announce events again, and
then the redraw does not; how deep deliveries may nest at most is otherwise of no account.

* `Hub.emit_of_le`, `Template.redraw_of_le`: deliveries that nest deeper change nothing;
* `Template.redraw_atomic`: how a redraw ends.
-/

namespace Stencil

variable {σ δ : Type}

/-! ### How deep deliveries nest -/

namespace Hub

variable {deliver deliver' : Deliver σ} {event : Event} {h : Hub σ}

/-- A way to deliver events that does what another one does, wherever that one comes to an end. -/
def Deliver.Extends (deliver deliver' : Deliver σ) : Prop :=
  ∀ source event h r, deliver source event h = some r → deliver' source event h = some r

theorem Deliver.Extends.setWith (hd : Deliver.Extends deliver deliver') {store : EmitterId}
    {key : String} {value : Json} {r : List Delivery × Hub σ}
    (hrun : Hub.setWith deliver store key value h = some r) :
    Hub.setWith deliver' store key value h = some r := by
  rw [Hub.setWith] at hrun ⊢
  split at hrun
  · next hstore =>
    obtain ⟨⟨d, h'⟩, hdeliver, rfl⟩ := Option.map_eq_some_iff.1 hrun
    rw [if_pos hstore, hd _ _ _ _ hdeliver]
    rfl
  · next hstore => rw [if_neg hstore, hrun]

theorem Deliver.Extends.perform (hd : Deliver.Extends deliver deliver') {reaction : Reaction σ}
    {r : List Delivery × Hub σ} (hrun : Hub.perform deliver reaction h = some r) :
    Hub.perform deliver' reaction h = some r := by
  induction reaction generalizing h r with
  | done => exact hrun
  | change f next ih => exact ih hrun
  | consult next ih => exact ih _ hrun
  | inspect store next ih => exact ih _ hrun
  | emit target event next ih =>
    obtain ⟨⟨d, h₁⟩, hdeliver, hrun⟩ := Option.bind_eq_some_iff.1 hrun
    obtain ⟨⟨ds, h₂⟩, hrest, heq⟩ := Option.bind_eq_some_iff.1 hrun
    exact Option.bind_eq_some_iff.2
      ⟨_, hd _ _ _ _ hdeliver, Option.bind_eq_some_iff.2 ⟨_, ih _ hrest, heq⟩⟩
  | listen target filter handler next _ ih => exact ih _ hrun
  | cancel target id next ih => exact ih _ hrun
  | set store key value next ih =>
    obtain ⟨⟨ds, h₁⟩, hset, hrun⟩ := Option.bind_eq_some_iff.1 hrun
    obtain ⟨⟨es, h₂⟩, hrest, heq⟩ := Option.bind_eq_some_iff.1 hrun
    exact Option.bind_eq_some_iff.2
      ⟨_, hd.setWith hset, Option.bind_eq_some_iff.2 ⟨_, ih hrest, heq⟩⟩

theorem Deliver.Extends.invoke (hd : Deliver.Extends deliver deliver') {handler : Handler σ}
    {r : List Delivery × Hub σ} (hrun : Hub.invoke deliver event handler h = some r) :
    Hub.invoke deliver' event handler h = some r := by
  cases handler with
  | react reaction => exact hd.perform hrun
  | forward target =>
    obtain ⟨⟨d, h'⟩, hdeliver, rfl⟩ := Option.map_eq_some_iff.1 hrun
    rw [Hub.invoke, hd _ _ _ _ hdeliver]
    rfl

theorem Deliver.Extends.invokeAll (hd : Deliver.Extends deliver deliver') {ls : List (Listener σ)}
    {r : List (ListenerId × List Delivery) × Hub σ}
    (hrun : Hub.invokeAll deliver event ls h = some r) :
    Hub.invokeAll deliver' event ls h = some r := by
  induction ls generalizing h r with
  | nil => exact hrun
  | cons l ls ih =>
    obtain ⟨⟨ds, h₁⟩, hcall, hrun⟩ := Option.bind_eq_some_iff.1 hrun
    obtain ⟨⟨calls, h₂⟩, hrest, heq⟩ := Option.bind_eq_some_iff.1 hrun
    exact Option.bind_eq_some_iff.2
      ⟨_, hd.invoke hcall, Option.bind_eq_some_iff.2 ⟨_, ih hrest, heq⟩⟩

/-- An announcement that comes to an end does the same where deliveries may nest deeper. -/
theorem emit_of_le {depth depth' : Nat} (hle : depth ≤ depth') :
    Deliver.Extends (emit depth : Deliver σ) (emit depth') := by
  induction depth generalizing depth' with
  | zero => exact fun _ _ _ _ hrun => nomatch hrun
  | succ depth ih =>
    obtain ⟨depth', rfl⟩ := Nat.exists_eq_add_of_lt hle
    intro source event h r hrun
    obtain ⟨⟨calls, h'⟩, hcalls, heq⟩ := Option.bind_eq_some_iff.1 hrun
    exact Option.bind_eq_some_iff.2 ⟨_, (ih (Nat.le_add_right _ _)).invokeAll hcalls, heq⟩

end Hub

/-! ### What a page shows -/

namespace Page

variable {p : Page} {id : String}

/-- A page takes all markup for an element it has: the element shows it, the others show what
    they did, and all stay where they are. -/
theorem exists_replace? (h : (Document.element? p id).isSome = true) (text : String) :
    ∃ q : Page, Document.replace? p id text = some q ∧ q.elements.keys = p.elements.keys ∧
      ∀ id', Document.element? q id' = if id' = id then some text else Document.element? p id' := by
  have hreplace : Document.replace? p id text = some (p.mount id text) := if_pos h
  have hkeys : (p.mount id text).elements.keys = p.elements.keys := by
    rw [mount, OrderedMap.keys_insert, if_pos ((OrderedMap.mem_keys_iff _ _).2 h)]
  exact ⟨_, hreplace, hkeys, element?_replace? hreplace⟩

end Page

/-! ### Renderings and redraws -/

namespace Template

variable {depth : Nat} {t : Template σ} {event : Event} {h h' : Hub σ} {d : Delivery}
  {more : List Delivery}

/-- A rendering changes the state of the client and nothing else of a hub. -/
theorem hub_render (t : Template σ) (external : Option Json) (h : Hub σ) :
    (t.render external h).hub = { h with client := (t.render external h).hub.client } := by
  have hprepared : ∃ client, (t.countDraw.preparedFields h).2 = { h with client := client } := by
    rw [preparedFields]
    cases t.countDraw.prepare with
    | none => exact ⟨h.client, rfl⟩
    | some prepare => exact ⟨_, rfl⟩
  obtain ⟨client, hclient⟩ := hprepared
  simp only [render, renderContext, hclient]

/-- How a template announces an event: those who hear it on the emitter of the template when the
    announcement begins are called one after the other, and nobody else is. -/
structure Announces (depth : Nat) (t : Template σ) (event : Event) (h : Hub σ) (d : Delivery)
    (h' : Hub σ) : Prop where
  emit : h.emit depth t.emitter event = some (d, h')
  heard : ∃ calls, d = .mk t.emitter event calls ∧
    calls.map Prod.fst = ((h.emitter t.emitter).hearing event.name).map (·.id)

theorem announces_iff :
    t.Announces depth event h d h' ↔ h.emit depth t.emitter event = some (d, h') := by
  refine ⟨Announces.emit, fun hrun => ⟨hrun, ?_⟩⟩
  cases depth with
  | zero => cases hrun
  | succ depth =>
    obtain ⟨⟨calls, h₁⟩, hcalls, heq⟩ := Option.bind_eq_some_iff.1 hrun
    cases heq
    exact ⟨calls, rfl, Hub.map_fst_invokeAll hcalls⟩

/-- How the hook of a template runs: it is shown the template as it is, and the reaction that it
    answers runs to its end. Where there is no hook, nothing happens. -/
structure RunsHook (depth : Nat) (t : Template σ) (h : Hub σ) (more : List Delivery)
    (h' : Hub σ) : Prop where
  unhooked : t.rendered = none → more = [] ∧ h' = h
  hooked : ∀ hook, t.rendered = some hook → h.react depth (hook (t.view h)) = some (more, h')

theorem runsHook_iff :
    t.RunsHook depth h more h' ↔ t.runRendered depth h = some (more, h') := by
  rw [runRendered]
  cases hhook : t.rendered with
  | none =>
    refine ⟨fun hrun => ?_, fun heq => ⟨fun _ => ?_, fun hook hnone => ?_⟩⟩
    · obtain ⟨rfl, rfl⟩ := hrun.unhooked hhook
      rfl
    · cases heq
      exact ⟨rfl, rfl⟩
    · cases hhook.symm.trans hnone
  | some hook =>
    refine ⟨fun hrun => hrun.hooked hook hhook, fun heq => ⟨fun hnone => ?_, fun hook' hsome => ?_⟩⟩
    · cases hhook.symm.trans hnone
    · cases hhook.symm.trans hsome
      exact heq

/-- A hook that comes to an end does the same where deliveries may nest deeper. -/
theorem RunsHook.of_le {depth' : Nat} (hle : depth ≤ depth') (hrun : t.RunsHook depth h more h') :
    t.RunsHook depth' h more h' :=
  ⟨hrun.unhooked, fun hook hhook => (Hub.emit_of_le hle).perform (hrun.hooked hook hhook)⟩

section

variable [Document δ] {document document' : δ} {external : Option Json} {r : Redrawing σ δ}
  {text : String}

theorem redraw_of_absent (h : Hub σ) (habsent : Document.element? document t.id = none) :
    t.redraw depth document external h = some ⟨.ok false, [], [], t, document, h⟩ := by
  rw [redraw, Document.contains, habsent]
  rfl

theorem redraw_of_error {e : RenderError}
    (hpresent : (Document.element? document t.id).isSome = true)
    (herror : (t.render external h).result = .error e) :
    t.redraw depth document external h =
      some ⟨.error e, [], (t.render external h).warnings, t.countDraw, document,
        (t.render external h).hub⟩ := by
  rw [redraw, Document.contains, if_pos hpresent]
  dsimp only
  rw [herror]
  rfl

/-- A redraw that has a text goes on to announce it. -/
theorem redraw_of_ok (hpresent : (Document.element? document t.id).isSome = true)
    (hok : (t.render external h).result = .ok text) :
    t.redraw depth document external h =
      ((t.render external h).hub.emit depth t.emitter redrawEvent).bind fun (begun, h₁) =>
        match Document.replace? document t.id text with
        | none =>
          some ⟨.ok false, [begun], (t.render external h).warnings, t.countDraw, document, h₁⟩
        | some document' =>
          (h₁.emit depth t.emitter (drawnEvent text)).bind fun (ended, h₂) =>
            (t.countDraw.runRendered depth h₂).bind fun (more, h₃) =>
              some ⟨.ok true, begun :: ended :: more, (t.render external h).warnings, t.countDraw,
                document', h₃⟩ := by
  rw [redraw, Document.contains, if_pos hpresent]
  dsimp only
  rw [hok]
  rfl

theorem redraw_eq_some_iff_of_refused
    (hpresent : (Document.element? document t.id).isSome = true)
    (hok : (t.render external h).result = .ok text)
    (hrefused : Document.replace? document t.id text = none) :
    t.redraw depth document external h = some r ↔
      ∃ begun h₁, t.Announces depth redrawEvent (t.render external h).hub begun h₁ ∧
        r = ⟨.ok false, [begun], (t.render external h).warnings, t.countDraw, document, h₁⟩ := by
  rw [redraw_of_ok hpresent hok, hrefused, Option.bind_eq_some_iff, Prod.exists]
  refine exists₂_congr fun begun h₁ => ?_
  rw [announces_iff]
  exact and_congr_right fun _ => Option.some_inj.trans eq_comm

theorem redraw_eq_some_iff_of_taken
    (hpresent : (Document.element? document t.id).isSome = true)
    (hok : (t.render external h).result = .ok text)
    (htaken : Document.replace? document t.id text = some document') :
    t.redraw depth document external h = some r ↔
      ∃ begun h₁ ended h₂ more h₃,
        t.Announces depth redrawEvent (t.render external h).hub begun h₁ ∧
        t.Announces depth (drawnEvent text) h₁ ended h₂ ∧
        t.countDraw.RunsHook depth h₂ more h₃ ∧
        r = ⟨.ok true, begun :: ended :: more, (t.render external h).warnings, t.countDraw,
          document', h₃⟩ := by
  rw [redraw_of_ok hpresent hok, htaken]
  constructor
  · intro hrun
    obtain ⟨⟨begun, h₁⟩, hbegun, hrun⟩ := Option.bind_eq_some_iff.1 hrun
    obtain ⟨⟨ended, h₂⟩, hended, hrun⟩ := Option.bind_eq_some_iff.1 hrun
    obtain ⟨⟨more, h₃⟩, hmore, heq⟩ := Option.bind_eq_some_iff.1 hrun
    exact ⟨begun, h₁, ended, h₂, more, h₃, announces_iff.2 hbegun, announces_iff.2 hended,
      runsHook_iff.2 hmore, (Option.some.inj heq).symm⟩
  · rintro ⟨begun, h₁, ended, h₂, more, h₃, hbegun, hended, hmore, rfl⟩
    exact Option.bind_eq_some_iff.2 ⟨_, hbegun.emit, Option.bind_eq_some_iff.2
      ⟨_, hended.emit, Option.bind_eq_some_iff.2 ⟨_, runsHook_iff.1 hmore, rfl⟩⟩⟩

/-- A redraw that comes to an end does the same where deliveries may nest deeper. -/
theorem redraw_of_le {depth' : Nat} (hle : depth ≤ depth')
    (hrun : t.redraw depth document external h = some r) :
    t.redraw depth' document external h = some r := by
  have hemit {event : Event} {h h' : Hub σ} {d : Delivery} (ha : t.Announces depth event h d h') :
      t.Announces depth' event h d h' :=
    announces_iff.2 (Hub.emit_of_le hle _ _ _ _ ha.emit)
  cases hpresent : Document.element? document t.id with
  | none => rwa [redraw_of_absent h hpresent] at hrun ⊢
  | some markup =>
    have hpresent := Option.isSome_of_eq_some hpresent
    cases hresult : (t.render external h).result with
    | error e => rwa [redraw_of_error hpresent hresult] at hrun ⊢
    | ok text =>
      cases hreplace : Document.replace? document t.id text with
      | none =>
        obtain ⟨begun, h₁, hbegun, rfl⟩ :=
          (redraw_eq_some_iff_of_refused hpresent hresult hreplace).1 hrun
        exact (redraw_eq_some_iff_of_refused hpresent hresult hreplace).2
          ⟨begun, h₁, hemit hbegun, rfl⟩
      | some document' =>
        obtain ⟨begun, h₁, ended, h₂, more, h₃, hbegun, hended, hmore, rfl⟩ :=
          (redraw_eq_some_iff_of_taken hpresent hresult hreplace).1 hrun
        exact (redraw_eq_some_iff_of_taken hpresent hresult hreplace).2
          ⟨begun, h₁, ended, h₂, more, h₃, hemit hbegun, hemit hended, hmore.of_le hle, rfl⟩

end

/-- Without an element of the template, a redraw does nothing. With one, the template has one more
    draw afterwards and is the same otherwise, and the rendering decides first: if it fails, that
    is the error, and the state of the client is all that changes. Where there is a text but the
    document refuses it, `re-draw` was announced. Where the document takes it, `re-draw` was
    announced, then `drawn` with the text, and then the hook ran, if there is one, on what these
    announcements left. A page takes every text and shows it in this element alone. -/
theorem redraw_atomic (depth : Nat) (t : Template σ) (external : Option Json) (h : Hub σ) :
    let rendering := t.render external h
    let drawn : Template σ := { t with draws := t.draws + 1 }
    rendering.hub = { h with client := rendering.hub.client } ∧
    (∀ {δ : Type} [Document δ] (document : δ),
      (Document.element? document t.id = none →
        t.redraw depth document external h = some ⟨.ok false, [], [], t, document, h⟩) ∧
      ((Document.element? document t.id).isSome = true →
        (∀ e, rendering.result = .error e →
          t.redraw depth document external h =
            some ⟨.error e, [], rendering.warnings, drawn, document, rendering.hub⟩) ∧
        (∀ text, rendering.result = .ok text → Document.replace? document t.id text = none →
          ∀ r, t.redraw depth document external h = some r ↔
            ∃ begun h₁, t.Announces depth ⟨"re-draw", none⟩ rendering.hub begun h₁ ∧
              r = ⟨.ok false, [begun], rendering.warnings, drawn, document, h₁⟩) ∧
        (∀ text document', rendering.result = .ok text →
          Document.replace? document t.id text = some document' →
          ∀ r, t.redraw depth document external h = some r ↔
            ∃ begun h₁ ended h₂ more h₃,
              t.Announces depth ⟨"re-draw", none⟩ rendering.hub begun h₁ ∧
              t.Announces depth ⟨"drawn", some (.string text)⟩ h₁ ended h₂ ∧
              drawn.RunsHook depth h₂ more h₃ ∧
              r = ⟨.ok true, begun :: ended :: more, rendering.warnings, drawn, document',
                h₃⟩))) ∧
    ∀ page : Page, (Document.element? page t.id).isSome = true → ∀ text,
      ∃ page' : Page, Document.replace? page t.id text = some page' ∧
        page'.elements.keys = page.elements.keys ∧
        ∀ id, Document.element? page' id =
          if id = t.id then some text else Document.element? page id := by
  refine ⟨hub_render t external h, fun document => ⟨redraw_of_absent h, fun hpresent => ?_⟩,
    fun page => Page.exists_replace?⟩
  exact ⟨fun e => redraw_of_error hpresent,
    fun text hok hrefused r => redraw_eq_some_iff_of_refused hpresent hok hrefused,
    fun text document' hok htaken r => redraw_eq_some_iff_of_taken hpresent hok htaken⟩

/-- A template that shows a salutation, with a hook that keeps its id and announces that it is
    mounted. -/
def salutation : Template (List String) :=
  { { Draft.blank (List String) with layout := .literal "Hi" }.build 1 ⟨0⟩ with
    rendered := some fun view =>
      .change (· ++ [view.id]) (.emit view.emitter ⟨"mounted", none⟩ fun _ => .done) }

/-- A hub on which a listener keeps the names of the events of the salutation. -/
def attentive : Hub (List String) :=
  (Hub.start []).addEmitter.listen ⟨0⟩ none (.react fun event => .change (· ++ [event.name]) .done)

theorem redraw_atomic_salutation :
    ∃ r, salutation.redraw 1 (Page.blank.mount "template_1" "Bye") none attentive = some r ∧
      r.result = .ok true ∧ r.deliveries.map Delivery.count = [1, 1, 1] ∧
      r.hub.client = ["re-draw", "drawn", "template_1", "mounted"] ∧
      r.template.draws = 1 ∧ Document.element? r.document "template_1" = some "Hi" := by
  obtain ⟨-, hredraw, hpage⟩ := redraw_atomic 1 salutation none attentive
  have hpresent : (Document.element? (Page.blank.mount "template_1" "Bye") "template_1").isSome :=
    rfl
  have hok : (salutation.render none attentive).result = .ok "Hi" := by cbv
  have hclient : (salutation.render none attentive).hub.client = [] := by decide +kernel
  obtain ⟨page, htaken, -, hshows⟩ := hpage (Page.blank.mount "template_1" "Bye") hpresent "Hi"
  have hrun := ((hredraw _).2 hpresent).2.2 "Hi" page hok htaken
  refine ⟨_, (hrun _).2 ⟨_, _, _, _, _, _, announces_iff.2 rfl, announces_iff.2 rfl,
    runsHook_iff.2 rfl, rfl⟩, rfl, rfl, ?_, rfl, ?_⟩
  · show (salutation.render none attentive).hub.client ++ ["re-draw"] ++ ["drawn"] ++
      ["template_1"] ++ ["mounted"] = _
    rw [hclient]
    rfl
  · exact hshows "template_1"

end Template

end Stencil
