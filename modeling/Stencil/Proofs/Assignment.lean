import Stencil.Proofs.Overtaking
import Stencil.Proofs.Promptness
import Stencil.Proofs.Standing

/-!
# Fields that are set

The fields of a store change where a field is set, and nowhere else (`Path.fields_eq`). What is
set is announced next, and as long as nobody else tells of changes on behalf of the store
(`Truthful`), what was set is what was announced. So the news of a field tell what the store has
(`get?_merge_sets`), whenever what was set last has been announced.
-/

namespace Stencil

variable {σ : Type} {s : Stage σ} {m m' : Moment σ} {o : Occurrence σ}
  {log : List (Occurrence σ)} {n : Nat} {store : EmitterId} {id : ListenerId} {key : String}
  {fs : Json.Fields}

/-! ### What was set -/

/-- The field of a store that is set, with its value. -/
def Occurrence.set? (store : EmitterId) : Occurrence σ → Option (String × Json)
  | stored target key value => if store = target then some (key, value) else none
  | _ => none

/-- The fields of a store that were set, with their values, in order. -/
def sets (store : EmitterId) (log : List (Occurrence σ)) : Json.Fields :=
  log.filterMap (·.set? store)

theorem sets_concat (store : EmitterId) (log : List (Occurrence σ)) (o : Occurrence σ) :
    sets store (log ++ [o]) = sets store log ++ (o.set? store).toList := by
  rw [sets, List.filterMap_append, List.filterMap_cons]
  cases o.set? store <;> rfl

theorem Hub.fields_congr {h h' : Hub σ} (hstores : h'.stores = h.stores) (store : EmitterId) :
    h'.fields store = h.fields store := by
  rw [fields, fields, hstores]

theorem Hub.fields_putField {h : Hub σ} {target : EmitterId}
    (htarget : h.stores.contains target = true) (key : String) (value : Json) (store : EmitterId) :
    (h.putField target key value).fields store =
      if store = target then Json.Fields.insert key value (h.fields store)
      else h.fields store := by
  obtain ⟨fs, hfs⟩ := Option.isSome_iff_exists.1 htarget
  rw [putField, hfs, fields, fields, OrderedMap.get?_insert]
  split
  · next heq => rw [heq, hfs]; rfl
  · rfl

/-- The fields of a store change where they are set, and nowhere else. -/
theorem Occurrence.Possible.fields_effect (ho : o.Possible s) (hs : s.WellFormed)
    (hstore : s.hub.stores.contains store = true) :
    (o.effect s).hub.fields store =
      Json.Fields.merge (s.hub.fields store) (o.set? store).toList := by
  cases o with
  | announced | called | answered => exact ho.elim
  | stored target key value =>
    refine (Hub.fields_putField ho key value store).trans ?_
    rw [set?]
    split <;> rfl
  | listened target l => exact Hub.fields_congr (Hub.stores_updateEmitter ..) store
  | cancelled target id found => exact Hub.fields_congr (Hub.stores_updateEmitter ..) store
  | changed | created => rfl
  | opened fields =>
    -- The new store is another one.
    have hne : store ≠ s.hub.next := by
      rintro rfl
      rw [hs.not_contains_next.2] at hstore
      cases hstore
    exact congrArg (Option.getD · []) (OrderedMap.get?_insert_of_ne _ hne fields)
  | bound t source registration =>
    obtain ⟨u, hu, -⟩ := ho
    rw [effect, Stage.bind_eq hu]
    cases source with
    | value v => rfl
    | store target => exact Hub.fields_congr (Hub.stores_updateEmitter ..) store
  | released t removal =>
    obtain ⟨u, hu, -⟩ := ho
    rw [effect, Stage.release_eq hu]
    show (u.unsubscribe s.hub).fields store = _
    rw [Template.unsubscribe_eq]
    cases u.subscribed? with
    | none => rfl
    | some r => exact Hub.fields_congr (Hub.stores_updateEmitter ..) store
  | dropped t =>
    obtain ⟨u, hu, -⟩ := ho
    rw [effect, Stage.remove_eq hu]
    rfl

/-- The fields of a store are those that it had, with all that was set since on top of them. -/
theorem Path.fields_eq (h : Path m log m') (hm : m.stage.WellFormed)
    (hstore : m.stage.hub.stores.contains store = true) :
    m'.stage.hub.fields store = Json.Fields.merge (m.stage.hub.fields store) (sets store log) := by
  refine h.concat_induction (motive := fun log m' => m'.stage.hub.fields store =
    Json.Fields.merge (m.stage.hub.fields store) (sets store log)) rfl ?_
  intro log o m₁ m₂ hpath hstep ih
  have hstore₁ : m₁.stage.hub.stores.contains store = true := by
    rw [hpath.stage_eq]
    exact contains_stores_replay hstore
  rw [sets_concat, Json.Fields.merge, List.foldl_append]
  refine Eq.trans ?_ (congrArg (Json.Fields.merge · _) ih)
  cases hstep with
  | acted ho => exact ho.fields_effect (hpath.wellFormed hm) hstore₁
  | _ => rfl

/-! ### What was set is announced -/

/-- The beginning of an announcement by which a store tells of a change. -/
def Occurrence.Claims (store : EmitterId) : Occurrence σ → Prop
  | announced _ _ source event => source = store ∧ event.name = "change"
  | _ => False

/-- A store tells of changes only where a field was set just before. -/
def Truthful (store : EmitterId) (log : List (Occurrence σ)) : Prop :=
  log.IsChain fun o o' => o'.Claims store → (o.set? store).isSome = true

theorem Occurrence.set?_eq_some_iff {value : Json} :
    o.set? store = some (key, value) ↔ o = .stored store key value := by
  cases o with
  | stored target key' value' =>
    rw [set?]
    split
    · next h => simp [h]
    · next h => simp [Ne.symm h]
  | _ => exact ⟨nofun, nofun⟩

theorem Event.told?_changeEvent (key key' : String) (value : Json) :
    (Hub.changeEvent key' value).told? key = if key' = key then some value else none := rfl

/-- What a store announces by the way tells nothing of a field, if it is no claim. -/
theorem News.last_next_of_not_claims (ho : ¬o.Claims store) (news : News) :
    (news.next store id key o).last = news.last := by
  cases o with
  | announced n cause source event =>
    rw [next]
    split
    · next hsource =>
      split
      · next v htold =>
        exact absurd ⟨hsource, Event.name_of_told? (by rw [htold]; rfl)⟩ ho
      · rfl
    · rfl
  | called n l event =>
    rw [next]
    split <;> rfl
  | _ => rfl

theorem News.last_next_changeEvent (news : News) (n : Nat) (key' : String) (value : Json) :
    (news.next store id key
      (.announced n none store (Hub.changeEvent key' value) : Occurrence σ)).last =
      if key' = key then some value else news.last := by
  simp only [next, if_true, Event.told?_changeEvent]
  by_cases hkey : key' = key
  · rw [if_pos hkey, if_pos hkey]
  · rw [if_neg hkey, if_neg hkey]

/-- A set is followed by its announcement, which is a claim. -/
theorem Occurrence.Leads.claims {o' : Occurrence σ} (h : o.Leads o')
    (ho : (o.set? store).isSome = true) : o'.Claims store := by
  obtain ⟨⟨key, value⟩, ho⟩ := Option.isSome_iff_exists.1 ho
  obtain rfl := set?_eq_some_iff.1 ho
  obtain ⟨n, rfl⟩ := h
  exact ⟨rfl, rfl⟩

/-- The news of a set and its announcement. -/
theorem get?_merge_sets_announced (key' : String) (value : Json)
    (h : Json.Fields.get? key (Json.Fields.merge fs (sets store log)) =
      (News.of store id key log).last.or (Json.Fields.get? key fs)) :
    let log' := log ++ [.stored store key' value] ++
      [.announced n none store (Hub.changeEvent key' value)]
    Json.Fields.get? key (Json.Fields.merge fs (sets store log')) =
      (News.of store id key log').last.or (Json.Fields.get? key fs) := by
  intro log'
  have hsets : Json.Fields.merge fs (sets store log') =
      Json.Fields.insert key' value (Json.Fields.merge fs (sets store log)) := by
    rw [sets_concat, sets_concat, Occurrence.set?_eq_some_iff.2 rfl]
    simp only [Occurrence.set?, Option.toList_some, Option.toList_none, List.append_nil]
    exact List.foldl_concat ..
  rw [hsets, News.of_concat, News.last_next_changeEvent, News.of_concat]
  by_cases hkey : key' = key
  · rw [if_pos hkey, hkey, Json.Fields.get?_insert_self]
    rfl
  · rw [if_neg hkey, Json.Fields.get?_insert_of_ne (Ne.symm hkey)]
    exact h

/-- Fields with all that was set put on top of them have the values announced last, where what was
    set last has been announced; and so it is just before something is set. -/
theorem get?_merge_sets {w : List (Occurrence σ)} (hprompt : w.IsChain Occurrence.Leads)
    (htruthful : Truthful store w) (hfirst : ∀ o ∈ w.head?, ¬o.Claims store)
    (id : ListenerId) (key : String) (fs : Json.Fields) :
    ((∀ o ∈ w.getLast?, o.set? store = none) →
      Json.Fields.get? key (Json.Fields.merge fs (sets store w)) =
        (News.of store id key w).last.or (Json.Fields.get? key fs)) ∧
    ∀ before o, w = before ++ [o] → (o.set? store).isSome = true →
      Json.Fields.get? key (Json.Fields.merge fs (sets store before)) =
        (News.of store id key before).last.or (Json.Fields.get? key fs) := by
  induction w using List.reverseRecOn with
  | nil => exact ⟨fun _ => rfl, fun before o heq => by simp at heq⟩
  | append_singleton w x ih =>
    obtain ⟨hprompt, -, hleads⟩ := List.isChain_append.1 hprompt
    obtain ⟨htruthful, -, hclaims⟩ := List.isChain_append.1 htruthful
    obtain ⟨hsettled, hset⟩ := ih hprompt htruthful fun o ho => hfirst o (by
      rw [List.head?_append, Option.mem_def.1 ho]
      rfl)
    -- What was set last is announced next, so where a claim does not come next, nothing was.
    have hold (hx : ¬x.Claims store) := hsettled fun o ho => by
      by_contra hne
      exact hx ((hleads o ho x (by simp)).claims (Option.isSome_iff_ne_none.2 hne))
    refine ⟨fun hlast => ?_, fun before o heq ho => ?_⟩
    · by_cases hx : x.Claims store
      · rcases w.eq_nil_or_concat' with rfl | ⟨before, o, rfl⟩
        · exact absurd hx (hfirst x rfl)
        · have ho := hclaims o (by simp) x (by simp) hx
          have hbefore := hset before o rfl ho
          obtain ⟨⟨key', value⟩, ho⟩ := Option.isSome_iff_exists.1 ho
          obtain rfl := Occurrence.set?_eq_some_iff.1 ho
          obtain ⟨n, rfl⟩ := hleads (.stored store key' value) (by simp) x (by simp)
          exact get?_merge_sets_announced key' value hbefore
      · rw [sets_concat, hlast x (by simp), Option.toList_none, List.append_nil, News.of_concat,
          News.last_next_of_not_claims hx]
        exact hold hx
    · obtain ⟨rfl, rfl⟩ : w = before ∧ x = o := by simpa using List.append_inj' heq rfl
      refine hold ?_
      cases x with
      | stored => exact fun h => h
      | _ => cases ho

end Stencil
