import LarkPlat.Events
import LarkPlat.Machine
import LarkPlat.Visibility

/-!
# Subscriptions to the Monitor

A connection to `/ws/monitor` keeps the set of entities that its user may see, as it was when the
connection was opened, and the entities that its last subscribe frame has asked for, cut down to the
visible ones. A message is delivered if both let its entity through, but the filter takes an empty
set of requested entities for no request, also where a request has been cut down to nothing.

## Main results

* `subscription_confined_iff`: after a sequence of frames, what is delivered is visible and
  requested exactly if something of the last request is visible, or it asked for nothing, or nothing
  is visible at all.
* `invisible_request_delivers`: a request for an entity that the user may not see delivers the
  messages about another one.
-/

namespace LarkPlat

/-- `str(x)`, where `text` is the text of what is no string. -/
def textOf (text : Json → String) : Json → String
  | .str s => s
  | v => text v

/-- `json.loads(raw)` of a frame; `none` if it raises. -/
abbrev RawFrame : Type := Option Json

/-- An entry of `_subs`. -/
structure Subscription where
  scope : Json
  ids : List String
  /-- The names of the visible entities; `none` for all. -/
  visible : Option (List String)
  deriving DecidableEq

/-- What a subscribe frame asks for. -/
structure SubscribeRequest where
  scope : Json
  ids : List String
  deriving DecidableEq

variable (text : Json → String)

/-- The entity that a message is about: `data.entity.entity_id`, or `data.entity_id`. -/
def messageEntityId (message : List (String × Json)) : Except PyErr String := do
  let data := (Json.field message "data").pyOr (.obj [])
  let entity := (← data.get "entity").pyOr (.obj [])
  pure (textOf text (((← entity.get "entity_id").pyOr (← data.get "entity_id")).pyOr (.str "")))

/-- `_matches_subscription`. -/
def matchesSubscription (message : List (String × Json)) (sub : Subscription) :
    Except PyErr Bool := do
  let entityId ← messageEntityId text message
  if sub.visible.any fun visible => decide (entityId ∉ visible) then pure false
  else if sub.scope = .str "all" ∨ sub.ids = [] then pure true
  else pure (decide (entityId ∈ sub.ids))

/-- What the loop of `ws_monitor` reads from a frame: a request, if it is a subscribe frame. -/
def readRequest (raw : RawFrame) : Except PyErr (Option SubscribeRequest) :=
  match raw with
  | none => .ok none
  | some msg => do
      let mtype ← msg.get "type"
      if mtype = .str "subscribe" then
        let data := (← msg.get "data").pyOr (.obj [])
        let scopeField ← data.get "scope"
        let scope := if (← data.contains "scope") then scopeField else .str "all"
        let ids ← pyIter ((← data.get "ids").pyOr (.arr []))
        pure (some ⟨scope, (ids.map (textOf text)).dedup⟩)
      else pure none

namespace Subscription

/-- The entry of a connection that is opened. -/
def opened (visible : Option (List String)) : Subscription := ⟨.str "all", [], visible⟩

/-- The ids are cut down to the visible ones. -/
def clamp (visible : Option (List String)) (ids : List String) : List String :=
  match visible with
  | none => ids
  | some visible => ids.filter fun i => decide (i ∈ visible)

/-- The entry after a request. -/
def subscribe (sub : Subscription) (r : SubscribeRequest) : Subscription :=
  ⟨r.scope, clamp sub.visible r.ids, sub.visible⟩

end Subscription

/-- A connection: its entry, while it lasts. -/
abbrev MonitorSocket : Type := Option Subscription

namespace MonitorSocket

/-- A frame arrives. An exception ends the connection. -/
def receive (ws : MonitorSocket) (raw : RawFrame) : MonitorSocket :=
  ws.bind fun sub =>
    match readRequest text raw with
    | .error _ => none
    | .ok none => some sub
    | .ok (some r) => some (sub.subscribe r)

/-- `broadcast_all` sends the message to the connection. -/
def Delivers (ws : MonitorSocket) (message : List (String × Json)) : Prop :=
  ∃ sub, ws = some sub ∧ matchesSubscription text message sub = .ok true

/-- The connection after the frames. -/
def after (visible : Option (List String)) (frames : List RawFrame) : MonitorSocket :=
  Machine.run (receive text) (some (.opened visible)) frames

end MonitorSocket

/-! ### The last request -/

/-- The request of the latest subscribe frame. -/
def latestRequest (frames : List RawFrame) : Option SubscribeRequest :=
  frames.foldl (fun latest raw =>
    match readRequest text raw with
    | .ok (some r) => some r
    | _ => latest) none

/-- The request names entities: its scope is not `all`, and it has ids. -/
def SubscribeRequest.Narrow (r : SubscribeRequest) : Prop :=
  r.scope ≠ .str "all" ∧ r.ids ≠ []

/-- A message about the entity may be delivered: it is visible, and it is one of those that the
latest subscribe frame has named, if it has. -/
structure Permitted (visible : Option (List String)) (latest : Option SubscribeRequest)
    (entityId : String) : Prop where
  seen : ∀ names, visible = some names → entityId ∈ names
  asked : ∀ r, latest = some r → r.Narrow → entityId ∈ r.ids

/-- What the connection delivers may be delivered. -/
def Confined (visible : Option (List String)) (frames : List RawFrame) : Prop :=
  ∀ message, MonitorSocket.Delivers text (.after text visible frames) message →
    ∃ entityId, messageEntityId text message = .ok entityId ∧
      Permitted visible (latestRequest text frames) entityId

/-- The user sees no entity, or one of those that are asked for. -/
def Answerable (visible : Option (List String)) (r : SubscribeRequest) : Prop :=
  ∀ names, visible = some names → names = [] ∨ ∃ i ∈ r.ids, i ∈ names

/-! ### The entry after a sequence of frames -/

/-- The entry of a connection whose latest request is given. -/
def entryOf (visible : Option (List String)) (latest : Option SubscribeRequest) : Subscription :=
  latest.elim (.opened visible) (Subscription.opened visible).subscribe

@[simp] theorem entryOf_visible (visible : Option (List String))
    (latest : Option SubscribeRequest) : (entryOf visible latest).visible = visible := by
  cases latest <;> rfl

variable {text} {visible : Option (List String)} {frames : List RawFrame}

theorem after_eq (text : Json → String) (visible : Option (List String))
    (frames : List RawFrame) :
    MonitorSocket.after text visible frames = none ∨
      MonitorSocket.after text visible frames =
        some (entryOf visible (latestRequest text frames)) := by
  induction frames using List.reverseRecOn with
  | nil => exact .inr rfl
  | append_singleton frames raw ih =>
      rw [MonitorSocket.after, Machine.run_append, ← MonitorSocket.after, Machine.run_cons,
        Machine.run_nil, latestRequest, List.foldl_append, ← latestRequest, List.foldl_cons,
        List.foldl_nil]
      rcases ih with ih | ih
      · rw [ih]
        exact .inl rfl
      · rw [ih, MonitorSocket.receive, Option.bind_some]
        cases hr : readRequest text raw with
        | error e => exact .inl rfl
        | ok request =>
            refine .inr ?_
            cases request with
            | none => rfl
            | some r =>
                change some ((entryOf visible _).subscribe r) = some (entryOf visible (some r))
                simp only [Subscription.subscribe, entryOf_visible]
                rfl

/-- What the filter lets through: the entity is visible, and it is one of the ids unless there are
none or the scope is `all`. -/
theorem matchesSubscription_iff {message : List (String × Json)} {sub : Subscription} :
    matchesSubscription text message sub = .ok true ↔
      ∃ e, messageEntityId text message = .ok e ∧ (∀ names, sub.visible = some names → e ∈ names) ∧
        (sub.scope = .str "all" ∨ sub.ids = [] ∨ e ∈ sub.ids) := by
  rw [matchesSubscription, bind_eq_ok]
  refine exists_congr fun e => and_congr_right fun _ => ?_
  cases hv : sub.visible with
  | none =>
      by_cases hs : sub.scope = .str "all" ∨ sub.ids = []
      · simp [hs, pure, Except.pure, or_assoc.symm]
      · simp [hs, pure, Except.pure, or_assoc.symm]
  | some names =>
      by_cases hin : e ∈ names
      · by_cases hs : sub.scope = .str "all" ∨ sub.ids = []
        · simp [hs, hin, pure, Except.pure, or_assoc.symm]
        · simp [hs, hin, pure, Except.pure, or_assoc.symm]
      · simp [hin, pure, Except.pure]

/-- The shortest message about an entity. -/
def messageAbout (e : String) : List (String × Json) := [("data", .obj [("entity_id", .str e)])]

theorem messageAbout_entityId (e : String) : messageEntityId text (messageAbout e) = .ok e := by
  have hfield : Json.field (messageAbout e) "data" = .obj [("entity_id", .str e)] := rfl
  rw [messageEntityId, hfield]
  by_cases he : e = ""
  · subst he
    rfl
  · simp [Json.pyOr, Json.truthy, Json.get, Json.field, bind, Except.bind, pure, Except.pure, he,
      textOf, List.lookup_cons]

theorem clamp_eq_nil_iff {ids : List String} :
    Subscription.clamp visible ids = [] ↔
      ids = [] ∨ ∃ names, visible = some names ∧ ∀ i ∈ ids, i ∉ names := by
  cases visible with
  | none => simp [Subscription.clamp]
  | some names =>
      simp only [Subscription.clamp, List.filter_eq_nil_iff, decide_eq_true_eq, Option.some.injEq,
        exists_eq_left']
      constructor
      · exact .inr
      · rintro (rfl | h)
        · simp
        · exact h

theorem mem_of_mem_clamp {ids : List String} {e : String}
    (h : e ∈ Subscription.clamp visible ids) : e ∈ ids := by
  cases visible with
  | none => exact h
  | some names => exact (List.mem_filter.mp h).1

/-! ### Main result -/

theorem delivered_visible {message : List (String × Json)}
    (h : MonitorSocket.Delivers text (.after text visible frames) message) :
    ∃ e, messageEntityId text message = .ok e ∧ ∀ names, visible = some names → e ∈ names := by
  obtain ⟨sub, hsub, hmatch⟩ := h
  obtain ⟨e, he, hseen, -⟩ := matchesSubscription_iff.mp hmatch
  rcases after_eq text visible frames with hnone | hsome
  · rw [hnone] at hsub
    cases hsub
  · rw [hsome, Option.some.injEq] at hsub
    subst hsub
    exact ⟨e, he, fun names hn => hseen names (by rw [entryOf_visible, hn])⟩

/-- **Subscriptions are confined.** What a connection delivers after a sequence of frames is visible
and requested exactly if the connection has ended or the latest request, where it names entities,
names one that is visible, unless nothing is visible at all. -/
theorem subscription_confined_iff (text : Json → String) (visible : Option (List String))
    (frames : List RawFrame) :
    Confined text visible frames ↔ MonitorSocket.after text visible frames = none ∨
      ∀ r, latestRequest text frames = some r → r.Narrow → Answerable visible r := by
  constructor
  · intro h
    rcases after_eq text visible frames with hnone | hsome
    · exact .inl hnone
    · refine .inr fun r hr hnarrow names hnames => ?_
      by_contra hans
      obtain ⟨hne, hout⟩ := not_or.mp hans
      obtain ⟨e, he⟩ := List.exists_mem_of_ne_nil names hne
      have hids : (entryOf visible (some r)).ids = [] :=
        clamp_eq_nil_iff.mpr (.inr ⟨names, hnames, fun i hi hin => hout ⟨i, hi, hin⟩⟩)
      -- the filter sees no ids, so a message about any visible entity passes
      have hdelivered : MonitorSocket.Delivers text (.after text visible frames)
          (messageAbout e) := by
        refine ⟨_, hsome, matchesSubscription_iff.mpr ⟨e, messageAbout_entityId e, ?_, ?_⟩⟩
        · intro names' hn
          rw [entryOf_visible, hnames, Option.some.injEq] at hn
          exact hn ▸ he
        · rw [hr]
          exact .inr (.inl hids)
      obtain ⟨e', he', hpermitted⟩ := h _ hdelivered
      rw [messageAbout_entityId, Except.ok.injEq] at he'
      subst he'
      exact hout ⟨e, hpermitted.asked r hr hnarrow, he⟩
  · rintro h message hdelivered
    obtain ⟨e, he, hseen⟩ := delivered_visible hdelivered
    refine ⟨e, he, hseen, fun r hr hnarrow => ?_⟩
    obtain ⟨sub, hsub, hmatch⟩ := hdelivered
    rcases after_eq text visible frames with hnone | hsome
    · rw [hnone] at hsub
      cases hsub
    · rw [hsome, Option.some.injEq] at hsub
      subst hsub
      obtain ⟨e', he', -, hpass⟩ := matchesSubscription_iff.mp hmatch
      rw [he, Except.ok.injEq] at he'
      subst he'
      rw [hr] at hpass
      rcases hpass with hall | hnil | hin
      · exact absurd hall hnarrow.1
      · rcases clamp_eq_nil_iff.mp hnil with hids | ⟨names, hnames, hout⟩
        · exact absurd hids hnarrow.2
        · rcases h with hend | hans
          · rw [hsome] at hend
            cases hend
          · rcases hans r hr hnarrow names hnames with hempty | ⟨i, hi, hin⟩
            · subst hempty
              cases hseen [] hnames
            · exact absurd hin (hout i hi)
      · exact mem_of_mem_clamp hin

/-- A frame that asks for one entity. -/
def subscribeTo (e : String) : RawFrame :=
  some (.obj [("type", .str "subscribe"),
    ("data", .obj [("scope", .str "host"), ("ids", .arr [.str e])])])

/-- A user who sees `10.0.0.1` and asks for `10.0.0.9` alone gets the messages about `10.0.0.1`. -/
theorem invisible_request_delivers :
    ¬ Confined (fun _ => "") (some ["10.0.0.1"]) [subscribeTo "10.0.0.9"] := by
  intro h
  have hdelivered : MonitorSocket.Delivers (fun _ => "")
      (.after (fun _ => "") (some ["10.0.0.1"]) [subscribeTo "10.0.0.9"])
      (messageAbout "10.0.0.1") := ⟨⟨.str "host", [], some ["10.0.0.1"]⟩, by decide, by decide⟩
  obtain ⟨e, he, hpermitted⟩ := h _ hdelivered
  rw [messageAbout_entityId, Except.ok.injEq] at he
  subst he
  exact absurd (hpermitted.asked ⟨.str "host", ["10.0.0.9"]⟩ (by decide) ⟨by decide, by decide⟩)
    (by decide)

end LarkPlat
