import LarkPlat.Machine
import LarkPlat.Table
import Mathlib.Algebra.Order.Floor.Ring
import Mathlib.Data.Rat.Floor

/-!
# Due Schedules

`schedule_service.py`: `_due_tasks`. A sweep asks for each enabled schedule whether it is due. A
cron schedule is due if the next instant of its expression after the start of its latest run has
come. A schedule that has never run has no such start; the sweep then counts from its own time, so
that the next instant is always to come.

The expression is read in the time zone of the instant from which it counts. That is the zone in
which the session returns a start, and not the column `timezone` of the schedule. What an expression
matches, and the next instant that it matches, are parameters.

## Main results

* `isDue_iff`: a cron schedule is due when an instant in the zone of its latest start has come.
* `due_when_matched_iff`: the sweeps of a history find the cron schedules of which an instant in
  their own time zone has come, exactly if none of these has never run, and the two zones agree on
  whether an instant has come for the others.
-/

namespace LarkPlat

open Machine

/-! ### The sweep -/

/-- `croniter`, with the zone in which the session returns an instant. `matched e z t` says that the
expression, read in the zone, matches the instant; `getNext` is `none` where it raises. -/
structure Cron where
  matched : String → String → ℚ → Prop
  getNext : String → String → ℚ → Option ℚ
  sessionZone : ℚ → String

/-- `get_next` is the least matching instant after its base, and raises where there is none. -/
structure Cron.Exact (cron : Cron) : Prop where
  least : ∀ {e z base t}, cron.getNext e z base = some t →
    base < t ∧ cron.matched e z t ∧ ∀ t', base < t' → cron.matched e z t' → t ≤ t'
  raises : ∀ {e z base}, cron.getNext e z base = none → ∀ t, base < t → ¬ cron.matched e z t

/-- The columns of `schedule_task` that a sweep reads, with those that say when it should fire. -/
structure TimedSchedule where
  id : ℕ
  triggerType : String
  cronExpr : Option String
  timezone : String
  intervalSec : Option ℤ
  enabled : Bool
  createdAt : ℚ
  deriving DecidableEq

/-- The schedules, and for each run its schedule and its start. -/
structure SweepDb where
  schedules : List TimedSchedule
  starts : List (ℕ × ℚ)
  deriving DecidableEq

namespace SweepDb

/-- `ScheduleTaskRepository.enabled_tasks`. -/
def enabledTasks (db : SweepDb) : List TimedSchedule :=
  db.schedules.filter TimedSchedule.enabled

/-- The start of the latest run of a schedule. -/
def lastStart (db : SweepDb) (id : ℕ) : Option ℚ :=
  ((db.starts.filter fun r => decide (r.1 = id)).map Prod.snd).max?

/-- The test of `_due_tasks` at one schedule, where `last` is the start of its latest run. -/
def isDue (cron : Cron) (now : ℚ) (last : Option ℚ) (t : TimedSchedule) : Bool :=
  if t.triggerType = "interval" then
    match last with
    | none => true
    | some last => decide ((t.intervalSec.getD 0 : ℚ) ≤ now - last)
  else if t.triggerType = "cron" then
    match t.cronExpr with
    | none => false
    | some e =>
        match cron.getNext e (last.elim "UTC" cron.sessionZone) (last.getD now) with
        | none => false
        | some nextRun => decide (nextRun ≤ now ∧ (last = none ∨ nextRun ≤ now))
  else false

/-- `_due_tasks`. -/
def dueTasks (cron : Cron) (db : SweepDb) (now : ℚ) : List TimedSchedule :=
  db.enabledTasks.filter fun t => isDue cron now (db.lastStart t.id) t

/-! ### When a schedule should fire -/

/-- An instant of the expression in the zone lies after one time and not after another one. -/
def Elapsed (cron : Cron) (e zone : String) (since now : ℚ) : Prop :=
  ∃ t, since < t ∧ t ≤ now ∧ cron.matched e zone t

/-- The start of the latest run, or the creation of a schedule that has never run. -/
def since (db : SweepDb) (s : TimedSchedule) : ℚ :=
  (db.lastStart s.id).getD s.createdAt

/-- The sweep finds the cron schedules of which an instant in their time zone has come, and no
others. -/
def FiresWhenDue (cron : Cron) (db : SweepDb) (now : ℚ) : Prop :=
  ∀ s ∈ db.schedules, s.enabled = true → s.triggerType = "cron" → ∀ e, s.cronExpr = some e →
    (s ∈ db.dueTasks cron now ↔ Elapsed cron e s.timezone (db.since s) now)

/-- No instant has come of a schedule that has never run, and for one that has run, an instant in
the zone of the session has come exactly if one in the time zone of the schedule has. -/
def ZonesAgree (cron : Cron) (db : SweepDb) (now : ℚ) : Prop :=
  ∀ s ∈ db.schedules, s.enabled = true → s.triggerType = "cron" → ∀ e, s.cronExpr = some e →
    match db.lastStart s.id with
    | none => ¬ Elapsed cron e s.timezone s.createdAt now
    | some last =>
        Elapsed cron e (cron.sessionZone last) last now ↔ Elapsed cron e s.timezone last now

variable {cron : Cron} {db : SweepDb} {now : ℚ} {s : TimedSchedule} {e : String}

theorem getNext_le_iff (hcron : cron.Exact) {zone : String} {base : ℚ} :
    (∃ t, cron.getNext e zone base = some t ∧ t ≤ now) ↔ Elapsed cron e zone base now := by
  constructor
  · rintro ⟨t, hnext, hle⟩
    obtain ⟨hlt, hmatched, -⟩ := hcron.least hnext
    exact ⟨t, hlt, hle, hmatched⟩
  · rintro ⟨t, hlt, hle, hmatched⟩
    cases hnext : cron.getNext e zone base with
    | none => exact absurd hmatched (hcron.raises hnext t hlt)
    | some t' => exact ⟨t', rfl, ((hcron.least hnext).2.2 t hlt hmatched).trans hle⟩

/-- **What is due.** A cron schedule is due if it has run, and an instant of its expression, in the
zone in which the session returns the start of the latest run, has come since. -/
theorem isDue_iff (hcron : cron.Exact) {last : Option ℚ} (htype : s.triggerType = "cron")
    (he : s.cronExpr = some e) :
    isDue cron now last s = true ↔
      ∃ l, last = some l ∧ Elapsed cron e (cron.sessionZone l) l now := by
  rw [isDue.eq_def, htype, if_neg (by decide), if_pos rfl, he]
  cases last with
  | none =>
      refine iff_of_false ?_ fun ⟨l, hl, _⟩ => by cases hl
      dsimp only [Option.elim_none, Option.getD_none]
      -- The next instant after now is to come.
      cases hnext : cron.getNext e "UTC" now with
      | none => exact Bool.false_ne_true
      | some t =>
          have hlt := (hcron.least hnext).1
          simp [hlt]
  | some l =>
      dsimp only [Option.elim_some, Option.getD_some]
      have hlast : (∃ l', some l = some l' ∧ Elapsed cron e (cron.sessionZone l') l' now) ↔
          Elapsed cron e (cron.sessionZone l) l now :=
        ⟨fun ⟨_, heq, h⟩ => Option.some.inj heq ▸ h, fun h => ⟨l, rfl, h⟩⟩
      rw [hlast, ← getNext_le_iff hcron]
      cases hnext : cron.getNext e (cron.sessionZone l) l with
      | none => simp
      | some t => simp

theorem mem_dueTasks (hs : s ∈ db.schedules) (henabled : s.enabled = true) :
    s ∈ db.dueTasks cron now ↔ isDue cron now (db.lastStart s.id) s = true := by
  rw [dueTasks, enabledTasks, List.mem_filter, List.mem_filter]
  exact and_iff_right ⟨hs, henabled⟩

theorem firesWhenDue_iff (hcron : cron.Exact) (db : SweepDb) (now : ℚ) :
    db.FiresWhenDue cron now ↔ db.ZonesAgree cron now := by
  refine forall_congr' fun s => forall_congr' fun hs => forall_congr' fun henabled =>
    forall_congr' fun htype => forall_congr' fun e => forall_congr' fun he => ?_
  rw [mem_dueTasks hs henabled, isDue_iff hcron htype he, since]
  cases db.lastStart s.id with
  | none => simp
  | some last => simp

/-! ### Histories -/

/-- A schedule is created, edited or deleted, a run of it starts by hand, or there is a sweep, which
starts the runs of what is due at the times that are given. -/
inductive SweepOp
  | create (schedule : TimedSchedule)
  | edit (schedule : TimedSchedule)
  | delete (id : ℕ)
  | start (id : ℕ) (at_ : ℚ)
  | sweep (now : ℚ) (starts : ℕ → List ℚ)

/-- One step. An edit keeps the creation of the schedule. -/
def apply (cron : Cron) (db : SweepDb) : SweepOp → SweepDb
  | .create schedule => { db with schedules := db.schedules ++ [schedule] }
  | .edit schedule =>
      { db with
        schedules := Table.modify TimedSchedule.id db.schedules schedule.id fun old =>
          { schedule with createdAt := old.createdAt } }
  | .delete id =>
      ⟨db.schedules.filter fun s => decide (s.id ≠ id), db.starts.filter fun r => decide (r.1 ≠ id)⟩
  | .start id at_ => { db with starts := db.starts ++ [(id, at_)] }
  | .sweep now starts =>
      { db with
        starts := db.starts ++
          (db.dueTasks cron now).flatMap fun s => (starts s.id).map fun at_ => (s.id, at_) }

/-- A property of the sweeps of a history. -/
def AtSweep (P : SweepDb → ℚ → Prop) (db : SweepDb) : SweepOp → Prop
  | .sweep now _ => P db now
  | _ => True

/-- **When cron schedules fire.** Along any history, the sweeps find the cron schedules of which an
instant in their time zone has come since the latest run or the creation, exactly if at each sweep
no instant has come of a schedule that has never run, and the zone of the session and the time zone
of a schedule that has run agree on whether one has. -/
theorem due_when_matched_iff (cron : Cron) (hcron : cron.Exact) (db : SweepDb)
    (ops : List SweepOp) :
    Meets (apply cron) (AtSweep (FiresWhenDue cron)) db ops ↔
      Meets (apply cron) (AtSweep (ZonesAgree cron)) db ops := by
  refine meets_congr (fun db op => ?_) db ops
  cases op with
  | sweep now starts => exact firesWhenDue_iff hcron db now
  | create schedule => exact Iff.rfl
  | edit schedule => exact Iff.rfl
  | delete id => exact Iff.rfl
  | start id at_ => exact Iff.rfl

/-- The seconds of a day before eight o'clock, in UTC and in Shanghai. -/
def eightOClock (zone : String) : ℚ := if zone = "UTC" then 28800 else 0

/-- `croniter` for a daily expression. -/
def dailyCron : Cron where
  matched e zone t := e = "0 8 * * *" ∧ ∃ k : ℤ, t = 86400 * k + eightOClock zone
  getNext e zone base :=
    if e = "0 8 * * *" then
      some (86400 * (⌊(base - eightOClock zone) / 86400⌋ + 1 : ℤ) + eightOClock zone)
    else none
  sessionZone _ := "UTC"

theorem dailyCron_exact : dailyCron.Exact where
  least {e zone base t} h := by
    rw [dailyCron] at h ⊢
    dsimp only at h ⊢
    split_ifs at h with he
    obtain rfl := Option.some.inj h
    have hfloor := Int.lt_floor_add_one ((base - eightOClock zone) / 86400)
    rw [div_lt_iff₀ (by norm_num)] at hfloor
    refine ⟨by push_cast; linarith, ⟨he, _, rfl⟩, ?_⟩
    rintro t' hlt ⟨-, k, rfl⟩
    have hk : ⌊(base - eightOClock zone) / 86400⌋ < k := by
      rw [Int.floor_lt, div_lt_iff₀ (by norm_num)]
      linarith
    have hle : ((⌊(base - eightOClock zone) / 86400⌋ + 1 : ℤ) : ℚ) ≤ k := by exact_mod_cast hk
    linarith
  raises {e zone base} h t hlt := by
    rw [dailyCron] at h ⊢
    dsimp only at h ⊢
    split_ifs at h with he
    exact fun hmatched => he hmatched.1

/-- A schedule for eight o'clock every day, which is created at midnight. -/
def dailyAt (zone : String) : TimedSchedule :=
  ⟨1, "cron", some "0 8 * * *", zone, none, true, 0⟩

/-- A schedule that has never run is not due a minute after eight. One for eight o'clock in Shanghai
that ran then is due again at eight in UTC, the afternoon of the same day. -/
theorem first_instant_missed :
    ¬ Meets (apply dailyCron) (AtSweep (FiresWhenDue dailyCron)) ⟨[], []⟩
        [.create (dailyAt "UTC"), .sweep 28860 fun _ => []] ∧
      ¬ Meets (apply dailyCron) (AtSweep (FiresWhenDue dailyCron)) ⟨[], []⟩
        [.create (dailyAt "Asia/Shanghai"), .start 1 0, .sweep 28860 fun _ => []] := by
  constructor
  · rintro ⟨-, hsweep, -⟩
    have hagree := (firesWhenDue_iff dailyCron_exact _ _).mp hsweep (dailyAt "UTC")
      List.mem_cons_self rfl rfl _ rfl
    exact hagree ⟨28800, by norm_num [dailyAt], by norm_num, rfl, 0,
      by norm_num [eightOClock, dailyAt]⟩
  · rintro ⟨-, -, hsweep, -⟩
    have hagree := (firesWhenDue_iff dailyCron_exact _ _).mp hsweep (dailyAt "Asia/Shanghai")
      List.mem_cons_self rfl rfl _ rfl
    have hzones : Elapsed dailyCron "0 8 * * *" "UTC" 0 28860 ↔
        Elapsed dailyCron "0 8 * * *" "Asia/Shanghai" 0 28860 := hagree
    obtain ⟨t, hpos, hle, -, k, rfl⟩ := hzones.mp
      ⟨28800, by norm_num, by norm_num, rfl, 0, by norm_num [eightOClock]⟩
    rw [eightOClock, if_neg (by decide)] at hpos hle
    have hk : 0 < k := by exact_mod_cast (by linarith : (0 : ℚ) < k)
    have hone : (1 : ℚ) ≤ k := by exact_mod_cast hk
    linarith

/-- A schedule for eight o'clock in UTC that has run is due when the next eight o'clock has come. -/
theorem second_instant_fires :
    Meets (apply dailyCron) (AtSweep (FiresWhenDue dailyCron)) ⟨[], []⟩
      [.create (dailyAt "UTC"), .start 1 28800, .sweep 115200 fun _ => [115201]] := by
  refine (due_when_matched_iff dailyCron dailyCron_exact ⟨[], []⟩ _).mpr
    ⟨trivial, trivial, fun s hs _ _ e _ => ?_, trivial⟩
  obtain rfl := List.mem_singleton.mp hs
  exact Iff.rfl

end SweepDb

end LarkPlat
