import LarkPlat.EventOnce
import LarkPlat.EventPasses

/-!
# Bad Events in a Batch

A batch is processed in one session, so a bad event in it can reach the others: it raises, or rows
that cannot be flushed are lost with all rows of the batch, or its dead letter flushes what waits,
and a later event finds a row that it would not have found. The batch is compared with the one in
which the bad events are left out.

## Main results

* `isolates_iff`: a call keeps its bad events apart exactly if its payload can be normalized, each
  event can be processed in its session, each dead letter can be written, and each valid event finds
  in its session what it finds in that of the batch without the bad ones.
* `number_in_batch`: a number among the events of a batch.
-/

namespace LarkPlat

open Outcomes IngestSession

/-! ### The inbox -/

namespace Intake

/-- The rows of the inbox that are no dead letters. -/
def live (a : Intake) : List InboxRow := a.inbox.filter fun r => decide (r.status ≠ .deadLetter)

/-- The dead letters. -/
def letters (a : Intake) : List InboxRow := a.inbox.filter fun r => decide (r.status = .deadLetter)

/-- The rows of a key, without the dead letters. -/
def keyed (k : String) (a : Intake) : ℕ := a.live.countP fun r => decide (r.eventKey = some k)

variable {a b : Intake} {row : InboxRow}

theorem live_append : (a.append b).live = a.live ++ b.live := List.filter_append _ _

theorem letters_append : (a.append b).letters = a.letters ++ b.letters := List.filter_append _ _

theorem keyed_append (k : String) : (a.append b).keyed k = a.keyed k + b.keyed k := by
  rw [keyed, live_append, List.countP_append]
  rfl

theorem live_of_letters {rows : List InboxRow} (h : ∀ r ∈ rows, r.status = .deadLetter) :
    live ⟨rows, [], []⟩ = [] :=
  List.filter_eq_nil_iff.mpr fun r hr hd => of_decide_eq_true hd (h r hr)

theorem letters_of_letters {rows : List InboxRow} (h : ∀ r ∈ rows, r.status = .deadLetter) :
    letters ⟨rows, [], []⟩ = rows :=
  List.filter_eq_self.mpr fun r hr => decide_eq_true (h r hr)

end Intake

/-! ### Batches -/

/-- The loop of `ingest`, over events with the turns in which they are processed. -/
def processAll (env : IngestEnv) : List (Turn × Option RawEvent) → IngestM (List EventOutcome)
  | [] => pure []
  | (turn, raw) :: rest => do
      let outcome ← ingestEvent env turn raw
      let outcomes ← processAll env rest
      pure (outcome :: outcomes)

/-- The loop and the commit. -/
def ingestBatch (env : IngestEnv) (batch : List (Turn × Option RawEvent)) :
    IngestM (List EventOutcome) := do
  let outcomes ← processAll env batch
  .change (·.commit env.columns)
  pure outcomes

/-- The events of a call with their turns. -/
def IngestCall.turned (env : IngestEnv) (call : IngestCall) : List (Turn × Option RawEvent) :=
  (call.events env).zipIdx.map fun x => (call.turn x.2, x.1)

/-- The name of the metric cannot be resolved. -/
def nameless (env : EventEnv) (e : RawEvent) : Bool :=
  match namedEvent env e with
  | .ok e' =>
      match metricNameOf env e' with
      | .ok none => true
      | _ => false
  | .error _ => false

/-- The event is no dictionary, or it breaks the schema, or it is a metric without a name. -/
def badEvent (env : EventEnv) : Option RawEvent → Bool
  | none => true
  | some e =>
      match validateEvent env e with
      | .ok none => decide (e.get "kind" = .str "metric") && nameless env e
      | _ => true

/-- The batch without the bad events. -/
def kept (env : EventEnv) (batch : List (Turn × Option RawEvent)) :
    List (Turn × Option RawEvent) :=
  batch.filter fun x => !badEvent env x.2

/-! ### What is asked for -/

/-- The row is a dead letter of the event, which may have got the name of its metric before. -/
structure IsLetterOf (env : EventEnv) (raw : Option RawEvent) (row : InboxRow) : Prop where
  status : row.status = .deadLetter
  raw : row.raw = .event raw ∨
    ∃ e e', raw = some e ∧ namedEvent env e = .ok e' ∧ row.raw = .event (some e')

/-- The events that are rejected. -/
def rejectedOf : List EventOutcome → List (Option RawEvent) → List (Option RawEvent)
  | out :: outs, raw :: rest =>
      if out.accepted then rejectedOf outs rest else raw :: rejectedOf outs rest
  | _, _ => []

/-- The events that the response counts as rejected. -/
def IngestResponse.rejectedOf (events : List (Option RawEvent)) :
    IngestResponse → List (Option RawEvent)
  | .counted outcomes => LarkPlat.rejectedOf outcomes events
  | .unsupported => []

/-- A call that keeps its bad events apart: each event is counted once, each rejected one has a dead
letter of its own, and without the bad events the call would have left the same rows, samples and
alerts. -/
structure KeptApart (env : IngestEnv) (st : MonStore) (call : IngestCall)
    (response : IngestResponse) (s : IngestSession) : Prop where
  counted : response.accepted + response.rejected = (call.events env).length
  lettered : ∃ rows, (st.intake.letters ++ rows).Sublist s.store.intake.letters ∧
    List.Forall₂ (IsLetterOf env.toEventEnv) (response.rejectedOf (call.events env)) rows
  absent : ∃ outcomes t,
    ingestBatch env (kept env.toEventEnv (call.turned env)) (.opened st) = .ok (outcomes, t) ∧
      s.store.intake.live = t.store.intake.live ∧
      s.store.intake.samples = t.store.intake.samples ∧ s.store.monitor = t.store.monitor

/-- The call returns, and keeps its bad events apart. -/
def IngestCall.Isolates (env : IngestEnv) (st : MonStore) (call : IngestCall) : Prop :=
  ∃ response s, ingest env call (.opened st) = .ok (response, s) ∧
    KeptApart env st call response s

/-! ### The condition -/

/-- A bad event whose dead letter can be written, or that is known already. -/
inductive Lettered (env : IngestEnv) (turn : Turn) (s : IngestSession) (e : RawEvent) : Prop where
  | invalid {error : String} (h : validateEvent env.toEventEnv e = .ok (some error))
      (hletter : letterRows env turn.now (some e) error none ≠ [])
  | known {e' : RawEvent} {fingerprint : Json} (h : Prepared env.toEventEnv e e' fingerprint)
      (hknown : (e'.key env.toEventEnv).any s.knows = true)
  | nameless {e' : RawEvent} {fingerprint : Json} (h : Prepared env.toEventEnv e e' fingerprint)
      (hnew : (e'.key env.toEventEnv).any s.knows = false)
      (hmetric : e'.get "kind" = .str "metric") {severity : String}
      (hseverity : env.lowered ((e'.get "severity").pyOr (.str "warning")) = .ok severity)
      {ts : Stamp} (hts : coerceTs env.toEventEnv turn.now (e'.get "ts") = .ok ts)
      (hname : metricNameOf env.toEventEnv e' = .ok none)
      (hletter : letterRows env turn.now (some e') "unresolvable metric_name" none ≠ [])

/-- The events of a batch can be processed in a session, and the valid ones among them find the same
there as in another session, in which the bad ones are left out. -/
inductive Undisturbed (env : IngestEnv) :
    List (Turn × Option RawEvent) → IngestSession → IngestSession → Prop where
  | nil (s t : IngestSession) : Undisturbed env [] s t
  | bad {turn : Turn} {e : RawEvent} {rest : List (Turn × Option RawEvent)} {s t : IngestSession}
      (hbad : badEvent env.toEventEnv (some e) = true) (h : Lettered env turn s e)
      (hrest : ∀ out s', ingestEvent env turn (some e) s = .ok (out, s') →
        Undisturbed env rest s' t) : Undisturbed env ((turn, some e) :: rest) s t
  | known {turn : Turn} {e e' : RawEvent} {fingerprint : Json}
      {rest : List (Turn × Option RawEvent)} {s t : IngestSession}
      (hgood : badEvent env.toEventEnv (some e) = false)
      (h : Prepared env.toEventEnv e e' fingerprint)
      (hs : (e'.key env.toEventEnv).any s.knows = true)
      (ht : (e'.key env.toEventEnv).any t.knows = true) (hrest : Undisturbed env rest s t) :
      Undisturbed env ((turn, some e) :: rest) s t
  | stored {turn : Turn} {e e' : RawEvent} {fingerprint : Json}
      {rest : List (Turn × Option RawEvent)} {s t : IngestSession}
      (hgood : badEvent env.toEventEnv (some e) = false)
      (h : Prepared env.toEventEnv e e' fingerprint)
      (hs : (e'.key env.toEventEnv).any s.knows = false)
      (ht : (e'.key env.toEventEnv).any t.knows = false) {r : Reading}
      (hr : Reads env.toEventEnv turn.now e' r)
      (hrow : env.columns.inbox
        (inboxRow env.toEventEnv e' r.ts r.value r.severity fingerprint) = true)
      (hsample : ∀ x ∈ r.sample env.toEventEnv e' fingerprint,
        s.TakesSample env.columns x ∧ t.TakesSample env.columns x)
      (hentity : (∃ entityId, e'.entityId = .str entityId) ∨
        s.store.monitor.db.enabledRules = [])
      (hrest : ∀ s' t', ingestEvent env turn (some e) s = .ok (.taken, s') →
        ingestEvent env turn (some e) t = .ok (.taken, t') → Undisturbed env rest s' t') :
      Undisturbed env ((turn, some e) :: rest) s t

/-! ### Dead letters -/

section Letters

variable {env : IngestEnv} {turn : Turn} {s s' : IngestSession} {e e' : RawEvent}

theorem deadLetterRow_raw {env : EventEnv} {now : Stamp} {raw : Option RawEvent} {error : String}
    {detail : Option String} {row : InboxRow}
    (h : deadLetterRow env now raw error detail = .ok row) : row.raw = .event raw := by
  unfold deadLetterRow at h
  obtain ⟨ts, -, h⟩ := bind_eq_ok.mp h
  obtain ⟨value, -, h⟩ := bind_eq_ok.mp h
  obtain rfl := Except.ok.inj h
  rfl

theorem letterRows_cases (env : IngestEnv) (now : Stamp) (raw : Option RawEvent) (error : String)
    (detail : Option String) :
    letterRows env now raw error detail = [] ∨
      ∃ row, letterRows env now raw error detail = [row] ∧ row.status = .deadLetter ∧
        row.raw = .event raw := by
  rw [letterRows]
  cases hrow : deadLetterRow env.toEventEnv now raw error detail with
  | error e => exact .inl rfl
  | ok row =>
      dsimp only
      split_ifs
      · exact .inr ⟨row, rfl, (deadLetterRow_ok hrow).1, deadLetterRow_raw hrow⟩
      · exact .inl rfl

theorem letterRows_status {now : Stamp} {raw : Option RawEvent} {error : String}
    {detail : Option String} :
    ∀ r ∈ letterRows env now raw error detail, r.status = .deadLetter := by
  intro r hr
  rcases letterRows_cases env now raw error detail with hnil | ⟨row, hone, hstatus, -⟩
  · rw [hnil] at hr
    cases hr
  · rw [hone, List.mem_singleton] at hr
    exact hr ▸ hstatus

theorem Leads.of_letters {columns : Columns} {rows : List InboxRow}
    (h : Leads columns s s' ⟨rows, [], []⟩ s.daily s.store.monitor)
    (hrows : ∀ r ∈ rows, r.status = .deadLetter) :
    s'.intake.live = s.intake.live ∧ s'.intake.samples = s.intake.samples ∧
      s'.intake.letters = s.intake.letters ++ rows := by
  rw [h.intake, Intake.live_append, Intake.letters_append, Intake.live_of_letters hrows,
    Intake.letters_of_letters hrows, List.append_nil]
  exact ⟨rfl, List.append_nil _, rfl⟩

theorem not_nameless (hgood : badEvent env.toEventEnv (some e) = false)
    {fingerprint : Json} (h : Prepared env.toEventEnv e e' fingerprint)
    (hmetric : e'.get "kind" = .str "metric") :
    metricNameOf env.toEventEnv e' ≠ .ok none := by
  intro hname
  have hkind : e.get "kind" = .str "metric" :=
    (namedEvent_get env h.named (by decide)).symm.trans hmetric
  rw [badEvent, h.valid] at hgood
  dsimp only at hgood
  rw [decide_eq_true hkind, nameless, h.named] at hgood
  dsimp only at hgood
  rw [hname] at hgood
  cases hgood

theorem valid_of_good (hgood : badEvent env.toEventEnv (some e) = false) :
    validateEvent env.toEventEnv e = .ok none := by
  rw [badEvent] at hgood
  cases hvalid : validateEvent env.toEventEnv e with
  | error f =>
      rw [hvalid] at hgood
      cases hgood
  | ok checked =>
      cases checked with
      | none => rfl
      | some error =>
          rw [hvalid] at hgood
          cases hgood

/-- An event that can be processed leaves the session able to go on, and one dead letter at most,
if it is rejected. -/
theorem letters_event {raw : Option RawEvent} {out : EventOutcome} (hready : Ready env.columns s)
    (hrun : ingestEvent env turn raw s = .ok (out, s')) (hflush : s'.Flushable env.columns) :
    Ready env.columns s' ∧ s'.intake.letters.length ≤
      s.intake.letters.length + if out.accepted then 0 else 1 := by
  have hletter {now : Stamp} {raw : Option RawEvent} {error : String} {detail : Option String}
      (h : Leads env.columns s s' ⟨letterRows env now raw error detail, [], []⟩ s.daily
        s.store.monitor) : s'.intake.letters.length ≤ s.intake.letters.length + 1 := by
    rw [(h.of_letters letterRows_status).2.2, List.length_append]
    rcases letterRows_cases env now raw error detail with hnil | ⟨row, hone, -⟩
    · rw [hnil]
      exact Nat.le_succ _
    · rw [hone]
      exact le_rfl
  cases raw with
  | none => cases hrun
  | some e =>
      cases hvalid : validateEvent env.toEventEnv e with
      | error f =>
          rw [ingestEvent, processEvent, hvalid] at hrun
          cases hrun
      | ok checked =>
          cases checked with
          | some error =>
              obtain ⟨s₁, hrun₁, hleads⟩ := ingestEvent_invalid hvalid hready
              obtain ⟨rfl, rfl⟩ := returns_inj hrun₁ hrun
              exact ⟨hleads.ready, hletter hleads⟩
          | none =>
              have hpass : EventPasses env turn s e := by
                by_contra hnot
                exact (ingestEvent_doomed hvalid hnot).of_ok hrun hflush
              cases hpass with
              | known h hknown =>
                  obtain ⟨rfl, rfl⟩ := returns_inj (ingestEvent_known h hknown) hrun
                  exact ⟨hready, le_rfl⟩
              | nameless h hnew hmetric hseverity hts hname =>
                  obtain ⟨s₁, hrun₁, hleads⟩ :=
                    ingestEvent_nameless h hnew hmetric hseverity hts hname hready
                  obtain ⟨rfl, rfl⟩ := returns_inj hrun₁ hrun
                  exact ⟨hleads.ready, hletter hleads⟩
              | stored h hnew hr hrow hsample hentity =>
                  obtain ⟨s₁, hrun₁, hleads⟩ :=
                    ingestEvent_stored h hnew hr hrow hsample hentity hready
                  obtain ⟨rfl, rfl⟩ := returns_inj hrun₁ hrun
                  refine ⟨hleads.ready, le_of_eq ?_⟩
                  rw [hleads.intake, Intake.letters_append, List.length_append]
                  rfl

end Letters

/-! ### Keys -/

section Keys

variable {env : IngestEnv} {turn : Turn} {s s' : IngestSession} {k : String}

theorem knows_stable (columns : Columns) (k : String) :
    SessionStable columns (fun s => s.knows k = true) fun _ => True where
  raise _ _ _ := trivial
  row _ _ h := h
  evaluated _ _ h := h
  sample s x h := by
    rcases upsertDaily_cases (s.add ⟨[], [x], []⟩) x with ⟨-, heq⟩ | ⟨-, heq⟩
    · rw [heq]
      exact h
    · rw [heq]
      exact h
  engine _ _ h := h
  flush s h _ := by
    rw [knows, flushed, Intake.append]
    dsimp only
    rw [List.any_append]
    exact Bool.or_eq_true_iff.mpr (.inl h)
  commit s h _ := by
    rw [knows, flushed, Intake.append]
    dsimp only
    rw [List.any_append]
    exact Bool.or_eq_true_iff.mpr (.inl h)
  dead s row h := by
    rw [knows, Intake.append]
    dsimp only
    rw [List.any_append]
    exact Bool.or_eq_true_iff.mpr (.inl h)

theorem keyed_event (k : String) {raw : Option RawEvent} {out : EventOutcome}
    (hrun : ingestEvent env turn raw s = .ok (out, s')) :
    s.intake.keyed k ≤ s'.intake.keyed k ∧
      (s.knows k = true → s'.knows k = true ∧ s'.intake.keyed k = s.intake.keyed k) := by
  obtain ⟨added, hleaves, hgrows⟩ := (ingestEvent_ends env turn raw s).of_ok hrun
  have hknows (h : s.knows k = true) : s'.knows k = true :=
    (((knows_stable env.columns k).ingestEvent turn raw).ends s h).of_ok hrun
  rw [hgrows.intake, Intake.keyed_append]
  refine ⟨Nat.le_add_right _ _, fun h => ⟨hknows h, ?_⟩⟩
  rw [Nat.add_eq_left]
  cases hleaves with
  | rejected _ _ _ hdead =>
      have hnone : added.live = [] :=
        List.filter_eq_nil_iff.mpr fun r hr hd => of_decide_eq_true hd (hdead.inbox r hr).1
      rw [Intake.keyed, hnone]
      rfl
  | duplicate => rfl
  | @taken e hnew row horigin hkey hstatus hraw samples hone hsamples =>
      refine List.countP_eq_zero.mpr fun r hr hd => ?_
      have hmem := (List.mem_filter.mp hr).1
      rw [List.mem_singleton.mp hmem, hkey, decide_eq_true_eq] at hd
      rw [hnew k hd] at h
      cases h

end Keys

/-! ### Runs -/

section Runs

variable {env : IngestEnv} {batch : List (Turn × Option RawEvent)} {s s' : IngestSession}
  {outs : List EventOutcome}

theorem ingestEvents_eq (env : IngestEnv) (turn : ℕ → Turn) (i : ℕ)
    (events : List (Option RawEvent)) :
    ingestEvents env turn i events =
      processAll env ((events.zipIdx i).map fun x => (turn x.2, x.1)) := by
  induction events generalizing i with
  | nil => rfl
  | cons raw rest ih =>
      rw [ingestEvents, List.zipIdx_cons, List.map_cons, processAll, ih]

theorem processAll_cons_iff {turn : Turn} {raw : Option RawEvent} :
    processAll env ((turn, raw) :: batch) s = .ok (outs, s') ↔
      ∃ out s₁ outs', ingestEvent env turn raw s = .ok (out, s₁) ∧
        processAll env batch s₁ = .ok (outs', s') ∧ outs = out :: outs' := by
  rw [processAll, bind_returns_iff]
  constructor
  · rintro ⟨out, s₁, hrun, hrest⟩
    obtain ⟨outs', s₂, hruns, heq⟩ := bind_returns_iff.mp hrest
    obtain ⟨rfl, rfl⟩ := Prod.mk.inj (Except.ok.inj heq)
    exact ⟨out, s₁, outs', hrun, hruns, rfl⟩
  · rintro ⟨out, s₁, outs', hrun, hruns, rfl⟩
    exact ⟨out, s₁, hrun, bind_of_ok hruns⟩

theorem rejectedOf_cons (out : EventOutcome) (outs : List EventOutcome) (raw : Option RawEvent)
    (rest : List (Option RawEvent)) :
    rejectedOf (out :: outs) (raw :: rest) = rejectedOf [out] [raw] ++ rejectedOf outs rest := by
  rw [rejectedOf, rejectedOf]
  split_ifs <;> rfl

/-- A batch that ends with rows that can be flushed has had such rows all along. -/
theorem flushable_of_run (hrun : processAll env batch s = .ok (outs, s'))
    (hflush : s'.Flushable env.columns) : s.Flushable env.columns := by
  induction batch generalizing s outs with
  | nil =>
      obtain ⟨-, rfl⟩ := Prod.mk.inj (Except.ok.inj hrun)
      exact hflush
  | cons x rest ih =>
      obtain ⟨out, s₁, outs', hevent, hrest, -⟩ := processAll_cons_iff.mp hrun
      by_contra hnot
      exact (((doomed_stable env.columns).ingestEvent x.1 x.2).ends s hnot).of_ok hevent
        (ih hrest)

theorem letters_run (hready : Ready env.columns s) (hrun : processAll env batch s = .ok (outs, s'))
    (hflush : s'.Flushable env.columns) :
    s'.intake.letters.length ≤
      s.intake.letters.length + (rejectedOf outs (batch.map Prod.snd)).length := by
  induction batch generalizing s outs with
  | nil =>
      obtain ⟨rfl, rfl⟩ := Prod.mk.inj (Except.ok.inj hrun)
      exact le_rfl
  | cons x rest ih =>
      obtain ⟨out, s₁, outs', hevent, hrest, rfl⟩ := processAll_cons_iff.mp hrun
      obtain ⟨hready₁, hone⟩ := letters_event hready hevent (flushable_of_run hrest hflush)
      refine (ih hready₁ hrest).trans ?_
      rw [List.map_cons, rejectedOf]
      split_ifs at hone ⊢
      · exact Nat.add_le_add_right hone _
      · rw [List.length_cons, Nat.add_comm (rejectedOf outs' _).length 1, ← Nat.add_assoc]
        exact Nat.add_le_add_right hone _

theorem keyed_run (k : String) (hrun : processAll env batch s = .ok (outs, s')) :
    s.intake.keyed k ≤ s'.intake.keyed k ∧
      (s.knows k = true → s'.intake.keyed k = s.intake.keyed k) := by
  induction batch generalizing s outs with
  | nil =>
      obtain ⟨-, rfl⟩ := Prod.mk.inj (Except.ok.inj hrun)
      exact ⟨le_rfl, fun _ => rfl⟩
  | cons x rest ih =>
      obtain ⟨out, s₁, outs', hevent, hrest, -⟩ := processAll_cons_iff.mp hrun
      obtain ⟨hle, hsame⟩ := keyed_event k hevent
      obtain ⟨hle', hsame'⟩ := ih hrest
      exact ⟨hle.trans hle', fun h => (hsame' (hsame h).1).trans (hsame h).2⟩

theorem length_run (hrun : processAll env batch s = .ok (outs, s')) :
    outs.length = batch.length := by
  induction batch generalizing s outs with
  | nil =>
      obtain ⟨rfl, -⟩ := Prod.mk.inj (Except.ok.inj hrun)
      rfl
  | cons x rest ih =>
      obtain ⟨out, s₁, outs', -, hrest, rfl⟩ := processAll_cons_iff.mp hrun
      exact congrArg Nat.succ (ih hrest)

end Runs

/-! ### Two sessions -/

/-- The sessions agree, but for dead letters and for what is flushed. -/
structure Alike (s t : IngestSession) : Prop where
  monitor : s.store.monitor = t.store.monitor
  live : s.intake.live = t.intake.live
  samples : s.intake.samples = t.intake.samples
  daily : s.daily = t.daily

section Alike

variable {env : IngestEnv} {turn : Turn} {batch : List (Turn × Option RawEvent)}
  {s s' t t' : IngestSession} {e e' : RawEvent}

theorem Alike.bad (h : Alike s t) {rows : List InboxRow}
    (hs : Leads env.columns s s' ⟨rows, [], []⟩ s.daily s.store.monitor)
    (hrows : ∀ r ∈ rows, r.status = .deadLetter) : Alike s' t := by
  obtain ⟨hlive, hsamples, -⟩ := hs.of_letters hrows
  exact ⟨hs.monitor.trans h.monitor, hlive.trans h.live, hsamples.trans h.samples,
    hs.daily.trans h.daily⟩

theorem Alike.stored (h : Alike s t) {added : Intake} {x : Option MetricSample}
    (hs : Leads env.columns s s' added (tally x s.daily) (rulesAfter env turn e s.store.monitor))
    (ht : Leads env.columns t t' added (tally x t.daily) (rulesAfter env turn e t.store.monitor)) :
    Alike s' t' where
  monitor := by rw [hs.monitor, ht.monitor, h.monitor]
  live := by rw [hs.intake, ht.intake, Intake.live_append, Intake.live_append, h.live]
  samples := by
    rw [hs.intake, ht.intake]
    exact congrArg (· ++ _) h.samples
  daily := by rw [hs.daily, ht.daily, h.daily]

/-- What a bad event leaves: a dead letter if it is rejected, and nothing else. -/
theorem Lettered.returns (h : Lettered env turn s e) (hready : Ready env.columns s) :
    ∃ out s' rows, ingestEvent env turn (some e) s = .ok (out, s') ∧
      Leads env.columns s s' ⟨rows, [], []⟩ s.daily s.store.monitor ∧
      (∀ r ∈ rows, r.status = .deadLetter) ∧
      List.Forall₂ (IsLetterOf env.toEventEnv) (rejectedOf [out] [some e]) rows := by
  cases h with
  | @invalid error h hletter =>
      obtain ⟨s', hrun, hleads⟩ := ingestEvent_invalid h hready
      obtain ⟨row, hone, hstatus, hraw⟩ := (letterRows_cases _ _ _ _ _).resolve_left hletter
      refine ⟨_, s', _, hrun, hleads, letterRows_status, ?_⟩
      rw [hone]
      exact .cons ⟨hstatus, .inl hraw⟩ .nil
  | known h hknown =>
      refine ⟨_, s, [], ingestEvent_known h hknown, ⟨hready, ?_, rfl, rfl⟩, ?_, .nil⟩
      · exact (Intake.append_none _).symm
      · exact fun _ hr => by cases hr
  | nameless h hnew hmetric hseverity hts hname hletter =>
      obtain ⟨s', hrun, hleads⟩ :=
        ingestEvent_nameless h hnew hmetric hseverity hts hname hready
      obtain ⟨row, hone, hstatus, hraw⟩ := (letterRows_cases _ _ _ _ _).resolve_left hletter
      refine ⟨_, s', _, hrun, hleads, letterRows_status, ?_⟩
      rw [hone]
      exact .cons ⟨hstatus, .inr ⟨_, _, rfl, h.named, hraw⟩⟩ .nil

theorem kept_bad {rest : List (Turn × Option RawEvent)}
    (h : badEvent env.toEventEnv (some e) = true) :
    kept env.toEventEnv ((turn, some e) :: rest) = kept env.toEventEnv rest :=
  List.filter_cons_of_neg (by rw [h]; exact Bool.false_ne_true)

theorem kept_good {rest : List (Turn × Option RawEvent)}
    (h : badEvent env.toEventEnv (some e) = false) :
    kept env.toEventEnv ((turn, some e) :: rest) =
      (turn, some e) :: kept env.toEventEnv rest :=
  List.filter_cons_of_pos (by rw [h]; rfl)

/-- **Both batches** can be processed, and end alike. -/
theorem Undisturbed.runs (h : Undisturbed env batch s t) (hs : Ready env.columns s)
    (ht : Ready env.columns t) (halike : Alike s t) :
    ∃ outs s' outs' t' rows, processAll env batch s = .ok (outs, s') ∧
      processAll env (kept env.toEventEnv batch) t = .ok (outs', t') ∧
      s'.Flushable env.columns ∧ t'.Flushable env.columns ∧ Alike s' t' ∧
      s'.intake.letters = s.intake.letters ++ rows ∧
      List.Forall₂ (IsLetterOf env.toEventEnv) (rejectedOf outs (batch.map Prod.snd)) rows := by
  induction h with
  | nil s t =>
      exact ⟨[], s, [], t, [], rfl, rfl, hs.flushable, ht.flushable, halike,
        (List.append_nil _).symm, .nil⟩
  | @bad turn e rest s t hbad h hrest ih =>
      obtain ⟨out, s₁, rows, hrun, hleads, hrows, hletters⟩ := h.returns hs
      obtain ⟨outs, s', outs', t', rows', hruns, hruns', hflush, hflush', halike', hlast, hall⟩ :=
        ih out s₁ hrun hleads.ready ht (halike.bad hleads hrows)
      refine ⟨out :: outs, s', outs', t', rows ++ rows',
        processAll_cons_iff.mpr ⟨out, s₁, outs, hrun, hruns, rfl⟩, ?_, hflush, hflush', halike',
        ?_, ?_⟩
      · rw [kept_bad hbad]
        exact hruns'
      · rw [hlast, (hleads.of_letters hrows).2.2, List.append_assoc]
      · rw [List.map_cons, rejectedOf_cons]
        exact List.rel_append hletters hall
  | @known turn e e' fingerprint rest s t hgood h hknown hknown' hrest ih =>
      obtain ⟨outs, s', outs', t', rows, hruns, hruns', hlast⟩ := ih hs ht halike
      refine ⟨.duplicate :: outs, s', .duplicate :: outs', t', rows,
        processAll_cons_iff.mpr ⟨_, s, outs, ingestEvent_known h hknown, hruns, rfl⟩, ?_, hlast⟩
      rw [kept_good hgood]
      exact processAll_cons_iff.mpr ⟨_, t, outs', ingestEvent_known h hknown', hruns', rfl⟩
  | @stored turn e e' fingerprint rest s t hgood h hnew hnew' r hr hrow hsample hentity hrest ih =>
      obtain ⟨s₁, hrun, hleads⟩ := ingestEvent_stored h hnew hr hrow
        (fun x hx => (hsample x hx).1) hentity hs
      obtain ⟨t₁, hrun', hleads'⟩ := ingestEvent_stored h hnew' hr hrow
        (fun x hx => (hsample x hx).2) (halike.monitor ▸ hentity) ht
      obtain ⟨outs, s', outs', t', rows, hruns, hruns', hflush, hflush', halike', hlast, hall⟩ :=
        ih s₁ t₁ hrun hrun' hleads.ready hleads'.ready (halike.stored hleads hleads')
      refine ⟨.taken :: outs, s', .taken :: outs', t', rows,
        processAll_cons_iff.mpr ⟨_, s₁, outs, hrun, hruns, rfl⟩, ?_, hflush, hflush', halike', ?_,
        hall⟩
      · rw [kept_good hgood]
        exact processAll_cons_iff.mpr ⟨_, t₁, outs', hrun', hruns', rfl⟩
      · rw [hlast, hleads.intake, Intake.letters_append]
        exact congrArg (· ++ rows) (List.append_nil _)

end Alike

/-! ### From the runs to the condition -/

section Runs

variable {env : IngestEnv} {turn : Turn} {batch : List (Turn × Option RawEvent)}
  {s s' t t' : IngestSession} {e e' : RawEvent} {fingerprint : Json} {out : EventOutcome}
  {outs outs' : List EventOutcome}

theorem Prepared.unique {e₁ e₂ : RawEvent} {fp₁ fp₂ : Json} (h₁ : Prepared env.toEventEnv e e₁ fp₁)
    (h₂ : Prepared env.toEventEnv e e₂ fp₂) : e₁ = e₂ ∧ fp₁ = fp₂ := by
  obtain rfl := Except.ok.inj (h₁.named.symm.trans h₂.named)
  exact ⟨rfl, Except.ok.inj (h₁.fingerprint.symm.trans h₂.fingerprint)⟩

theorem Reads.unique {now : Stamp} {r₁ r₂ : Reading} (h₁ : Reads env.toEventEnv now e r₁)
    (h₂ : Reads env.toEventEnv now e r₂) : r₁ = r₂ := by
  cases r₁ with
  | mk severity₁ ts₁ name₁ value₁ =>
      cases r₂ with
      | mk severity₂ ts₂ name₂ value₂ =>
          obtain rfl := Except.ok.inj (h₁.severity.symm.trans h₂.severity)
          obtain rfl := Except.ok.inj (h₁.ts.symm.trans h₂.ts)
          obtain rfl := Except.ok.inj (h₁.name.symm.trans h₂.name)
          obtain rfl := Except.ok.inj (h₁.value.symm.trans h₂.value)
          rfl

theorem nameless_of_bad (hbad : badEvent env.toEventEnv (some e) = true)
    (h : Prepared env.toEventEnv e e' fingerprint) :
    e'.get "kind" = .str "metric" ∧ metricNameOf env.toEventEnv e' = .ok none := by
  rw [badEvent, h.valid] at hbad
  dsimp only at hbad
  rw [Bool.and_eq_true, decide_eq_true_eq, nameless, h.named] at hbad
  obtain ⟨hkind, hname⟩ := hbad
  refine ⟨(namedEvent_get env h.named (by decide)).trans hkind, ?_⟩
  dsimp only at hname
  cases hres : metricNameOf env.toEventEnv e' with
  | error f =>
      rw [hres] at hname
      cases hname
  | ok name =>
      cases name with
      | none => rfl
      | some name =>
          rw [hres] at hname
          cases hname

/-- A bad event that is processed has its dead letter, if one is counted for it. -/
theorem lettered_of_run (hbad : badEvent env.toEventEnv (some e) = true)
    (hready : Ready env.columns s) (hrun : ingestEvent env turn (some e) s = .ok (out, s'))
    (hflush : s'.Flushable env.columns)
    (hcount : s.intake.letters.length + (rejectedOf [out] [some e]).length ≤
      s'.intake.letters.length) : Lettered env turn s e := by
  have hletter {now : Stamp} {raw : Option RawEvent} {error : String} {detail : Option String}
      {deadLettered : Bool} (hout : out = .rejected error deadLettered)
      (h : Leads env.columns s s' ⟨letterRows env now raw error detail, [], []⟩ s.daily
        s.store.monitor) : letterRows env now raw error detail ≠ [] := by
    intro hnil
    rw [(h.of_letters letterRows_status).2.2, hnil, List.append_nil, hout] at hcount
    exact Nat.not_succ_le_self _ hcount
  cases hvalid : validateEvent env.toEventEnv e with
  | error f =>
      rw [ingestEvent, processEvent, hvalid] at hrun
      cases hrun
  | ok checked =>
      cases checked with
      | some error =>
          obtain ⟨s₁, hrun₁, hleads⟩ := ingestEvent_invalid hvalid hready
          obtain ⟨hout, rfl⟩ := returns_inj hrun₁ hrun
          exact .invalid hvalid (hletter hout.symm hleads)
      | none =>
          have hpass : EventPasses env turn s e := by
            by_contra hnot
            exact (ingestEvent_doomed hvalid hnot).of_ok hrun hflush
          cases hpass with
          | known h hknown => exact .known h hknown
          | nameless h hnew hmetric hseverity hts hname =>
              obtain ⟨s₁, hrun₁, hleads⟩ :=
                ingestEvent_nameless h hnew hmetric hseverity hts hname hready
              obtain ⟨hout, rfl⟩ := returns_inj hrun₁ hrun
              exact .nameless h hnew hmetric hseverity hts hname (hletter hout.symm hleads)
          | stored h hnew hr hrow hsample hentity =>
              obtain ⟨hmetric, hname⟩ := nameless_of_bad hbad h
              have hread := hr.name
              rw [if_pos hmetric, hname] at hread
              have hsome := hr.named hmetric
              rw [← Except.ok.inj hread] at hsome
              cases hsome

theorem passes_of_good (hgood : badEvent env.toEventEnv (some e) = false)
    (hrun : ingestEvent env turn (some e) s = .ok (out, s')) (hflush : s'.Flushable env.columns) :
    EventPasses env turn s e := by
  by_contra hnot
  exact (ingestEvent_doomed (valid_of_good hgood) hnot).of_ok hrun hflush

/-- Where one session knows a key and another one stores a row with it, the rows differ in the
end. -/
theorem live_ne_of_known {k : String} {t₁ : IngestSession} {batch' : List (Turn × Option RawEvent)}
    (hknown : s.knows k = true) (hkeyed : s.intake.keyed k = t.intake.keyed k)
    (hrun : processAll env batch s = .ok (outs, s'))
    (hstored : t₁.intake.keyed k = t.intake.keyed k + 1)
    (hrun' : processAll env batch' t₁ = .ok (outs', t')) : s'.intake.live ≠ t'.intake.live := by
  intro hlive
  have hsame : s'.intake.keyed k = t'.intake.keyed k := by
    rw [Intake.keyed, hlive]
    rfl
  have hs := (keyed_run k hrun).2 hknown
  have ht := (keyed_run k hrun').1
  omega

theorem keyed_stored {k : String} (hkey : e'.key env.toEventEnv = some k) {r : Reading}
    {samples : List MetricSample} {evaluated : List Origin} {daily : List DailyRow} {m : Monitor}
    (h : Leads env.columns s s'
      ⟨[inboxRow env.toEventEnv e' r.ts r.value r.severity fingerprint], samples, evaluated⟩
      daily m) : s'.intake.keyed k = s.intake.keyed k + 1 := by
  rw [h.intake, Intake.keyed_append]
  refine congrArg _ (List.countP_eq_length.mpr fun r hr => ?_)
  have hmem := (List.mem_filter.mp hr).1
  rw [List.mem_singleton.mp hmem]
  exact decide_eq_true hkey

/-- **From the runs.** If both batches can be processed, each rejected event has its dead letter,
and the rows are the same in the end, no event was disturbed. -/
theorem undisturbed_of_runs (hs : Ready env.columns s) (ht : Ready env.columns t)
    (halike : Alike s t) (hrun : processAll env batch s = .ok (outs, s'))
    (hflush : s'.Flushable env.columns)
    (hrun' : processAll env (kept env.toEventEnv batch) t = .ok (outs', t'))
    (hflush' : t'.Flushable env.columns) (hlive : s'.intake.live = t'.intake.live)
    (hcount : s.intake.letters.length + (rejectedOf outs (batch.map Prod.snd)).length ≤
      s'.intake.letters.length) : Undisturbed env batch s t := by
  induction batch generalizing s t outs outs' with
  | nil => exact .nil s t
  | cons x rest ih =>
      obtain ⟨turn, raw⟩ := x
      obtain ⟨out, s₁, outs₁, hevent, hrest, rfl⟩ := processAll_cons_iff.mp hrun
      have hflush₁ := flushable_of_run hrest hflush
      obtain ⟨hready₁, hone⟩ := letters_event hs hevent hflush₁
      have hbound := letters_run hready₁ hrest hflush
      have hrejected : (rejectedOf [out] [raw]).length = if out.accepted then 0 else 1 := by
        rw [rejectedOf]
        split_ifs <;> rfl
      change _ + (rejectedOf (out :: outs₁) (raw :: rest.map Prod.snd)).length ≤ _ at hcount
      rw [rejectedOf_cons, List.length_append] at hcount
      have hcount₁ : s.intake.letters.length + (rejectedOf [out] [raw]).length ≤
          s₁.intake.letters.length := by omega
      have hcount₂ : s₁.intake.letters.length + (rejectedOf outs₁ (rest.map Prod.snd)).length ≤
          s'.intake.letters.length := by omega
      cases raw with
      | none => cases hevent
      | some e =>
          cases hbad : badEvent env.toEventEnv (some e) with
          | true =>
              rw [kept_bad hbad] at hrun'
              have hlettered := lettered_of_run hbad hs hevent hflush₁ hcount₁
              refine .bad hbad hlettered fun out' s₂ hevent' => ?_
              obtain ⟨-, rfl⟩ := returns_inj hevent hevent'
              obtain ⟨_, s₂, rows, hevent', hleads, hrows, -⟩ := hlettered.returns hs
              obtain ⟨-, rfl⟩ := returns_inj hevent hevent'
              exact ih hready₁ ht (halike.bad hleads hrows) hrest hrun' hcount₂
          | false =>
              rw [kept_good hbad] at hrun'
              obtain ⟨out', t₁, outs₁', hevent', hrest', rfl⟩ := processAll_cons_iff.mp hrun'
              have hflush₁' := flushable_of_run hrest' hflush'
              have hkeyed (k : String) : s.intake.keyed k = t.intake.keyed k := by
                rw [Intake.keyed, halike.live]
                rfl
              have hpass' := passes_of_good hbad hevent' hflush₁'
              cases passes_of_good hbad hevent hflush₁ with
              | nameless h _ hmetric _ _ hname => exact absurd hname (not_nameless hbad h hmetric)
              | known h hknown =>
                  obtain ⟨-, rfl⟩ := returns_inj (ingestEvent_known h hknown) hevent
                  cases hpass' with
                  | nameless h _ hmetric _ _ hname =>
                      exact absurd hname (not_nameless hbad h hmetric)
                  | known h' hknown' =>
                      obtain ⟨rfl, -⟩ := h.unique h'
                      obtain ⟨-, rfl⟩ := Prod.mk.inj
                        (Except.ok.inj ((ingestEvent_known h hknown').symm.trans hevent'))
                      exact .known hbad h hknown hknown' (ih hs ht halike hrest hrest' hcount₂)
                  | stored h' hnew hr hrow hsample hentity =>
                      -- the other session stores a row that this one takes for a duplicate
                      obtain ⟨rfl, -⟩ := h.unique h'
                      obtain ⟨t₂, hstored, hleads⟩ :=
                        ingestEvent_stored h' hnew hr hrow hsample hentity ht
                      obtain ⟨-, rfl⟩ := returns_inj hstored hevent'
                      obtain ⟨k, hkey, hk⟩ := (Option.any_eq_true _ _).mp hknown
                      exact absurd hlive
                        (live_ne_of_known hk (hkeyed k) hrest (keyed_stored hkey hleads) hrest')
              | stored h hnew hr hrow hsample hentity =>
                  obtain ⟨s₂, hstored, hleads⟩ :=
                    ingestEvent_stored h hnew hr hrow hsample hentity hs
                  obtain ⟨-, rfl⟩ := returns_inj hstored hevent
                  cases hpass' with
                  | nameless h _ hmetric _ _ hname =>
                      exact absurd hname (not_nameless hbad h hmetric)
                  | known h' hknown' =>
                      obtain ⟨rfl, -⟩ := h.unique h'
                      obtain ⟨-, rfl⟩ := Prod.mk.inj
                        (Except.ok.inj ((ingestEvent_known h' hknown').symm.trans hevent'))
                      obtain ⟨k, hkey, hk⟩ := (Option.any_eq_true _ _).mp hknown'
                      exact absurd hlive.symm (live_ne_of_known hk (hkeyed k).symm hrest'
                        (keyed_stored hkey hleads) hrest)
                  | stored h' hnew' hr' hrow' hsample' hentity' =>
                      obtain ⟨rfl, rfl⟩ := h.unique h'
                      obtain rfl := hr.unique hr'
                      obtain ⟨t₂, hstored', hleads'⟩ :=
                        ingestEvent_stored h' hnew' hr' hrow' hsample' hentity' ht
                      obtain ⟨-, rfl⟩ := returns_inj hstored' hevent'
                      refine .stored hbad h hnew hnew' hr hrow
                        (fun x hx => ⟨hsample x hx, hsample' x hx⟩) hentity fun s₃ t₃ hs₃ ht₃ => ?_
                      obtain ⟨-, rfl⟩ := returns_inj hstored hs₃
                      obtain ⟨-, rfl⟩ := returns_inj hstored' ht₃
                      exact ih hleads.ready hleads'.ready (halike.stored hleads hleads') hrest
                        hrest' hcount₂

end Runs

/-! ### Calls -/

section Call

variable {env : IngestEnv} {st : MonStore} {call : IngestCall} {adapter : MonAdapter}

theorem ingestBatch_returns_iff {batch : List (Turn × Option RawEvent)} {s t : IngestSession}
    {outs : List EventOutcome} :
    ingestBatch env batch s = .ok (outs, t) ↔ ∃ s', processAll env batch s = .ok (outs, s') ∧
      s'.Flushable env.columns ∧ t = { s'.flushed with committed := s'.flushed.store } := by
  rw [ingestBatch, bind_returns_iff]
  constructor
  · rintro ⟨outs', s', hrun, hrest⟩
    obtain ⟨⟨⟩, s₂, hcommit, heq⟩ := bind_returns_iff.mp hrest
    obtain ⟨rfl, rfl⟩ := Prod.mk.inj (Except.ok.inj heq)
    exact ⟨s', hrun, commit_returns_iff.mp hcommit⟩
  · rintro ⟨s', hrun, hcommit⟩
    exact ⟨outs, s', hrun, bind_of_ok (commit_returns_iff.mpr hcommit)⟩

theorem ingest_turned (hne : call.events env ≠ []) {s : IngestSession} {response : IngestResponse}
    {t : IngestSession} : ingest env call s = .ok (response, t) ↔
      ∃ outs, ingestBatch env (call.turned env) s = .ok (outs, t) ∧ response = .counted outs := by
  rw [ingest_of_events hne, ingestEvents_eq]
  constructor
  · intro h
    obtain ⟨outs, s', hrun, hrest⟩ := bind_returns_iff.mp h
    obtain ⟨⟨⟩, s₂, hcommit, heq⟩ := bind_returns_iff.mp hrest
    obtain ⟨rfl, rfl⟩ := Prod.mk.inj (Except.ok.inj heq)
    exact ⟨outs, ingestBatch_returns_iff.mpr ⟨s', hrun, commit_returns_iff.mp hcommit⟩, rfl⟩
  · rintro ⟨outs, h, rfl⟩
    obtain ⟨s', hrun, hcommit⟩ := ingestBatch_returns_iff.mp h
    exact (bind_of_ok hrun).trans (bind_of_ok (commit_returns_iff.mpr hcommit))

theorem ingest_enabled (hon : call.featureEnabled = true) (hadapter : call.adapter = some adapter)
    (henabled : adapter.enabled = 1) (s : IngestSession) :
    ingest env call s = (IngestM.attempt
      (recognize env.toEventEnv call.nowIso adapter.type call.payload) >>= fun events =>
        if events.isEmpty then do
          deadLetter env (call.turn 0).now none "unsupported payload shape"
            (some ("\x7b\"adapter_id\": " ++ toString adapter.id ++ "\x7d"))
          .change (·.commit env.columns)
          pure .unsupported
        else do
          let outcomes ← ingestEvents env call.turn 0 events
          .change (·.commit env.columns)
          pure (.counted outcomes)) s := by
  rw [ingest, hadapter, if_neg (by rw [hon]; exact Bool.false_ne_true)]
  dsimp only
  rw [if_neg (not_not_intro henabled)]

theorem turned_snd (env : IngestEnv) (call : IngestCall) :
    (call.turned env).map Prod.snd = call.events env := by
  rw [IngestCall.turned, List.map_map]
  exact List.zipIdx_map_fst 0 _

theorem counted_run {batch : List (Turn × Option RawEvent)} {s s' : IngestSession}
    {outs : List EventOutcome} (hrun : processAll env batch s = .ok (outs, s')) :
    (IngestResponse.counted outs).accepted + (IngestResponse.counted outs).rejected =
      batch.length := by
  rw [IngestResponse.accepted, IngestResponse.rejected, ← length_run hrun]
  simpa using (List.length_eq_countP_add_countP EventOutcome.accepted (l := outs)).symm

theorem isolates_of_none (hready : Ready env.columns (.opened st))
    (hon : call.featureEnabled = true) (hadapter : call.adapter = some adapter)
    (henabled : adapter.enabled = 1)
    (hnone : recognize env.toEventEnv call.nowIso adapter.type call.payload = .ok []) :
    call.Isolates env st := by
  have hevents : call.events env = [] := events_eq hon hadapter henabled hnone
  have hturned : call.turned env = [] := by
    rw [IngestCall.turned, hevents]
    rfl
  obtain ⟨s, hdead, hleads⟩ := deadLetter_leads env (call.turn 0).now none
    "unsupported payload shape"
    (some ("\x7b\"adapter_id\": " ++ toString adapter.id ++ "\x7d")) hready
  obtain ⟨hlive, hsamples, hletters⟩ := hleads.of_letters letterRows_status
  rw [opened_intake] at hlive hsamples hletters
  have hrun : ingest env call (.opened st) =
      .ok (.unsupported, { s.flushed with committed := s.flushed.store }) := by
    rw [ingest_enabled hon hadapter henabled, hnone, attempt_bind, if_pos List.isEmpty_nil]
    refine (bind_of_ok hdead).trans ?_
    exact bind_of_ok (commit_returns_iff.mpr ⟨hleads.ready.flushable, rfl⟩)
  refine ⟨.unsupported, _, hrun, ?_, ?_, ?_⟩
  · rw [hevents]
    rfl
  · refine ⟨[], ?_, .nil⟩
    rw [List.append_nil]
    exact hletters ▸ List.sublist_append_left _ _
  · rw [hturned]
    exact ⟨[], _, ingestBatch_returns_iff.mpr ⟨.opened st, rfl, hready.flushable, rfl⟩,
      hlive.trans (congrArg Intake.live (opened_intake st).symm),
      hsamples.trans (congrArg Intake.samples (opened_intake st).symm), hleads.monitor⟩

/-- **Bad events are kept apart**, by a call of an enabled adapter, exactly if its payload can be
normalized, each event can be processed in its session, each dead letter can be written, and each
valid event finds in its session what it finds in that of the batch without the bad ones. -/
theorem isolates_iff (env : IngestEnv) (hvalid : st.monitor.db.Valid)
    (hunique : (st.daily.map DailyRow.key).Nodup) (hon : call.featureEnabled = true)
    (hadapter : call.adapter = some adapter) (henabled : adapter.enabled = 1) :
    call.Isolates env st ↔
      (∃ events, recognize env.toEventEnv call.nowIso adapter.type call.payload = .ok events) ∧
        Undisturbed env (call.turned env) (.opened st) (.opened st) := by
  have hready : Ready env.columns (.opened st) := ready_opened hvalid hunique
  have halike : Alike (.opened st) (.opened st) := ⟨rfl, rfl, rfl, rfl⟩
  cases hrecognize : recognize env.toEventEnv call.nowIso adapter.type call.payload with
  | error f =>
      refine iff_of_false ?_ fun h => by cases h.1.choose_spec
      rintro ⟨response, s, hraise, -⟩
      rw [ingest_enabled hon hadapter henabled, hrecognize] at hraise
      cases hraise
  | ok events =>
      have hevents : call.events env = events := events_eq hon hadapter henabled hrecognize
      rw [and_iff_right ⟨events, rfl⟩]
      by_cases hnil : events = []
      · refine iff_of_true (isolates_of_none hready hon hadapter henabled (hnil ▸ hrecognize)) ?_
        rw [IngestCall.turned, hevents, hnil]
        exact .nil _ _
      · have hne : call.events env ≠ [] := hevents ▸ hnil
        constructor
        · rintro ⟨response, s, hingest, hkept⟩
          obtain ⟨outs, hbatch, rfl⟩ := (ingest_turned hne).mp hingest
          obtain ⟨s', hrun, hflush, rfl⟩ := ingestBatch_returns_iff.mp hbatch
          obtain ⟨rows, hrows, hletters⟩ := hkept.lettered
          obtain ⟨outs', t, hbatch', hlive, -⟩ := hkept.absent
          obtain ⟨t', hrun', hflush', rfl⟩ := ingestBatch_returns_iff.mp hbatch'
          refine undisturbed_of_runs hready hready halike hrun hflush hrun' hflush' hlive ?_
          have hcount := hrows.length_le
          rw [List.length_append, ← hletters.length_eq] at hcount
          rw [turned_snd, opened_intake]
          exact hcount
        · intro hundisturbed
          obtain ⟨outs, s', outs', t', rows, hrun, hrun', hflush, hflush', halike', hletters,
            hall⟩ := hundisturbed.runs hready hready halike
          refine ⟨.counted outs, _, (ingest_turned hne).mpr
            ⟨outs, ingestBatch_returns_iff.mpr ⟨s', hrun, hflush, rfl⟩, rfl⟩, ?_, ?_, ?_⟩
          · rw [counted_run hrun, ← turned_snd, List.length_map]
          · rw [turned_snd] at hall
            rw [opened_intake] at hletters
            exact ⟨rows, hletters ▸ List.Sublist.refl _, hall⟩
          · exact ⟨outs', _, ingestBatch_returns_iff.mpr ⟨t', hrun', hflush', rfl⟩, halike'.live,
              halike'.samples, halike'.monitor⟩

end Call

/-! ### An event and another entry -/

/-- A batch of an event and another entry. -/
def besides (entry : Json) : IngestCall :=
  ⟨true, some ⟨1, "webhook", 1⟩,
    .obj [("source", .str "webhook"), ("events", .arr [pushed "e1", entry])],
    "2026-01-01T00:00:01Z", fun _ => smallTurn⟩

/-- An event without an entity next to a valid one. -/
theorem nothing_besides : (besides (.obj [("source", .str "webhook")])).Isolates smallEnv
    emptyStore := by
  refine (isolates_iff smallEnv emptyStore_valid List.nodup_nil rfl rfl rfl).mpr ⟨⟨_, rfl⟩, ?_⟩
  have hreads {e : RawEvent} (h : RawEvent.ofJson (pushed "e1") = some e) :
      Reads smallEnv.toEventEnv smallTurn.now e ⟨"warning", ⟨1767225600, 20454⟩, none, none⟩ := by
    obtain rfl := Option.some.inj h
    exact ⟨rfl, rfl, rfl, (fun h => absurd h (by decide)), rfl⟩
  refine .stored rfl ⟨rfl, rfl, rfl⟩ rfl rfl (hreads rfl) rfl (fun x hx => by cases hx)
    (.inl ⟨"web-01", rfl⟩) fun s' t' _ _ => ?_
  exact .bad rfl (.invalid rfl (by decide +kernel)) fun _ _ _ => .nil _ _

/-- **A number among the events.** It is no dictionary, so that validating it raises, and the event
before it is lost. -/
theorem number_in_batch : ¬ (besides (.int 7)).Isolates smallEnv emptyStore := by
  rintro ⟨response, s, hrun, -⟩
  have hraised :
      (ingest smallEnv (besides (.int 7)) (.opened emptyStore)).toOption.isSome = false := by
    decide +kernel
  rw [hrun] at hraised
  cases hraised

end LarkPlat
