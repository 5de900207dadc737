import LarkPlat.DispatchClaims

/-!
# The Handover Loop of a Dispatch

The handover of a row is protected by a `finally` that releases its two permits, but an exception
is not caught: it ends the dispatch, and the rows after it are neither handed over nor
released. `HandsContained` is the condition under which this leaves nothing behind.

## Main results

* `handBody_result`: the handover of one row, and whether the row is served when it raises.
* `handLoop_contained`, `handLoop_breaks`: the loop leaves no permit and no row if its calls are
  contained, and a permit or a row if they are not.
-/

namespace LarkPlat

open Dispatch Faults

variable {env : CallEnv} {sem : Sem} {row : ℕ} {s : DispatchState} {th : ExecTaskHost}

/-! ### The handover of one row -/

/-- The row is `running` in the tables. -/
def RunsIn (db : ExecDb) (row : ℕ) : Prop :=
  ∃ r ∈ db.taskHosts, r.id = row ∧ r.status = .running

/-- The row was handed to an executor, or is no longer `running`. -/
def Served (s : DispatchState) (row : ℕ) : Prop :=
  (∃ via content, .handed row via content ∈ s.events) ∨ ¬ RunsIn s.db row

/-- The dispatch has set the row to `running` and left it there without an execution. -/
def Stranded (s : DispatchState) (row : ℕ) : Prop :=
  .claimed row ∈ s.events ∧ ¬ Served s row

/-- The columns of a host row that never change. -/
def ExecTaskHost.fixed (th : ExecTaskHost) : ℕ × ℕ × String := (th.id, th.hostId, th.executor)

/-- What the handover of one row does to permits and to rows. -/
structure Hands (row : ℕ) (s s' : DispatchState) : Prop where
  excess : ∀ sem, s'.excess sem = s.excess sem
  claimed : ∀ r, .claimed r ∈ s'.events ↔ .claimed r ∈ s.events
  served : ∀ r, Served s r → Served s' r
  others : ∀ r, r ≠ row → Served s' r → Served s r
  fixed : ∀ id, (s'.db.taskHost? id).map ExecTaskHost.fixed =
    (s.db.taskHost? id).map ExecTaskHost.fixed

/-- A change that keeps the fixed columns of its row keeps those of all rows. -/
theorem fixed_setTaskHost {f : ExecTaskHost → ExecTaskHost} (hf : ∀ r, (f r).fixed = r.fixed)
    (db : ExecDb) (row id : ℕ) :
    ((db.setTaskHost row f).taskHost? id).map ExecTaskHost.fixed =
      (db.taskHost? id).map ExecTaskHost.fixed := by
  have hkey : ∀ r : ExecTaskHost, (if r.id = row then f r else r).id = r.id := by
    intro r
    split_ifs
    · exact congrArg Prod.fst (hf r)
    · rfl
  have hfind : (db.setTaskHost row f).taskHost? id =
      (db.taskHost? id).map fun r => if r.id = row then f r else r :=
    Table.find_map hkey
  rw [hfind, Option.map_map]
  congr 1
  funext r
  simp only [Function.comp_apply]
  split_ifs
  · exact hf r
  · rfl

theorem Hands.refl (row : ℕ) (s : DispatchState) : Hands row s s :=
  ⟨fun _ => rfl, fun _ => Iff.rfl, fun _ h => h, fun _ _ h => h, fun _ => rfl⟩

theorem Hands.trans {s₁ s₂ : DispatchState} (h : Hands row s s₁) (h' : Hands row s₁ s₂) :
    Hands row s s₂ :=
  ⟨fun sem => (h'.excess sem).trans (h.excess sem),
    fun r => (h'.claimed r).trans (h.claimed r),
    fun r hr => h'.served r (h.served r hr),
    fun r hne hr => h.others r hne (h'.others r hne hr),
    fun id => (h'.fixed id).trans (h.fixed id)⟩

theorem hands_log (s : DispatchState) (row : ℕ) (via : Via) (content : String) :
    Hands row s (s.log (.handed row via content)) := by
  refine ⟨excess_log_handed s row via content, ?_, ?_, ?_, fun _ => rfl⟩
  · intro r
    simp [DispatchState.log]
  · rintro r (⟨v, c, hr⟩ | hr)
    · exact Or.inl ⟨v, c, List.mem_append_left _ hr⟩
    · exact Or.inr hr
  · rintro r hne (⟨v, c, hr⟩ | hr)
    · rcases List.mem_append.mp hr with hr | hr
      · exact Or.inl ⟨v, c, hr⟩
      · rw [List.mem_singleton] at hr
        injection hr with hrow
        exact absurd hrow hne
    · exact Or.inr hr

theorem served_log (s : DispatchState) (row : ℕ) (via : Via) (content : String) :
    Served (s.log (.handed row via content)) row :=
  Or.inl ⟨via, content, List.mem_append_right _ (List.mem_singleton_self _)⟩

theorem recordOutcome_fixed (ok : Bool) (r : ExecTaskHost) :
    (recordOutcome env ok r).fixed = r.fixed := by
  rw [recordOutcome]
  split_ifs <;> rfl

theorem recordOutcome_status (ok : Bool) (r : ExecTaskHost) :
    (recordOutcome env ok r).status ≠ .running := by
  rw [recordOutcome]
  split_ifs with h h' <;> simp [h]

theorem runsIn_setRow {ok : Bool} {r : ℕ}
    (h : RunsIn (s.setRow row (recordOutcome env ok)).db r) : r ≠ row ∧ RunsIn s.db r := by
  obtain ⟨x, hx, hid, hst⟩ := h
  rcases Table.mem_modify.mp hx with ⟨x₀, -, -, rfl⟩ | ⟨hx, hne⟩
  · exact absurd hst (recordOutcome_status ok x₀)
  · exact ⟨hid ▸ hne, x, hx, hid, hst⟩

theorem hands_setRow (s : DispatchState) (row : ℕ) (ok : Bool) :
    Hands row s (s.setRow row (recordOutcome env ok)) := by
  refine ⟨fun _ => rfl, fun _ => Iff.rfl, ?_, ?_, ?_⟩
  · rintro r (hr | hr)
    · exact Or.inl hr
    · exact Or.inr fun hc => hr (runsIn_setRow hc).2
  · rintro r hne (hr | hr)
    · exact Or.inl hr
    · refine Or.inr ?_
      rintro ⟨x, hx, hid, hst⟩
      refine hr ⟨x, ?_, hid, hst⟩
      exact Table.mem_modify.mpr (Or.inr ⟨hx, hid ▸ hne⟩)
  · exact fixed_setTaskHost (recordOutcome_fixed ok) s.db row

theorem served_setRow (s : DispatchState) (row : ℕ) (ok : Bool) :
    Served (s.setRow row (recordOutcome env ok)) row :=
  Or.inr fun hc => (runsIn_setRow hc).1 rfl

/-- A call after the execution of a row raises. -/
def concludeRaises (env : CallEnv) (row : ℕ) : Bool :=
  env.raises (.log row) || env.raises (.finish row) || env.raises (.refresh row) ||
    env.raises (.broadcast row)

/-- A call of the handover of a row raises. -/
def bodyRaises (env : CallEnv) (hand : HandEnv) (th : ExecTaskHost) : Bool :=
  if th.executor = "ssh" then env.raises (.gates th.id) || concludeRaises env th.id
  else env.raises (.frame th.id) || env.raises (.broadcastRunning th.id) ||
    (!hand.accepted th.executor th.hostId th.id && concludeRaises env th.id)

/-- No call raises before the row is handed over or its outcome is recorded. -/
def bodyServes (env : CallEnv) (hand : HandEnv) (th : ExecTaskHost) : Bool :=
  if th.executor = "ssh" then !env.raises (.gates th.id) &&
    (hand.admitted || !(env.raises (.log th.id) || env.raises (.finish th.id)))
  else
    !env.raises (.frame th.id) &&
      (hand.accepted th.executor th.hostId th.id || !env.raises (.broadcastRunning th.id))

/-- What a part of the handover of a row leads to: whether it raises, and if so whether the row
is served by then. -/
structure BodyResult (row : ℕ) (raised serves : Bool) (s s' : DispatchState)
    (r : EStateM.Result DispatchCall DispatchState Unit) : Prop where
  hands : Hands row s s'
  result : raised = false ∧ r = .ok () s' ∨ raised = true ∧ ∃ c, r = .error c s'
  served : raised = false ∨ serves = true → Served s' row
  unserved : raised = true ∧ serves = false → s' = s

theorem bodyResult_of_raises {c : DispatchCall} (row : ℕ) (s : DispatchState) :
    BodyResult row true false s s (.error c s) :=
  ⟨Hands.refl row s, Or.inr ⟨rfl, c, rfl⟩, by simp, fun _ => rfl⟩

theorem conclude_result (row : ℕ) (ok : Bool) (s : DispatchState) :
    ∃ s', BodyResult row (concludeRaises env row)
      (!(env.raises (.log row) || env.raises (.finish row))) s s' ((conclude env row ok).run s) := by
  rw [conclude, concludeRaises]
  cases hlog : env.raises (.log row) with
  | true =>
      rw [bind_of_error (touch_of_raises hlog)]
      exact ⟨s, bodyResult_of_raises row s⟩
  | false =>
      rw [bind_of_ok (touch_of_quiet hlog)]
      cases hfin : env.raises (.finish row) with
      | true =>
          rw [finishIfRunning, bind_of_error (perform_of_raises hfin)]
          exact ⟨s, bodyResult_of_raises row s⟩
      | false =>
          rw [finishIfRunning, bind_of_ok (perform_of_quiet hfin)]
          have hserved := @served_setRow env s row ok
          refine ⟨s.setRow row (recordOutcome env ok), hands_setRow s row ok, ?_,
            fun _ => hserved, by simp⟩
          cases href : env.raises (.refresh row) with
          | true => exact Or.inr ⟨rfl, _, bind_of_error (touch_of_raises href)⟩
          | false =>
              rw [bind_of_ok (touch_of_quiet href)]
              cases hcast : env.raises (.broadcast row) with
              | true => exact Or.inr ⟨rfl, _, touch_of_raises hcast⟩
              | false => exact Or.inl ⟨rfl, touch_of_quiet hcast⟩

theorem BodyResult.of_handed {raised serves : Bool} {via : Via} {content : String}
    {s' : DispatchState} {r : EStateM.Result DispatchCall DispatchState Unit}
    (h : BodyResult row raised serves (s.log (.handed row via content)) s' r) :
    BodyResult row raised true s s' r :=
  ⟨(hands_log s row via content).trans h.hands, h.result,
    fun _ => h.hands.served row (served_log s row via content), by simp⟩

variable {hand : HandEnv}

theorem handSsh_result (s : DispatchState) (hssh : th.executor = "ssh") :
    ∃ s', BodyResult th.id (bodyRaises env hand th) (bodyServes env hand th) s s'
      ((handSsh env hand.admitted hand.content th).run s) := by
  rw [handSsh, bodyRaises, bodyServes, if_pos hssh, if_pos hssh]
  cases hgates : env.raises (.gates th.id) with
  | true =>
      rw [bind_of_error (touch_of_raises hgates)]
      exact ⟨s, bodyResult_of_raises th.id s⟩
  | false =>
      rw [bind_of_ok (touch_of_quiet hgates), Bool.false_or, Bool.not_false, Bool.true_and]
      cases hadm : hand.admitted with
      | true =>
          obtain ⟨s', hs'⟩ := @conclude_result env th.id (true && env.sshSucceeds th.id)
            (s.log (.handed th.id .ssh hand.content))
          exact ⟨s', hs'.of_handed⟩
      | false => exact conclude_result th.id (false && env.sshSucceeds th.id) s

theorem handAgent_result (s : DispatchState) (hssh : th.executor ≠ "ssh") :
    ∃ s', BodyResult th.id (bodyRaises env hand th) (bodyServes env hand th) s s'
      ((handAgent env (hand.accepted th.executor th.hostId th.id) hand.content th).run s) := by
  rw [handAgent, bodyRaises, bodyServes, if_neg hssh, if_neg hssh]
  cases hframe : env.raises (.frame th.id) with
  | true =>
      rw [bind_of_error (touch_of_raises hframe)]
      exact ⟨s, bodyResult_of_raises th.id s⟩
  | false =>
      rw [bind_of_ok (touch_of_quiet hframe), Bool.false_or, Bool.not_false, Bool.true_and]
      cases hacc : hand.accepted th.executor th.hostId th.id with
      | true =>
          rw [if_pos rfl, noteIf, bind_of_ok (run_modify _ s), if_pos rfl]
          cases hcast : env.raises (.broadcastRunning th.id) with
          | true =>
              rw [bind_of_error (touch_of_raises hcast)]
              exact ⟨_, (bodyResult_of_raises th.id _).of_handed⟩
          | false =>
              rw [bind_of_ok (touch_of_quiet hcast)]
              exact ⟨_, hands_log s th.id .agent hand.content, Or.inl ⟨rfl, rfl⟩,
                fun _ => served_log s th.id .agent hand.content, by simp⟩
      | false =>
          rw [if_neg Bool.false_ne_true, noteIf, bind_of_ok (run_modify _ s),
            if_neg Bool.false_ne_true]
          cases hcast : env.raises (.broadcastRunning th.id) with
          | true =>
              rw [bind_of_error (touch_of_raises hcast)]
              exact ⟨s, bodyResult_of_raises th.id s⟩
          | false =>
              rw [bind_of_ok (touch_of_quiet hcast), noteIf, bind_of_ok (run_modify _ s), if_pos rfl]
              obtain ⟨s', hs'⟩ := @conclude_result env th.id true
                (s.log (.handed th.id .mock hand.content))
              exact ⟨s', hs'.of_handed⟩

/-- The handover of a row. -/
theorem handBody_result (s : DispatchState) :
    ∃ s', BodyResult th.id (bodyRaises env hand th) (bodyServes env hand th) s s'
      ((handBody env hand th).run s) := by
  rw [handBody]
  split_ifs with hssh
  · exact handSsh_result s hssh
  · exact handAgent_result s hssh

/-! ### The handover loop -/

/-- No call of the handover loop leaves a permit or a row behind. The rows are looked up and
their permits released without an exception, and only the handover of the last row raises, if
any does, after the row was handed over or its outcome recorded. -/
def HandsContained (env : CallEnv) (hand : HandEnv) : List ExecTaskHost → Prop
  | [] => True
  | th :: rest =>
      env.raises (.byId th.id) = false ∧
        releaseRaises env (.host th.hostId) th.id = false ∧
        releaseRaises env .global th.id = false ∧
        if bodyRaises env hand th = true then rest = [] ∧ bodyServes env hand th = true
        else HandsContained env hand rest

/-- The rows are in the tables, with the columns that never change. -/
def Present (s : DispatchState) (rows : List ExecTaskHost) : Prop :=
  ∀ th ∈ rows, (s.db.taskHost? th.id).map ExecTaskHost.fixed = some th.fixed

/-- Served rows, claimed rows and the rows of the tables do not see the permits. -/
structure OnlyReleases (s s' : DispatchState) : Prop where
  claimed : ∀ r, .claimed r ∈ s'.events ↔ .claimed r ∈ s.events
  served : ∀ r, Served s' r ↔ Served s r
  db : s'.db = s.db

theorem OnlyPermits.onlyReleases {s s' : DispatchState} (h : OnlyPermits s s') :
    OnlyReleases s s' := by
  have hmem : ∀ (t : DispatchState) (e : DispatchEvent), (∃ r, e = .claimed r) ∨
      (∃ r v c, e = .handed r v c) → (e ∈ t.events ↔ e ∈ t.rowEvents) := by
    rintro t e (⟨r, rfl⟩ | ⟨r, v, c, rfl⟩) <;> simp [DispatchState.rowEvents]
  refine ⟨?_, ?_, h.db⟩
  · intro r
    rw [hmem s' _ (Or.inl ⟨r, rfl⟩), hmem s _ (Or.inl ⟨r, rfl⟩), h.rowEvents]
  · intro r
    rw [Served, Served, h.db]
    refine or_congr_left (exists₂_congr fun v c => ?_)
    rw [hmem s' _ (Or.inr ⟨r, v, c, rfl⟩), hmem s _ (Or.inr ⟨r, v, c, rfl⟩), h.rowEvents]

theorem Hands.present {s' : DispatchState} {rows : List ExecTaskHost} (h : Hands row s s')
    (hp : Present s rows) : Present s' rows := by
  intro th hth
  rw [h.fixed]
  exact hp th hth

/-- The handover of a row with its releases: what the handover does, less the two permits. -/
theorem handRow_quiet (s : DispatchState) (hh : releaseRaises env (.host th.hostId) th.id = false)
    (hg : releaseRaises env .global th.id = false) :
    ∃ s₁ s₂, BodyResult th.id (bodyRaises env hand th) (bodyServes env hand th) s s₁
        ((handBody env hand th).run s) ∧ OnlyReleases s₁ s₂ ∧
      (∀ sem, s₂.excess sem =
        s.excess sem - permit env .global sem - permit env (.host th.hostId) sem) ∧
      (bodyRaises env hand th = false ∧
          (protect (handBody env hand th) (releaseBoth env th)).run s = .ok () s₂ ∨
        bodyRaises env hand th = true ∧
          ∃ c, (protect (handBody env hand th) (releaseBoth env th)).run s = .error c s₂) := by
  obtain ⟨s₁, hbody⟩ := @handBody_result env th hand s
  have hrel := @releaseBoth_of_quiet env s₁ th hh hg
  refine ⟨s₁, _, hbody, ((onlyPermits_give env s₁ (.host th.hostId)).trans
    (onlyPermits_give env _ .global)).onlyReleases, ?_, ?_⟩
  · intro sem
    rw [excess_give, excess_give, hbody.hands.excess]
    omega
  · rcases hbody.result with ⟨hno, hr⟩ | ⟨hyes, c, hr⟩
    · exact Or.inl ⟨hno, protect_of_ok hr hrel⟩
    · exact Or.inr ⟨hyes, c, protect_of_error hr hrel⟩

theorem handBody_congr {th' : ExecTaskHost} (h : th'.fixed = th.fixed) :
    handBody env hand th' = handBody env hand th ∧ releaseBoth env th' = releaseBoth env th := by
  simp only [ExecTaskHost.fixed, Prod.mk.injEq] at h
  obtain ⟨hid, hhost, hexec⟩ := h
  simp only [handBody, handSsh, handAgent, releaseBoth, hid, hhost, hexec, and_self]

theorem handLoop_cons {rest : List ℕ} (hq : env.raises (.byId th.id) = false)
    (hp : (s.db.taskHost? th.id).map ExecTaskHost.fixed = some th.fixed) :
    (handLoop env hand (th.id :: rest)).run s =
      (protect (handBody env hand th) (releaseBoth env th) >>= fun _ =>
        handLoop env hand rest).run s := by
  obtain ⟨th', hfind, hfixed⟩ := Option.map_eq_some_iff.mp hp
  obtain ⟨hbody, hrel⟩ := @handBody_congr env th hand th' hfixed
  rw [handLoop, bind_of_ok (call_of_quiet hq), hfind]
  simp only [hbody, hrel]

/-- What the handover loop leaves if its calls are contained: no permit and no row. -/
structure HandsDone (env : CallEnv) (rows : List ExecTaskHost) (s s' : DispatchState) : Prop where
  excess : ∀ sem, s'.excess sem = s.excess sem - heldBy env rows sem
  claimed : ∀ r, .claimed r ∈ s'.events ↔ .claimed r ∈ s.events
  served : ∀ r, Served s r → Served s' r
  rows : ∀ th ∈ rows, Served s' th.id

theorem handLoop_contained {rows : List ExecTaskHost} (h : HandsContained env hand rows)
    (s : DispatchState) (hp : Present s rows) :
    HandsDone env rows s
      (finalState ((handLoop env hand (rows.map ExecTaskHost.id)).run s)) := by
  induction rows generalizing s with
  | nil => exact ⟨by simp [heldBy, handLoop], fun _ => Iff.rfl, fun _ h => h, by simp⟩
  | cons th rest ih =>
      obtain ⟨hq, hh, hg, hrest⟩ := h
      rw [List.map_cons, handLoop_cons hq (hp th List.mem_cons_self)]
      obtain ⟨s₁, s₂, hbody, hrel, hx, hres⟩ := @handRow_quiet env th hand s hh hg
      rcases hres with ⟨hno, hr⟩ | ⟨hyes, c, hr⟩
      · rw [bind_of_ok hr]
        rw [if_neg (by simp [hno])] at hrest
        have hp₂ : Present s₂ rest := by
          intro th' hth'
          rw [hrel.db]
          exact hbody.hands.present hp th' (List.mem_cons_of_mem th hth')
        have hdone := ih hrest s₂ hp₂
        refine ⟨?_, ?_, ?_, ?_⟩
        · intro sem
          rw [hdone.excess, hx, heldBy_cons]
          omega
        · intro r
          rw [hdone.claimed, hrel.claimed, hbody.hands.claimed]
        · intro r hr
          exact hdone.served r ((hrel.served r).mpr (hbody.hands.served r hr))
        · intro th' hth'
          rcases List.mem_cons.mp hth' with rfl | hth'
          · exact hdone.served _ ((hrel.served _).mpr (hbody.served (Or.inl hno)))
          · exact hdone.rows th' hth'
      · rw [if_pos hyes] at hrest
        obtain ⟨rfl, hserves⟩ := hrest
        rw [bind_of_error hr, finalState_error]
        refine ⟨?_, ?_, ?_, ?_⟩
        · intro sem
          rw [hx, heldBy_cons]
          simp [heldBy]
          omega
        · intro r
          rw [hrel.claimed, hbody.hands.claimed]
        · intro r hr
          exact (hrel.served r).mpr (hbody.hands.served r hr)
        · intro th' hth'
          obtain rfl := List.mem_singleton.mp hth'
          exact (hrel.served _).mpr (hbody.served (Or.inr hserves))

/-- A handover loop whose calls are not contained leaves a permit of `exec:global` or a row. -/
theorem handLoop_breaks {rows : List ExecTaskHost} (h : ¬ HandsContained env hand rows)
    (s : DispatchState) (hp : Present s rows) (hn : (rows.map ExecTaskHost.id).Nodup)
    (hun : ∀ th ∈ rows, Stranded s th.id) (hx : heldBy env rows .global ≤ s.excess .global) :
    1 ≤ (finalState ((handLoop env hand (rows.map ExecTaskHost.id)).run s)).excess .global ∨
      ∃ row, Stranded (finalState ((handLoop env hand (rows.map ExecTaskHost.id)).run s)) row := by
  induction rows generalizing s with
  | nil => exact absurd trivial h
  | cons th rest ih =>
      rw [List.map_cons] at hn ⊢
      obtain ⟨hnot, hnrest⟩ := List.nodup_cons.mp hn
      have hne : ∀ th' ∈ rest, th'.id ≠ th.id := by
        intro th' hth' he
        exact hnot (he ▸ List.mem_map_of_mem hth')
      rw [heldBy_cons] at hx
      cases hq : env.raises (.byId th.id) with
      | true =>
          rw [handLoop, bind_of_error (call_of_raises hq), finalState_error]
          exact Or.inr ⟨th.id, hun th List.mem_cons_self⟩
      | false =>
      rw [handLoop_cons hq (hp th List.mem_cons_self)]
      by_cases hrel : releaseRaises env (.host th.hostId) th.id = true ∨
          releaseRaises env .global th.id = true
      · -- a release raises, and the permit of `exec:global` stays
        obtain ⟨s₁, hbody⟩ := @handBody_result env th hand s
        obtain ⟨c, s', hr, -, hxg⟩ := releaseBoth_of_raises (s := s₁) hrel
        have hfinal : finalState ((handBody env hand th).run s) = s₁ := by
          rcases hbody.result with ⟨-, hb⟩ | ⟨-, c, hb⟩ <;> rw [hb] <;> rfl
        rw [bind_of_error (protect_of_fin_error (by rw [hfinal]; exact hr)), finalState_error]
        left
        have hb : env.brokerUp = true := by
          by_contra hb
          simp [releaseRaises, hb] at hrel
        have hnonneg := heldBy_nonneg env rest .global
        rw [permit, if_pos ⟨hb, rfl⟩, permit, if_neg (by simp)] at hx
        rw [hxg, hbody.hands.excess]
        omega
      rw [not_or, Bool.not_eq_true, Bool.not_eq_true] at hrel
      obtain ⟨s₁, s₂, hbody, honly, hx₂, hres⟩ := @handRow_quiet env th hand s hrel.1 hrel.2
      have hclaimed : ∀ r, .claimed r ∈ s₂.events ↔ .claimed r ∈ s.events := fun r =>
        (honly.claimed r).trans (hbody.hands.claimed r)
      have hun₂ : ∀ th' ∈ rest, Stranded s₂ th'.id := by
        intro th' hth'
        obtain ⟨hc, hs⟩ := hun th' (List.mem_cons_of_mem th hth')
        refine ⟨(hclaimed _).mpr hc, fun hs₂ => hs ?_⟩
        exact hbody.hands.others _ (hne th' hth') ((honly.served _).mp hs₂)
      rcases hres with ⟨hno, hr⟩ | ⟨hyes, c, hr⟩
      · rw [bind_of_ok hr]
        have hrest : ¬ HandsContained env hand rest := by
          intro hc
          exact h ⟨hq, hrel.1, hrel.2, by rw [if_neg (by simp [hno])]; exact hc⟩
        have hp₂ : Present s₂ rest := by
          intro th' hth'
          rw [honly.db]
          exact hbody.hands.present hp th' (List.mem_cons_of_mem th hth')
        have hle : heldBy env rest .global ≤ s₂.excess .global := by
          rw [hx₂]
          omega
        exact ih hrest s₂ hp₂ hnrest hun₂ hle
      · rw [bind_of_error hr, finalState_error]
        right
        cases hserves : bodyServes env hand th with
        | false =>
            obtain ⟨hc, hs⟩ := hun th List.mem_cons_self
            refine ⟨th.id, (hclaimed _).mpr hc, ?_⟩
            rw [honly.served, hbody.unserved ⟨hyes, hserves⟩]
            exact hs
        | true =>
            have hne' : rest ≠ [] := by
              intro hnil
              exact h ⟨hq, hrel.1, hrel.2, by rw [if_pos hyes]; exact ⟨hnil, hserves⟩⟩
            obtain ⟨th', hth'⟩ := List.exists_mem_of_ne_nil rest hne'
            exact ⟨th'.id, hun₂ th' hth'⟩

end LarkPlat
