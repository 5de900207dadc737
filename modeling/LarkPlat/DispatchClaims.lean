import LarkPlat.DispatchCalls
import Mathlib.Algebra.Order.BigOperators.Group.List

/-!
# The Claiming Loop of a Dispatch

One pass of the claiming loop acquires `exec:global`, then the semaphore of the host, then
commits the row as `running`. `claimOutcome` says from the semaphores and the calls that raise
how a pass ends; `claimRow_result` and `claimLoop_result` say what the pass and the loop have
done by then to the permits and to the rows.

A pass that raises after it has acquired a permit releases what it holds only if the commit is
what raised: an exception of the second semaphore leaves the permit of the first one acquired.

## Main results

* `acquireSemaphore_result`, `claimRow_result`: one call, one pass.
* `claimLoop_result`: the whole loop, with the ledger of its permits.
-/

namespace LarkPlat

open Dispatch Faults

variable (env : CallEnv)

/-! ### What one claim meets -/

/-- How `acquire_semaphore` ends. -/
inductive AcquireOutcome where
  | granted
  | refused
  /-- It raises, and the counter is as before. -/
  | failed
  /-- It raises after the counter was written. -/
  | failedHolding
  deriving DecidableEq, Repr

/-- How `acquire_semaphore` ends on a semaphore, by the commands that raise. -/
def acquireOutcome (key : SemKey) (sem : Sem) (limit : ℤ) (row : ℕ) : AcquireOutcome :=
  if env.brokerUp = false then .granted
  else if env.raises (.command .setLock sem row) then .failed
  else if key.locked then .refused
  else if env.raises (.command .getValue sem row) then .failed
  else if key.value < limit then
    if env.raises (.command .setValue sem row) then .failed
    else if env.raises (.command .delLock sem row) then .failedHolding
    else .granted
  else if env.raises (.command .delLock sem row) then .failed
  else .refused

/-- `release_semaphore` raises. -/
def releaseRaises (sem : Sem) (row : ℕ) : Bool :=
  env.brokerUp && env.raises (.command .decr sem row)

/-- How one pass of the claiming loop ends. -/
inductive ClaimOutcome where
  | started
  | refused
  /-- It raises, and what was acquired is released. -/
  | aborted
  /-- It raises, and a permit stays acquired. -/
  | leaked
  deriving DecidableEq, Repr

/-- How one pass of the claiming loop ends, by the calls that raise. -/
def claimOutcome (sems : Sem → SemKey) (th : ExecTaskHost) : ClaimOutcome :=
  match acquireOutcome env (sems .global) .global env.globalLimit th.id with
  | .refused => .refused
  | .failed => .aborted
  | .failedHolding => .leaked
  | .granted =>
      match acquireOutcome env (sems (.host th.hostId)) (.host th.hostId) env.hostLimit th.id with
      | .refused => if releaseRaises env .global th.id then .leaked else .refused
      | .failed => .leaked
      | .failedHolding => .leaked
      | .granted =>
          if env.raises (.claim th.id) then
            if releaseRaises env (.host th.hostId) th.id || releaseRaises env .global th.id then
              .leaked
            else .aborted
          else .started

/-- A semaphore with one permit more. -/
def SemKey.taken (k : SemKey) : SemKey := { k with value := k.value + 1 }

/-- The state after a granted `acquire_semaphore`. -/
def DispatchState.take (s : DispatchState) (sem : Sem) : DispatchState :=
  if env.brokerUp then (s.setSem sem (s.sems sem).taken).log (.acquired sem) else s

variable {env} {sem : Sem} {limit : ℤ} {row : ℕ} {s : DispatchState}

/-! ### Semaphore calls -/

/-- The result of `acquire_semaphore` for each outcome. -/
def AcquireResult (env : CallEnv) (sem : Sem) (s : DispatchState)
    (r : EStateM.Result DispatchCall DispatchState Bool) : AcquireOutcome → Prop
  | .granted => r = .ok true (s.take env sem)
  | .refused => ∃ sems, r = .ok false { s with sems := sems }
  | .failed => ∃ c sems, r = .error c { s with sems := sems }
  | .failedHolding => ∃ c sems,
      r = .error c { s with sems := sems, events := s.events ++ [.acquired sem] }

/-- The body of `acquire_semaphore` once the lock key is set. -/
theorem countUp_result (env : CallEnv) (sem : Sem) (limit : ℤ) (row : ℕ) (s : DispatchState) :
    (env.raises (.command .getValue sem row) = true ∧
      (countUp env sem limit row).run s = .error (.command .getValue sem row) s) ∨
    (env.raises (.command .getValue sem row) = false ∧ ¬ (s.sems sem).value < limit ∧
      (countUp env sem limit row).run s = .ok false s) ∨
    (env.raises (.command .getValue sem row) = false ∧ (s.sems sem).value < limit ∧
      env.raises (.command .setValue sem row) = true ∧
      (countUp env sem limit row).run s = .error (.command .setValue sem row) s) ∨
    (env.raises (.command .getValue sem row) = false ∧ (s.sems sem).value < limit ∧
      env.raises (.command .setValue sem row) = false ∧
      (countUp env sem limit row).run s =
        .ok true ((s.setSem sem (s.sems sem).taken).log (.acquired sem))) := by
  rw [countUp]
  cases hget : env.raises (.command .getValue sem row) with
  | true => exact Or.inl ⟨rfl, bind_of_error (call_of_raises hget)⟩
  | false =>
      right
      rw [bind_of_ok (call_of_quiet hget)]
      by_cases hlt : (s.sems sem).value < limit
      · right
        rw [if_pos hlt]
        cases hset : env.raises (.command .setValue sem row) with
        | true => exact Or.inl ⟨rfl, hlt, rfl, bind_of_error (perform_of_raises hset)⟩
        | false => exact Or.inr ⟨rfl, hlt, rfl, bind_of_ok (perform_of_quiet hset)⟩
      · rw [if_neg hlt]
        exact Or.inl ⟨rfl, hlt, rfl⟩

/-- `acquire_semaphore` ends as the commands that raise decide. -/
theorem acquireSemaphore_result (s : DispatchState) :
    AcquireResult env sem s ((acquireSemaphore env sem limit row).run s)
      (acquireOutcome env (s.sems sem) sem limit row) := by
  rw [acquireSemaphore, acquireOutcome]
  cases hb : env.brokerUp with
  | false => simp [AcquireResult, DispatchState.take, hb]
  | true =>
  rw [if_pos rfl, if_neg Bool.noConfusion]
  cases hlock : env.raises (.command .setLock sem row) with
  | true =>
      rw [bind_of_error (call_of_raises hlock)]
      exact ⟨_, s.sems, rfl⟩
  | false =>
  rw [bind_of_ok (call_of_quiet hlock)]
  cases hl : (s.sems sem).locked with
  | true =>
      simp only [SemKey.setLock, hl, Bool.not_true]
      exact ⟨_, rfl⟩
  | false =>
  simp only [SemKey.setLock, hl, Bool.not_false, if_true, Bool.false_eq_true, if_false]
  set s₁ := s.setSem sem ⟨true, (s.sems sem).value⟩ with hs₁
  have hval : (s₁.sems sem).value = (s.sems sem).value := by rw [hs₁, setSem_sems_self]
  have hcount := countUp_result env sem limit row s₁
  rw [hval] at hcount
  cases hdel : env.raises (.command .delLock sem row) with
  | true =>
      -- the finaliser raises, whatever the body did
      rw [protect_of_fin_error (perform_of_raises hdel)]
      rcases hcount with ⟨hget, hr⟩ | ⟨hget, hlt, hr⟩ | ⟨hget, hlt, hset, hr⟩ | ⟨hget, hlt, hset, hr⟩
      all_goals
        rw [hr]
        simp only [*, if_true, if_false, Bool.false_eq_true]
        exact ⟨_, _, rfl⟩
  | false =>
      rcases hcount with ⟨hget, hr⟩ | ⟨hget, hlt, hr⟩ | ⟨hget, hlt, hset, hr⟩ | ⟨hget, hlt, hset, hr⟩
      · rw [protect_of_error hr (perform_of_quiet hdel)]
        simp only [hget, if_true]
        exact ⟨_, _, rfl⟩
      · rw [protect_of_ok hr (perform_of_quiet hdel)]
        simp only [hget, hlt, if_false, Bool.false_eq_true]
        exact ⟨_, rfl⟩
      · rw [protect_of_error hr (perform_of_quiet hdel)]
        simp only [hget, hlt, hset, if_true, if_false, Bool.false_eq_true]
        exact ⟨_, _, rfl⟩
      · rw [protect_of_ok hr (perform_of_quiet hdel)]
        simp only [hget, hlt, hset, if_true, if_false, Bool.false_eq_true, AcquireResult,
          DispatchState.take, hb]
        simp [hs₁, SemKey.taken, SemKey.delLock, log_setSem, hl]

/-! ### The ledger of permits -/

/-- The permits acquired and not released. -/
def DispatchState.excess (s : DispatchState) (sem : Sem) : ℤ :=
  s.events.count (.acquired sem) - s.events.count (.released sem)

/-- The events about rows. -/
def DispatchState.rowEvents (s : DispatchState) : List DispatchEvent :=
  s.events.filter fun e =>
    match e with
    | .claimed _ => true
    | .handed _ _ _ => true
    | _ => false

/-- The state after a `release_semaphore` that does not raise. -/
def DispatchState.give (s : DispatchState) (env : CallEnv) (sem : Sem) : DispatchState :=
  if env.brokerUp then (s.setSem sem (s.sems sem).decr).log (.released sem) else s

/-- A permit of `sem'`, as counted by the ledger of `sem`; without Redis there are none. -/
def permit (env : CallEnv) (sem' sem : Sem) : ℤ :=
  if env.brokerUp = true ∧ sem' = sem then 1 else 0

theorem excess_take (s : DispatchState) (sem' sem : Sem) :
    (s.take env sem').excess sem = s.excess sem + permit env sem' sem := by
  rw [DispatchState.take, permit, DispatchState.excess, DispatchState.excess]
  cases env.brokerUp with
  | false => simp
  | true =>
      by_cases h : sem' = sem
      · simp [DispatchState.log, DispatchState.setSem, List.count_append, h]
        omega
      · simp [DispatchState.log, DispatchState.setSem, List.count_append, h]

theorem excess_acquired (s : DispatchState) (sems : Sem → SemKey) (sem : Sem) :
    DispatchState.excess { s with sems := sems, events := s.events ++ [.acquired sem] } sem =
      s.excess sem + 1 := by
  have hacquired : [DispatchEvent.acquired sem].count (.acquired sem) = 1 :=
    List.count_singleton_self
  have hreleased : [DispatchEvent.acquired sem].count (.released sem) = 0 := rfl
  unfold DispatchState.excess
  rw [List.count_append, List.count_append, hacquired, hreleased]
  omega

theorem excess_give (s : DispatchState) (sem' sem : Sem) :
    (s.give env sem').excess sem = s.excess sem - permit env sem' sem := by
  rw [DispatchState.give, permit, DispatchState.excess, DispatchState.excess]
  cases env.brokerUp with
  | false => simp
  | true =>
      by_cases h : sem' = sem
      · simp [DispatchState.log, DispatchState.setSem, List.count_append, h]
        omega
      · simp [DispatchState.log, DispatchState.setSem, List.count_append, h]

theorem excess_log_claimed (s : DispatchState) (row : ℕ) (sem : Sem) :
    (s.log (.claimed row)).excess sem = s.excess sem := by
  simp [DispatchState.excess, DispatchState.log, List.count_append]

theorem excess_log_handed (s : DispatchState) (row : ℕ) (via : Via) (content : String) (sem : Sem) :
    (s.log (.handed row via content)).excess sem = s.excess sem := by
  simp [DispatchState.excess, DispatchState.log, List.count_append]

theorem rowEvents_log_claimed (s : DispatchState) (row : ℕ) :
    (s.log (.claimed row)).rowEvents = s.rowEvents ++ [.claimed row] := by
  simp [DispatchState.rowEvents, DispatchState.log, List.filter_append]

/-- The second state differs from the first one in its semaphores and its permits only. -/
structure OnlyPermits (s s' : DispatchState) : Prop where
  db : s'.db = s.db
  started : s'.started = s.started
  rowEvents : s'.rowEvents = s.rowEvents

theorem OnlyPermits.trans {s s₁ s₂ : DispatchState} (h : OnlyPermits s s₁)
    (h' : OnlyPermits s₁ s₂) : OnlyPermits s s₂ :=
  ⟨h'.db.trans h.db, h'.started.trans h.started, h'.rowEvents.trans h.rowEvents⟩

theorem onlyPermits_sems (s : DispatchState) (sems : Sem → SemKey) :
    OnlyPermits s { s with sems := sems } :=
  ⟨rfl, rfl, rfl⟩

theorem onlyPermits_acquired (s : DispatchState) (sems : Sem → SemKey) (sem : Sem) :
    OnlyPermits s { s with sems := sems, events := s.events ++ [.acquired sem] } := by
  refine ⟨rfl, rfl, ?_⟩
  simp [DispatchState.rowEvents, List.filter_append]

theorem onlyPermits_take (env : CallEnv) (s : DispatchState) (sem : Sem) :
    OnlyPermits s (s.take env sem) := by
  rw [DispatchState.take]
  split_ifs
  · exact onlyPermits_acquired s _ sem
  · exact ⟨rfl, rfl, rfl⟩

theorem onlyPermits_give (env : CallEnv) (s : DispatchState) (sem : Sem) :
    OnlyPermits s (s.give env sem) := by
  rw [DispatchState.give]
  split_ifs
  · refine ⟨rfl, rfl, ?_⟩
    simp [DispatchState.rowEvents, DispatchState.log, DispatchState.setSem, List.filter_append]
  · exact ⟨rfl, rfl, rfl⟩

theorem release_of_quiet (h : releaseRaises env sem row = false) :
    (releaseSemaphore env sem row).run s = .ok () (s.give env sem) := by
  rw [releaseSemaphore, DispatchState.give]
  rw [releaseRaises] at h
  cases hb : env.brokerUp with
  | false => rfl
  | true =>
      rw [hb, Bool.true_and] at h
      rw [if_pos rfl, if_pos rfl, perform_of_quiet h]

theorem release_of_raises (h : releaseRaises env sem row = true) :
    (releaseSemaphore env sem row).run s = .error (.command .decr sem row) s := by
  rw [releaseRaises, Bool.and_eq_true] at h
  rw [releaseSemaphore, if_pos h.1, perform_of_raises h.2]

variable {th : ExecTaskHost}

theorem releaseBoth_of_quiet (hh : releaseRaises env (.host th.hostId) th.id = false)
    (hg : releaseRaises env .global th.id = false) :
    (releaseBoth env th).run s = .ok () ((s.give env (.host th.hostId)).give env .global) := by
  rw [releaseBoth, bind_of_ok (release_of_quiet hh), release_of_quiet hg]

/-- A release raises: the permit of `exec:global` stays acquired. -/
theorem releaseBoth_of_raises (h : releaseRaises env (.host th.hostId) th.id = true ∨
      releaseRaises env .global th.id = true) :
    ∃ c s', (releaseBoth env th).run s = .error c s' ∧ OnlyPermits s s' ∧
      s'.excess .global = s.excess .global := by
  rw [releaseBoth]
  cases hh : releaseRaises env (.host th.hostId) th.id with
  | true => exact ⟨_, s, bind_of_error (release_of_raises hh), ⟨rfl, rfl, rfl⟩, rfl⟩
  | false =>
      have hg : releaseRaises env .global th.id = true := by simpa [hh] using h
      refine ⟨_, _, (bind_of_ok (release_of_quiet hh)).trans (release_of_raises hg),
        onlyPermits_give env s _, ?_⟩
      rw [excess_give, permit, if_neg (by simp), sub_zero]

/-! ### One pass of the claiming loop -/

/-- The tables with a row claimed. -/
def claimDb (env : CallEnv) (db : ExecDb) (th : ExecTaskHost) : ExecDb :=
  db.setTaskHost th.id fun r => { r with status := .running, startedAt := some env.now }

/-- The semaphores with the two permits of a row taken. -/
def takeBoth (env : CallEnv) (sems : Sem → SemKey) (th : ExecTaskHost) : Sem → SemKey :=
  if env.brokerUp then
    Function.update (Function.update sems .global (sems .global).taken) (.host th.hostId)
      (sems (.host th.hostId)).taken
  else sems

/-- What one pass of the claiming loop leads to, for each outcome. -/
def ClaimResult (env : CallEnv) (th : ExecTaskHost) (s : DispatchState)
    (r : EStateM.Result DispatchCall DispatchState Bool) : ClaimOutcome → Prop
  | .started => ∃ s', r = .ok true s' ∧ s'.sems = takeBoth env s.sems th ∧
      s'.db = claimDb env s.db th ∧ s'.started = s.started ++ [th.id] ∧
      s'.rowEvents = s.rowEvents ++ [.claimed th.id] ∧
      ∀ sem, s'.excess sem = s.excess sem + permit env .global sem + permit env (.host th.hostId) sem
  | .refused => ∃ s', r = .ok false s' ∧ OnlyPermits s s' ∧ ∀ sem, s'.excess sem = s.excess sem
  | .aborted => ∃ c s', r = .error c s' ∧ OnlyPermits s s' ∧ ∀ sem, s'.excess sem = s.excess sem
  | .leaked => ∃ c s', r = .error c s' ∧ OnlyPermits s s' ∧
      s.excess .global + 1 ≤ s'.excess .global

theorem brokerUp_of_not_granted {key : SemKey} {o : AcquireOutcome}
    (h : acquireOutcome env key sem limit row = o) (ho : o ≠ .granted) : env.brokerUp = true := by
  by_contra hb
  rw [acquireOutcome, if_pos (Bool.eq_false_of_not_eq_true hb)] at h
  exact ho h.symm

theorem take_sems_ne (env : CallEnv) (s : DispatchState) {sem sem' : Sem} (h : sem' ≠ sem) :
    (s.take env sem).sems sem' = s.sems sem' := by
  rw [DispatchState.take]
  split_ifs
  · exact Function.update_of_ne h _ _
  · rfl

theorem claim_of_granted (s : DispatchState) :
    ClaimResult env th s
      ((do
        cleanup (commitClaim env th) (releaseBoth env th)
        modify fun s => { s with started := s.started ++ [th.id] }
        pure true : Dispatch Bool).run
          ((s.take env .global).take env (.host th.hostId)))
      (if env.raises (.claim th.id) = true then
        if (releaseRaises env (.host th.hostId) th.id || releaseRaises env .global th.id) = true then
          .leaked
        else .aborted
      else .started) := by
  set s₂ := (s.take env .global).take env (.host th.hostId) with hs₂
  have ho₂ : OnlyPermits s s₂ :=
    (onlyPermits_take env s .global).trans (onlyPermits_take env _ (.host th.hostId))
  have hx₂ : ∀ sem, s₂.excess sem =
      s.excess sem + permit env .global sem + permit env (.host th.hostId) sem := by
    intro sem
    rw [hs₂, excess_take, excess_take]
  cases hclaim : env.raises (.claim th.id) with
  | true =>
      rw [if_pos rfl]
      have hcommit : (commitClaim env th).run s₂ = .error (.claim th.id) s₂ :=
        perform_of_raises hclaim
      by_cases hrel : (releaseRaises env (.host th.hostId) th.id ||
          releaseRaises env .global th.id) = true
      · rw [if_pos hrel]
        obtain ⟨c, s', hr, ho, hx⟩ := releaseBoth_of_raises (s := s₂) (Bool.or_eq_true _ _ ▸ hrel)
        refine ⟨c, s', bind_of_error (cleanup_of_handler_error hcommit hr), ho₂.trans ho, ?_⟩
        have hb : env.brokerUp = true := by
          by_contra hb
          simp [releaseRaises, hb] at hrel
        rw [hx, hx₂, permit, permit, if_pos ⟨hb, rfl⟩, if_neg (by simp)]
        omega
      · rw [if_neg hrel]
        rw [Bool.or_eq_true, not_or] at hrel
        have hr := releaseBoth_of_quiet (s := s₂) (Bool.eq_false_of_not_eq_true hrel.1)
          (Bool.eq_false_of_not_eq_true hrel.2)
        refine ⟨_, _, bind_of_error (cleanup_of_error hcommit hr),
          (ho₂.trans (onlyPermits_give env _ _)).trans (onlyPermits_give env _ _), ?_⟩
        intro sem
        rw [excess_give, excess_give, hx₂]
        omega
  | false =>
      rw [if_neg Bool.false_ne_true]
      have hcommit := perform_of_quiet (s := s₂) (f := fun s =>
        (s.setRow th.id fun r => { r with status := .running, startedAt := some env.now }).log
          (.claimed th.id)) hclaim
      refine ⟨_, bind_of_ok (cleanup_of_ok hcommit), ?_, ?_, ?_, ?_, ?_⟩
      · change s₂.sems = takeBoth env s.sems th
        rw [hs₂, takeBoth, DispatchState.take, DispatchState.take]
        split_ifs with hb
        · simp [DispatchState.setSem]
        · rfl
      · rw [claimDb, ← ho₂.db]
        rfl
      · rw [← ho₂.started]
        rfl
      · rw [← ho₂.rowEvents]
        exact rowEvents_log_claimed s₂ th.id
      · intro sem
        rw [← hx₂]
        exact excess_log_claimed s₂ th.id sem

/-- One pass of the claiming loop ends as the calls that raise decide. -/
theorem claimRow_result (s : DispatchState) :
    ClaimResult env th s ((claimRow env th).run s) (claimOutcome env s.sems th) := by
  have hglobal := @acquireSemaphore_result env .global env.globalLimit th.id s
  rw [claimRow, claimOutcome]
  cases hag : acquireOutcome env (s.sems .global) .global env.globalLimit th.id with
  | refused =>
      rw [hag] at hglobal
      obtain ⟨sems, hr⟩ := hglobal
      exact ⟨_, bind_of_ok hr, onlyPermits_sems s sems, fun _ => rfl⟩
  | failed =>
      rw [hag] at hglobal
      obtain ⟨c, sems, hr⟩ := hglobal
      exact ⟨c, _, bind_of_error hr, onlyPermits_sems s sems, fun _ => rfl⟩
  | failedHolding =>
      rw [hag] at hglobal
      obtain ⟨c, sems, hr⟩ := hglobal
      refine ⟨c, _, bind_of_error hr, onlyPermits_acquired s sems .global, ?_⟩
      exact (excess_acquired s sems .global).ge
  | granted =>
      rw [hag] at hglobal
      rw [bind_of_ok hglobal, if_pos rfl]
      set s₁ := s.take env .global with hs₁
      have hx₁ : ∀ sem, s₁.excess sem = s.excess sem + permit env .global sem :=
        excess_take s .global
      have ho₁ : OnlyPermits s s₁ := onlyPermits_take env s .global
      have hhost := @acquireSemaphore_result env (.host th.hostId) env.hostLimit th.id s₁
      rw [show s₁.sems (.host th.hostId) = s.sems (.host th.hostId) from
        take_sems_ne env s Sem.noConfusion] at hhost
      cases hah : acquireOutcome env (s.sems (.host th.hostId)) (.host th.hostId) env.hostLimit
          th.id with
      | refused =>
          rw [hah] at hhost
          obtain ⟨sems, hr⟩ := hhost
          have hb := brokerUp_of_not_granted hah AcquireOutcome.noConfusion
          rw [bind_of_ok hr, if_neg Bool.false_ne_true]
          cases hrel : releaseRaises env .global th.id with
          | true =>
              refine ⟨_, _, bind_of_error (release_of_raises hrel),
                ho₁.trans (onlyPermits_sems s₁ sems), ?_⟩
              have hx := hx₁ .global
              rw [permit, if_pos ⟨hb, rfl⟩] at hx
              exact hx.ge
          | false =>
              refine ⟨_, bind_of_ok (release_of_quiet hrel),
                (ho₁.trans (onlyPermits_sems s₁ sems)).trans (onlyPermits_give env _ .global), ?_⟩
              intro sem
              have hx := hx₁ sem
              rw [excess_give]
              change s₁.excess sem - _ = _
              omega
      | failed =>
          rw [hah] at hhost
          obtain ⟨c, sems, hr⟩ := hhost
          have hb := brokerUp_of_not_granted hah AcquireOutcome.noConfusion
          refine ⟨c, _, bind_of_error hr, ho₁.trans (onlyPermits_sems s₁ sems), ?_⟩
          have hx := hx₁ .global
          rw [permit, if_pos ⟨hb, rfl⟩] at hx
          exact hx.ge
      | failedHolding =>
          rw [hah] at hhost
          obtain ⟨c, sems, hr⟩ := hhost
          have hb := brokerUp_of_not_granted hah AcquireOutcome.noConfusion
          refine ⟨c, _, bind_of_error hr, ho₁.trans (onlyPermits_acquired s₁ sems _), ?_⟩
          have hx := hx₁ .global
          rw [permit, if_pos ⟨hb, rfl⟩] at hx
          simp only [DispatchState.excess, List.count_append] at hx ⊢
          simp
          omega
      | granted =>
          rw [hah] at hhost
          rw [bind_of_ok hhost, if_pos rfl]
          exact claim_of_granted s

/-! ### The claiming loop -/

/-- The rows that the claiming loop starts, by the semaphores and the calls that raise. -/
def startedBy (env : CallEnv) : (Sem → SemKey) → List ExecTaskHost → List ExecTaskHost
  | _, [] => []
  | sems, th :: rest =>
      if claimOutcome env sems th = .started then th :: startedBy env (takeBoth env sems th) rest
      else []

/-- How the pass ends that leaves the claiming loop; `started` if the rows run out. -/
def claimsEnd (env : CallEnv) : (Sem → SemKey) → List ExecTaskHost → ClaimOutcome
  | _, [] => .started
  | sems, th :: rest =>
      if claimOutcome env sems th = .started then claimsEnd env (takeBoth env sems th) rest
      else claimOutcome env sems th

/-- The permits of `sem` that started rows hold. -/
def heldBy (env : CallEnv) (rows : List ExecTaskHost) (sem : Sem) : ℤ :=
  (rows.map fun th => permit env .global sem + permit env (.host th.hostId) sem).sum

theorem heldBy_cons (env : CallEnv) (th : ExecTaskHost) (rows : List ExecTaskHost) (sem : Sem) :
    heldBy env (th :: rows) sem =
      permit env .global sem + permit env (.host th.hostId) sem + heldBy env rows sem := by
  rw [heldBy, heldBy, List.map_cons, List.sum_cons]

theorem heldBy_nonneg (env : CallEnv) (rows : List ExecTaskHost) (sem : Sem) :
    0 ≤ heldBy env rows sem := by
  have hpermit : ∀ sem', 0 ≤ permit env sem' sem := by
    intro sem'
    rw [permit]
    split_ifs <;> omega
  refine List.sum_nonneg ?_
  intro x hx
  obtain ⟨th, -, rfl⟩ := List.mem_map.mp hx
  exact add_nonneg (hpermit _) (hpermit _)

/-- The rows that were claimed between two states. -/
structure Claimed (env : CallEnv) (s s' : DispatchState) (rows : List ExecTaskHost) : Prop where
  db : s'.db = rows.foldl (claimDb env) s.db
  started : s'.started = s.started ++ rows.map ExecTaskHost.id
  rowEvents : s'.rowEvents = s.rowEvents ++ rows.map fun th => .claimed th.id

theorem OnlyPermits.claimed_nil {s s' : DispatchState} (h : OnlyPermits s s') :
    Claimed env s s' [] := by
  refine ⟨h.db, ?_, ?_⟩
  · rw [h.started, List.map_nil, List.append_nil]
  · rw [h.rowEvents, List.map_nil, List.append_nil]

/-- What the claiming loop does. -/
structure ClaimsResult (env : CallEnv) (rows : List ExecTaskHost) (s s' : DispatchState)
    (r : EStateM.Result DispatchCall DispatchState Unit) : Prop where
  result : r = .ok () s' ∧ claimsEnd env s.sems rows ≠ .aborted ∧
      claimsEnd env s.sems rows ≠ .leaked ∨
    (∃ c, r = .error c s') ∧
      (claimsEnd env s.sems rows = .aborted ∨ claimsEnd env s.sems rows = .leaked)
  claimed : Claimed env s s' (startedBy env s.sems rows)
  balanced : claimsEnd env s.sems rows ≠ .leaked →
    ∀ sem, s'.excess sem = s.excess sem + heldBy env (startedBy env s.sems rows) sem
  leaks : claimsEnd env s.sems rows = .leaked →
    s.excess .global + heldBy env (startedBy env s.sems rows) .global + 1 ≤ s'.excess .global

theorem claimLoop_result (rows : List ExecTaskHost) (s : DispatchState) :
    ∃ s', ClaimsResult env rows s s' ((claimLoop env rows).run s) := by
  induction rows generalizing s with
  | nil =>
      refine ⟨s, Or.inl ⟨rfl, ?_, ?_⟩, OnlyPermits.claimed_nil ⟨rfl, rfl, rfl⟩, ?_, ?_⟩
      · simp [claimsEnd]
      · simp [claimsEnd]
      · simp [startedBy, heldBy]
      · simp [claimsEnd]
  | cons th rest ih =>
      have hrow := @claimRow_result env th s
      rw [claimLoop]
      cases ho : claimOutcome env s.sems th with
      | started =>
          rw [ho] at hrow
          obtain ⟨s₁, hr, hsems, hdb, hstarted, hevents, hx⟩ := hrow
          obtain ⟨s', hrest⟩ := ih s₁
          rw [bind_of_ok hr, if_pos rfl]
          have hend : claimsEnd env s.sems (th :: rest) = claimsEnd env s₁.sems rest := by
            rw [claimsEnd, if_pos ho, hsems]
          have hby : startedBy env s.sems (th :: rest) = th :: startedBy env s₁.sems rest := by
            rw [startedBy, if_pos ho, hsems]
          refine ⟨s', hend ▸ hrest.result, ?_, ?_, ?_⟩
          · rw [hby]
            refine ⟨?_, ?_, ?_⟩
            · rw [hrest.claimed.db, hdb, List.foldl_cons]
            · rw [hrest.claimed.started, hstarted, List.map_cons, List.append_assoc,
                List.singleton_append]
            · rw [hrest.claimed.rowEvents, hevents, List.map_cons, List.append_assoc,
                List.singleton_append]
          · intro hne sem
            rw [hby, heldBy_cons, hrest.balanced (hend ▸ hne), hx]
            omega
          · intro hl
            have hle := hrest.leaks (hend ▸ hl)
            rw [hx] at hle
            rw [hby, heldBy_cons]
            omega
      | refused =>
          rw [ho] at hrow
          obtain ⟨s', hr, hp, hx⟩ := hrow
          rw [bind_of_ok hr, if_neg Bool.false_ne_true]
          have hend : claimsEnd env s.sems (th :: rest) = .refused := by
            rw [claimsEnd, if_neg (by simp [ho]), ho]
          have hby : startedBy env s.sems (th :: rest) = [] := by
            rw [startedBy, if_neg (by simp [ho])]
          refine ⟨s', Or.inl ⟨rfl, by simp [hend], by simp [hend]⟩, hby ▸ hp.claimed_nil, ?_, ?_⟩
          · intro _ sem
            rw [hby, hx]
            simp [heldBy]
          · intro hl
            rw [hend] at hl
            cases hl
      | aborted =>
          rw [ho] at hrow
          obtain ⟨c, s', hr, hp, hx⟩ := hrow
          rw [bind_of_error hr]
          have hend : claimsEnd env s.sems (th :: rest) = .aborted := by
            rw [claimsEnd, if_neg (by simp [ho]), ho]
          have hby : startedBy env s.sems (th :: rest) = [] := by
            rw [startedBy, if_neg (by simp [ho])]
          refine ⟨s', Or.inr ⟨⟨c, rfl⟩, Or.inl hend⟩, hby ▸ hp.claimed_nil, ?_, ?_⟩
          · intro _ sem
            rw [hby, hx]
            simp [heldBy]
          · intro hl
            rw [hend] at hl
            cases hl
      | leaked =>
          rw [ho] at hrow
          obtain ⟨c, s', hr, hp, hx⟩ := hrow
          rw [bind_of_error hr]
          have hend : claimsEnd env s.sems (th :: rest) = .leaked := by
            rw [claimsEnd, if_neg (by simp [ho]), ho]
          have hby : startedBy env s.sems (th :: rest) = [] := by
            rw [startedBy, if_neg (by simp [ho])]
          refine ⟨s', Or.inr ⟨⟨c, rfl⟩, Or.inr hend⟩, hby ▸ hp.claimed_nil, ?_, ?_⟩
          · intro hne
            exact absurd hend hne
          · intro _
            rw [hby]
            simpa [heldBy] using hx

end LarkPlat
