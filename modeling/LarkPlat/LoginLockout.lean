import Mathlib.Data.List.Perm.Basic
import Mathlib.Order.Bounds.Basic
import LarkPlat.Machine

/-!
# Locking Out Wrong Passwords

`auth.py` and `redis_helper.py`: a login is admitted if the key `login:lock:` of its user name does
not exist. A wrong password then increments `login:fail:` and renews its minute with one command,
and writes the lock with another if the count has reached the limit. Other logins of the same name
come between these steps, each in a worker of its own.

## Main results

* `inv_apply`: what a step of a burst keeps.
* `checked_isGreatest`: while neither key lapses and no login succeeds, `K` workers check at most
  `K - 1` wrong passwords more than the limit, and that many they can check.
-/

namespace LarkPlat

open Machine

/-- `login_max_failures` and `login_lock_minutes`. -/
structure LockoutEnv where
  loginMaxFailures : ℕ
  loginLockMinutes : ℕ

/-- The keys of one user name with the last times at which they exist, the clock in milliseconds,
and the logins in flight: those that were admitted, and the counts of those that have failed and are
about to compare them. `checked` counts the wrong passwords. -/
structure LockoutState where
  clock : ℕ
  failures : Option (ℕ × ℕ)
  lock : Option ℕ
  admitted : ℕ
  counted : List ℕ
  checked : ℕ
  deriving DecidableEq

namespace LockoutState

variable (env : LockoutEnv) (st : LockoutState)

/-- `login_rate_limit`: the login is admitted. -/
def loginRateLimit : Bool :=
  match st.lock with
  | some t => decide (t < st.clock)
  | none => true

/-- The failures that are counted at present. -/
def liveFailures : ℕ :=
  match st.failures with
  | some (n, t) => if st.clock ≤ t then n else 0
  | none => 0

/-- The first command of `record_login_failure`. -/
def countFailure : LockoutState :=
  let count := st.liveFailures + 1
  { st with
    failures := some (count, st.clock + 60 * 1000)
    admitted := st.admitted - 1
    counted := st.counted ++ [count]
    checked := st.checked + 1 }

/-- The rest of `record_login_failure`, for the `i`-th login that has counted its failure. -/
def lockOut (i : ℕ) : LockoutState :=
  match st.counted[i]? with
  | none => st
  | some count =>
      let st' := { st with counted := st.counted.eraseIdx i }
      if env.loginMaxFailures ≤ count then
        { st' with lock := some (st.clock + env.loginLockMinutes * 60 * 1000) }
      else st'

/-- `clear_login_failures` of a login that succeeds. -/
def clearFailures : LockoutState :=
  { st with failures := none, admitted := st.admitted - 1 }

/-- The steps of the logins, and the time that passes. -/
inductive Op where
  | enter
  | fail
  | finish (i : ℕ)
  | succeed
  | wait (ms : ℕ)

/-- The state after a step. -/
def apply (env : LockoutEnv) (st : LockoutState) : Op → LockoutState
  | .enter => if st.loginRateLimit then { st with admitted := st.admitted + 1 } else st
  | .fail => if st.admitted = 0 then st else st.countFailure
  | .finish i => st.lockOut env i
  | .succeed => if st.admitted = 0 then st else st.clearFailures
  | .wait ms => { st with clock := st.clock + ms }

/-- No keys, and no logins. -/
def start (clock : ℕ) : LockoutState := ⟨clock, none, none, 0, [], 0⟩

/-! ### Bursts -/

/-- A step of a burst: a login finds a free worker, the keys have not lapsed, and no login
succeeds. -/
def InBurst (K : ℕ) (st : LockoutState) : Op → Prop
  | .enter => st.admitted + st.counted.length < K ∧ ∀ t, st.lock = some t → st.clock ≤ t
  | .fail => ∀ n t, st.failures = some (n, t) → st.clock ≤ t
  | .succeed => False
  | _ => True

/-- The failures that will write the lock. -/
def locking (env : LockoutEnv) (counted : List ℕ) : ℕ :=
  counted.countP fun n => decide (env.loginMaxFailures ≤ n)

/-- What holds in a burst. Before the lock exists, all checks but the first ones are about to write
it; afterwards, the admitted logins are the last. -/
structure Inv (env : LockoutEnv) (K : ℕ) (st : LockoutState) : Prop where
  workers : st.admitted + st.counted.length ≤ K
  counts : (st.failures = none ∧ st.checked = 0) ∨ ∃ t, st.failures = some (st.checked, t)
  unlocked : st.lock = none →
    st.checked ≤ env.loginMaxFailures - 1 + locking env st.counted
  locked : ∀ t, st.lock = some t → st.checked + st.admitted ≤ env.loginMaxFailures - 1 + K

variable {env : LockoutEnv} {st : LockoutState} {K i : ℕ}

theorem locking_le (env : LockoutEnv) (counted : List ℕ) : locking env counted ≤ counted.length :=
  List.countP_le_length

theorem Inv.liveFailures (h : Inv env K st)
    (hlive : ∀ n t, st.failures = some (n, t) → st.clock ≤ t) : st.liveFailures = st.checked := by
  rw [LockoutState.liveFailures]
  rcases h.counts with ⟨hnone, hzero⟩ | ⟨t, hsome⟩
  · rw [hnone, hzero]
  · rw [hsome]
    exact if_pos (hlive _ _ hsome)

theorem Inv.countFailure (h : Inv env K st)
    (hlive : ∀ n t, st.failures = some (n, t) → st.clock ≤ t) (hadmitted : st.admitted ≠ 0) :
    Inv env K st.countFailure := by
  have hcount := h.liveFailures hlive
  have hworkers := h.workers
  rw [LockoutState.countFailure, hcount]
  refine ⟨?_, .inr ⟨_, rfl⟩, fun hlock => ?_, fun t hlock => ?_⟩
  · simp only [List.length_append, List.length_singleton]
    omega
  · have hunlocked := h.unlocked hlock
    simp only [locking, List.countP_append, List.countP_singleton] at hunlocked ⊢
    by_cases hlimit : env.loginMaxFailures ≤ st.checked + 1
    · rw [if_pos (by simpa using hlimit)]
      omega
    · omega
  · have hlocked := h.locked t hlock
    simp only
    omega

theorem perm_eraseIdx {counted : List ℕ} {count : ℕ} (h : counted[i]? = some count) :
    (count :: counted.eraseIdx i).Perm counted := by
  obtain ⟨hi, rfl⟩ := List.getElem?_eq_some_iff.mp h
  exact List.getElem_cons_eraseIdx_perm hi

theorem Inv.lockOut (h : Inv env K st) : Inv env K (st.lockOut env i) := by
  rw [LockoutState.lockOut]
  split
  · exact h
  next count hcount =>
    have hperm := perm_eraseIdx hcount
    have hlength := hperm.length_eq
    rw [List.length_cons] at hlength
    have hlocking : locking env st.counted = locking env (st.counted.eraseIdx i) +
        if env.loginMaxFailures ≤ count then 1 else 0 := by
      rw [locking, ← hperm.countP_eq, List.countP_cons]
      simp [locking]
    have hworkers := h.workers
    have hle := locking_le env st.counted
    dsimp only
    split_ifs with hlimit
    · -- The lock exists from here on, and every other login in flight is counted in `K`.
      refine ⟨?_, h.counts, nofun, fun t _ => ?_⟩
      · simp only
        omega
      · cases hlock : st.lock with
        | none =>
            have hunlocked := h.unlocked hlock
            simp only
            omega
        | some t' => exact h.locked t' hlock
    · rw [if_neg hlimit] at hlocking
      refine ⟨?_, h.counts, fun hlock => ?_, h.locked⟩
      · simp only
        omega
      · have hunlocked := h.unlocked hlock
        rw [hlocking] at hunlocked
        exact hunlocked

/-- What a step of a burst keeps. -/
theorem inv_apply (h : Inv env K st) {op : Op} (hop : InBurst K st op) :
    Inv env K (st.apply env op) := by
  cases op with
  | enter =>
      obtain ⟨hfree, hlive⟩ := hop
      rw [apply]
      split_ifs with henter
      · have hlock : st.lock = none := by
          rw [loginRateLimit] at henter
          split at henter
          next t hlock => exact absurd (of_decide_eq_true henter) (Nat.not_lt.mpr (hlive t hlock))
          next hlock => exact hlock
        refine ⟨?_, h.counts, h.unlocked, fun t ht => ?_⟩
        · simp only
          omega
        · rw [show st.lock = some t from ht] at hlock
          cases hlock
      · exact h
  | fail =>
      rw [apply]
      split_ifs with hnone
      · exact h
      · exact h.countFailure hop hnone
  | finish i => exact h.lockOut
  | succeed => cases hop
  | wait ms => exact ⟨h.workers, h.counts, h.unlocked, h.locked⟩

theorem checked_le {ops : List Op} {clock : ℕ}
    (hburst : Meets (apply env) (InBurst K) (start clock) ops) :
    (run (apply env) (start clock) ops).checked ≤ env.loginMaxFailures - 1 + K := by
  have hstart : Inv env K (start clock) :=
    ⟨Nat.zero_le _, .inl ⟨rfl, rfl⟩, fun _ => Nat.zero_le _, fun t ht => by cases ht⟩
  have h : Inv env K (run (apply env) (start clock) ops) :=
    run_invariant_of_meets (P := Inv env K) (fun _ _ h hop => inv_apply h hop) hstart hburst
  have hworkers := h.workers
  have hle := locking_le env (run (apply env) (start clock) ops).counted
  cases hlock : (run (apply env) (start clock) ops).lock with
  | none =>
      have hunlocked := h.unlocked hlock
      omega
  | some t =>
      have hlocked := h.locked t hlock
      omega

/-! ### The bound is reached -/

/-- A login that fails before the next one is admitted. -/
def failedLogin : List Op := [.enter, .fail, .finish 0]

/-- So many logins fail one after the other, and then so many at once. -/
def worstBurst (n K : ℕ) : List Op :=
  (List.replicate n failedLogin).flatten ++ (List.replicate K .enter ++ List.replicate K .fail)

/-- So many logins have failed one after the other, and so many are admitted. -/
def afterFailures (clock n admitted : ℕ) : LockoutState where
  clock := clock
  failures := if n = 0 then none else some (n, clock + 60 * 1000)
  lock := none
  admitted := admitted
  counted := []
  checked := n

theorem liveFailures_afterFailures (clock n admitted : ℕ) :
    (afterFailures clock n admitted).liveFailures = n := by
  rw [LockoutState.liveFailures, afterFailures]
  dsimp only
  by_cases hn : n = 0
  · rw [if_pos hn, hn]
  · rw [if_neg hn]
    exact if_pos (Nat.le_add_right _ _)

theorem run_failedLogin {clock n : ℕ} (h : n + 1 < env.loginMaxFailures) :
    run (apply env) (afterFailures clock n 0) failedLogin = afterFailures clock (n + 1) 0 := by
  have hfail : (afterFailures clock n 1).countFailure =
      { afterFailures clock (n + 1) 0 with counted := [n + 1] } := by
    rw [countFailure, liveFailures_afterFailures]
    rfl
  calc run (apply env) (afterFailures clock n 0) failedLogin
      = (afterFailures clock n 1).countFailure.lockOut env 0 := rfl
    _ = afterFailures clock (n + 1) 0 := by
      rw [hfail, lockOut]
      exact if_neg (Nat.not_le.mpr h)

theorem live_afterFailures {clock n admitted k t : ℕ}
    (h : (afterFailures clock n admitted).failures = some (k, t)) : clock ≤ t := by
  rw [afterFailures] at h
  dsimp only at h
  split_ifs at h
  obtain ⟨-, rfl⟩ := Prod.mk.inj (Option.some.inj h)
  exact Nat.le_add_right _ _

theorem inBurst_failedLogin {clock n : ℕ} (hK : 0 < K) :
    Meets (apply env) (InBurst K) (afterFailures clock n 0) failedLogin :=
  ⟨⟨hK, fun t h => by cases h⟩, fun _ _ h => live_afterFailures h, trivial, trivial⟩

theorem serial_failures (env : LockoutEnv) (clock : ℕ) (hK : 0 < K) {n : ℕ}
    (h : n ≤ env.loginMaxFailures - 1) :
    Meets (apply env) (InBurst K) (start clock) (List.replicate n failedLogin).flatten ∧
      run (apply env) (start clock) (List.replicate n failedLogin).flatten =
        afterFailures clock n 0 := by
  induction n with
  | zero => exact ⟨trivial, rfl⟩
  | succ n ih =>
      obtain ⟨hmeets, hrun⟩ := ih (by omega)
      rw [List.replicate_succ', List.flatten_append, List.flatten_singleton]
      refine ⟨(meets_append _ _ _).mpr ⟨hmeets, ?_⟩, ?_⟩
      · rw [hrun]
        exact inBurst_failedLogin hK
      · rw [run_append, hrun]
        exact run_failedLogin (by omega)

theorem admissions (env : LockoutEnv) (clock n admitted j : ℕ) (h : admitted + j ≤ K) :
    Meets (apply env) (InBurst K) (afterFailures clock n admitted) (List.replicate j .enter) ∧
      run (apply env) (afterFailures clock n admitted) (List.replicate j .enter) =
        afterFailures clock n (admitted + j) := by
  induction j generalizing admitted with
  | zero => exact ⟨trivial, rfl⟩
  | succ j ih =>
      obtain ⟨hmeets, hrun⟩ := ih (admitted + 1) (by omega)
      rw [List.replicate_succ]
      refine ⟨⟨⟨?_, fun t h => by cases h⟩, hmeets⟩, ?_⟩
      · show admitted + 0 < K
        omega
      · rw [run_cons, ← show admitted + 1 + j = admitted + (j + 1) by omega]
        exact hrun

theorem concurrent_failures (env : LockoutEnv) (K : ℕ) {st : LockoutState} {j : ℕ}
    (h : j ≤ st.admitted) (hlive : ∀ n t, st.failures = some (n, t) → st.clock ≤ t) :
    Meets (apply env) (InBurst K) st (List.replicate j .fail) ∧
      (run (apply env) st (List.replicate j .fail)).checked = st.checked + j := by
  induction j generalizing st with
  | zero => exact ⟨trivial, rfl⟩
  | succ j ih =>
      have happly : st.apply env .fail = st.countFailure := if_neg (by omega)
      have hnext : j ≤ st.countFailure.admitted := by
        show j ≤ st.admitted - 1
        omega
      obtain ⟨hmeets, hrun⟩ := ih hnext fun n t ht => by
        obtain ⟨-, rfl⟩ := Prod.mk.inj (Option.some.inj ht)
        exact Nat.le_add_right _ _
      rw [List.replicate_succ]
      refine ⟨⟨hlive, happly ▸ hmeets⟩, ?_⟩
      rw [run_cons, happly, hrun]
      show st.checked + 1 + j = st.checked + (j + 1)
      omega

/-- **Wrong passwords.** While the keys do not lapse and no login succeeds, `K` workers check at
most `K` wrong passwords beside those below the limit, and they can check so many. -/
theorem checked_isGreatest (env : LockoutEnv) (clock : ℕ) (hK : 0 < K) :
    IsGreatest {n | ∃ ops, Meets (apply env) (InBurst K) (start clock) ops ∧
      (run (apply env) (start clock) ops).checked = n} (env.loginMaxFailures - 1 + K) := by
  constructor
  · obtain ⟨hserial, hserialRun⟩ := serial_failures env clock hK le_rfl
    obtain ⟨henter, hadmitRun⟩ := admissions env clock (env.loginMaxFailures - 1) 0 K
      (Nat.zero_add K).le
    have hadmitted : K ≤ (afterFailures clock (env.loginMaxFailures - 1) (0 + K)).admitted :=
      (Nat.zero_add K).ge
    obtain ⟨hfail, hfailRun⟩ := concurrent_failures env K hadmitted
      fun _ _ h => live_afterFailures h
    refine ⟨worstBurst (env.loginMaxFailures - 1) K, ?_, ?_⟩
    · rw [worstBurst, meets_append, hserialRun, meets_append, hadmitRun]
      exact ⟨hserial, henter, hfail⟩
    · rw [worstBurst, run_append, hserialRun, run_append, hadmitRun]
      exact hfailRun
  · rintro n ⟨ops, hburst, rfl⟩
    exact checked_le hburst

/-- Two workers check six wrong passwords when five lock the account. -/
theorem checked_isGreatest_two :
    IsGreatest {n | ∃ ops, Meets (apply ⟨5, 10⟩) (InBurst 2) (start 0) ops ∧
      (run (apply ⟨5, 10⟩) (start 0) ops).checked = n} (5 - 1 + 2) :=
  checked_isGreatest ⟨5, 10⟩ 0 (by decide)

end LockoutState

end LarkPlat
