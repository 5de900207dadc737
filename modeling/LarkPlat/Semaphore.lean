import LarkPlat.Machine
import Mathlib.Algebra.BigOperators.Group.Finset.Piecewise
import Mathlib.Data.Fintype.Basic

/-!
# The Counting Semaphore over Redis

`acquire_semaphore` takes a lock key, reads the counter, writes it back plus one and drops the
lock key; `release_semaphore` decrements the counter and takes no lock. Redis runs each command
atomically, so the processes interleave between commands: this module models every process
as a program counter that stands between two commands, and a history as the list of the
commands in the order in which Redis receives them.

A decrement that Redis receives between the read and the write of an acquirer is
overwritten by that write. The counter is then one too high for good: it never counts too few
permits, and so the limit is never exceeded, but each lost decrement takes one permit out of
use.

## Main results

* `ledger_run`: after every history the counter is the number of permits held plus the number
  of decrements received inside the window of an acquirer.
* `semaphore_counts_iff`: with no call in progress the counter is the number of permits held
  exactly if no decrement was received inside a window; the limit is never exceeded.
-/

namespace LarkPlat

/-! ### The keys of one semaphore -/

/-- The Redis keys of one semaphore: whether `sem:lock:<key>` exists, and the counter
`sem:<key>`. A missing counter is read as 0 and decremented from 0. -/
structure SemKey where
  locked : Bool
  value : ℤ
  deriving DecidableEq, Repr

namespace SemKey

/-- A semaphore that was never used. -/
def fresh : SemKey := ⟨false, 0⟩

/-- `SET sem:lock:<key> 1 NX EX timeout`. -/
def setLock (k : SemKey) : Bool × SemKey := (!k.locked, { k with locked := true })

/-- `SET sem:<key> v`. -/
def setValue (k : SemKey) (v : ℤ) : SemKey := { k with value := v }

/-- `DEL sem:lock:<key>`. -/
def delLock (k : SemKey) : SemKey := { k with locked := false }

/-- `DECR sem:<key>`. -/
def decr (k : SemKey) : SemKey := { k with value := k.value - 1 }

end SemKey

/-! ### Processes between two commands -/

/-- Where a process stands in `acquire_semaphore`. -/
inductive SemPc where
  /-- Outside every call. -/
  | idle
  /-- The lock key is set, the counter is to be read. -/
  | locked
  /-- The counter was read as `cur`. -/
  | read (cur : ℤ)
  /-- The counter is written, the lock key is to be deleted. -/
  | granted
  deriving DecidableEq, Repr

/-- The process has read the counter and will write it. -/
@[simp] def SemPc.inWindow (limit : ℕ) : SemPc → Bool
  | .read cur => cur < limit
  | _ => false

variable {P : Type*}

/-- The keys of a semaphore with the processes that use it. A permit counts as held from the
command that grants it on. -/
structure SemState (P : Type*) where
  key : SemKey
  pc : P → SemPc
  held : P → ℕ

/-- A semaphore that was never used, and no call in progress. -/
def SemState.init : SemState P := ⟨.fresh, fun _ => .idle, fun _ => 0⟩

/-- No call is in progress. -/
def SemState.Quiescent (s : SemState P) : Prop := ∀ p, s.pc p = .idle

/-- The next command that Redis receives, by the process that sends it. -/
inductive SemOp (P : Type*) where
  /-- The first command of `acquire_semaphore`. -/
  | acquire (p : P)
  /-- The next command of an `acquire_semaphore` in progress. -/
  | next (p : P)
  /-- `release_semaphore` of a permit that the process holds. -/
  | release (p : P)
  deriving DecidableEq

/-- Only the process that set the lock key is inside `acquire_semaphore`. -/
structure SemState.Exclusive (s : SemState P) : Prop where
  unique : ∀ p q, s.pc p ≠ .idle → s.pc q ≠ .idle → p = q
  locked : ∀ p, s.pc p ≠ .idle → s.key.locked = true

theorem SemState.Exclusive.idle {s : SemState P} (h : s.Exclusive) {p q : P}
    (hp : s.pc p ≠ .idle) (hq : q ≠ p) : s.pc q = .idle := by
  by_contra hc
  exact hq (h.unique q p hc hp)

theorem exclusive_of_quiescent {s : SemState P} (h : s.Quiescent) : s.Exclusive :=
  ⟨fun p _ hp => absurd (h p) hp, fun p hp => absurd (h p) hp⟩

variable [DecidableEq P]

/-- One command of `acquire_semaphore(key, limit)` or `release_semaphore(key)`. -/
def semStep (limit : ℕ) (s : SemState P) : SemOp P → SemState P
  | .acquire p =>
      if s.pc p = .idle then
        match s.key.setLock with
        | (true, key) => { s with key := key, pc := Function.update s.pc p .locked }
        | (false, key) => { s with key := key }
      else s
  | .next p =>
      match s.pc p with
      | .idle => s
      | .locked => { s with pc := Function.update s.pc p (.read s.key.value) }
      | .read cur =>
          if cur < limit then
            { key := s.key.setValue (cur + 1)
              pc := Function.update s.pc p .granted
              held := Function.update s.held p (s.held p + 1) }
          else
            { s with key := s.key.delLock, pc := Function.update s.pc p .idle }
      | .granted => { s with key := s.key.delLock, pc := Function.update s.pc p .idle }
  | .release p =>
      if s.pc p = .idle ∧ 0 < s.held p then
        { s with key := s.key.decr, held := Function.update s.held p (s.held p - 1) }
      else s

/-- A decrement is received while no process is between its read and its write. -/
def DecrOutsideWindow (limit : ℕ) (s : SemState P) : SemOp P → Prop
  | .release p => s.pc p = .idle ∧ 0 < s.held p → ∀ q, (s.pc q).inWindow limit = false
  | _ => True

/-! ### The lock key admits one acquirer -/

/-- A process after one of them has moved: the mover, or one that stands where it stood. -/
theorem update_eq {pc : P → SemPc} {p q : P} {x y : SemPc} (h : Function.update pc p x q = y) :
    (q = p ∧ x = y) ∨ (q ≠ p ∧ pc q = y) := by
  by_cases hq : q = p
  · rw [hq, Function.update_self] at h
    exact Or.inl ⟨hq, h⟩
  · rw [Function.update_of_ne hq] at h
    exact Or.inr ⟨hq, h⟩

theorem SemState.Exclusive.advance {s : SemState P} (h : s.Exclusive) {p : P}
    (hp : s.pc p ≠ .idle) (key : SemKey) (hkey : key.locked = s.key.locked) (pc : SemPc)
    (held : P → ℕ) : (⟨key, Function.update s.pc p pc, held⟩ : SemState P).Exclusive := by
  have hat : ∀ q, Function.update s.pc p pc q ≠ .idle → q = p := by
    intro q hq
    by_contra hne
    rw [Function.update_of_ne hne] at hq
    exact hq (h.idle hp hne)
  constructor
  · intro q r hq hr
    exact (hat q hq).trans (hat r hr).symm
  · intro q hq
    exact hkey.trans (h.locked p hp)

theorem SemState.Exclusive.leave {s : SemState P} (h : s.Exclusive) {p : P}
    (hp : s.pc p ≠ .idle) (q : P) : Function.update s.pc p .idle q = .idle := by
  by_cases hq : q = p
  · rw [hq, Function.update_self]
  · rw [Function.update_of_ne hq]
    exact h.idle hp hq

theorem exclusive_semStep (limit : ℕ) {s : SemState P} (h : s.Exclusive) (op : SemOp P) :
    (semStep limit s op).Exclusive := by
  cases op with
  | acquire p =>
      rw [semStep]
      split_ifs with hp
      · cases hl : s.key.locked with
        | true =>
            have hset : s.key.setLock = (false, { s.key with locked := true }) := by
              rw [SemKey.setLock, hl, Bool.not_true]
            rw [hset]
            exact ⟨h.unique, fun _ _ => rfl⟩
        | false =>
            have hset : s.key.setLock = (true, { s.key with locked := true }) := by
              rw [SemKey.setLock, hl, Bool.not_false]
            rw [hset]
            have hidle : ∀ q, s.pc q = .idle := by
              intro q
              by_contra hq
              rw [h.locked q hq] at hl
              cases hl
            have hat : ∀ q, Function.update s.pc p .locked q ≠ .idle → q = p := by
              intro q hq
              by_contra hne
              rw [Function.update_of_ne hne] at hq
              exact hq (hidle q)
            exact ⟨fun q r hq hr => (hat q hq).trans (hat r hr).symm, fun _ _ => rfl⟩
      · exact h
  | next p =>
      rw [semStep]
      split
      · exact h
      · rename_i hp
        exact h.advance (by simp [hp]) s.key rfl _ _
      · rename_i cur hp
        have hne : s.pc p ≠ .idle := by simp [hp]
        split_ifs with hcur
        · exact h.advance hne (s.key.setValue (cur + 1)) rfl _ _
        · exact exclusive_of_quiescent (h.leave hne)
      · rename_i hp
        exact exclusive_of_quiescent (h.leave (by simp [hp]))
  | release p =>
      rw [semStep]
      split_ifs with hp
      · exact ⟨h.unique, h.locked⟩
      · exact h

theorem noWindow_of_acquirer {limit : ℕ} {s : SemState P} (h : s.Exclusive) {p : P}
    (hp : s.pc p ≠ .idle) (hout : (s.pc p).inWindow limit = false) (q : P) :
    (s.pc q).inWindow limit = false := by
  by_cases hq : q = p
  · rw [hq]
    exact hout
  · rw [h.idle hp hq]
    rfl

theorem noWindow_update {limit : ℕ} {s : SemState P} (h : s.Exclusive) {p : P}
    (hp : s.pc p ≠ .idle) {pc : SemPc} (hout : pc.inWindow limit = false) (q : P) :
    (Function.update s.pc p pc q).inWindow limit = false := by
  by_cases hq : q = p
  · rw [hq, Function.update_self]
    exact hout
  · rw [Function.update_of_ne hq, h.idle hp hq]
    rfl

/-! ### The ledger of lost decrements -/

variable [Fintype P]

/-- The number of permits held by all processes. -/
def SemState.total (s : SemState P) : ℕ := ∑ p, s.held p

instance (s : SemState P) : Decidable s.Quiescent :=
  inferInstanceAs (Decidable (∀ p, s.pc p = .idle))

instance (limit : ℕ) (s : SemState P) (op : SemOp P) : Decidable (DecrOutsideWindow limit s op) :=
  match op with
  | .acquire _ => isTrue trivial
  | .next _ => isTrue trivial
  | .release p => inferInstanceAs
      (Decidable (s.pc p = .idle ∧ 0 < s.held p → ∀ q, (s.pc q).inWindow limit = false))

/-- The counter is the number of permits held plus `d`, where an acquirer inside its window
stands for the value it has read. -/
structure SemState.Ledger (limit d : ℕ) (s : SemState P) : Prop where
  exclusive : s.Exclusive
  window : ∀ p cur, s.pc p = .read cur → cur < limit → cur = s.total + d
  settled : (∀ p, (s.pc p).inWindow limit = false) → s.key.value = s.total + d
  bounded : s.total + d ≤ limit

/-- The number of permits after one process has `n` of them. -/
theorem sum_update_held (held : P → ℕ) (p : P) (n : ℕ) :
    ∑ q, Function.update held p n q + held p = ∑ q, held q + n := by
  have hself := Finset.sum_update_of_mem (Finset.mem_univ p) held n
  have hrest := Finset.add_sum_erase Finset.univ held (Finset.mem_univ p)
  rw [← Finset.erase_eq] at hself
  omega

omit [DecidableEq P] in
theorem ledger_init (limit : ℕ) : (SemState.init : SemState P).Ledger limit 0 := by
  have htotal : (SemState.init : SemState P).total = 0 := Finset.sum_const_zero
  constructor
  · exact exclusive_of_quiescent fun _ => rfl
  · rintro p cur hp -
    cases hp
  · intro _
    rw [htotal]
    rfl
  · rw [htotal]
    omega

section Ledger

variable {limit d : ℕ} {s : SemState P} {p : P}

omit [DecidableEq P] in
theorem ledger_of_noWindow (hx : s.Exclusive) (hw : ∀ p, (s.pc p).inWindow limit = false)
    (hv : s.key.value = s.total + d) (hb : s.total + d ≤ limit) : s.Ledger limit d := by
  refine ⟨hx, ?_, fun _ => hv, hb⟩
  intro q cur hq hcur
  have hq' := hw q
  rw [hq, SemPc.inWindow, decide_eq_false_iff_not] at hq'
  exact absurd hcur hq'

theorem SemState.Ledger.acquire (h : s.Ledger limit d) (p : P) :
    (semStep limit s (.acquire p)).Ledger limit d := by
  have hx := exclusive_semStep limit h.exclusive (.acquire p)
  by_cases hp : s.pc p = .idle
  · cases hl : s.key.locked with
    | true =>
        simp only [semStep, hp, if_true, SemKey.setLock, hl, Bool.not_true] at hx ⊢
        exact ⟨hx, h.window, h.settled, h.bounded⟩
    | false =>
        simp only [semStep, hp, if_true, SemKey.setLock, hl, Bool.not_false] at hx ⊢
        refine ⟨hx, ?_, ?_, h.bounded⟩
        · intro q cur hq hcur
          obtain ⟨-, hpc⟩ | ⟨-, hq⟩ := update_eq hq
          · cases hpc
          · exact h.window q cur hq hcur
        · intro _
          refine h.settled fun q => ?_
          have hq : s.pc q = .idle := by
            by_contra hne
            rw [h.exclusive.locked q hne] at hl
            cases hl
          rw [hq]
          rfl
  · rw [semStep, if_neg hp]
    exact h

theorem SemState.Ledger.next (h : s.Ledger limit d) (p : P) :
    (semStep limit s (.next p)).Ledger limit d := by
  have hx := exclusive_semStep limit h.exclusive (.next p)
  cases hp : s.pc p with
  | idle =>
      simp only [semStep, hp]
      exact h
  | locked =>
      simp only [semStep, hp] at hx ⊢
      -- nobody is inside a window, so the counter that is read is the settled one
      have hne : s.pc p ≠ .idle := by simp [hp]
      have hv := h.settled (noWindow_of_acquirer h.exclusive hne (by simp [hp]))
      refine ⟨hx, ?_, fun _ => hv, h.bounded⟩
      intro q cur hq hcur
      obtain ⟨-, hpc⟩ | ⟨-, hq⟩ := update_eq hq
      · cases hpc
        exact hv
      · exact h.window q cur hq hcur
  | read cur =>
      have hne : s.pc p ≠ .idle := by simp [hp]
      by_cases hcur : cur < limit
      · simp only [semStep, hp, hcur, if_true] at hx ⊢
        have hread := h.window p cur hp hcur
        have hsum := sum_update_held s.held p (s.held p + 1)
        refine ledger_of_noWindow hx (noWindow_update h.exclusive hne rfl) ?_ ?_
        all_goals
          simp only [SemState.total, SemKey.setValue] at hread ⊢
          omega
      · simp only [semStep, hp, hcur, if_false] at hx ⊢
        have hv := h.settled (noWindow_of_acquirer h.exclusive hne (by simp [hp, hcur]))
        exact ledger_of_noWindow hx (noWindow_update h.exclusive hne rfl) hv h.bounded
  | granted =>
      simp only [semStep, hp] at hx ⊢
      have hne : s.pc p ≠ .idle := by simp [hp]
      have hv := h.settled (noWindow_of_acquirer h.exclusive hne (by simp [hp]))
      exact ledger_of_noWindow hx (noWindow_update h.exclusive hne rfl) hv h.bounded

theorem total_release (hp : 0 < s.held p) :
    ∑ q, Function.update s.held p (s.held p - 1) q + 1 = s.total := by
  have hsum := sum_update_held s.held p (s.held p - 1)
  rw [SemState.total]
  omega

theorem SemState.Ledger.release (h : s.Ledger limit d)
    (hok : DecrOutsideWindow limit s (.release p)) :
    (semStep limit s (.release p)).Ledger limit d := by
  have hx := exclusive_semStep limit h.exclusive (.release p)
  rw [semStep] at hx ⊢
  split_ifs at hx ⊢ with hp
  · have hv := h.settled (hok hp)
    have hb := h.bounded
    have hsum := total_release hp.2
    refine ledger_of_noWindow hx (hok hp) ?_ ?_
    all_goals
      simp only [SemState.total, SemKey.decr] at hv hb hsum ⊢
      omega
  · exact h

theorem SemState.Ledger.lose (h : s.Ledger limit d)
    (hbad : ¬ DecrOutsideWindow limit s (.release p)) :
    (semStep limit s (.release p)).Ledger limit (d + 1) := by
  have hx := exclusive_semStep limit h.exclusive (.release p)
  rw [DecrOutsideWindow, Classical.not_imp] at hbad
  obtain ⟨hp, hwin⟩ := hbad
  rw [semStep, if_pos hp] at hx ⊢
  have hsum := total_release hp.2
  have hb := h.bounded
  refine ⟨hx, ?_, fun hw => absurd hw hwin, ?_⟩
  · intro q cur hq hcur
    have hread := h.window q cur hq hcur
    simp only [SemState.total] at hread hsum ⊢
    omega
  · simp only [SemState.total] at hb hsum ⊢
    omega

end Ledger

/-- **The ledger of a history.** The counter is the number of permits held plus the number of
decrements that were received inside a window. -/
theorem ledger_run (limit : ℕ) (ops : List (SemOp P)) :
    (Machine.run (semStep limit) .init ops).Ledger limit
      (Machine.breaks (semStep limit) (DecrOutsideWindow limit) .init ops) := by
  have hok : ∀ d (s : SemState P) a, s.Ledger limit d → DecrOutsideWindow limit s a →
      (semStep limit s a).Ledger limit d := by
    intro d s a h hok
    cases a with
    | acquire p => exact h.acquire p
    | next p => exact h.next p
    | release p => exact h.release hok
  have hbreak : ∀ d (s : SemState P) a, s.Ledger limit d → ¬ DecrOutsideWindow limit s a →
      (semStep limit s a).Ledger limit (d + 1) := by
    intro d s a h hbad
    cases a with
    | acquire p => exact absurd trivial hbad
    | next p => exact absurd trivial hbad
    | release p => exact h.lose hbad
  have hrun := Machine.run_ledger (P := fun d (s : SemState P) => s.Ledger limit d) hok hbreak
    (ledger_init limit) ops
  rwa [Nat.zero_add] at hrun

/-! ### Correctness of the count -/

/-- What a counting semaphore promises of a state: with no call in progress the counter is the
number of permits held, and the limit is not exceeded. -/
def SemState.Counts (limit : ℕ) (s : SemState P) : Prop :=
  (s.Quiescent → s.key.value = s.total) ∧ s.total ≤ limit

instance (limit : ℕ) (s : SemState P) : Decidable (s.Counts limit) :=
  inferInstanceAs (Decidable (_ ∧ _))

/-- The limit is never exceeded, in whatever order the commands are received. -/
theorem total_le_limit (limit : ℕ) (ops : List (SemOp P)) :
    (Machine.run (semStep limit) .init ops).total ≤ limit := by
  have h := (ledger_run limit ops).bounded
  omega

/-- With no call in progress, the counter is right if no decrement was lost. -/
theorem value_eq_total_iff {limit : ℕ} {ops : List (SemOp P)}
    (hq : (Machine.run (semStep limit) .init ops).Quiescent) :
    (Machine.run (semStep limit) .init ops).key.value =
        (Machine.run (semStep limit) .init ops).total ↔
      Machine.Meets (semStep limit) (DecrOutsideWindow limit) .init ops := by
  have hv := (ledger_run limit ops).settled fun p => by rw [hq p]; rfl
  rw [hv, ← Machine.breaks_eq_zero_iff]
  omega

/-- **When the semaphore counts.** Along a history of commands the semaphore keeps its promise
in every state exactly if no decrement was received between the read and the write of an
acquirer before a state with no call in progress. -/
theorem semaphore_counts_iff (limit : ℕ) (ops : List (SemOp P)) :
    (∀ pre, pre <+: ops → (Machine.run (semStep limit) .init pre).Counts limit) ↔
      ∀ pre, pre <+: ops → (Machine.run (semStep limit) .init pre).Quiescent →
        Machine.Meets (semStep limit) (DecrOutsideWindow limit) .init pre := by
  constructor
  · intro h pre hpre hq
    exact (value_eq_total_iff hq).mp ((h pre hpre).1 hq)
  · intro h pre hpre
    exact ⟨fun hq => (value_eq_total_iff hq).mpr (h pre hpre hq), total_le_limit limit pre⟩

/-- A process holds a permit and gives it back while another one is between its read and its
write: the counter ends at 2 with one permit held. -/
theorem lost_decrement :
    ¬ ∀ (P : Type) [DecidableEq P] [Fintype P] (limit : ℕ) (ops : List (SemOp P)),
      (Machine.run (semStep limit) .init ops).Counts limit := by
  intro h
  have hrun := h Bool 2
    [.acquire true, .next true, .next true, .next true, .acquire false, .next false,
      .release true, .next false, .next false]
  revert hrun
  decide +kernel

end LarkPlat
