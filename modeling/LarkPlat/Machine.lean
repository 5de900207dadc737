import Mathlib.Data.List.Basic
import Mathlib.Data.List.Infix
import Mathlib.Order.Basic

/-!
# Runs of an Operation Machine

A machine is a function `apply : σ → α → σ`: the operations `α` carry every choice of the
environment (clock readings, row orders, answers of other services), so an operation
applied to a state has one outcome. A run is a list of operations, and since every prefix
of a run is a run, a statement about every state that a run passes through is a statement
about every run.

## Main results

* `run_invariant`: a property that holds initially and is preserved by each operation
  holds after every run.
* `run_invariant_of_meets`: the same, where each operation preserves the property only
  under a condition on the state before it.
* `run_iff_meets`: a property that each operation leaves standing exactly under a condition stands
  after a run exactly if the run meets the condition.
* `exists_first_break`: a run that does not meet a condition has a first operation that
  breaks it.
* `staysUntil_iff`: values that have ended stay along a run exactly if each operation leaves those
  that it does not reset.
* `always_iff_meets`: a property holds in every state of a run exactly if the run meets the
  condition under which an operation keeps it.
* `run_last_iff`: what the last operation of some kind decides holds after a run exactly if such an
  operation is followed by none of the kind.
* `run_decided_iff`: the same for a property that may hold at the beginning.
* `run_same_iff`: an observation that only grows is the same after a run exactly if each
  operation leaves it as it was.
* `eventually_of_descent`: what an endless sequence of operations keeps approaching by a measure, it
  reaches.
* `run_ledger`: a property indexed by a number that grows by one at each operation that
  breaks a condition holds after every run, at the number of its breaks.
-/

namespace LarkPlat.Machine

variable {σ α : Type*}

/-- The state after the operations `ops`, applied in order from `s`. -/
def run (apply : σ → α → σ) (s : σ) (ops : List α) : σ :=
  ops.foldl apply s

variable {apply : σ → α → σ}

@[simp] theorem run_nil (s : σ) : run apply s [] = s := rfl

@[simp] theorem run_cons (s : σ) (a : α) (ops : List α) :
    run apply s (a :: ops) = run apply (apply s a) ops := rfl

theorem run_append (s : σ) (ops ops' : List α) :
    run apply s (ops ++ ops') = run apply (run apply s ops) ops' :=
  List.foldl_append

/-- **Invariant rule.** What every operation preserves, every run preserves. -/
theorem run_invariant {P : σ → Prop} (hstep : ∀ s a, P s → P (apply s a))
    {s : σ} (hs : P s) (ops : List α) : P (run apply s ops) := by
  induction ops generalizing s with
  | nil => exact hs
  | cons a ops ih => exact ih (hstep s a hs)

/-- Every operation of the run meets the condition `ok` in the state it is applied to. -/
def Meets (apply : σ → α → σ) (ok : σ → α → Prop) : σ → List α → Prop
  | _, [] => True
  | s, a :: ops => ok s a ∧ Meets apply ok (apply s a) ops

@[simp] theorem meets_nil {ok : σ → α → Prop} (s : σ) : Meets apply ok s [] := trivial

@[simp] theorem meets_cons {ok : σ → α → Prop} (s : σ) (a : α) (ops : List α) :
    Meets apply ok s (a :: ops) ↔ ok s a ∧ Meets apply ok (apply s a) ops := Iff.rfl

instance meetsDecidable {ok : σ → α → Prop} [∀ s a, Decidable (ok s a)] :
    ∀ (s : σ) (ops : List α), Decidable (Meets apply ok s ops)
  | _, [] => inferInstanceAs (Decidable True)
  | s, a :: ops => @instDecidableAnd _ _ _ (meetsDecidable (apply s a) ops)

theorem meets_append {ok : σ → α → Prop} (s : σ) (ops ops' : List α) :
    Meets apply ok s (ops ++ ops') ↔
      Meets apply ok s ops ∧ Meets apply ok (run apply s ops) ops' := by
  induction ops generalizing s with
  | nil => simp
  | cons a ops ih => simp [ih, and_assoc]

theorem meets_of_forall {ok : α → Prop} {s : σ} {ops : List α} (h : ∀ a ∈ ops, ok a) :
    Meets apply (fun _ a => ok a) s ops := by
  induction ops generalizing s with
  | nil => trivial
  | cons a ops ih =>
      exact ⟨h a List.mem_cons_self, ih fun b hb => h b (List.mem_cons_of_mem a hb)⟩

theorem meets_and {ok ok' : σ → α → Prop} {s : σ} {ops : List α} (h : Meets apply ok s ops)
    (h' : Meets apply ok' s ops) : Meets apply (fun s a => ok s a ∧ ok' s a) s ops := by
  induction ops generalizing s with
  | nil => trivial
  | cons a ops ih => exact ⟨⟨h.1, h'.1⟩, ih h.2 h'.2⟩

theorem meets_and_iff {ok ok' : σ → α → Prop} {s : σ} {ops : List α} :
    Meets apply ok s ops ∧ Meets apply ok' s ops ↔
      Meets apply (fun s a => ok s a ∧ ok' s a) s ops := by
  refine ⟨fun h => meets_and h.1 h.2, fun h => ?_⟩
  induction ops generalizing s with
  | nil => exact ⟨trivial, trivial⟩
  | cons a ops ih => exact ⟨⟨h.1.1, (ih h.2).1⟩, h.1.2, (ih h.2).2⟩

/-- Two conditions that are the same where an invariant holds are met by the same runs. -/
theorem meets_iff_of_invariant {P : σ → Prop} {ok ok' : σ → α → Prop}
    (hiff : ∀ s a, P s → (ok s a ↔ ok' s a)) (hkeep : ∀ s a, P s → ok s a → P (apply s a))
    {s : σ} (hs : P s) (ops : List α) : Meets apply ok s ops ↔ Meets apply ok' s ops := by
  induction ops generalizing s with
  | nil => rfl
  | cons a ops ih =>
      rw [meets_cons, meets_cons, ← hiff s a hs]
      exact and_congr_right fun h => ih (hkeep s a hs h)

theorem meets_of_invariant {P : σ → Prop} {ok ok' : σ → α → Prop}
    (himp : ∀ s a, P s → ok s a → ok' s a) (hkeep : ∀ s a, P s → ok s a → P (apply s a)) {s : σ}
    (hs : P s) {ops : List α} (h : Meets apply ok s ops) : Meets apply ok' s ops := by
  induction ops generalizing s with
  | nil => trivial
  | cons a ops ih => exact ⟨himp s a hs h.1, ih (hkeep s a hs h.1) h.2⟩

/-- **Invariant rule under a condition.** What every operation preserves under a condition
on the state before it, every run whose operations meet the condition preserves. -/
theorem run_invariant_of_meets {P : σ → Prop} {ok : σ → α → Prop}
    (hstep : ∀ s a, P s → ok s a → P (apply s a))
    {s : σ} (hs : P s) {ops : List α} (hok : Meets apply ok s ops) :
    P (run apply s ops) := by
  induction ops generalizing s with
  | nil => exact hs
  | cons a ops ih => exact ih (hstep s a hs hok.1) hok.2

/-- **Exactness rule.** A property that, where an invariant holds, stands after an operation exactly
if it stood before it and the operation meets a condition, stands after a run exactly if it stood at
the start and the run meets the condition. -/
theorem run_iff_meets {P Q : σ → Prop} {ok : σ → α → Prop} (hP : ∀ s a, P s → P (apply s a))
    (hQ : ∀ s a, P s → (Q (apply s a) ↔ Q s ∧ ok s a)) {s : σ} (hs : P s) (ops : List α) :
    Q (run apply s ops) ↔ Q s ∧ Meets apply ok s ops := by
  induction ops generalizing s with
  | nil => exact (and_iff_left trivial).symm
  | cons a ops ih => rw [run_cons, ih (hP s a hs), hQ s a hs, meets_cons, and_assoc]

/-- **Exactness rule for every state.** A property that, where it and an invariant hold, stands
after an operation exactly if the operation meets a condition, holds in every state of a run exactly
if the run meets the condition. -/
theorem always_iff_meets {P Q : σ → Prop} {ok : σ → α → Prop} (hP : ∀ s a, P s → P (apply s a))
    (hQ : ∀ s a, P s → Q s → (Q (apply s a) ↔ ok s a)) {s : σ} (hs : P s) (hq : Q s) (ops : List α) :
    (∀ pre, pre <+: ops → Q (run apply s pre)) ↔ Meets apply ok s ops := by
  induction ops generalizing s with
  | nil =>
      refine iff_of_true (fun pre hpre => ?_) trivial
      rwa [List.prefix_nil.mp hpre]
  | cons a ops ih =>
      rw [meets_cons]
      constructor
      · intro h
        have hnext : Q (apply s a) := h [a] ((List.prefix_cons_inj a).mpr List.nil_prefix)
        refine ⟨(hQ s a hs hq).mp hnext, (ih (hP s a hs) hnext).mp fun pre hpre => ?_⟩
        exact h (a :: pre) ((List.prefix_cons_inj a).mpr hpre)
      · rintro ⟨hok, hmeets⟩ pre hpre
        have hnext := (hQ s a hs hq).mpr hok
        rcases List.prefix_cons_iff.mp hpre with rfl | ⟨rest, rfl, hrest⟩
        · exact hq
        · exact (ih (hP s a hs) hnext).mpr hmeets rest hrest

/-- **Rule of the last event.** If, where an invariant holds, a property holds after an operation
exactly if the operation raises it, or is quiet and the property held before, then it holds after a
run exactly if some operation has raised it and all after it are quiet. -/
theorem run_last_iff {P Q : σ → Prop} {raises quiet : σ → α → Prop}
    (hP : ∀ s a, P s → P (apply s a))
    (hstep : ∀ s a, P s → (Q (apply s a) ↔ raises s a ∨ quiet s a ∧ Q s)) {s : σ} (hp : P s)
    (hs : ¬ Q s) (ops : List α) : Q (run apply s ops) ↔ ∃ pre a post, ops = pre ++ a :: post ∧
      raises (run apply s pre) a ∧ Meets apply quiet (apply (run apply s pre) a) post := by
  induction ops using List.reverseRecOn with
  | nil => exact iff_of_false hs fun ⟨pre, a, post, h, _⟩ => by simp at h
  | append_singleton ops a ih =>
      rw [run_append, run_cons, run_nil, hstep _ _ (run_invariant hP hp ops), ih]
      constructor
      · rintro (hraises | ⟨hquiet, pre, b, post, rfl, hraises, hmeets⟩)
        · exact ⟨ops, a, [], rfl, hraises, trivial⟩
        · refine ⟨pre, b, post ++ [a], by simp, hraises, (meets_append _ _ _).mpr ⟨hmeets, ?_⟩⟩
          rw [run_append, run_cons] at hquiet
          exact ⟨hquiet, trivial⟩
      · rintro ⟨pre, b, post, heq, hraises, hmeets⟩
        rcases List.eq_nil_or_concat post with rfl | ⟨post, c, rfl⟩
        · obtain ⟨rfl, hlast⟩ := List.append_inj' heq rfl
          obtain rfl := List.singleton_inj.mp hlast
          exact .inl hraises
        · rw [List.concat_eq_append, ← List.cons_append, ← List.append_assoc] at heq
          obtain ⟨rfl, hlast⟩ := List.append_inj' heq rfl
          obtain rfl := List.singleton_inj.mp hlast
          rw [List.concat_eq_append, meets_append] at hmeets
          refine .inr ⟨?_, pre, b, post, rfl, hraises, hmeets.1⟩
          rw [run_append, run_cons]
          exact hmeets.2.1

/-- What the last operation that decides it leaves: it was so from the beginning and all operations
are quiet, or some operation has raised it and all after it are quiet. -/
def Decided (apply : σ → α → σ) (raises quiet : σ → α → Prop) (initially : Prop) (s : σ)
    (ops : List α) : Prop :=
  initially ∧ Meets apply quiet s ops ∨ ∃ pre a post, ops = pre ++ a :: post ∧
    raises (run apply s pre) a ∧ Meets apply quiet (apply (run apply s pre) a) post

/-- **Rule of the last decision.** The rule of the last event for a property that may hold at the
beginning. -/
theorem run_decided_iff {P Q : σ → Prop} {raises quiet : σ → α → Prop}
    (hP : ∀ s a, P s → P (apply s a))
    (hstep : ∀ s a, P s → (Q (apply s a) ↔ raises s a ∨ quiet s a ∧ Q s)) {s : σ} (hp : P s)
    (ops : List α) : Q (run apply s ops) ↔ Decided apply raises quiet (Q s) s ops := by
  induction ops generalizing s with
  | nil => simp [Decided]
  | cons a ops ih =>
      rw [run_cons, ih (hP s a hp), Decided, hstep s a hp]
      constructor
      · rintro (⟨hraises | ⟨hquiet, hq⟩, hmeets⟩ | ⟨pre, b, post, rfl, hraises, hmeets⟩)
        · exact .inr ⟨[], a, ops, rfl, hraises, hmeets⟩
        · exact .inl ⟨hq, hquiet, hmeets⟩
        · exact .inr ⟨a :: pre, b, post, rfl, hraises, hmeets⟩
      · rintro (⟨hq, hquiet, hmeets⟩ | ⟨pre, b, post, heq, hraises, hmeets⟩)
        · exact .inl ⟨.inr ⟨hquiet, hq⟩, hmeets⟩
        · cases pre with
          | nil =>
              obtain ⟨rfl, rfl⟩ := List.cons.inj heq
              exact .inl ⟨.inl hraises, hmeets⟩
          | cons c pre =>
              obtain ⟨rfl, rfl⟩ := List.cons.inj heq
              exact .inr ⟨pre, b, post, rfl, hraises, hmeets⟩

/-- A run that does not meet a condition splits at the first operation that breaks it. -/
theorem exists_first_break {ok : σ → α → Prop} {s : σ} {ops : List α}
    (h : ¬ Meets apply ok s ops) :
    ∃ ops₁ a ops₂, ops = ops₁ ++ a :: ops₂ ∧ Meets apply ok s ops₁ ∧
      ¬ ok (run apply s ops₁) a := by
  induction ops generalizing s with
  | nil => exact absurd trivial h
  | cons a ops ih =>
      by_cases ha : ok s a
      · have hrest : ¬ Meets apply ok (apply s a) ops := fun hm => h ⟨ha, hm⟩
        obtain ⟨ops₁, b, ops₂, rfl, hm, hb⟩ := ih hrest
        exact ⟨a :: ops₁, b, ops₂, rfl, ⟨ha, hm⟩, hb⟩
      · exact ⟨[], a, ops, rfl, trivial, ha⟩

/-- A run meets two conditions that are the same at each of its steps alike. -/
theorem meets_congr {ok ok' : σ → α → Prop} (h : ∀ s a, ok s a ↔ ok' s a) (s : σ) (ops : List α) :
    Meets apply ok s ops ↔ Meets apply ok' s ops :=
  meets_iff_of_invariant (P := fun _ => True) (fun s a _ => h s a) (fun _ _ _ _ => trivial) trivial
    ops

/-! ### Values that stay -/

section Stays

variable {ι β : Type*} (obs : σ → ι → Option β) (ended : β → Prop) (reset : σ → α → ι → Prop)

variable (apply) in
/-- Along the run, an observed value that has ended stays until an operation resets it. -/
def StaysUntil (s : σ) (ops : List α) : Prop :=
  ∀ i pre mid post, ops = pre ++ mid ++ post →
    Meets apply (fun s a => ¬ reset s a i) (run apply s pre) mid →
      ∀ x, obs (run apply s pre) i = some x → ended x → obs (run apply s (pre ++ mid)) i = some x

/-- **Rule of final values.** Ended values stay along a run exactly if each operation leaves those
that it does not reset. -/
theorem staysUntil_iff (s : σ) (ops : List α) :
    StaysUntil apply obs ended reset s ops ↔
      Meets apply (fun s a => ∀ i x, obs s i = some x → ended x → ¬ reset s a i →
        obs (apply s a) i = some x) s ops := by
  constructor
  · intro h
    by_contra hm
    obtain ⟨ops₁, a, ops₂, rfl, -, hbad⟩ := exists_first_break hm
    refine hbad fun i x hx hend hreset => ?_
    have hstay := h i ops₁ [a] ops₂ (by simp) ⟨hreset, trivial⟩ x hx hend
    rw [run_append] at hstay
    exact hstay
  · rintro hm i pre mid post rfl hreset x hx hend
    rw [List.append_assoc, meets_append, meets_append] at hm
    rw [run_append]
    exact run_invariant_of_meets (P := fun s => obs s i = some x)
      (fun s a h hok => hok.1 i x h hend hok.2) hx (meets_and hm.2.1 hreset)

end Stays

/-! ### Observations that only grow -/

section Observation

variable {β : Type*} [PartialOrder β] {f : σ → β}

theorem le_run (hmono : ∀ s a, f s ≤ f (apply s a)) (s : σ) (ops : List α) :
    f s ≤ f (run apply s ops) := by
  induction ops generalizing s with
  | nil => exact le_rfl
  | cons a ops ih => exact (hmono s a).trans (ih (apply s a))

/-- **Frame rule.** Where no operation makes an observation smaller, a run leaves it as it was
exactly if each of its operations does. -/
theorem run_same_iff (hmono : ∀ s a, f s ≤ f (apply s a)) (s : σ) (ops : List α) :
    f (run apply s ops) = f s ↔ Meets apply (fun s a => f (apply s a) = f s) s ops := by
  induction ops generalizing s with
  | nil => exact iff_of_true rfl trivial
  | cons a ops ih =>
      rw [run_cons, meets_cons, ← ih]
      constructor
      · intro h
        have hstep : f (apply s a) = f s :=
          le_antisymm (h ▸ le_run hmono (apply s a) ops) (hmono s a)
        exact ⟨hstep, h.trans hstep.symm⟩
      · rintro ⟨hstep, hrest⟩
        exact hrest.trans hstep

end Observation

/-! ### Endless sequences -/

variable (apply) in
/-- The state before the `t`-th operation of an endless sequence. -/
def trace (s : σ) (ops : ℕ → α) : ℕ → σ
  | 0 => s
  | t + 1 => apply (trace s ops t) (ops t)

/-- What every operation of the sequence preserves holds from its first time on. -/
theorem trace_invariant {P : σ → Prop} {s : σ} {ops : ℕ → α} {t : ℕ}
    (hstep : ∀ t s, P s → P (apply s (ops t))) (ht : P (trace apply s ops t)) {t' : ℕ}
    (hle : t ≤ t') : P (trace apply s ops t') := by
  induction t', hle using Nat.le_induction with
  | base => exact ht
  | succ t' _ ih => exact hstep t' _ ih

/-- **Progress rule.** If from some time on the goal is reached later or the measure is smaller
later, the goal is reached. -/
theorem eventually_of_descent {G : ℕ → Prop} (μ : ℕ → ℕ) {t₀ : ℕ}
    (hdescent : ∀ t ≥ t₀, ∃ t' ≥ t, G t' ∨ μ t' < μ t) {t : ℕ} (ht : t₀ ≤ t) : ∃ t' ≥ t, G t' := by
  induction hμ : μ t using Nat.strong_induction_on generalizing t with
  | _ m ih =>
      subst hμ
      obtain ⟨t', hle, hgoal | hlt⟩ := hdescent t ht
      · exact ⟨t', hle, hgoal⟩
      · obtain ⟨t'', hle', hgoal⟩ := ih (μ t') hlt (ht.trans hle) rfl
        exact ⟨t'', hle.trans hle', hgoal⟩

/-- What each step keeps, unless the goal is reached or the measure falls, an operation that changes
it brings nearer to the goal. -/
theorem descent_of_change {β : Type*} {G : ℕ → Prop} (obs : ℕ → β) (μ : β → ℕ) {t t₁ : ℕ}
    (hstep : ∀ t' ≥ t, obs (t' + 1) = obs t' ∨ G (t' + 1) ∨ μ (obs (t' + 1)) < μ (obs t'))
    (hle : t ≤ t₁) (hchange : obs t₁ = obs t → obs (t₁ + 1) ≠ obs t₁) :
    ∃ t' ≥ t, G t' ∨ μ (obs t') < μ (obs t) := by
  by_contra hnone
  push Not at hnone
  have hkeep : ∀ t', t ≤ t' → obs t' = obs t := by
    intro t' hle'
    induction t', hle' using Nat.le_induction with
    | base => rfl
    | succ t' hle' ih =>
        obtain ⟨hgoal, hμ⟩ := hnone (t' + 1) (Nat.le_succ_of_le hle')
        rcases hstep t' hle' with hsame | hgoal' | hlt
        · exact hsame.trans ih
        · exact absurd hgoal' hgoal
        · rw [ih] at hlt
          exact absurd hlt (Nat.not_lt.mpr hμ)
  exact hchange (hkeep t₁ hle)
    ((hkeep (t₁ + 1) (Nat.le_succ_of_le hle)).trans (hkeep t₁ hle).symm)

/-! ### Counting breaks -/

section Breaks

variable (apply) in
/-- The number of operations of the run that break the condition `ok`. -/
def breaks (ok : σ → α → Prop) [∀ s a, Decidable (ok s a)] : σ → List α → ℕ
  | _, [] => 0
  | s, a :: ops => (if ok s a then 0 else 1) + breaks ok (apply s a) ops

variable {ok : σ → α → Prop} [∀ s a, Decidable (ok s a)]

theorem breaks_eq_zero_iff (s : σ) (ops : List α) :
    breaks apply ok s ops = 0 ↔ Meets apply ok s ops := by
  induction ops generalizing s with
  | nil => simp [breaks]
  | cons a ops ih =>
      rw [breaks, meets_cons, Nat.add_eq_zero_iff, ih]
      refine and_congr_left fun _ => ?_
      split_ifs with h <;> simp [h]

/-- **Ledger rule.** A property indexed by a number, which an operation preserves if it meets
the condition and moves to the next number if not. -/
theorem run_ledger {P : ℕ → σ → Prop} (hok : ∀ d s a, P d s → ok s a → P d (apply s a))
    (hbreak : ∀ d s a, P d s → ¬ ok s a → P (d + 1) (apply s a))
    {d : ℕ} {s : σ} (hs : P d s) (ops : List α) :
    P (d + breaks apply ok s ops) (run apply s ops) := by
  induction ops generalizing d s with
  | nil => exact hs
  | cons a ops ih =>
      rw [breaks, ← Nat.add_assoc]
      refine ih ?_
      split_ifs with h
      · exact hok d s a hs h
      · exact hbreak d s a hs h

end Breaks

end LarkPlat.Machine
