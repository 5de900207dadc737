import LarkPlat.WorkflowRows
import Mathlib.Logic.Relation
import Mathlib.Data.Fintype.EquivFin
import Mathlib.Data.Fintype.Sets

/-!
# Routed Graphs and Their Markings

The abstract model of the workflow engine, over an arbitrary type of node keys. A graph
gives each node its prerequisites (`deps`) and the sources of the success and failure routes
that enter it (`succ`, `fail`). A marking assigns a status to every node of the run. The
engine works by moves on markings: it activates a pending node, skips one, or advances one
that is in flight.

`verdict` is the activation rule of the engine; everything else here is stated about
arbitrary sequences of moves, without reference to rows, ticks or row orders.

## Main results

* `Moves.later`: terminal statuses are permanent.
* `Justified.moves`: every activated node was entitled to its activation.
* `skipped_of_finished`: without failure routes, a node skipped by one sequence of moves is
  skipped in every finished marking that agrees on the outcomes.
* `exists_decided`: a quiet marking whose waits have no cycle has a node to decide.
-/

namespace LarkPlat.Flow

/-- A graph with routes, as seen from the node they lead to. -/
structure Graph (κ : Type*) where
  deps : κ → List κ
  succ : κ → List κ
  fail : κ → List κ

/-- The status of every node; `none` is no node of the run. -/
abbrev Marking (κ : Type*) := κ → Option NodeStatus

/-- The three answers of the activation rule for a pending node. -/
inductive Verdict
  | ready
  | skip
  | wait
  deriving DecidableEq, Repr

variable {κ : Type*}

namespace Graph

variable (G : Graph κ) (m : Marking κ) (k : κ)

/-- `_verdict`: a failed source of a failure route activates, a failed source of a success
route abandons, a lost prerequisite abandons, and otherwise every prerequisite and every
source of a success route must have succeeded. -/
def verdict : Verdict :=
  if (G.fail k).any fun s => decide (m s = some .failed) then .ready
  else if (G.succ k).any fun s => decide (m s = some .failed) then .skip
  else if (G.deps k).any fun d => (m d).any (·.lost) then .skip
  else if (G.deps k).any fun d => decide (m d ≠ some .succeeded) then .wait
  else if (G.succ k).any fun s => decide (m s ≠ some .succeeded) then .wait
  else .ready

/-- What entitles a node to run: a failure routed to it, or the success of everything it
waits for. -/
def Entitled : Prop :=
  (∃ s ∈ G.fail k, m s = some .failed) ∨
    (∀ d ∈ G.deps k, m d = some .succeeded) ∧ ∀ s ∈ G.succ k, m s = some .succeeded

/-- What abandons a node: a failed source of a success route, or a lost prerequisite. -/
def Abandoned : Prop :=
  (∃ s ∈ G.succ k, m s = some .failed) ∨
    ∃ d ∈ G.deps k, ∃ st, m d = some st ∧ st.lost = true

variable {G m k}

theorem entitled_of_ready (h : G.verdict m k = .ready) : G.Entitled m k := by
  rw [verdict] at h
  split_ifs at h with hfail hsucc hlost hdeps hsuccs
  · obtain ⟨s, hs, hm⟩ := List.any_eq_true.mp hfail
    exact Or.inl ⟨s, hs, of_decide_eq_true hm⟩
  · refine Or.inr ⟨fun d hd => ?_, fun s hs => ?_⟩
    · by_contra hne
      exact hdeps (List.any_eq_true.mpr ⟨d, hd, decide_eq_true hne⟩)
    · by_contra hne
      exact hsuccs (List.any_eq_true.mpr ⟨s, hs, decide_eq_true hne⟩)

theorem abandoned_of_skip (h : G.verdict m k = .skip) : G.Abandoned m k := by
  rw [verdict] at h
  split_ifs at h with hfail hsucc hlost
  · obtain ⟨s, hs, hm⟩ := List.any_eq_true.mp hsucc
    exact Or.inl ⟨s, hs, of_decide_eq_true hm⟩
  · obtain ⟨d, hd, hm⟩ := List.any_eq_true.mp hlost
    exact Or.inr ⟨d, hd, (Option.any_eq_true _ _).mp hm⟩

/-- A node on hold waits for a prerequisite or for the source of a success route. -/
theorem exists_awaited_of_wait (h : G.verdict m k = .wait) :
    (∃ d ∈ G.deps k, m d ≠ some .succeeded ∧ ∀ st, m d = some st → st.lost = false) ∨
      ∃ s ∈ G.succ k, m s ≠ some .succeeded ∧ m s ≠ some .failed := by
  rw [verdict] at h
  split_ifs at h with hfail hsucc hlost hdeps hsuccs
  · obtain ⟨d, hd, hm⟩ := List.any_eq_true.mp hdeps
    refine Or.inl ⟨d, hd, of_decide_eq_true hm, fun st hst => ?_⟩
    by_contra hl
    exact hlost (List.any_eq_true.mpr ⟨d, hd, by simpa [hst] using hl⟩)
  · obtain ⟨s, hs, hm⟩ := List.any_eq_true.mp hsuccs
    refine Or.inr ⟨s, hs, of_decide_eq_true hm, fun hf => ?_⟩
    exact hsucc (List.any_eq_true.mpr ⟨s, hs, decide_eq_true hf⟩)

end Graph

/-! ### Moves -/

section Moves

/-- Every terminal status of the first marking stands in the second. -/
def Later (m m' : Marking κ) : Prop :=
  ∀ k st, m k = some st → st.terminal = true → m' k = some st

variable {G : Graph κ} {m m' m'' : Marking κ}

theorem Later.refl (m : Marking κ) : Later m m := fun _ _ h _ => h

theorem Later.trans (h : Later m m') (h' : Later m' m'') : Later m m'' :=
  fun k st hm ht => h' k st (h k st hm ht) ht

variable [DecidableEq κ]

/-- One move of the engine. -/
inductive Move (G : Graph κ) : Marking κ → Marking κ → Prop
  | activate {m : Marking κ} {k : κ} (hp : m k = some .pending)
      (hv : G.verdict m k = .ready) : Move G m (Function.update m k (some .running))
  | skip {m : Marking κ} {k : κ} (hp : m k = some .pending)
      (hv : G.verdict m k = .skip) : Move G m (Function.update m k (some .skipped))
  | advance {m : Marking κ} {k : κ} {st st' : NodeStatus} (hm : m k = some st)
      (hf : st.inFlight = true)
      (ht : st'.inFlight = true ∨ st' = .succeeded ∨ st' = .failed) :
      Move G m (Function.update m k (some st'))

/-- A sequence of moves. -/
abbrev Moves (G : Graph κ) := Relation.ReflTransGen (Move G)

/-- Writing the status of a node whose status is not terminal changes no terminal status. -/
theorem later_update {k : κ} {st st' : NodeStatus} (hm : m k = some st)
    (ht : st.terminal = false) : Later m (Function.update m k (some st')) := by
  intro j st₁ hj ht₁
  have hne : j ≠ k := by
    rintro rfl
    rw [hm, Option.some.injEq] at hj
    rw [hj, ht₁] at ht
    exact absurd ht (by simp)
  rw [Function.update_of_ne hne]
  exact hj

theorem Move.later (h : Move G m m') : Later m m' := by
  cases h with
  | activate hp _ => exact later_update hp rfl
  | skip hp _ => exact later_update hp rfl
  | advance hm hf _ => exact later_update hm (NodeStatus.terminal_of_inFlight hf)

/-- **Permanence.** A terminal status stands after every sequence of moves. -/
theorem Moves.later (h : Moves G m m') : Later m m' := by
  induction h with
  | refl => exact Later.refl m
  | tail _ hmove ih => exact ih.trans hmove.later

/-! ### Activation -/

omit [DecidableEq κ] in
theorem Graph.Entitled.later {k : κ} (h : G.Entitled m k) (hl : Later m m') :
    G.Entitled m' k := by
  rcases h with ⟨s, hs, hm⟩ | ⟨hd, hs⟩
  · exact Or.inl ⟨s, hs, hl s _ hm rfl⟩
  · exact Or.inr ⟨fun d hmem => hl d _ (hd d hmem) rfl, fun s hmem => hl s _ (hs s hmem) rfl⟩

/-- Every node that is neither pending nor skipped is entitled to run. -/
def Justified (G : Graph κ) (m : Marking κ) : Prop :=
  ∀ k st, m k = some st → st ≠ .pending → st ≠ .skipped → G.Entitled m k

omit [DecidableEq κ] in
/-- Justification survives a change that keeps terminal statuses and activates no
unentitled node. -/
theorem Justified.later (h : Justified G m) (hl : Later m m')
    (hnew : ∀ k st, m' k = some st → st ≠ .pending → st ≠ .skipped →
      G.Entitled m k ∨ ∃ st₀, m k = some st₀ ∧ st₀ ≠ .pending ∧ st₀ ≠ .skipped) :
    Justified G m' := by
  intro k st hk hp hs
  rcases hnew k st hk hp hs with he | ⟨st₀, h₀, hp₀, hs₀⟩
  · exact he.later hl
  · exact (h k st₀ h₀ hp₀ hs₀).later hl

theorem Justified.move (h : Justified G m) (hmove : Move G m m') : Justified G m' := by
  refine h.later hmove.later ?_
  intro j st hj hp hs
  -- a node that a move does not touch keeps its status
  have hold : ∀ {k st'}, j ≠ k → Function.update m k (some st') j = some st →
      ∃ st₀, m j = some st₀ ∧ st₀ ≠ .pending ∧ st₀ ≠ .skipped := by
    intro k st' hne hu
    rw [Function.update_of_ne hne] at hu
    exact ⟨st, hu, hp, hs⟩
  cases hmove with
  | activate hpend hv =>
      rename_i k
      by_cases hjk : j = k
      · subst hjk
        exact Or.inl (Graph.entitled_of_ready hv)
      · exact Or.inr (hold hjk hj)
  | skip hpend hv =>
      rename_i k
      by_cases hjk : j = k
      · subst hjk
        rw [Function.update_self, Option.some.injEq] at hj
        exact absurd hj.symm hs
      · exact Or.inr (hold hjk hj)
  | advance hm hf ht =>
      rename_i k st₀ st'
      by_cases hjk : j = k
      · subst hjk
        refine Or.inr ⟨st₀, hm, ?_, ?_⟩ <;> rintro rfl <;> simp [NodeStatus.inFlight] at hf
      · exact Or.inr (hold hjk hj)

/-- **Activation safety.** Moves keep every activated node entitled to its activation. -/
theorem Justified.moves (h : Justified G m) (hmoves : Moves G m m') : Justified G m' := by
  induction hmoves with
  | refl => exact h
  | tail _ hmove ih => exact ih.move hmove

/-! ### Confluence -/

/-- Every node of the marking has ended, by success, by failure, or skipped. -/
def Finished (m : Marking κ) : Prop :=
  ∀ k st, m k = some st → st = .succeeded ∨ st = .failed ∨ st = .skipped

/-- The outcomes of the marking are those assigned by `ω` (`true` for success). -/
def Follows (ω : κ → Bool) (m : Marking κ) : Prop :=
  ∀ k, (m k = some .succeeded → ω k = true) ∧ (m k = some .failed → ω k = false)

/-- A marking with no cancelled node. -/
def Uncancelled (m : Marking κ) : Prop :=
  ∀ k, m k ≠ some .cancelled

theorem Uncancelled.move (h : Uncancelled m) (hmove : Move G m m') : Uncancelled m' := by
  intro j hj
  cases hmove with
  | activate hp hv =>
      rename_i k
      by_cases hjk : j = k
      · simp [hjk] at hj
      · exact h j (by rwa [Function.update_of_ne hjk] at hj)
  | skip hp hv =>
      rename_i k
      by_cases hjk : j = k
      · simp [hjk] at hj
      · exact h j (by rwa [Function.update_of_ne hjk] at hj)
  | advance hm hf ht =>
      rename_i k st₀ st'
      by_cases hjk : j = k
      · rw [hjk, Function.update_self, Option.some.injEq] at hj
        rw [hj] at ht
        simp [NodeStatus.inFlight] at ht
      · exact h j (by rwa [Function.update_of_ne hjk] at hj)

theorem Uncancelled.moves (h : Uncancelled m) (hmoves : Moves G m m') : Uncancelled m' := by
  induction hmoves with
  | refl => exact h
  | tail _ hmove ih => exact ih.move hmove

theorem Moves.isSome_eq (h : Moves G m m') (k : κ) : (m' k).isSome = (m k).isSome := by
  have hupdate : ∀ {m : Marking κ} {j : κ} {st st'}, m j = some st →
      (Function.update m j (some st') k).isSome = (m k).isSome := by
    intro m j st st' hm
    by_cases hkj : k = j
    · subst hkj; simp [hm]
    · rw [Function.update_of_ne hkj]
  induction h with
  | refl => rfl
  | tail _ hmove ih =>
      rw [← ih]
      cases hmove with
      | activate hp _ => exact hupdate hp
      | skip hp _ => exact hupdate hp
      | advance hm _ _ => exact hupdate hm

omit [DecidableEq κ] in
/-- A node that runs in a finished marking without failure routes has seen all its
prerequisites and success sources succeed; so what abandons it elsewhere cannot happen under
the same outcomes. -/
theorem skipped_of_abandoned {ω : κ → Bool} {f : Marking κ} {k : κ}
    (hnf : ∀ k, G.fail k = []) (hj : Justified G f) (hfin : Finished f)
    (hω : Follows ω f) (hωm : Follows ω m) (hcan : Uncancelled m)
    (hskip : ∀ j, m j = some .skipped → f j = some .skipped)
    (hab : G.Abandoned m k) (hk : (f k).isSome = true) : f k = some .skipped := by
  obtain ⟨st, hst⟩ := Option.isSome_iff_exists.mp hk
  by_contra hne
  have hsk : st ≠ .skipped := fun he => hne (he ▸ hst)
  have hpend : st ≠ .pending := by
    rcases hfin k st hst with rfl | rfl | rfl <;> simp
  rcases hj k st hst hpend hsk with ⟨s, hs, -⟩ | ⟨hdeps, hsucc⟩
  · rw [hnf k] at hs
    exact absurd hs (by simp)
  rcases hab with ⟨s, hs, hm⟩ | ⟨d, hd, st', hm, hlost⟩
  · have h₁ := (hω s).1 (hsucc s hs)
    rw [(hωm s).2 hm] at h₁
    exact absurd h₁ (by simp)
  · have hd' := hdeps d hd
    cases st' with
    | failed =>
        have h₁ := (hω d).1 hd'
        rw [(hωm d).2 hm] at h₁
        exact absurd h₁ (by simp)
    | skipped =>
        rw [hskip d hm] at hd'
        exact absurd hd' (by simp)
    | cancelled => exact hcan d hm
    | _ => simp [NodeStatus.lost] at hlost

/-- **Skipping is determined.** Without failure routes, a node skipped along a sequence of
moves is skipped in every finished justified marking with the same outcomes. -/
theorem skipped_of_finished {ω : κ → Bool} {f m₀ : Marking κ} (hnf : ∀ k, G.fail k = [])
    (hj : Justified G f) (hfin : Finished f) (hω : Follows ω f)
    (hstart : ∀ k, m₀ k = none ∨ m₀ k = some .pending)
    (hdom : ∀ k, (m₀ k).isSome = true → (f k).isSome = true)
    (hm : Moves G m₀ m) (hωm : Follows ω m) :
    ∀ k, m k = some .skipped → f k = some .skipped := by
  have hcan₀ : Uncancelled m₀ := by
    intro k hk
    rcases hstart k with h | h <;> rw [h] at hk <;> simp at hk
  -- induction over the moves; the outcomes of a prefix are outcomes of the whole sequence
  induction hm with
  | refl =>
      intro k hk
      rcases hstart k with h | h <;> rw [h] at hk <;> simp at hk
  | tail hprefix hmove ih =>
      rename_i m₁ m₂
      have hω₁ : Follows ω m₁ := fun k =>
        ⟨fun h => (hωm k).1 (hmove.later k _ h rfl), fun h => (hωm k).2 (hmove.later k _ h rfl)⟩
      have hskip := ih hω₁
      intro k hk
      cases hmove with
      | activate hp hv =>
          rename_i j
          by_cases hkj : k = j
          · simp [hkj] at hk
          · exact hskip k (by rwa [Function.update_of_ne hkj] at hk)
      | skip hp hv =>
          rename_i j
          by_cases hkj : k = j
          · subst hkj
            have hsome : (m₀ k).isSome = true := by
              rw [← Moves.isSome_eq hprefix k, hp]; rfl
            exact skipped_of_abandoned hnf hj hfin hω hω₁ (hcan₀.moves hprefix) hskip
              (Graph.abandoned_of_skip hv) (hdom k hsome)
          · exact hskip k (by rwa [Function.update_of_ne hkj] at hk)
      | advance hm hf ht =>
          rename_i j st₀ st'
          by_cases hkj : k = j
          · rw [hkj, Function.update_self, Option.some.injEq] at hk
            rw [hk] at ht
            simp [NodeStatus.inFlight] at ht
          · exact hskip k (by rwa [Function.update_of_ne hkj] at hk)

/-- **Confluence.** Without failure routes, two finished markings reached from all-pending
markings of the same nodes under the same outcomes are equal. -/
theorem finished_eq {ω : κ → Bool} {m₀ m₀' m m' : Marking κ} (hnf : ∀ k, G.fail k = [])
    (hstart : ∀ k, m₀ k = none ∨ m₀ k = some .pending)
    (hstart' : ∀ k, m₀' k = none ∨ m₀' k = some .pending)
    (hdom : ∀ k, (m₀ k).isSome = (m₀' k).isSome)
    (hm : Moves G m₀ m) (hm' : Moves G m₀' m') (hfin : Finished m) (hfin' : Finished m')
    (hω : Follows ω m) (hω' : Follows ω m') : m = m' := by
  have hjust : ∀ {m₀ : Marking κ}, (∀ k, m₀ k = none ∨ m₀ k = some .pending) →
      Justified G m₀ := by
    intro m₀ hs k st hk hp _
    rcases hs k with h | h <;> rw [h] at hk
    · simp at hk
    · exact absurd (Option.some.inj hk).symm hp
  have hdom₁ : ∀ k, (m k).isSome = (m' k).isSome := fun k => by
    rw [Moves.isSome_eq hm, Moves.isSome_eq hm', hdom]
  have h₁ := skipped_of_finished hnf ((hjust hstart').moves hm') hfin' hω' hstart
    (fun k hk => by rw [Moves.isSome_eq hm', ← hdom]; exact hk) hm hω
  have h₂ := skipped_of_finished hnf ((hjust hstart).moves hm) hfin hω hstart'
    (fun k hk => by rw [Moves.isSome_eq hm, hdom]; exact hk) hm' hω'
  funext k
  rcases hk : m k with _ | st
  · have hnone := hdom₁ k
    rw [hk] at hnone
    exact (Option.isNone_iff_eq_none.mp (by simpa using hnone.symm)).symm
  · obtain ⟨st', hk'⟩ : ∃ st', m' k = some st' :=
      Option.isSome_iff_exists.mp (by rw [← hdom₁ k, hk]; rfl)
    rw [hk']
    rcases hfin k st hk with rfl | rfl | rfl
    · rcases hfin' k st' hk' with rfl | rfl | rfl
      · rfl
      · have := (hω k).1 hk
        rw [(hω' k).2 hk'] at this
        exact absurd this (by simp)
      · rw [h₂ k hk'] at hk
        exact absurd hk (by simp)
    · rcases hfin' k st' hk' with rfl | rfl | rfl
      · have := (hω' k).1 hk'
        rw [(hω k).2 hk] at this
        exact absurd this (by simp)
      · rfl
      · rw [h₂ k hk'] at hk
        exact absurd hk (by simp)
    · rw [← hk', h₁ k hk]

end Moves

/-! ### Progress -/

/-- A pending node that is not decided yet: no failure is routed to it, and nothing abandons
it. -/
structure Undecided (G : Graph κ) (m : Marking κ) (k : κ) : Prop where
  pending : m k = some .pending
  unfailed : ∀ s ∈ G.fail k, m s ≠ some .failed
  unabandoned : ¬ G.Abandoned m k

/-- `k` is on hold for `j`: `j` is a prerequisite of `k` or the source of a success route into
it, and it is pending as well. -/
def WaitsFor (G : Graph κ) (m : Marking κ) (k j : κ) : Prop :=
  Undecided G m k ∧ m j = some .pending ∧ (j ∈ G.deps k ∨ j ∈ G.succ k)

/-- An undecided node that a success route can no longer reach: the source was skipped. -/
def Orphaned (G : Graph κ) (m : Marking κ) (k : κ) : Prop :=
  Undecided G m k ∧ ∃ s ∈ G.succ k, m s = some .skipped

/-- No node waits for itself, directly or through others. -/
def WaitsAcyclic (G : Graph κ) (m : Marking κ) : Prop :=
  ∀ k, ¬ Relation.TransGen (WaitsFor G m) k k

theorem undecided_of_wait {G : Graph κ} {m : Marking κ} {k : κ} (hp : m k = some .pending)
    (h : G.verdict m k = .wait) : Undecided G m k := by
  rw [Graph.verdict] at h
  split_ifs at h with hfail hsucc hlost
  all_goals
    refine ⟨hp, fun s hs hf => ?_, ?_⟩
    · exact hfail (List.any_eq_true.mpr ⟨s, hs, decide_eq_true hf⟩)
    · rintro (⟨s, hs, hf⟩ | ⟨d, hd, st, hst, hl⟩)
      · exact hsucc (List.any_eq_true.mpr ⟨s, hs, decide_eq_true hf⟩)
      · exact hlost (List.any_eq_true.mpr ⟨d, hd, by rw [hst]; exact hl⟩)

/-- In a finite set closed under a relation, a relation that gives every member a successor
has a cycle. -/
theorem exists_cycle {r : κ → κ → Prop} {l : List κ} (hne : l ≠ [])
    (hnext : ∀ k ∈ l, ∃ j ∈ l, r k j) : ∃ k, Relation.TransGen r k k := by
  classical
  by_contra hno
  have hirr : Std.Irrefl fun a b : {k // k ∈ l} => Relation.TransGen r b.1 a.1 :=
    ⟨fun a ha => hno ⟨a.1, ha⟩⟩
  have htrans : IsTrans {k // k ∈ l} (fun a b => Relation.TransGen r b.1 a.1) :=
    ⟨fun a b c hab hbc => hbc.trans hab⟩
  have hwf : WellFounded (fun a b : {k // k ∈ l} => Relation.TransGen r b.1 a.1) :=
    Finite.wellFounded_of_trans_of_irrefl _
  obtain ⟨k₀, hk₀⟩ := List.exists_mem_of_ne_nil l hne
  have hempty : ∀ a : {k // k ∈ l}, False := by
    intro a
    induction a using hwf.induction with
    | h a ih =>
        obtain ⟨j, hj, hr⟩ := hnext a.1 a.2
        exact ih ⟨j, hj⟩ (Relation.TransGen.single hr)
  exact hempty ⟨k₀, hk₀⟩

/-- **Progress.** In a quiet marking over known references, whose waits have no cycle and
where no pending node is orphaned, some pending node is decided by the activation rule. -/
theorem exists_decided {G : Graph κ} {m : Marking κ} {l : List κ}
    (hl : ∀ k, k ∈ l ↔ m k = some .pending) (hne : l ≠ [])
    (hquiet : ∀ k st, m k = some st → st.inFlight = false)
    (hcan : ∀ k, m k ≠ some .cancelled)
    (hknown : ∀ k ∈ l, ∀ j, j ∈ G.deps k ∨ j ∈ G.succ k → (m j).isSome = true)
    (hacyclic : WaitsAcyclic G m) (horphan : ∀ k, ¬ Orphaned G m k) :
    ∃ k ∈ l, G.verdict m k ≠ .wait := by
  by_contra hno
  have hwait : ∀ k ∈ l, G.verdict m k = .wait := by
    intro k hk
    by_contra hv
    exact hno ⟨k, hk, hv⟩
  -- every pending node waits for a pending one, so the waits run into a cycle
  obtain ⟨k, hk⟩ := exists_cycle (r := WaitsFor G m) hne (by
    intro k hk
    have hpk := undecided_of_wait ((hl k).mp hk) (hwait k hk)
    rcases Graph.exists_awaited_of_wait (hwait k hk) with
      ⟨d, hd, hns, hnl⟩ | ⟨s, hs, hns, hnf⟩
    · obtain ⟨st, hst⟩ := Option.isSome_iff_exists.mp (hknown k hk d (Or.inl hd))
      have hfree := hquiet d st hst
      have hlost := hnl st hst
      have hpd : m d = some .pending := by
        cases st <;> simp_all [NodeStatus.inFlight, NodeStatus.lost]
      exact ⟨d, (hl d).mpr hpd, hpk, hpd, Or.inl hd⟩
    · obtain ⟨st, hst⟩ := Option.isSome_iff_exists.mp (hknown k hk s (Or.inr hs))
      have hfree := hquiet s st hst
      have hskip : m s ≠ some .skipped := fun h => horphan k ⟨hpk, s, hs, h⟩
      have hcs := hcan s
      have hps : m s = some .pending := by
        cases st <;> simp_all [NodeStatus.inFlight]
      exact ⟨s, (hl s).mpr hps, hpk, hps, Or.inr hs⟩)
  exact hacyclic k hk

end LarkPlat.Flow
