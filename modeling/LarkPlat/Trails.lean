import LarkPlat.Machine
import Mathlib.Data.List.Chain

/-!
# Trails of an Observation

An observation reads a value, or nothing, from each state of a machine: a column of one row, a
register, a flag. Its trail along a run lists the values it takes, one for each operation that
changes it. If every operation moves the observation along a relation `R`, the trail is a chain of
`R`, and what holds of chains holds of every run: a measure that `R` increases grows strictly, and
a value that only an entry can follow occurs at most once between two entries.

## Main results

* `trail_isChain`: the trail of a run whose operations move along `R` is a chain of `R`.
* `trail_isChain_iff`: for a column that is always there, only such runs have a chain.
* `oncePer_of_isChain`: in a chain, a kind of value that only an entry follows occurs at most once
  between two consecutive entries.
-/

namespace LarkPlat.Machine

/-! ### Trails -/

section Trails

variable {σ α β : Type*} [DecidableEq β] {apply : σ → α → σ} {obs : σ → Option β}

variable (apply obs) in
/-- The values that an observation takes along a run, one for each operation that changes it. -/
def trail : σ → List α → List β
  | _, [] => []
  | s, a :: ops =>
      (if obs (apply s a) = obs s then [] else (obs (apply s a)).toList) ++ trail (apply s a) ops

/-- What one operation may do to an observation: leave it, give it a first value, or move it along
the relation. -/
inductive Along (R : β → β → Prop) : Option β → Option β → Prop where
  | stay (v : Option β) : Along R v v
  | first (y : β) : Along R none (some y)
  | next {x y : β} (h : R x y) : Along R (some x) (some y)

variable (obs) in
/-- **Trail rule.** If every operation keeps an invariant and under it moves the observation along
`R`, the trail of every run is a chain of `R`. -/
theorem trail_isChain {P : σ → Prop} {R : β → β → Prop} (hkeep : ∀ s a, P s → P (apply s a))
    (hstep : ∀ s a, P s → Along R (obs s) (obs (apply s a))) {s : σ} (hs : P s) (ops : List α) :
    ((obs s).toList ++ trail apply obs s ops).IsChain R := by
  induction ops generalizing s with
  | nil =>
      rw [trail, List.append_nil]
      cases obs s
      · exact List.isChain_nil
      · exact List.isChain_singleton _
  | cons a ops ih =>
      have hrest := ih (hkeep s a hs)
      have halong := hstep s a hs
      rw [trail]
      by_cases hsame : obs (apply s a) = obs s
      · rw [if_pos hsame, List.nil_append, ← hsame]
        exact hrest
      · rw [if_neg hsame]
        generalize obs s = v at halong hsame
        generalize obs (apply s a) = v' at halong hsame hrest
        cases halong with
        | stay => exact absurd rfl hsame
        | first y => exact hrest
        | next h => exact List.isChain_cons_cons.mpr ⟨h, hrest⟩

/-- The trail of a column that is always there is a chain exactly if each operation leaves the
column or moves it along the relation. -/
theorem trail_isChain_iff {f : σ → β} {R : β → β → Prop} (s : σ) (ops : List α) :
    (f s :: trail apply (fun s => some (f s)) s ops).IsChain R ↔
      Meets apply (fun s a => f (apply s a) = f s ∨ R (f s) (f (apply s a))) s ops := by
  induction ops generalizing s with
  | nil => exact iff_of_true (List.isChain_singleton _) trivial
  | cons a ops ih =>
      rw [trail, meets_cons, ← ih]
      by_cases hsame : f (apply s a) = f s
      · rw [if_pos (congrArg some hsame), List.nil_append, hsame]
        exact (and_iff_right (Or.inl rfl)).symm
      · rw [if_neg fun h => hsame (Option.some.inj h), Option.toList_some, List.singleton_append,
          List.isChain_cons_cons]
        exact and_congr_left fun _ => (or_iff_right hsame).symm

end Trails

/-! ### Chains -/

section Chains

variable {β : Type*} {R : β → β → Prop} {l : List β}

theorem pairwise_lt_of_isChain {m : β → ℕ} (h : l.IsChain R) (hm : ∀ x y, R x y → m x < m y) :
    (l.map m).Pairwise (· < ·) := by
  refine List.isChain_iff_pairwise.mp ?_
  rw [List.isChain_map]
  exact h.imp fun x y => hm x y

/-- Between two consecutive entries at most one value is of the kind `p`. -/
def OncePer (entry p : β → Bool) (l : List β) : Prop :=
  ∀ pre a mid b post, l = pre ++ a :: (mid ++ b :: post) → entry a = true → entry b = true →
    (∀ c ∈ mid, entry c = false) → mid.countP p ≤ 1

variable {entry p : β → Bool}

/-- A chain without entries holds at most one value that only an entry follows. -/
theorem countP_le_one_of_isChain (h : l.IsChain R)
    (hentry : ∀ x y, R x y → p x = true → entry y = true) (hnone : ∀ c ∈ l, entry c = false) :
    l.countP p ≤ 1 := by
  induction l with
  | nil => exact Nat.zero_le 1
  | cons x l ih =>
      cases l with
      | nil => exact List.countP_le_length
      | cons y l =>
          obtain ⟨hxy, hrest⟩ := List.isChain_cons_cons.mp h
          have hx : p x = false := by
            by_contra hp
            have hy := hentry x y hxy (by simpa using hp)
            rw [hnone y (by simp)] at hy
            cases hy
          rw [List.countP_cons, hx]
          exact ih hrest fun c hc => hnone c (List.mem_cons_of_mem x hc)

/-- **Once per entry.** A kind of value that only an entry follows occurs at most once between two
consecutive entries of a chain. -/
theorem oncePer_of_isChain (h : l.IsChain R)
    (hentry : ∀ x y, R x y → p x = true → entry y = true) : OncePer entry p l := by
  rintro pre a mid b post rfl - - hnone
  have hmid : mid <:+: pre ++ a :: (mid ++ b :: post) :=
    ⟨pre ++ [a], b :: post, by simp⟩
  have hchain : mid.IsChain R := List.IsChain.infix h hmid
  exact countP_le_one_of_isChain hchain hentry hnone

end Chains

end LarkPlat.Machine
