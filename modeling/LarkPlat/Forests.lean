import Mathlib.Data.List.Nodup
import Mathlib.Data.Nat.Basic

/-!
# Forests of Parents

A map `parent : ι → Option (Option ι)` names the nodes of a forest, each with its parent or as a
root. A node has a level if its parents lead to a root, which counts as level 1. Levels are unique,
so parents that lead to a root never repeat.

A change of the map that leaves the nodes of a set with their parents, and the set closed under
parents, leaves their levels. This covers new leaves, removed leaves, and the nodes outside a
subtree that is moved.

## Main results

* `Level.exists_ascends`: a node with a level has a path of parents to a root, without repetition.
* `Level.congr_on`: levels depend on the parents of a closed set only.
* `Level.moved`: the levels in a subtree that is moved, from the new level of its top.
-/

namespace LarkPlat.Forest

variable {ι : Type*} {parent parent' : ι → Option (Option ι)} {i i' j : ι} {k m n : ℕ}

/-! ### Levels -/

variable (parent) in
/-- The parents of the node lead to a root in `n - 1` steps. -/
inductive Level : ι → ℕ → Prop
  | root {i : ι} : parent i = some none → Level i 1
  | child {i j : ι} {n : ℕ} : parent i = some (some j) → Level j n → Level i (n + 1)

theorem Level.unique (h : Level parent i n) (h' : Level parent i m) : n = m := by
  induction h generalizing m with
  | root hi =>
      cases h' with
      | root => rfl
      | child hi' =>
          rw [hi] at hi'
          cases hi'
  | child hi _ ih =>
      cases h' with
      | root hi' =>
          rw [hi] at hi'
          cases hi'
      | child hi' hj =>
          obtain rfl := Option.some.inj (Option.some.inj (hi.symm.trans hi'))
          rw [ih hj]

theorem Level.ne_none (h : Level parent i n) : parent i ≠ none := by
  cases h with
  | root hi => simp [hi]
  | child hi => simp [hi]

theorem Level.of_child (h : Level parent i n) (hi : parent i = some (some j)) :
    ∃ m, n = m + 1 ∧ Level parent j m := by
  cases h with
  | root hi' =>
      rw [hi] at hi'
      cases hi'
  | child hi' hj =>
      obtain rfl := Option.some.inj (Option.some.inj (hi.symm.trans hi'))
      exact ⟨_, rfl, hj⟩

/-- **Levels and closed sets.** A set of nodes that contains the parents of its nodes has the same
levels under two maps that agree on it. -/
theorem Level.congr_on (S : ι → Prop) (hclosed : ∀ i j, S i → parent i = some (some j) → S j)
    (hsame : ∀ i, S i → parent' i = parent i) (h : Level parent i n) (hi : S i) :
    Level parent' i n := by
  induction h with
  | root hroot => exact .root ((hsame _ hi).trans hroot)
  | child hchild _ ih =>
      exact .child ((hsame _ hi).trans hchild) (ih (hclosed _ _ hi hchild))

/-! ### Paths to a root -/

variable (parent) in
/-- The list leads from the node over its parents to a root. -/
inductive Ascends : ι → List ι → Prop
  | root {i : ι} : parent i = some none → Ascends i [i]
  | up {i j : ι} {path : List ι} : parent i = some (some j) → Ascends j path → Ascends i (i :: path)

theorem Ascends.level_le {path : List ι} (h : Ascends parent i path) (hn : Level parent i n) :
    ∀ j ∈ path, ∃ m ≤ n, Level parent j m := by
  induction h generalizing n with
  | root hi =>
      intro j hj
      rw [List.mem_singleton.mp hj]
      exact ⟨n, le_rfl, hn⟩
  | up hi _ ih =>
      intro j hj
      rcases List.mem_cons.mp hj with rfl | hj
      · exact ⟨n, le_rfl, hn⟩
      · obtain ⟨m, rfl, hm⟩ := hn.of_child hi
        obtain ⟨l, hl, hlevel⟩ := ih hm j hj
        exact ⟨l, Nat.le_succ_of_le hl, hlevel⟩

/-- **Paths to a root.** The parents of a node with a level lead to a root, and repeat no node. -/
theorem Level.exists_ascends (h : Level parent i n) :
    ∃ path, Ascends parent i path ∧ path.Nodup ∧ path.length = n := by
  induction h with
  | @root i hi => exact ⟨[i], .root hi, List.nodup_singleton i, rfl⟩
  | @child i j n hi hj ih =>
      obtain ⟨path, hpath, hnodup, hlength⟩ := ih
      refine ⟨i :: path, .up hi hpath, List.nodup_cons.mpr ⟨fun hmem => ?_, hnodup⟩, ?_⟩
      · obtain ⟨m, hm, hlevel⟩ := hpath.level_le hj i hmem
        have hsame := hlevel.unique (.child hi hj)
        omega
      · rw [List.length_cons, hlength]

/-! ### Subtrees -/

variable (parent) in
/-- The parents of `j` lead to `i` in `k` steps. -/
inductive Below (i : ι) : ι → ℕ → Prop
  | refl : Below i i 0
  | step {j p : ι} {k : ℕ} : parent j = some (some p) → Below i p k → Below i j (k + 1)

theorem Below.level (h : Below parent i j k) (hi : Level parent i n) :
    Level parent j (n + k) := by
  induction h with
  | refl => exact hi
  | step hj _ ih => exact .child hj ih

theorem Below.unique (h : Below parent i j k) (h' : Below parent i' j k) : i = i' := by
  induction h with
  | refl =>
      cases h'
      rfl
  | step hj _ ih =>
      cases h' with
      | step hj' h' =>
          obtain rfl := Option.some.inj (Option.some.inj (hj.symm.trans hj'))
          exact ih h'

theorem Below.up {p : ι} (h : Below parent i j k) (hi : parent i = some (some p)) :
    Below parent p j (k + 1) := by
  induction h with
  | refl => exact .step hi .refl
  | step hj _ ih => exact .step hj ih

theorem Below.exists_child (h : Below parent i j (k + 1)) :
    ∃ c, parent c = some (some i) ∧ Below parent c j k := by
  induction k generalizing j with
  | zero =>
      cases h with
      | step hj h =>
          cases h
          exact ⟨j, hj, .refl⟩
  | succ k ih =>
      cases h with
      | step hj h =>
          obtain ⟨c, hc, hbelow⟩ := ih h
          exact ⟨c, hc, .step hj hbelow⟩

theorem Level.exists_root (h : Level parent i n) :
    ∃ r k, parent r = some none ∧ n = k + 1 ∧ Below parent r i k := by
  induction h with
  | @root i hi => exact ⟨i, 0, hi, rfl, .refl⟩
  | child hi _ ih =>
      obtain ⟨r, k, hr, rfl, hbelow⟩ := ih
      exact ⟨r, k + 1, hr, rfl, .step hi hbelow⟩

theorem Below.top_unique (h : Below parent i j k) (h' : Below parent i' j m)
    (hi : Level parent i n) (hi' : Level parent i' n) : i = i' := by
  have hlevel := (h.level hi).unique (h'.level hi')
  obtain rfl : k = m := Nat.add_left_cancel hlevel
  exact h.unique h'

/-- **Moved subtrees.** If a map differs at the top of a subtree only, the nodes below it have
levels from the new level of the top. -/
theorem Level.moved (h : Below parent i j k) (hlevel : Level parent i n)
    (hsame : ∀ j, j ≠ i → parent' j = parent j) (hi : Level parent' i m) :
    Level parent' j (m + k) := by
  induction h with
  | refl => exact hi
  | @step j p k hj hp ih =>
      have hne : j ≠ i := by
        rintro rfl
        -- The top would be below itself.
        have hsame := ((Below.step hj hp).level hlevel).unique hlevel
        omega
      exact .child ((hsame j hne).trans hj) ih

theorem not_below_parent (hj : parent j = some (some i')) (h : ∀ k, ¬ Below parent i j k) (k : ℕ) :
    ¬ Below parent i i' k :=
  fun hbelow => h (k + 1) (.step hj hbelow)

end LarkPlat.Forest
