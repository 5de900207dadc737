import Mathlib.Data.List.Nodup
import Mathlib.Data.Nat.Basic
import Mathlib.Order.Basic

/-!
# Breadth-First Search to a Depth

A search of a graph goes from layer to layer. It keeps the nodes that it has seen and, of these,
those that it has found in the last layer, which are the ones that it goes on from. The graph is
given by `adj`: the nodes that are looked at from a node, in any order and any number of times.

The distance of a node from the root is the least number of steps of a walk to it.

## Main results

* `layers_spec`: after `n` layers the search has seen the nodes within `n` steps of the root, each
  once, and has found those at distance `n` in the last layer.
* `exists_beyond_iff`: a node that is reached and not within `n` steps exists exactly if one at
  distance `n + 1` does.
* `foldl_found`: a loop over the rows of the nodes is a layer of the search if each round is.
* `levels_spec`: a loop over levels that are layers sees the search, and tells whether its last layer
  has found something.
-/

namespace LarkPlat.Search

variable {ι : Type*} {step : ι → ι → Prop} {root x y : ι} {n k : ℕ}

/-! ### Distances -/

variable (step root) in
/-- A walk of a number of steps leads from the root to the node. -/
inductive Walk : ℕ → ι → Prop
  | refl : Walk 0 root
  | step {n : ℕ} {x y : ι} : Walk n x → step x y → Walk (n + 1) y

variable (step root) in
/-- The node is reached in at most `n` steps. -/
def Within (n : ℕ) (x : ι) : Prop := ∃ k ≤ n, Walk step root k x

variable (step root) in
/-- The node is reached in `n` steps, and in no fewer. -/
def AtDistance (n : ℕ) (x : ι) : Prop := Walk step root n x ∧ ∀ k < n, ¬ Walk step root k x

theorem within_zero_iff : Within step root 0 x ↔ x = root := by
  constructor
  · rintro ⟨k, hk, hwalk⟩
    obtain rfl := Nat.le_zero.mp hk
    cases hwalk
    rfl
  · rintro rfl
    exact ⟨0, le_rfl, .refl⟩

theorem atDistance_zero_iff : AtDistance step root 0 x ↔ x = root :=
  ⟨fun h => within_zero_iff.mp ⟨0, le_rfl, h.1⟩,
    fun h => ⟨h ▸ .refl, fun _ hk => absurd hk (by simp)⟩⟩

theorem AtDistance.within (h : AtDistance step root n x) : Within step root n x := ⟨n, le_rfl, h.1⟩

theorem Within.mono (h : Within step root k x) (hle : k ≤ n) : Within step root n x := by
  obtain ⟨j, hj, hwalk⟩ := h
  exact ⟨j, hj.trans hle, hwalk⟩

/-- A node at distance `n + 1` is not within `n` steps, and is one step behind a node at distance
`n`. -/
theorem atDistance_succ_iff : AtDistance step root (n + 1) y ↔
    ¬ Within step root n y ∧ ∃ x, AtDistance step root n x ∧ step x y := by
  constructor
  · rintro ⟨hwalk, hleast⟩
    refine ⟨fun ⟨k, hk, hshort⟩ => hleast k (Nat.lt_succ_of_le hk) hshort, ?_⟩
    cases hwalk with
    | @step _ x _ hx hstep =>
        -- A shorter walk to the node before would be continued to a shorter walk.
        refine ⟨x, ⟨hx, fun k hk hshort => ?_⟩, hstep⟩
        exact hleast (k + 1) (Nat.succ_lt_succ hk) (.step hshort hstep)
  · rintro ⟨hout, x, hx, hstep⟩
    exact ⟨.step hx.1 hstep, fun k hk hshort => hout ⟨k, Nat.le_of_lt_succ hk, hshort⟩⟩

theorem within_succ_iff : Within step root (n + 1) y ↔
    Within step root n y ∨ AtDistance step root (n + 1) y := by
  constructor
  · rintro ⟨k, hk, hwalk⟩
    by_cases hin : Within step root n y
    · exact .inl hin
    · have heq : k = n + 1 := le_antisymm hk (Nat.lt_of_not_le fun hle => hin ⟨k, hle, hwalk⟩)
      subst heq
      exact .inr ⟨hwalk, fun j hj hshort => hin ⟨j, Nat.le_of_lt_succ hj, hshort⟩⟩
  · rintro (h | h)
    · exact h.mono (Nat.le_succ n)
    · exact h.within

/-- **What is left out.** A walk that leads to a node that is not within `n` steps passes one at
distance `n + 1`. -/
theorem exists_beyond_iff : (∃ k x, Walk step root k x ∧ ¬ Within step root n x) ↔
    ∃ x, AtDistance step root (n + 1) x := by
  constructor
  · rintro ⟨k, x, hwalk, hout⟩
    induction hwalk with
    | refl => exact absurd ⟨0, Nat.zero_le n, .refl⟩ hout
    | @step k x y hx hstep ih =>
        by_cases hin : Within step root n x
        · obtain ⟨j, hj, hshort⟩ := hin
          have hy : Within step root (n + 1) y := ⟨j + 1, Nat.succ_le_succ hj, .step hshort hstep⟩
          exact ⟨y, (within_succ_iff.mp hy).resolve_left hout⟩
        · exact ih hin
  · rintro ⟨x, hx⟩
    exact ⟨n + 1, x, hx.1, (atDistance_succ_iff.mp hx).1⟩

/-! ### Layers -/

/-- The nodes that the search has seen, and those of them that it has found in the last layer. -/
structure Found (ι : Type*) where
  seen : List ι
  next : List ι
  deriving DecidableEq

variable [DecidableEq ι]

/-- A node that is looked at. -/
def Found.discover (found : Found ι) (x : ι) : Found ι :=
  if x ∈ found.seen then found else ⟨found.seen ++ [x], found.next ++ [x]⟩

/-- The search goes on from a layer. -/
def Found.expand (adj : ι → List ι) (found : Found ι) : Found ι :=
  (found.next.flatMap adj).foldl Found.discover ⟨found.seen, []⟩

/-- The search after a number of layers. -/
def layers (adj : ι → List ι) (root : ι) : ℕ → Found ι
  | 0 => ⟨[root], [root]⟩
  | n + 1 => (layers adj root n).expand adj

theorem foldl_discover (xs : List ι) (found : Found ι) : ∃ new : List ι,
    xs.foldl Found.discover found = ⟨found.seen ++ new, found.next ++ new⟩ ∧ new.Nodup ∧
      ∀ x, x ∈ new ↔ x ∈ xs ∧ x ∉ found.seen := by
  induction xs generalizing found with
  | nil => exact ⟨[], by simp, List.nodup_nil, by simp⟩
  | cons a xs ih =>
      rw [List.foldl_cons, Found.discover]
      split_ifs with ha
      · obtain ⟨new, hfold, hnodup, hmem⟩ := ih found
        refine ⟨new, hfold, hnodup, fun x => ?_⟩
        rw [hmem, List.mem_cons]
        refine and_congr_left fun hx => (or_iff_right ?_).symm
        rintro rfl
        exact hx ha
      · obtain ⟨new, hfold, hnodup, hmem⟩ := ih ⟨found.seen ++ [a], found.next ++ [a]⟩
        refine ⟨a :: new, by rw [hfold]; simp, List.nodup_cons.mpr ⟨fun hin => ?_, hnodup⟩,
          fun x => ?_⟩
        · exact ((hmem a).mp hin).2 (List.mem_append_right _ (List.mem_singleton_self a))
        · rw [List.mem_cons, List.mem_cons, hmem, List.mem_append, List.mem_singleton, not_or]
          constructor
          · rintro (rfl | ⟨hx, hseen, -⟩)
            · exact ⟨.inl rfl, ha⟩
            · exact ⟨.inr hx, hseen⟩
          · rintro ⟨hx, hseen⟩
            by_cases heq : x = a
            · exact .inl heq
            · exact .inr ⟨hx.resolve_left heq, hseen, heq⟩

/-- The invariant of a layer. -/
structure IsLayer (step : ι → ι → Prop) (root : ι) (n : ℕ) (found : Found ι) : Prop where
  distinct : found.seen.Nodup
  seen : ∀ x, x ∈ found.seen ↔ Within step root n x
  next : ∀ x, x ∈ found.next ↔ AtDistance step root n x

/-- **One layer.** -/
theorem IsLayer.expand {adj : ι → List ι} (hadj : ∀ x y, y ∈ adj x ↔ step x y) {found : Found ι}
    (h : IsLayer step root n found) : IsLayer step root (n + 1) (found.expand adj) := by
  obtain ⟨new, hfold, hnodup, hmem⟩ := foldl_discover (found.next.flatMap adj) ⟨found.seen, []⟩
  have hnew : ∀ y, y ∈ new ↔ AtDistance step root (n + 1) y := by
    intro y
    rw [hmem, List.mem_flatMap, h.seen, atDistance_succ_iff, and_comm]
    refine and_congr_right fun _ => exists_congr fun x => ?_
    rw [h.next, hadj]
  rw [Found.expand, hfold]
  refine ⟨h.distinct.append hnodup fun x hold hx => ((hmem x).mp hx).2 hold, fun x => ?_, hnew⟩
  rw [List.mem_append, h.seen, hnew, within_succ_iff]

/-- **The search** sees what is within as many steps as it has layers. -/
theorem layers_spec {adj : ι → List ι} (hadj : ∀ x y, y ∈ adj x ↔ step x y) (root : ι) (n : ℕ) :
    IsLayer step root n (layers adj root n) := by
  induction n with
  | zero =>
      refine ⟨List.nodup_singleton root, fun x => ?_, fun x => ?_⟩
      · rw [within_zero_iff]
        exact List.mem_singleton
      · rw [atDistance_zero_iff]
        exact List.mem_singleton
  | succ n ih => exact ih.expand hadj

theorem layers_seen_eq (adj : ι → List ι) (root : ι) (n : ℕ) :
    ∃ rest, (layers adj root n).seen = root :: rest := by
  induction n with
  | zero => exact ⟨[], rfl⟩
  | succ n ih =>
      obtain ⟨rest, hrest⟩ := ih
      obtain ⟨new, hfold, -, -⟩ :=
        foldl_discover ((layers adj root n).next.flatMap adj) ⟨(layers adj root n).seen, []⟩
      exact ⟨rest ++ new, by rw [layers, Found.expand, hfold, hrest, List.cons_append]⟩

theorem layers_of_next_nil {adj : ι → List ι} {root : ι} (h : (layers adj root n).next = [])
    (hle : n ≤ k) : layers adj root k = layers adj root n := by
  induction k, hle using Nat.le_induction with
  | base => rfl
  | succ k _ ih =>
      rw [layers, ih, Found.expand, h]
      exact congrArg (Found.mk _) h.symm

/-! ### Loops that search -/

section Simulation

variable {σ β : Type*} {visit : ι → σ → β → σ} {found : σ → Found ι} {ok : σ → Prop}
  {other : β → ι → ι}

/-- **A loop over the rows of each node** finds what the search finds, if it does so at each row. -/
theorem foldl_found
    (hvisit : ∀ node st r, ok st →
      ok (visit node st r) ∧ found (visit node st r) = (found st).discover (other r node))
    (edges : ι → List β) (frontier : List ι) {st : σ} (hst : ok st) :
    ok (frontier.foldl (fun st node => (edges node).foldl (visit node) st) st) ∧
      found (frontier.foldl (fun st node => (edges node).foldl (visit node) st) st) =
        (frontier.flatMap fun node => (edges node).map fun r => other r node).foldl Found.discover
          (found st) := by
  have hrows : ∀ node (rows : List β) (st : σ), ok st → ok (rows.foldl (visit node) st) ∧
      found (rows.foldl (visit node) st) =
        (rows.map fun r => other r node).foldl Found.discover (found st) := by
    intro node rows
    induction rows with
    | nil => exact fun st hst => ⟨hst, rfl⟩
    | cons r rows ih =>
        intro st hst
        obtain ⟨hok, hfound⟩ := hvisit node st r hst
        rw [List.foldl_cons, List.map_cons, List.foldl_cons, ← hfound]
        exact ih _ hok
  induction frontier generalizing st with
  | nil => exact ⟨hst, rfl⟩
  | cons node frontier ih =>
      obtain ⟨hok, hfound⟩ := hrows node (edges node) st hst
      rw [List.foldl_cons, List.flatMap_cons, List.foldl_append, ← hfound]
      exact ih hok

omit [DecidableEq ι] in
/-- What holds after a loop over the rows of each node held before it, or a row has brought it. -/
theorem of_foldl {P : σ → Prop} {brings : ι → β → Prop}
    (hvisit : ∀ node st r, P (visit node st r) → P st ∨ brings node r) (edges : ι → List β)
    (frontier : List ι) {st : σ}
    (h : P (frontier.foldl (fun st node => (edges node).foldl (visit node) st) st)) :
    P st ∨ ∃ node ∈ frontier, ∃ r ∈ edges node, brings node r := by
  have hrows : ∀ node (rows : List β) (st : σ), P (rows.foldl (visit node) st) →
      P st ∨ ∃ r ∈ rows, brings node r := by
    intro node rows
    induction rows with
    | nil => exact fun st h => .inl h
    | cons r rows ih =>
        intro st h
        rcases ih _ h with h | ⟨r', hr', hbrings⟩
        · exact (hvisit node st r h).imp_right fun hbrings => ⟨r, List.mem_cons_self, hbrings⟩
        · exact .inr ⟨r', List.mem_cons_of_mem r hr', hbrings⟩
  induction frontier generalizing st with
  | nil => exact .inl h
  | cons node frontier ih =>
      rcases ih h with h | ⟨node', hnode', hr⟩
      · exact (hrows node _ st h).imp_right fun hr => ⟨node, List.mem_cons_self, hr⟩
      · exact .inr ⟨node', List.mem_cons_of_mem node hnode', hr⟩

/-- A loop over levels, which stops behind a level that has found nothing, and sets a flag where the
last one has found something. -/
def levels (level : σ → List ι → σ) (next : σ → List ι) : ℕ → List ι → σ → σ × Bool
  | 0, _, st => (st, false)
  | left + 1, frontier, st =>
      let st := level st frontier
      if next st = [] then (st, false)
      else if left = 0 then (st, true)
      else levels level next left (next st) st

/-- **A loop over levels.** What holds of the layers, each after the one before, holds of the loop;
it may break because an empty layer ends the search. -/
theorem levels_spec {adj : ι → List ι} (level : σ → List ι → σ) (next : σ → List ι)
    (reached : ℕ → σ → Prop)
    (hlevel : ∀ k st, reached k st → reached (k + 1) (level st (layers adj root k).next) ∧
      next (level st (layers adj root k).next) = (layers adj root (k + 1)).next)
    (hover : ∀ k j st, (layers adj root k).next = [] → k ≤ j → reached k st → reached j st)
    (left : ℕ) {st : σ} {frontier : List ι} (hst : reached k st)
    (hfrontier : frontier = (layers adj root k).next) :
    reached (k + left) (levels level next left frontier st).1 ∧
      ((levels level next left frontier st).2 = true ↔
        left ≠ 0 ∧ (layers adj root (k + left)).next ≠ []) := by
  subst hfrontier
  induction left generalizing k st with
  | zero => exact ⟨hst, by simp [levels]⟩
  | succ left ih =>
      obtain ⟨hnext, hfound⟩ := hlevel k st hst
      have hadd : k + (left + 1) = k + 1 + left := by omega
      rw [levels, hadd]
      split_ifs with hempty hleft
      · -- the loop breaks, and more layers would add nothing
        have hnone := hfound.symm.trans hempty
        have hlast := layers_of_next_nil hnone (Nat.le_add_right (k + 1) left)
        exact ⟨hover _ _ _ hnone (Nat.le_add_right (k + 1) left) hnext, by simp [hlast, hnone]⟩
      · subst hleft
        exact ⟨hnext, by simp [← hfound, hempty]⟩
      · obtain ⟨hreached, hflag⟩ := ih hnext
        rw [hfound]
        exact ⟨hreached, hflag.trans ⟨fun h => ⟨Nat.succ_ne_zero left, h.2⟩,
          fun h => ⟨hleft, h.2⟩⟩⟩

end Simulation

end LarkPlat.Search
