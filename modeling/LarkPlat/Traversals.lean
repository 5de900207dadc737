import Mathlib.Data.List.Forall2

/-!
# Loops that May Raise

`List.mapM` in `Except` applies a function to each item of a list and stops at the first error.

## Main results

* `mapM_ok_iff`: a loop returns exactly the list of the values, item by item.
* `mem_of_mapM`, `exists_of_mapM`: the members of what a loop returns, and of what it was given.
-/

namespace LarkPlat.Traversals

variable {ε α β : Type} {f : α → Except ε β} {xs : List α} {ys : List β} {x : α} {y : β}

/-- A loop returns exactly the list of the values, item by item. -/
theorem mapM_ok_iff : xs.mapM f = .ok ys ↔ List.Forall₂ (fun x y => f x = .ok y) xs ys := by
  induction xs generalizing ys with
  | nil =>
      rw [List.mapM_nil, List.forall₂_nil_left_iff]
      exact ⟨fun h => (Except.ok.inj h).symm, fun h => h ▸ rfl⟩
  | cons x xs ih =>
      rw [List.mapM_cons, List.forall₂_cons_left_iff]
      constructor
      · intro h
        cases hx : f x with
        | error e => simp [hx, bind, Except.bind] at h
        | ok y =>
            cases hxs : xs.mapM f with
            | error e => simp [hx, hxs, bind, Except.bind] at h
            | ok ys' =>
                simp only [hx, hxs, bind, Except.bind] at h
                exact ⟨y, ys', rfl, ih.mp hxs, (Except.ok.inj h).symm⟩
      · rintro ⟨y, ys', hx, hxs, rfl⟩
        rw [hx, ih.mpr hxs]
        rfl

/-- Each value that a loop returns is that of an item. -/
theorem mem_of_mapM (h : xs.mapM f = .ok ys) (hy : y ∈ ys) : ∃ x ∈ xs, f x = .ok y := by
  rw [mapM_ok_iff] at h
  induction h with
  | nil => cases hy
  | cons hx _ ih =>
      rcases List.mem_cons.mp hy with rfl | hy
      · exact ⟨_, List.mem_cons_self, hx⟩
      · obtain ⟨x, hmem, hx⟩ := ih hy
        exact ⟨x, List.mem_cons_of_mem _ hmem, hx⟩

/-- Each item has its value among those that a loop returns. -/
theorem exists_of_mapM (h : xs.mapM f = .ok ys) (hx : x ∈ xs) : ∃ y ∈ ys, f x = .ok y := by
  rw [mapM_ok_iff] at h
  induction h with
  | nil => cases hx
  | cons hy _ ih =>
      rcases List.mem_cons.mp hx with rfl | hx
      · exact ⟨_, List.mem_cons_self, hy⟩
      · obtain ⟨y, hmem, hy⟩ := ih hx
        exact ⟨y, List.mem_cons_of_mem _ hmem, hy⟩

end LarkPlat.Traversals
