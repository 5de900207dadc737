import Mathlib.Data.List.Basic
import Mathlib.Order.Lattice

/-!
# The Best of a List

A ranking of a list has its elements in descending order of a score, and elements of one score in
the order of the list. It is what a stable sort returns, and there is only one.

## Main results

* `ranked_isRanking`, `IsRanking.unique`: a list has one ranking.
* `ranked_take`: the best of the best are the best.
* `IsRanking.map`: a ranking of images.
-/

namespace LarkPlat.Ranking

variable {α S : Type} [LinearOrder S] {score : α → S} {l r r' : List α}

/-- `sorted(l, key=score, reverse=True)`, which keeps the order of elements of one score. -/
def ranked (score : α → S) (l : List α) : List α :=
  l.mergeSort fun a b => decide (score b ≤ score a)

/-- The elements in descending order of their score, those of one score as they were. -/
structure IsRanking (score : α → S) (l r : List α) : Prop where
  perm : r.Perm l
  sorted : r.Pairwise fun a b => score b ≤ score a
  ties : ∀ v, r.filter (fun a => decide (score a = v)) = l.filter fun a => decide (score a = v)

theorem ranked_pairwise (score : α → S) (l : List α) :
    (ranked score l).Pairwise fun a b => decide (score b ≤ score a) = true := by
  refine List.pairwise_mergeSort (fun a b c hab hbc => ?_) (fun a b => ?_) l
  · exact decide_eq_true (le_trans (of_decide_eq_true hbc) (of_decide_eq_true hab))
  · rw [Bool.or_eq_true, decide_eq_true_eq, decide_eq_true_eq]
    exact le_total _ _

/-- A stable sort ranks. -/
theorem ranked_isRanking (score : α → S) (l : List α) : IsRanking score l (ranked score l) where
  perm := List.mergeSort_perm _ _
  sorted := (ranked_pairwise score l).imp fun h => of_decide_eq_true h
  ties v := by
    set p : α → Bool := fun a => decide (score a = v)
    have htie : (l.filter p).Pairwise fun a b => decide (score b ≤ score a) = true := by
      refine List.pairwise_of_forall_mem_list fun a ha b hb => decide_eq_true (le_of_eq ?_)
      rw [of_decide_eq_true (List.mem_filter.mp ha).2, of_decide_eq_true (List.mem_filter.mp hb).2]
    have hsub : (l.filter p).Sublist (ranked score l) := by
      refine List.sublist_mergeSort (fun a b c hab hbc => ?_) (fun a b => ?_) htie
        List.filter_sublist
      · exact decide_eq_true (le_trans (of_decide_eq_true hbc) (of_decide_eq_true hab))
      · rw [Bool.or_eq_true, decide_eq_true_eq, decide_eq_true_eq]
        exact le_total _ _
    have hfiltered : (l.filter p).Sublist ((ranked score l).filter p) := by
      have := hsub.filter p
      rwa [List.filter_filter, List.filter_congr fun a _ => Bool.and_self (p a)] at this
    have hlength : (l.filter p).length = ((ranked score l).filter p).length :=
      ((List.mergeSort_perm l _).filter p).length_eq.symm
    exact (hfiltered.eq_of_length hlength).symm

theorem ranked_of_sorted (h : l.Pairwise fun a b => score b ≤ score a) : ranked score l = l :=
  List.mergeSort_of_pairwise (h.imp fun hab => decide_eq_true hab)

/-- **The best of the best.** -/
theorem ranked_take (score : α → S) (l : List α) (n : ℕ) :
    ranked score ((ranked score l).take n) = (ranked score l).take n :=
  ranked_of_sorted ((ranked_isRanking score l).sorted.sublist (List.take_sublist _ _))

/-- Two descending lists of the same elements start with elements of one score. -/
theorem head_score_le {a b : α} (hsorted : (b :: r').Pairwise fun a b => score b ≤ score a)
    (hmem : a ∈ b :: r') : score a ≤ score b := by
  rcases List.mem_cons.mp hmem with rfl | hmem
  · exact le_rfl
  · exact List.rel_of_pairwise_cons hsorted hmem

/-- A descending list is determined by its elements and the order of those of one score. -/
theorem eq_of_ties (hr : r.Pairwise fun a b => score b ≤ score a)
    (hr' : r'.Pairwise fun a b => score b ≤ score a) (hperm : r.Perm r')
    (hties : ∀ v, r.filter (fun a => decide (score a = v)) =
      r'.filter fun a => decide (score a = v)) : r = r' := by
  induction r generalizing r' with
  | nil => exact (List.nil_perm.mp hperm).symm
  | cons a r ih =>
      cases r' with
      | nil => exact absurd hperm.length_eq (by simp)
      | cons b r' =>
          have hscore : score b = score a := le_antisymm
            (head_score_le hr (hperm.mem_iff.mpr List.mem_cons_self))
            (head_score_le hr' (hperm.mem_iff.mp List.mem_cons_self))
          have hhead := hties (score a)
          rw [List.filter_cons_of_pos (by simp), List.filter_cons_of_pos (by simp [hscore])] at hhead
          obtain rfl := (List.cons.inj hhead).1
          congr 1
          refine ih hr.of_cons hr'.of_cons hperm.cons_inv fun v => ?_
          have hv := hties v
          by_cases h : score a = v
          · rw [List.filter_cons_of_pos (by simp [h]), List.filter_cons_of_pos (by simp [h])] at hv
            exact (List.cons.inj hv).2
          · rwa [List.filter_cons_of_neg (by simp [h]), List.filter_cons_of_neg (by simp [h])] at hv

/-- **There is one ranking.** -/
theorem IsRanking.unique (h : IsRanking score l r) (h' : IsRanking score l r') : r = r' :=
  eq_of_ties h.sorted h'.sorted (h.perm.trans h'.perm.symm)
    fun v => (h.ties v).trans (h'.ties v).symm

theorem isRanking_iff : IsRanking score l r ↔ r = ranked score l :=
  ⟨fun h => h.unique (ranked_isRanking score l), fun h => h ▸ ranked_isRanking score l⟩

/-- Elements ranked by the score of an image have their images ranked. -/
theorem IsRanking.map {β : Type} {f : β → α} {l r : List β}
    (h : IsRanking (fun b => score (f b)) l r) : IsRanking score (l.map f) (r.map f) where
  perm := h.perm.map f
  sorted := List.pairwise_map.mpr h.sorted
  ties v := by
    rw [List.filter_map, List.filter_map]
    exact congrArg (List.map f) (h.ties v)

end LarkPlat.Ranking
