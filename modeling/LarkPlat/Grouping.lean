import Mathlib.Algebra.BigOperators.Group.List.Lemmas
import Mathlib.Algebra.GroupWithZero.Nat
import Mathlib.Data.List.Induction
import Mathlib.Data.List.Nodup
import Mathlib.Data.List.Perm.Basic

/-!
# Groups in a Dictionary

A loop puts rows into a dictionary of groups: the first row of a key starts a group, and each row of
the key is added to it. The dictionary is in the order of insertion.

## Main results

* `isGrouping_groupRows`: there is one group for each key, and it is the fold of the rows of the
  key.
* `exists_group`: the group of a row.
-/

namespace LarkPlat.Grouping

variable {α β κ : Type} [DecidableEq κ] {key : α → κ} {start : α → β} {add : β → α → β}

/-- Something is added to the group of a key, which is started if there is none. -/
def insertAt (key : κ) (new : β) (add : β → β) (groups : List (κ × β)) : List (κ × β) :=
  if key ∈ groups.map Prod.fst then
    groups.map fun g => if g.1 = key then (g.1, add g.2) else g
  else groups ++ [(key, add new)]

/-- The groups of rows. -/
def groupRows (key : α → κ) (start : α → β) (add : β → α → β) (rows : List α) : List (κ × β) :=
  rows.foldl (fun groups a => insertAt (key a) (start a) (fun b => add b a) groups) []

/-- The rows of a key. -/
def rowsUnder (key : α → κ) (k : κ) (rows : List α) : List α :=
  rows.filter fun a => decide (key a = k)

theorem mem_rowsUnder {k : κ} {rows : List α} {a : α} :
    a ∈ rowsUnder key k rows ↔ a ∈ rows ∧ key a = k := by
  rw [rowsUnder, List.mem_filter, decide_eq_true_iff]

theorem sum_length_rowsUnder (key : α → κ) (rows : List α) :
    ((rows.map key).dedup.map fun k => (rowsUnder key k rows).length).sum = rows.length := by
  have hcount : ∀ k, (rowsUnder key k rows).length = (rows.map key).count k := by
    intro k
    rw [rowsUnder, ← List.countP_eq_length_filter, List.count_eq_countP, List.countP_map]
    rfl
  rw [List.map_congr_left fun k _ => hcount k, List.sum_map_count_dedup_eq_length,
    List.length_map]

theorem rowsUnder_append_singleton (k : κ) (rows : List α) (a : α) :
    rowsUnder key k (rows ++ [a]) = rowsUnder key k rows ++ if key a = k then [a] else [] := by
  rw [rowsUnder, List.filter_append, List.filter_singleton]
  split_ifs with hk <;> simp [rowsUnder, hk]

/-- The value is that of the rows: the first one starts it, and all are added. -/
def IsFold (start : α → β) (add : β → α → β) (rows : List α) (value : β) : Prop :=
  ∃ a rest, rows = a :: rest ∧ value = rows.foldl add (start a)

theorem IsFold.append {rows : List α} {value : β} (h : IsFold start add rows value) (a : α) :
    IsFold start add (rows ++ [a]) (add value a) := by
  obtain ⟨first, rest, hrows, rfl⟩ := h
  refine ⟨first, rest ++ [a], by rw [hrows, List.cons_append], ?_⟩
  rw [List.foldl_append, List.foldl_cons, List.foldl_nil]

/-- There is one group for each key of the rows, with the value of its rows. -/
structure IsGrouping (key : α → κ) (start : α → β) (add : β → α → β) (rows : List α)
    (groups : List (κ × β)) : Prop where
  nodup : (groups.map Prod.fst).Nodup
  keys : ∀ k, k ∈ groups.map Prod.fst ↔ ∃ a ∈ rows, key a = k
  value : ∀ g ∈ groups, IsFold start add (rowsUnder key g.1 rows) g.2

theorem IsGrouping.insert_old {rows : List α} {groups : List (κ × β)}
    (h : IsGrouping key start add rows groups) (a : α) (hmem : key a ∈ groups.map Prod.fst) :
    IsGrouping key start add (rows ++ [a])
      (groups.map fun g => if g.1 = key a then (g.1, add g.2 a) else g) := by
  have hfst : (groups.map fun g => if g.1 = key a then (g.1, add g.2 a) else g).map Prod.fst =
      groups.map Prod.fst := by
    rw [List.map_map]
    refine List.map_congr_left fun g _ => ?_
    rw [Function.comp_apply]
    split_ifs <;> rfl
  refine ⟨hfst ▸ h.nodup, fun k => ?_, fun g hg => ?_⟩
  · rw [hfst, h.keys]
    obtain ⟨b, hb, hkey⟩ := (h.keys _).mp hmem
    constructor
    · rintro ⟨c, hc, hk⟩
      exact ⟨c, List.mem_append_left _ hc, hk⟩
    · rintro ⟨c, hc, hk⟩
      rcases List.mem_append.mp hc with hc | hc
      · exact ⟨c, hc, hk⟩
      · obtain rfl := List.mem_singleton.mp hc
        exact ⟨b, hb, hkey.trans hk⟩
  · obtain ⟨old, hold, rfl⟩ := List.mem_map.mp hg
    have hvalue := h.value old hold
    split_ifs with hk
    · rw [rowsUnder_append_singleton, if_pos hk.symm]
      exact hvalue.append a
    · rw [rowsUnder_append_singleton, if_neg fun heq => hk heq.symm, List.append_nil]
      exact hvalue

theorem IsGrouping.insert_new {rows : List α} {groups : List (κ × β)}
    (h : IsGrouping key start add rows groups) (a : α) (hmem : key a ∉ groups.map Prod.fst) :
    IsGrouping key start add (rows ++ [a]) (groups ++ [(key a, add (start a) a)]) := by
  refine ⟨?_, fun k => ?_, fun g hg => ?_⟩
  · rw [List.map_append, List.map_singleton, ← List.concat_eq_append]
    exact h.nodup.concat hmem
  · simp only [List.map_append, List.map_singleton, List.mem_append, List.mem_singleton, h.keys]
    constructor
    · rintro (⟨c, hc, hk⟩ | rfl)
      · exact ⟨c, .inl hc, hk⟩
      · exact ⟨a, .inr rfl, rfl⟩
    · rintro ⟨c, hc | rfl, hk⟩
      · exact .inl ⟨c, hc, hk⟩
      · exact .inr hk.symm
  · rcases List.mem_append.mp hg with hg | hg
    · have hne : key a ≠ g.1 := fun heq => hmem (heq ▸ List.mem_map_of_mem hg)
      rw [rowsUnder_append_singleton, if_neg hne, List.append_nil]
      exact h.value g hg
    · obtain rfl := List.mem_singleton.mp hg
      have hnone : rowsUnder key (key a) rows = [] := by
        refine List.eq_nil_iff_forall_not_mem.mpr fun b hb => hmem ((h.keys _).mpr ?_)
        exact ⟨b, mem_rowsUnder.mp hb⟩
      rw [rowsUnder_append_singleton, if_pos rfl, hnone]
      exact ⟨a, [], rfl, rfl⟩

theorem IsGrouping.insert {rows : List α} {groups : List (κ × β)}
    (h : IsGrouping key start add rows groups) (a : α) :
    IsGrouping key start add (rows ++ [a])
      (insertAt (key a) (start a) (fun b => add b a) groups) := by
  rw [insertAt]
  split_ifs with hmem
  · exact h.insert_old a hmem
  · exact h.insert_new a hmem

/-- **The loop groups the rows.** -/
theorem isGrouping_groupRows (key : α → κ) (start : α → β) (add : β → α → β) (rows : List α) :
    IsGrouping key start add rows (groupRows key start add rows) := by
  induction rows using List.reverseRecOn with
  | nil => exact ⟨List.nodup_nil, by simp [groupRows], by simp [groupRows]⟩
  | append_singleton rows a ih =>
      rw [groupRows, List.foldl_append, List.foldl_cons, List.foldl_nil]
      exact ih.insert a

/-- The group of a row. -/
theorem IsGrouping.exists_group {rows : List α} {groups : List (κ × β)}
    (h : IsGrouping key start add rows groups) {a : α} (ha : a ∈ rows) :
    ∃ value, (key a, value) ∈ groups := by
  obtain ⟨g, hg, hk⟩ := List.mem_map.mp ((h.keys (key a)).mpr ⟨a, ha, rfl⟩)
  exact ⟨g.2, hk ▸ hg⟩

theorem IsGrouping.unique {rows : List α} {groups : List (κ × β)}
    (h : IsGrouping key start add rows groups) {g g' : κ × β} (hg : g ∈ groups) (hg' : g' ∈ groups)
    (hk : g.1 = g'.1) : g = g' :=
  List.inj_on_of_nodup_map h.nodup hg hg' hk

end LarkPlat.Grouping
