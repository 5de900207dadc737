import Mathlib.Data.List.Basic
import Mathlib.Data.List.Nodup
import Mathlib.Data.List.Perm.Basic
import Mathlib.Order.Lattice

/-!
# Keyed Tables

A table is a list of rows together with a key function. Two operations cover every
statement the services issue against a table: the lookup of the row with a given key
(`find`) and the in-place change of that row (`modify`). Rows are never reordered by
`modify`, and a change that keeps the key of its row keeps the key column of the whole
table, so uniqueness of keys is stated once on the key column and travels through every
change.

## Main results

* `find_modify_self` / `find_modify_ne`: a change is seen by lookups of its own key and by
  no other lookup.
* `map_modify`: a column is invariant under changes that leave it in their row; `map_key_modify` for
  the key column.
* `find_eq_some_iff`: with unique keys, lookup is membership.
* `find_of_perm`: with unique keys, lookups do not see the order of the rows.
* `countP_modify`: with unique keys, a change moves a count of rows by its own row.
* `mem_take_mergeSort_iff`: with unique keys, a row is among the first `n` exactly if fewer than `n`
  rows have a smaller key.
-/

namespace LarkPlat.Table

variable {ρ κ : Type*} [DecidableEq κ]

/-- The first row whose key is `k`. -/
def find (key : ρ → κ) (rows : List ρ) (k : κ) : Option ρ :=
  rows.find? fun r => decide (key r = k)

/-- Apply `f` to every row whose key is `k`, in place. -/
def modify (key : ρ → κ) (rows : List ρ) (k : κ) (f : ρ → ρ) : List ρ :=
  rows.map fun r => if key r = k then f r else r

variable {key : ρ → κ} {rows : List ρ} {k k' : κ} {f : ρ → ρ} {r : ρ}

theorem find_cons (r : ρ) (rows : List ρ) :
    find key (r :: rows) k = if key r = k then some r else find key rows k := by
  by_cases h : key r = k <;> simp [find, h]

theorem modify_cons (r : ρ) (rows : List ρ) :
    modify key (r :: rows) k f = (if key r = k then f r else r) :: modify key rows k f :=
  rfl

theorem key_of_find (h : find key rows k = some r) : key r = k := by
  simpa using List.find?_some h

theorem mem_of_find (h : find key rows k = some r) : r ∈ rows :=
  List.mem_of_find?_eq_some h

theorem find_of_mem (hn : (rows.map key).Nodup) (hr : r ∈ rows) :
    find key rows (key r) = some r := by
  induction rows with
  | nil => simp at hr
  | cons a rows ih =>
      rw [List.map_cons, List.nodup_cons] at hn
      rw [find_cons]
      rcases List.mem_cons.mp hr with rfl | hr
      · rw [if_pos rfl]
      · have hne : key a ≠ key r := by
          intro he
          exact hn.1 (he ▸ List.mem_map_of_mem hr)
        rw [if_neg hne]
        exact ih hn.2 hr

/-- With unique keys, lookup is membership. -/
theorem find_eq_some_iff (hn : (rows.map key).Nodup) :
    find key rows k = some r ↔ r ∈ rows ∧ key r = k := by
  constructor
  · intro h
    exact ⟨mem_of_find h, key_of_find h⟩
  · rintro ⟨hr, rfl⟩
    exact find_of_mem hn hr

theorem find_eq_none_iff : find key rows k = none ↔ k ∉ rows.map key := by
  simp [find, List.find?_eq_none]

theorem exists_find_of_mem_keys (h : k ∈ rows.map key) :
    ∃ r, find key rows k = some r := by
  rcases hf : find key rows k with _ | r
  · exact absurd h (find_eq_none_iff.mp hf)
  · exact ⟨r, rfl⟩

theorem find_append (h : find key rows k = some r) (rows' : List ρ) :
    find key (rows ++ rows') k = some r := by
  unfold find at h ⊢
  rw [List.find?_append, h, Option.some_or]

theorem find_concat_self (h : find key rows (key r) = none) :
    find key (rows ++ [r]) (key r) = some r := by
  unfold find at h ⊢
  rw [List.find?_append, h, Option.none_or]
  simp

theorem find_concat_ne (hne : k ≠ key r) : find key (rows ++ [r]) k = find key rows k := by
  unfold find
  rw [List.find?_append]
  have hnone : [r].find? (fun r => decide (key r = k)) = none := by
    simp [List.find?_eq_none, Ne.symm hne]
  rw [hnone, Option.or_none]

theorem nodup_concat (hn : (rows.map key).Nodup) (hr : key r ∉ rows.map key) :
    ((rows ++ [r]).map key).Nodup := by
  rw [List.map_append, List.map_singleton, ← List.concat_eq_append]
  exact List.Nodup.concat hr hn

theorem new_of_below [Preorder κ] (h : ∀ x ∈ rows, key x < k) : k ∉ rows.map key := by
  intro hk
  obtain ⟨x, hx, rfl⟩ := List.mem_map.mp hk
  exact lt_irrefl _ (h x hx)

theorem below_concat [Preorder κ] (h : ∀ x ∈ rows, key x < k) (hr : key r = k) (hk : k < k') :
    ∀ x ∈ rows ++ [r], key x < k' := by
  intro x hx
  rcases List.mem_append.mp hx with hx | hx
  · exact (h x hx).trans hk
  · rw [List.mem_singleton.mp hx, hr]
    exact hk

/-- With unique keys, the order of the rows does not matter to lookups. -/
theorem find_of_perm {rows' : List ρ} (hp : rows'.Perm rows) (hn : (rows.map key).Nodup)
    (k : κ) : find key rows' k = find key rows k := by
  have hn' : (rows'.map key).Nodup := (hp.map key).nodup_iff.mpr hn
  rcases h : find key rows k with _ | r
  · rw [find_eq_none_iff] at h ⊢
    intro hc
    exact h ((hp.map key).subset hc)
  · rw [find_eq_some_iff hn] at h
    rw [find_eq_some_iff hn']
    exact ⟨hp.symm.subset h.1, h.2⟩

theorem find_map {g : ρ → ρ} (hg : ∀ r, key (g r) = key r) :
    find key (rows.map g) k = (find key rows k).map g := by
  induction rows with
  | nil => rfl
  | cons a rows ih =>
      rw [List.map_cons, find_cons, find_cons, hg, ih]
      split_ifs <;> rfl

/-- A change that leaves a column of its row leaves that column of the table. -/
theorem map_modify {β : Type*} {column : ρ → β} (hf : ∀ r, key r = k → column (f r) = column r) :
    (modify key rows k f).map column = rows.map column := by
  rw [modify, List.map_map]
  refine List.map_congr_left fun r _ => ?_
  rw [Function.comp_apply]
  split_ifs with h
  · exact hf r h
  · rfl

/-- A change that keeps the key of its row keeps the key column. -/
theorem map_key_modify (hf : ∀ r, key r = k → key (f r) = k) :
    (modify key rows k f).map key = rows.map key :=
  map_modify fun r h => (hf r h).trans h.symm

theorem modify_modify {g : ρ → ρ} (hf : ∀ r, key r = k → key (f r) = k) :
    modify key (modify key rows k f) k g = modify key rows k (g ∘ f) := by
  unfold modify
  rw [List.map_map]
  refine List.map_congr_left ?_
  intro r _
  by_cases h : key r = k
  · simp only [Function.comp_apply, if_pos h, if_pos (hf r h)]
  · simp only [Function.comp_apply, if_neg h]

/-- A change is seen by the lookup of its own key. -/
theorem find_modify_self (hf : ∀ r, key r = k → key (f r) = k) :
    find key (modify key rows k f) k = (find key rows k).map f := by
  induction rows with
  | nil => rfl
  | cons a rows ih =>
      rw [modify_cons, find_cons, find_cons]
      by_cases h : key a = k
      · rw [if_pos h, if_pos (hf a h), if_pos h, Option.map_some]
      · rw [if_neg h, if_neg h, if_neg h, ih]

/-- A change is not seen by the lookup of any other key. -/
theorem find_modify_ne (hf : ∀ r, key r = k → key (f r) = k) (hne : k' ≠ k) :
    find key (modify key rows k f) k' = find key rows k' := by
  induction rows with
  | nil => rfl
  | cons a rows ih =>
      rw [modify_cons, find_cons, find_cons, ih]
      by_cases h : key a = k
      · have hk : key a ≠ k' := fun he => hne (he.symm.trans h)
        have hfk : key (f a) ≠ k' := by rw [hf a h]; exact Ne.symm hne
        rw [if_pos h, if_neg hfk, if_neg hk]
      · rw [if_neg h]

/-- The rows of a changed table: the changed row, or an old row with another key. -/
theorem mem_modify : r ∈ modify key rows k f ↔
    (∃ r₀ ∈ rows, key r₀ = k ∧ r = f r₀) ∨ (r ∈ rows ∧ key r ≠ k) := by
  constructor
  · intro h
    obtain ⟨r₀, hr₀, rfl⟩ := List.mem_map.mp h
    by_cases hk : key r₀ = k
    · exact Or.inl ⟨r₀, hr₀, hk, by rw [if_pos hk]⟩
    · rw [if_neg hk]
      exact Or.inr ⟨hr₀, hk⟩
  · rintro (⟨r₀, hr₀, hk, rfl⟩ | ⟨hr, hk⟩)
    · exact List.mem_map.mpr ⟨r₀, hr₀, by rw [if_pos hk]⟩
    · exact List.mem_map.mpr ⟨r, hr, by rw [if_neg hk]⟩

theorem modify_of_not_mem (h : k ∉ rows.map key) : modify key rows k f = rows := by
  refine (List.map_congr_left ?_).trans (List.map_id rows)
  intro r hr
  refine if_neg ?_
  rintro rfl
  exact h (List.mem_map_of_mem hr)

/-- A filter that sees neither the old row nor the new one does not see the change. -/
theorem filter_modify_of_neg {p : ρ → Bool}
    (h : ∀ r ∈ rows, key r = k → p r = false ∧ p (f r) = false) :
    (modify key rows k f).filter p = rows.filter p := by
  induction rows with
  | nil => rfl
  | cons a rows ih =>
      have hrest := ih fun r hr => h r (List.mem_cons_of_mem a hr)
      rw [modify_cons, List.filter_cons, List.filter_cons, hrest]
      by_cases hk : key a = k
      · obtain ⟨hold, hnew⟩ := h a List.mem_cons_self hk
        simp only [if_pos hk, hold, hnew, Bool.false_eq_true, if_false]
      · rw [if_neg hk]

/-- With unique keys, a change takes its old row out of a count and puts the new one in. -/
theorem countP_modify {p : ρ → Bool} (hn : (rows.map key).Nodup) (hr : r ∈ rows) :
    (modify key rows (key r) f).countP p + (if p r then 1 else 0) =
      rows.countP p + (if p (f r) then 1 else 0) := by
  induction rows with
  | nil => cases hr
  | cons a rows ih =>
      obtain ⟨ha, hn⟩ := List.nodup_cons.mp hn
      rw [modify_cons, List.countP_cons, List.countP_cons]
      rcases List.mem_cons.mp hr with rfl | hr
      · rw [if_pos rfl, modify_of_not_mem ha]
        omega
      · have hne : key a ≠ key r := by
          intro he
          exact ha (he ▸ List.mem_map_of_mem hr)
        have hrest := ih hn hr
        rw [if_neg hne]
        omega

/-! ### The first rows -/

section FirstRows

variable {ρ κ : Type*} [LinearOrder κ] {key : ρ → κ} {rows : List ρ} {r : ρ}

/-- In rows that are strictly sorted by their keys, a row is among the first `n` if fewer than `n`
rows have a smaller key. -/
theorem mem_take_iff_countP (hs : rows.Pairwise fun a b => key a < key b) (hr : r ∈ rows) (n : ℕ) :
    r ∈ rows.take n ↔ (rows.countP fun b => decide (key b < key r)) < n := by
  induction rows generalizing n with
  | nil => cases hr
  | cons a rows ih =>
      obtain ⟨ha, hs⟩ := List.pairwise_cons.mp hs
      cases n with
      | zero => simp
      | succ n =>
          rw [List.take_succ_cons, List.mem_cons, List.countP_cons]
          rcases List.mem_cons.mp hr with rfl | hr
          · -- no row has a smaller key than the first one
            have hnone : (rows.countP fun b => decide (key b < key r)) = 0 :=
              List.countP_eq_zero.mpr fun b hb hlt =>
                lt_asymm (ha b hb) (of_decide_eq_true hlt)
            simp [hnone, lt_irrefl]
          · have hlt := ha r hr
            have hne : r ≠ a := fun h => lt_irrefl _ (h ▸ hlt)
            rw [ih hs hr]
            simp [hlt, hne]

/-- The first rows in the order of their keys. -/
theorem mem_take_mergeSort_iff (hn : (rows.map key).Nodup) (n : ℕ) :
    r ∈ (rows.mergeSort fun a b => decide (key a ≤ key b)).take n ↔
      r ∈ rows ∧ (rows.countP fun b => decide (key b < key r)) < n := by
  have hperm := List.mergeSort_perm rows fun a b => decide (key a ≤ key b)
  have hsorted : (rows.mergeSort fun a b => decide (key a ≤ key b)).Pairwise
      fun a b => decide (key a ≤ key b) = true := by
    refine List.pairwise_mergeSort (fun a b c hab hbc => ?_) (fun a b => ?_) rows
    · exact decide_eq_true (le_trans (of_decide_eq_true hab) (of_decide_eq_true hbc))
    · rw [Bool.or_eq_true, decide_eq_true_eq, decide_eq_true_eq]
      exact le_total (key a) (key b)
  have hkeys := List.pairwise_map.mp ((hperm.map key).nodup_iff.mpr hn)
  have hstrict := (hsorted.and hkeys).imp fun h => lt_of_le_of_ne (of_decide_eq_true h.1) h.2
  constructor
  · intro h
    have hmem := List.mem_of_mem_take h
    refine ⟨hperm.subset hmem, ?_⟩
    rw [← hperm.countP_eq]
    exact (mem_take_iff_countP hstrict hmem n).mp h
  · rintro ⟨hr, hlt⟩
    refine (mem_take_iff_countP hstrict (hperm.symm.subset hr) n).mpr ?_
    rwa [hperm.countP_eq]

end FirstRows

end LarkPlat.Table
