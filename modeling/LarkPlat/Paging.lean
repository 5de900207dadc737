import Mathlib.Data.List.Count
import Mathlib.Data.List.Nodup
import Mathlib.Data.List.Basic
import Mathlib.Data.Nat.Basic

/-!
# Reading Page by Page

Rows with a key are read in pages of a size: a page has the first rows behind a cursor, in the order
of the key. The cursor begins at 0 and advances by the number of rows of each page, until a page is
empty. So the key of a row is compared with a number of rows. The order among rows of one key is the
database's, and may differ from page to page.

## Main results

* `readsOnce_iff`: every row is read once, in the order of the key, exactly if at every boundary of
  a page as many rows have a key up to the boundary as are to have been read there.
-/

namespace LarkPlat.Paging

variable {α β : Type} {key : α → ℕ}

/-- How a database arranges the rows behind a cursor. -/
structure Arrangement (key : α → ℕ) where
  arrange : ℕ → List α → List α
  perm : ∀ cursor rows, (arrange cursor rows).Perm rows
  sorted : ∀ cursor rows, (arrange cursor rows).Pairwise fun a b => key a ≤ key b

theorem pairwise_mergeSort_key (key : α → ℕ) (l : List α) :
    (l.mergeSort fun a b => decide (key a ≤ key b)).Pairwise fun a b => key a ≤ key b := by
  refine (List.pairwise_mergeSort (fun a b c hab hbc => ?_) (fun a b => ?_) l).imp
    fun h => of_decide_eq_true h
  · exact decide_eq_true (le_trans (of_decide_eq_true hab) (of_decide_eq_true hbc))
  · rw [Bool.or_eq_true, decide_eq_true_eq, decide_eq_true_eq]
    exact Nat.le_total _ _

/-- The arrangement of a database that leaves rows of one key as they are. -/
def Arrangement.stable (key : α → ℕ) : Arrangement key where
  arrange _ l := l.mergeSort fun a b => decide (key a ≤ key b)
  perm _ l := List.mergeSort_perm l _
  sorted _ l := pairwise_mergeSort_key key l

/-- The rows behind a cursor. -/
def behind (key : α → ℕ) (rows : List α) (cursor : ℕ) : List α :=
  rows.filter fun r => decide (cursor < key r)

/-- A page. -/
def Arrangement.page (o : Arrangement key) (rows : List α) (size cursor : ℕ) : List α :=
  (o.arrange cursor (behind key rows cursor)).take size

/-- The pages from a cursor on, up to an empty one, if there is one within the fuel. -/
def collect (fetch : ℕ → List α) : ℕ → ℕ → Option (List α)
  | 0, _ => none
  | fuel + 1, cursor =>
      if (fetch cursor).isEmpty then some []
      else (collect fetch fuel (cursor + (fetch cursor).length)).map (fetch cursor ++ ·)

/-- At the boundary of each page, and behind the last row, as many rows have a key up to the
boundary as are to have been read. -/
def AtBoundaries (key : α → ℕ) (size : ℕ) (rows : List α) : Prop :=
  ∀ k ≤ rows.length, size ∣ k ∨ k = rows.length → rows.countP (fun r => decide (key r ≤ k)) = k

/-! ### Sorted rows -/

section Sorted

variable {rows : List α} {k : ℕ}

theorem filter_append_behind (h : rows.Pairwise fun a b => key a ≤ key b) (k : ℕ) :
    rows.filter (fun r => decide (key r ≤ k)) ++ behind key rows k = rows := by
  induction rows with
  | nil => rfl
  | cons a rows ih =>
      obtain ⟨ha, hrows⟩ := List.pairwise_cons.mp h
      by_cases hle : key a ≤ k
      · rw [behind, List.filter_cons, List.filter_cons, if_pos (decide_eq_true hle),
          if_neg (by simpa using hle), List.cons_append]
        exact congrArg _ (ih hrows)
      · have hlt (r : α) (hr : r ∈ a :: rows) : k < key r := by
          rcases List.mem_cons.mp hr with rfl | hr
          · exact not_le.mp hle
          · exact lt_of_lt_of_le (not_le.mp hle) (ha r hr)
        have hnone : (a :: rows).filter (fun r => decide (key r ≤ k)) = [] :=
          List.filter_eq_nil_iff.mpr fun r hr hd => absurd (of_decide_eq_true hd)
            (not_le.mpr (hlt r hr))
        have hall : behind key (a :: rows) k = a :: rows :=
          List.filter_eq_self.mpr fun r hr => decide_eq_true (hlt r hr)
        rw [hnone, hall, List.nil_append]

theorem take_countP (h : rows.Pairwise fun a b => key a ≤ key b) (k : ℕ) :
    rows.take (rows.countP fun r => decide (key r ≤ k)) =
      rows.filter fun r => decide (key r ≤ k) := by
  rw [List.countP_eq_length_filter]
  nth_rewrite 2 [← filter_append_behind h k]
  exact List.take_left

theorem drop_countP (h : rows.Pairwise fun a b => key a ≤ key b) (k : ℕ) :
    rows.drop (rows.countP fun r => decide (key r ≤ k)) = behind key rows k := by
  rw [List.countP_eq_length_filter]
  nth_rewrite 2 [← filter_append_behind h k]
  exact List.drop_left

theorem length_behind (key : α → ℕ) (rows : List α) (k : ℕ) :
    rows.countP (fun r => decide (key r ≤ k)) + (behind key rows k).length = rows.length := by
  rw [behind, ← List.countP_eq_length_filter, List.length_eq_countP_add_countP
    (fun r => decide (key r ≤ k)) (l := rows)]
  congr 1
  refine List.countP_congr fun r _ => ?_
  simp

end Sorted

/-! ### Reading with boundaries -/

section Boundaries

variable {rows : List α} {size : ℕ}

theorem mem_page {o : Arrangement key} {cursor : ℕ} {r : α} (h : r ∈ o.page rows size cursor) :
    r ∈ rows ∧ cursor < key r := by
  have hmem := (o.perm _ _).mem_iff.mp (List.mem_of_mem_take h)
  exact ⟨(List.mem_filter.mp hmem).1, of_decide_eq_true (List.mem_filter.mp hmem).2⟩

theorem behind_behind (key : α → ℕ) (rows : List α) {k k' : ℕ} (h : k ≤ k') :
    behind key (behind key rows k) k' = behind key rows k' := by
  rw [behind, behind, List.filter_filter, behind]
  refine List.filter_congr fun r _ => ?_
  rw [Bool.and_eq_left_iff_imp]
  exact fun hd => decide_eq_true (lt_of_le_of_lt h (of_decide_eq_true hd))

theorem next_boundary {k : ℕ} (hk : k ≤ rows.length) (hbound : size ∣ k ∨ k = rows.length) :
    size ∣ k + min size (rows.length - k) ∨ k + min size (rows.length - k) = rows.length := by
  rcases Nat.le_total size (rows.length - k) with hle | hle
  · rw [Nat.min_eq_left hle]
    rcases hbound with hdvd | rfl
    · exact .inl (Nat.dvd_add hdvd (Nat.dvd_refl size))
    · rw [Nat.sub_self, Nat.le_zero] at hle
      exact .inr (by rw [hle, Nat.add_zero])
  · rw [Nat.min_eq_right hle]
    exact .inr (Nat.add_sub_cancel' hk)

/-- **With boundaries**, the pages from one of them on have the rows behind it, once and in
order. -/
theorem collect_of_boundaries (o : Arrangement key) (hsize : 0 < size)
    (h : AtBoundaries key size rows) (fuel : ℕ) {k : ℕ} (hk : k ≤ rows.length)
    (hbound : size ∣ k ∨ k = rows.length) (hfuel : rows.length - k < fuel) :
    ∃ read, collect (o.page rows size) fuel k = some read ∧ read.Perm (behind key rows k) ∧
      read.Pairwise fun a b => key a ≤ key b := by
  induction fuel generalizing k with
  | zero => exact absurd hfuel (Nat.not_lt_zero _)
  | succ fuel ih =>
      set L := o.arrange k (behind key rows k) with hL
      have hperm : L.Perm (behind key rows k) := o.perm _ _
      have hsorted : L.Pairwise fun a b => key a ≤ key b := o.sorted _ _
      have hlength : L.length = rows.length - k := by
        have := length_behind key rows k
        rw [h k hk hbound] at this
        rw [hperm.length_eq]
        omega
      have hpage : o.page rows size k = L.take size := rfl
      rw [collect]
      by_cases hempty : L = []
      · refine ⟨[], ?_, ?_, List.Pairwise.nil⟩
        · rw [hpage, hempty, List.take_nil]
          rfl
        · rw [hempty] at hperm
          exact hperm
      · have hpos : 0 < L.length := List.length_pos_iff.mpr hempty
        have hlen : (o.page rows size k).length = min size (rows.length - k) := by
          rw [hpage, List.length_take, hlength]
        set k' := k + min size (rows.length - k) with hk'
        have hbound' : size ∣ k' ∨ k' = rows.length := next_boundary hk hbound
        have hle' : k' ≤ rows.length := by omega
        have hrest : (behind key L k').Perm (behind key rows k') := by
          rw [← behind_behind key rows (show k ≤ k' from Nat.le_add_right _ _)]
          exact hperm.filter _
        have hcount : L.countP (fun r => decide (key r ≤ k')) = min size L.length := by
          have hall := length_behind key rows k'
          have hL' := length_behind key L k'
          rw [h k' hle' hbound'] at hall
          rw [hrest.length_eq] at hL'
          omega
        have htake : L.take size = L.filter fun r => decide (key r ≤ k') := by
          rw [← take_countP hsorted, hcount, List.take_eq_take_iff]
          omega
        obtain ⟨rest, hcollect, hperm', hsorted'⟩ := ih hle' hbound' (by omega)
        refine ⟨L.take size ++ rest, ?_, ?_, ?_⟩
        · rw [if_neg, hlen, ← hk', hcollect]
          · rfl
          · rw [List.isEmpty_iff_length_eq_zero, hlen, ← hlength]
            omega
        · refine List.Perm.trans ?_ hperm
          rw [htake]
          refine List.Perm.trans ?_ (List.Perm.of_eq (filter_append_behind hsorted k'))
          exact (hperm'.trans hrest.symm).append_left _
        · rw [List.pairwise_append]
          refine ⟨hsorted.sublist (List.take_sublist _ _), hsorted', fun a ha b hb => ?_⟩
          rw [htake] at ha
          have hle := of_decide_eq_true (List.mem_filter.mp ha).2
          have hlt := of_decide_eq_true (List.mem_filter.mp (hperm'.mem_iff.mp hb)).2
          exact le_trans hle (le_of_lt hlt)

end Boundaries

/-! ### Boundaries from what is read -/

section Read

variable {rows S read : List α} {size k : ℕ}

theorem mem_collect {fetch : ℕ → List α} (hfetch : ∀ c, ∀ r ∈ fetch c, c < key r) (fuel : ℕ) {k : ℕ}
    (h : collect fetch fuel k = some read) : ∀ r ∈ read, k < key r := by
  induction fuel generalizing k read with
  | zero => cases h
  | succ fuel ih =>
      rw [collect] at h
      split_ifs at h
      · rw [← Option.some.inj h]
        exact fun r hr => absurd hr List.not_mem_nil
      · obtain ⟨rest, hrest, rfl⟩ := Option.map_eq_some_iff.mp h
        intro r hr
        rcases List.mem_append.mp hr with hr | hr
        · exact hfetch k r hr
        · exact lt_of_le_of_lt (Nat.le_add_right _ _) (ih hrest r hr)

/-- The pages of rows that the database always arranges in one way. -/
def fixedPage (key : α → ℕ) (S : List α) (size cursor : ℕ) : List α :=
  (behind key S cursor).take size

theorem mem_fixedPage {c : ℕ} {r : α} (h : r ∈ fixedPage key S size c) : c < key r :=
  of_decide_eq_true (List.mem_filter.mp (List.mem_of_mem_take h)).2

theorem fixedPage_subset (fuel : ℕ) (h : collect (fixedPage key S size) fuel k = some read) :
    fixedPage key S size k ⊆ read := by
  cases fuel with
  | zero => cases h
  | succ fuel =>
      rw [collect] at h
      split_ifs at h with hempty
      · rw [List.isEmpty_iff.mp hempty]
        exact List.nil_subset _
      · obtain ⟨rest, -, rfl⟩ := Option.map_eq_some_iff.mp h
        exact List.subset_append_left _ _

/-- If the rows from a position on are what is read from the cursor there, as many rows have a key
up to the cursor. -/
theorem countP_of_read (hsorted : S.Pairwise fun a b => key a ≤ key b) (hnodup : S.Nodup)
    (hsize : 0 < size) {fuel : ℕ} (hk : k ≤ S.length)
    (hread : collect (fixedPage key S size) fuel k = some read) (hperm : read.Perm (S.drop k)) :
    S.countP (fun r => decide (key r ≤ k)) = k := by
  refine Nat.le_antisymm ?_ (Nat.le_of_not_lt fun hlt => ?_)
  · have hnone : (S.drop k).countP (fun r => decide (key r ≤ k)) = 0 :=
      List.countP_eq_zero.mpr fun r hr hd => absurd (of_decide_eq_true hd) (not_le.mpr
        (mem_collect (fun c r (hr : r ∈ fixedPage key S size c) => mem_fixedPage hr) fuel hread r
          (hperm.mem_iff.mpr hr)))
    rw [← List.take_append_drop k S, List.countP_append, hnone, Nat.add_zero]
    refine le_trans List.countP_le_length ?_
    rw [List.length_take]
    exact Nat.min_le_left _ _
  · -- the first row behind the cursor is read again
    set c := S.countP fun r => decide (key r ≤ k) with hc
    have hlt' : c < S.length := lt_of_lt_of_le hlt hk
    have hbehind : behind key S k = S.drop c := (drop_countP hsorted k).symm
    have hfirst : S[c] ∈ fixedPage key S size k := by
      rw [fixedPage, hbehind, List.drop_eq_getElem_cons hlt']
      obtain ⟨n, rfl⟩ : ∃ n, size = n + 1 := ⟨size - 1, by omega⟩
      exact List.mem_cons_self
    have hdrop : S[c] ∈ S.drop k := hperm.mem_iff.mp (fixedPage_subset fuel hread hfirst)
    have htake : S[c] ∈ S.take k := by
      rw [List.mem_take_iff_getElem]
      exact ⟨c, by omega, rfl⟩
    exact List.disjoint_take_drop hnodup le_rfl htake hdrop

/-- **Where rows are read once**, the boundaries are kept from one of them on. -/
theorem boundaries_of_collect (hsorted : S.Pairwise fun a b => key a ≤ key b) (hnodup : S.Nodup)
    (hsize : 0 < size) (fuel : ℕ) (hk : k ≤ S.length)
    (hcount : S.countP (fun r => decide (key r ≤ k)) = k)
    (hread : collect (fixedPage key S size) fuel k = some read) (hperm : read.Perm (S.drop k))
    {b : ℕ} (hkb : k ≤ b) (hb : b ≤ S.length) (hdvd : size ∣ b - k ∨ b = S.length) :
    S.countP (fun r => decide (key r ≤ b)) = b := by
  induction fuel generalizing k read with
  | zero => cases hread
  | succ fuel ih =>
      have hbehind : behind key S k = S.drop k := by
        rw [← drop_countP hsorted k, hcount]
      rw [collect] at hread
      split_ifs at hread with hempty
      · have hlength : (fixedPage key S size k).length = 0 :=
          List.isEmpty_iff_length_eq_zero.mp hempty
        rw [fixedPage, hbehind, List.length_take, List.length_drop] at hlength
        have hbk : b = k := by omega
        rw [hbk, hcount]
      · obtain ⟨rest, hrest, rfl⟩ := Option.map_eq_some_iff.mp hread
        set k' := k + (fixedPage key S size k).length with hk'
        have hlength : (fixedPage key S size k).length = min size (S.length - k) := by
          rw [fixedPage, hbehind, List.length_take, List.length_drop]
        have hle' : k' ≤ S.length := by omega
        have hsplit : fixedPage key S size k ++ S.drop k' = S.drop k := by
          rw [fixedPage, hbehind, hk', hlength]
          conv_rhs => rw [← List.take_append_drop size (S.drop k), List.drop_drop]
          rcases Nat.le_total size (S.length - k) with hle | hle
          · rw [Nat.min_eq_left hle]
          · have hend : S.drop (k + size) = [] := List.drop_eq_nil_of_le (by omega)
            rw [Nat.min_eq_right hle, Nat.add_sub_cancel' hk, List.drop_length, hend]
        have hperm' : rest.Perm (S.drop k') := by
          rw [← hsplit] at hperm
          exact (List.perm_append_left_iff _).mp hperm
        have hcount' : S.countP (fun r => decide (key r ≤ k')) = k' :=
          countP_of_read hsorted hnodup hsize hle' hrest hperm'
        rcases Nat.lt_or_ge b k' with hlt | hge
        · have hbk : b = k := by
            rcases hdvd with hdvd | rfl
            · have := Nat.eq_zero_of_dvd_of_lt hdvd (by omega)
              omega
            · omega
          rw [hbk, hcount]
        · refine ih hle' hcount' hrest hperm' hge ?_
          refine or_iff_not_imp_right.mpr fun hne => ?_
          have hdvd' := hdvd.resolve_right hne
          have hk'' : k' = k + size := by omega
          rw [hk'', Nat.sub_add_eq]
          exact Nat.dvd_sub hdvd' (Nat.dvd_refl size)

end Read

/-! ### The calls -/

section Calls

variable {ε : Type} {out : α → β} {rows : List α} {size : ℕ}

/-- The rows that a reader gets, who calls with the cursor that the last call returned, until a page
is empty. -/
def follow (call : ℕ → Except ε (List β × ℕ)) : ℕ → ℕ → Except ε (Option (List β))
  | 0, _ => .ok none
  | fuel + 1, cursor => do
      let (page, next) ← call cursor
      if page.isEmpty then pure (some [])
      else pure ((← follow call fuel next).map (page ++ ·))

/-- The calls return every row once, in the order of the key. -/
def ReadsOnce (key : α → ℕ) (out : α → β) (rows : List α)
    (call : ℕ → Except ε (List β × ℕ)) : Prop :=
  ∃ (fuel : ℕ) (read : List α), follow call fuel 0 = .ok (some (read.map out)) ∧ read.Perm rows ∧
    read.Pairwise fun a b => key a ≤ key b

theorem follow_eq {call : ℕ → Except ε (List β × ℕ)} {fetch : ℕ → List α}
    (hcall : ∀ c, call c = .ok ((fetch c).map out, c + (fetch c).length)) (fuel cursor : ℕ) :
    follow call fuel cursor = .ok ((collect fetch fuel cursor).map (List.map out)) := by
  induction fuel generalizing cursor with
  | zero => rfl
  | succ fuel ih =>
      rw [follow, collect, hcall]
      change (if ((fetch cursor).map out).isEmpty then _ else _) = _
      rw [List.isEmpty_map]
      split_ifs
      · rfl
      · rw [ih]
        change Except.ok (((collect fetch fuel _).map (List.map out)).map _) = Except.ok _
        rw [Option.map_map, Option.map_map]
        congr 2
        funext l
        exact List.map_append.symm

theorem exists_fixed (key : α → ℕ) (rows : List α) : ∃ (o : Arrangement key) (S : List α),
    S.Perm rows ∧ (S.Pairwise fun a b => key a ≤ key b) ∧
      ∀ size c, o.page rows size c = fixedPage key S size c := by
  classical
  have hsorted := pairwise_mergeSort_key key
  set S := rows.mergeSort fun a b => decide (key a ≤ key b) with hS
  have hperm : S.Perm rows := List.mergeSort_perm _ _
  refine ⟨⟨fun cursor l => if l = behind key rows cursor then behind key S cursor
    else l.mergeSort fun a b => decide (key a ≤ key b), fun cursor l => ?_, fun cursor l => ?_⟩, S,
    hperm, hsorted rows, fun size c => ?_⟩
  · split_ifs with h
    · rw [h]
      exact hperm.filter _
    · exact List.mergeSort_perm _ _
  · split_ifs
    · exact (hsorted rows).sublist List.filter_sublist
    · exact hsorted l
  · rw [Arrangement.page, fixedPage]
    exact congrArg (List.take size) (if_pos rfl)

theorem eq_of_map_eq {l l' : List α} (h : l.map out = l'.map out)
    (hout : ∀ a ∈ l, ∀ b ∈ l', out a = out b → a = b) : l = l' := by
  induction l generalizing l' with
  | nil => exact (List.map_eq_nil_iff.mp h.symm).symm
  | cons a l ih =>
      cases l' with
      | nil => cases h
      | cons b l' =>
          obtain ⟨hab, hrest⟩ := List.cons.inj h
          have hl := ih hrest fun x hx y hy =>
            hout x (List.mem_cons_of_mem a hx) y (List.mem_cons_of_mem b hy)
          rw [hout a List.mem_cons_self b List.mem_cons_self hab, hl]

theorem collect_subset {fetch : ℕ → List α} (hfetch : ∀ c, fetch c ⊆ rows) (fuel : ℕ) {k : ℕ}
    {read : List α} (h : collect fetch fuel k = some read) : read ⊆ rows := by
  induction fuel generalizing k read with
  | zero => cases h
  | succ fuel ih =>
      rw [collect] at h
      split_ifs at h
      · rw [← Option.some.inj h]
        exact List.nil_subset _
      · obtain ⟨rest, hrest, rfl⟩ := Option.map_eq_some_iff.mp h
        exact List.append_subset.mpr ⟨hfetch k, ih hrest⟩

/-- **Rows are read once** by calls that return pages, however the database arranges them, exactly
if at each boundary of a page as many rows have a key up to the boundary. -/
theorem readsOnce_iff (hsize : 0 < size) (hnodup : rows.Nodup)
    (hout : ∀ a ∈ rows, ∀ b ∈ rows, out a = out b → a = b)
    {call : Arrangement key → ℕ → Except ε (List β × ℕ)}
    (hcall : ∀ o c,
      call o c = .ok ((o.page rows size c).map out, c + (o.page rows size c).length)) :
    (∀ o, ReadsOnce key out rows (call o)) ↔ AtBoundaries key size rows := by
  constructor
  · intro h k hk hbound
    obtain ⟨o, S, hperm, hsorted, hpage⟩ := exists_fixed key rows
    obtain ⟨fuel, read, hfollow, hread, -⟩ := h o
    rw [follow_eq (hcall o)] at hfollow
    obtain ⟨read', hcollect, hsame⟩ := Option.map_eq_some_iff.mp (Except.ok.inj hfollow)
    have hsubset : read' ⊆ rows :=
      collect_subset (fun c r hr => (mem_page hr).1) fuel hcollect
    obtain rfl := eq_of_map_eq hsame fun a ha b hb =>
      hout a (hsubset ha) b (hread.mem_iff.mp hb)
    have hfixed : collect (fixedPage key S size) fuel 0 = some read' := by
      rw [← hcollect]
      exact congrArg (fun fetch => collect fetch fuel 0) (funext fun c => (hpage size c).symm)
    have hfirst : read'.Perm (S.drop 0) := hread.trans hperm.symm
    have hnodup' : S.Nodup := hperm.nodup_iff.mpr hnodup
    have hzero := countP_of_read hsorted hnodup' hsize (Nat.zero_le _) hfixed hfirst
    have hlength := hperm.length_eq
    rw [← hperm.countP_eq]
    refine boundaries_of_collect hsorted hnodup' hsize fuel (Nat.zero_le _) hzero hfixed hfirst
      (Nat.zero_le _) (hlength ▸ hk) ?_
    rwa [Nat.sub_zero, hlength]
  · intro h o
    obtain ⟨read, hread, hperm, hsorted⟩ :=
      collect_of_boundaries o hsize h (rows.length + 1) (Nat.zero_le _) (.inl (Nat.dvd_zero size))
        (by omega)
    have hzero := h 0 (Nat.zero_le _) (.inl (Nat.dvd_zero size))
    have hall : behind key rows 0 = rows :=
      List.filter_eq_self.mpr fun r hr => decide_eq_true (Nat.pos_of_ne_zero fun hr0 =>
        List.countP_eq_zero.mp hzero r hr (decide_eq_true (le_of_eq hr0)))
    rw [hall] at hperm
    refine ⟨rows.length + 1, read, ?_, hperm, hsorted⟩
    rw [follow_eq (hcall o), hread]
    rfl

end Calls

end LarkPlat.Paging
