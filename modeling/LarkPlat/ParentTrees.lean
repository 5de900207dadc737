import LarkPlat.Forests
import LarkPlat.Table

/-!
# Trees of Rows

The rows of a table name their parents by key. A tree of them is built by one loop, which hangs each
row under the row that it names, or puts it among the roots where it names none that is there. What
is listed are the roots with what hangs below them, so that a row is listed exactly if its parents
lead to a root.

The nodes are unfolded with as much fuel as there are rows, and more fuel does not change them.

## Main results

* `mem_tree_iff`, `nodup_tree`: a row is in the tree exactly if it has a level, and then once.
* `tree_eq_of_le`: the tree has no end that is due to its fuel.
* `Level.of_subset`: rows that have levels have levels among fewer rows, too.
* `levels_write_iff`: a row that is written leaves the levels exactly if the parent that it names
  does not lead to it.
-/

namespace LarkPlat.Forest

variable {ρ ι : Type*} [DecidableEq ι] (key : ρ → ι) (up : ρ → Option ι)

/-! ### The loop -/

/-- A row with the nodes below it. -/
inductive Node (ρ : Type*)
  | mk (row : ρ) (children : List (Node ρ))

mutual

/-- The rows of a node. -/
def Node.rows : Node ρ → List ρ
  | .mk row children => row :: rowsOf children

/-- The rows of nodes. -/
def rowsOf : List (Node ρ) → List ρ
  | [] => []
  | node :: nodes => node.rows ++ rowsOf nodes

end

/-- What the loop has linked: the roots, and the rows under each key. -/
structure Links (ρ ι : Type*) where
  roots : List ρ
  children : ι → List ρ

/-- The key under which a row is hung, if it is that of a row. -/
def hung (rows : List ρ) (r : ρ) : Option ι :=
  (up r).filter fun p => decide (p ∈ rows.map key)

/-- One round of the loop. -/
def link (rows : List ρ) (links : Links ρ ι) (r : ρ) : Links ρ ι :=
  match hung key up rows r with
  | some p => { links with children := Function.update links.children p (links.children p ++ [r]) }
  | none => { links with roots := links.roots ++ [r] }

/-- A node with the nodes below it. -/
def unfold (children : ι → List ρ) : ℕ → ρ → Node ρ
  | 0, r => .mk r []
  | fuel + 1, r => .mk r ((children (key r)).map (unfold children fuel))

/-- The tree of the rows. -/
def tree (rows : List ρ) : List (Node ρ) :=
  let links := rows.foldl (link key up rows) ⟨[], fun _ => []⟩
  links.roots.map (unfold key links.children rows.length)

/-! ### What is linked -/

section Linked

variable {key up} {rows : List ρ} {r : ρ} {i p : ι} {n : ℕ}

theorem mem_rowsOf {nodes : List (Node ρ)} : r ∈ rowsOf nodes ↔ ∃ node ∈ nodes, r ∈ node.rows := by
  induction nodes with
  | nil => simp [rowsOf]
  | cons node nodes ih => simp [rowsOf, ih]

theorem rowsOf_eq_flatMap (nodes : List (Node ρ)) : rowsOf nodes = nodes.flatMap Node.rows := by
  induction nodes with
  | nil => rfl
  | cons node nodes ih => rw [rowsOf, List.flatMap_cons, ih]

variable (key up) in
/-- The rows under a key. -/
def childrenIn (rows : List ρ) (p : ι) : List ρ :=
  rows.filter fun r => decide (hung key up rows r = some p)

variable (key up) in
/-- The roots. -/
def rootsIn (rows : List ρ) : List ρ := rows.filter fun r => decide (hung key up rows r = none)

theorem foldl_link (rows rest : List ρ) (links : Links ρ ι) :
    rest.foldl (link key up rows) links =
      ⟨links.roots ++ rest.filter fun r => decide (hung key up rows r = none),
        fun p =>
          links.children p ++ rest.filter fun r => decide (hung key up rows r = some p)⟩ := by
  induction rest generalizing links with
  | nil => simp
  | cons r rest ih =>
      rw [List.foldl_cons, ih, link]
      cases hhung : hung key up rows r with
      | none => simp [hhung]
      | some q =>
          simp only [hhung, List.filter_cons, reduceCtorEq, decide_false, Bool.false_eq_true,
            if_false, Links.mk.injEq, true_and]
          funext p
          by_cases hp : p = q
          · subst hp
            simp
          · simp [Function.update_of_ne hp, Ne.symm hp]

theorem tree_eq (rows : List ρ) :
    tree key up rows =
      (rootsIn key up rows).map (unfold key (childrenIn key up rows) rows.length) := by
  rw [tree, foldl_link]
  rfl

/-! ### Levels of the rows -/

variable (key up) in
/-- The parents in a table. -/
def parentIn (rows : List ρ) (i : ι) : Option (Option ι) :=
  (Table.find key rows i).map (hung key up rows)

theorem parentIn_of_mem (hn : (rows.map key).Nodup) (hr : r ∈ rows) :
    parentIn key up rows (key r) = some (hung key up rows r) := by
  rw [parentIn, Table.find_of_mem hn hr, Option.map_some]

theorem mem_of_parentIn {x : Option ι} (h : parentIn key up rows i = some x) :
    ∃ r ∈ rows, key r = i ∧ hung key up rows r = x := by
  obtain ⟨r, hr, hx⟩ := Option.map_eq_some_iff.mp h
  exact ⟨r, Table.mem_of_find hr, Table.key_of_find hr, hx⟩

theorem hung_eq_some_iff : hung key up rows r = some p ↔ up r = some p ∧ p ∈ rows.map key := by
  rw [hung, Option.filter_eq_some_iff, decide_eq_true_iff]

theorem mem_of_level (h : Level (parentIn key up rows) i n) : ∃ r ∈ rows, key r = i := by
  obtain ⟨x, hx⟩ := Option.ne_none_iff_exists'.mp h.ne_none
  obtain ⟨r, hr, hid, -⟩ := mem_of_parentIn hx
  exact ⟨r, hr, hid⟩

theorem level_le_length (hlevel : Level (parentIn key up rows) i n) : n ≤ rows.length := by
  obtain ⟨path, hpath, hnodup, hlength⟩ := hlevel.exists_ascends
  have hsub : path ⊆ rows.map key := fun j hj => by
    obtain ⟨m, -, hm⟩ := hpath.level_le hlevel j hj
    obtain ⟨r, hr, rfl⟩ := mem_of_level hm
    exact List.mem_map_of_mem hr
  have hle := (List.subperm_of_subset hnodup hsub).length_le
  rwa [hlength, List.length_map] at hle

theorem mem_childrenIn (hn : (rows.map key).Nodup) :
    r ∈ childrenIn key up rows p ↔
      r ∈ rows ∧ parentIn key up rows (key r) = some (some p) := by
  rw [childrenIn, List.mem_filter, decide_eq_true_iff]
  refine and_congr_right fun hr => ?_
  rw [parentIn_of_mem hn hr, Option.some_inj]

theorem mem_rootsIn (hn : (rows.map key).Nodup) :
    r ∈ rootsIn key up rows ↔ r ∈ rows ∧ parentIn key up rows (key r) = some none := by
  rw [rootsIn, List.mem_filter, decide_eq_true_iff]
  refine and_congr_right fun hr => ?_
  rw [parentIn_of_mem hn hr, Option.some_inj]

/-! ### The tree -/

theorem mem_unfold (hn : (rows.map key).Nodup) {fuel : ℕ} {a : ρ} (ha : a ∈ rows) :
    r ∈ (unfold key (childrenIn key up rows) fuel a).rows ↔
      r ∈ rows ∧ ∃ k ≤ fuel, Below (parentIn key up rows) (key a) (key r) k := by
  induction fuel generalizing a with
  | zero =>
      rw [unfold, Node.rows, rowsOf, List.mem_singleton]
      constructor
      · rintro rfl
        exact ⟨ha, 0, le_rfl, .refl⟩
      · rintro ⟨hr, k, hk, hbelow⟩
        obtain rfl := Nat.le_zero.mp hk
        generalize hkey : key r = i at hbelow
        cases hbelow
        exact List.inj_on_of_nodup_map hn hr ha hkey
  | succ fuel ih =>
      rw [unfold, Node.rows, List.mem_cons, mem_rowsOf]
      constructor
      · rintro (rfl | ⟨node, hnode, hr⟩)
        · exact ⟨ha, 0, Nat.zero_le _, .refl⟩
        · obtain ⟨b, hb, rfl⟩ := List.mem_map.mp hnode
          obtain ⟨hmem, hparent⟩ := (mem_childrenIn hn).mp hb
          obtain ⟨hr, k, hk, hbelow⟩ := (ih hmem).mp hr
          exact ⟨hr, k + 1, Nat.succ_le_succ hk, hbelow.up hparent⟩
      · rintro ⟨hr, k, hk, hbelow⟩
        cases k with
        | zero =>
            generalize hkey : key r = i at hbelow
            cases hbelow
            exact .inl (List.inj_on_of_nodup_map hn hr ha hkey)
        | succ k =>
            obtain ⟨i, hi, hbelow⟩ := hbelow.exists_child
            obtain ⟨b, hb, rfl, -⟩ := mem_of_parentIn hi
            exact .inr ⟨_, List.mem_map_of_mem ((mem_childrenIn hn).mpr ⟨hb, hi⟩),
              (ih hb).mpr ⟨hr, k, Nat.le_of_succ_le_succ hk, hbelow⟩⟩

theorem nodup_rowsOf (hn : (rows.map key).Nodup) {fuel : ℕ} {nodes : List ρ} (hnodup : nodes.Nodup)
    (hlevels : ∀ a ∈ nodes, a ∈ rows ∧ Level (parentIn key up rows) (key a) n)
    (hnodes : ∀ a ∈ nodes, (unfold key (childrenIn key up rows) fuel a).rows.Nodup) :
    (rowsOf (nodes.map (unfold key (childrenIn key up rows) fuel))).Nodup := by
  rw [rowsOf_eq_flatMap, List.flatMap_map, List.nodup_flatMap]
  refine ⟨hnodes, hnodup.imp_of_mem fun {a b} ha hb hne => ?_⟩
  intro r hra hrb
  obtain ⟨-, k, -, hk⟩ := (mem_unfold hn (hlevels a ha).1).mp hra
  obtain ⟨-, m, -, hm⟩ := (mem_unfold hn (hlevels b hb).1).mp hrb
  exact hne (List.inj_on_of_nodup_map hn (hlevels a ha).1 (hlevels b hb).1
    (hk.top_unique hm (hlevels a ha).2 (hlevels b hb).2))

theorem level_of_mem_childrenIn (hn : (rows.map key).Nodup) {a : ρ}
    (hlevel : Level (parentIn key up rows) (key a) n) :
    ∀ b ∈ childrenIn key up rows (key a),
      b ∈ rows ∧ Level (parentIn key up rows) (key b) (n + 1) := by
  intro b hb
  obtain ⟨hmem, hparent⟩ := (mem_childrenIn hn).mp hb
  exact ⟨hmem, .child hparent hlevel⟩

theorem nodup_unfold (hn : (rows.map key).Nodup) {fuel : ℕ} {a : ρ}
    (hlevel : Level (parentIn key up rows) (key a) n) :
    (unfold key (childrenIn key up rows) fuel a).rows.Nodup := by
  induction fuel generalizing a n with
  | zero => exact List.nodup_singleton a
  | succ fuel ih =>
      have hchildren := level_of_mem_childrenIn hn hlevel
      rw [unfold, Node.rows, List.nodup_cons]
      constructor
      · intro hmem
        obtain ⟨node, hnode, hrow⟩ := mem_rowsOf.mp hmem
        obtain ⟨b, hb, rfl⟩ := List.mem_map.mp hnode
        obtain ⟨-, k, -, hk⟩ := (mem_unfold hn (hchildren b hb).1).mp hrow
        -- The row would be below a child of its own.
        have hsame := (hk.level (hchildren b hb).2).unique hlevel
        omega
      · exact nodup_rowsOf hn ((hn.of_map key).filter _) hchildren fun b hb =>
          ih (hchildren b hb).2

/-- The rows of the tree are those whose parents lead to a root. -/
theorem mem_tree_iff (hn : (rows.map key).Nodup) :
    r ∈ rowsOf (tree key up rows) ↔ r ∈ rows ∧ ∃ n, Level (parentIn key up rows) (key r) n := by
  rw [tree_eq, mem_rowsOf]
  constructor
  · rintro ⟨node, hnode, hr⟩
    obtain ⟨a, ha, rfl⟩ := List.mem_map.mp hnode
    obtain ⟨hmem, hroot⟩ := (mem_rootsIn hn).mp ha
    obtain ⟨hr, k, -, hbelow⟩ := (mem_unfold hn hmem).mp hr
    exact ⟨hr, 1 + k, hbelow.level (.root hroot)⟩
  · rintro ⟨hr, n, hlevel⟩
    obtain ⟨i, k, hi, rfl, hbelow⟩ := hlevel.exists_root
    obtain ⟨a, ha, rfl, -⟩ := mem_of_parentIn hi
    exact ⟨_, List.mem_map_of_mem ((mem_rootsIn hn).mpr ⟨ha, hi⟩),
      (mem_unfold hn ha).mpr ⟨hr, k, Nat.le_of_succ_le (level_le_length hlevel), hbelow⟩⟩

/-- The tree has no row twice. -/
theorem nodup_tree (hn : (rows.map key).Nodup) : (rowsOf (tree key up rows)).Nodup := by
  have hroots : ∀ a ∈ rootsIn key up rows, a ∈ rows ∧ Level (parentIn key up rows) (key a) 1 := by
    intro a ha
    obtain ⟨hmem, hroot⟩ := (mem_rootsIn hn).mp ha
    exact ⟨hmem, .root hroot⟩
  rw [tree_eq]
  exact nodup_rowsOf hn ((hn.of_map key).filter _) hroots fun a ha =>
    nodup_unfold hn (hroots a ha).2

/-- **The fuel is enough**: a node of a level does not change with more fuel than there are levels
below it. -/
theorem unfold_eq_of_le (hn : (rows.map key).Nodup) {fuel fuel' : ℕ} {a : ρ}
    (hlevel : Level (parentIn key up rows) (key a) n) (hfuel : rows.length ≤ n + fuel)
    (hle : fuel ≤ fuel') :
    unfold key (childrenIn key up rows) fuel' a = unfold key (childrenIn key up rows) fuel a := by
  induction fuel generalizing a n fuel' with
  | zero =>
      have hnone : childrenIn key up rows (key a) = [] := by
        refine List.eq_nil_iff_forall_not_mem.mpr fun b hb => ?_
        have hdeep := level_le_length (level_of_mem_childrenIn hn hlevel b hb).2
        omega
      cases fuel' with
      | zero => rfl
      | succ fuel' => rw [unfold, unfold, hnone, List.map_nil]
  | succ fuel ih =>
      cases fuel' with
      | zero => exact absurd hle (Nat.not_succ_le_zero fuel)
      | succ fuel' =>
          rw [unfold, unfold]
          refine congrArg (Node.mk a) (List.map_congr_left fun b hb => ?_)
          have hdeep := (level_of_mem_childrenIn hn hlevel b hb).2
          exact ih hdeep (by omega) (Nat.le_of_succ_le_succ hle)

/-- The tree does not change with more fuel. -/
theorem tree_eq_of_le (hn : (rows.map key).Nodup) {fuel : ℕ} (hle : rows.length ≤ fuel) :
    (rootsIn key up rows).map (unfold key (childrenIn key up rows) fuel) = tree key up rows := by
  rw [tree_eq]
  refine List.map_congr_left fun a ha => ?_
  exact unfold_eq_of_le hn (.root ((mem_rootsIn hn).mp ha).2) (Nat.le_add_left _ _) hle

/-- Rows that have levels have levels among those of a selection, too. -/
theorem Level.of_subset {rows' : List ρ} (hn : (rows.map key).Nodup) (hn' : (rows'.map key).Nodup)
    (hsub : ∀ r ∈ rows', r ∈ rows) (hr : r ∈ rows')
    (h : Level (parentIn key up rows) (key r) n) :
    ∃ m, Level (parentIn key up rows') (key r) m := by
  generalize hi : key r = i at h
  induction h generalizing r with
  | @root i hroot =>
      subst hi
      rw [parentIn_of_mem hn (hsub r hr), Option.some_inj] at hroot
      refine ⟨1, .root ?_⟩
      rw [parentIn_of_mem hn' hr, Option.some_inj]
      refine Option.eq_none_iff_forall_ne_some.mpr fun p hp => ?_
      obtain ⟨hup, hmem⟩ := hung_eq_some_iff.mp hp
      have hstill : hung key up rows r = some p :=
        hung_eq_some_iff.mpr ⟨hup, List.map_subset key hsub hmem⟩
      rw [hroot] at hstill
      cases hstill
  | @child i j n hchild _ ih =>
      subst hi
      rw [parentIn_of_mem hn (hsub r hr), Option.some_inj] at hchild
      obtain ⟨hup, -⟩ := hung_eq_some_iff.mp hchild
      by_cases hmem : j ∈ rows'.map key
      · obtain ⟨r', hr', hkey⟩ := List.mem_map.mp hmem
        obtain ⟨m, hm⟩ := ih hr' hkey
        refine ⟨m + 1, .child ?_ hm⟩
        rw [parentIn_of_mem hn' hr, hung_eq_some_iff.mpr ⟨hup, hmem⟩]
      · refine ⟨1, .root ?_⟩
        rw [parentIn_of_mem hn' hr, Option.some_inj]
        refine Option.eq_none_iff_forall_ne_some.mpr fun p hp => ?_
        obtain ⟨hup', hmem'⟩ := hung_eq_some_iff.mp hp
        exact hmem (Option.some.inj (hup.symm.trans hup') ▸ hmem')

/-! ### One row is written -/

variable (key up) in
/-- The rows that are named from a key on lead to another key. -/
inductive Leads (rows : List ρ) (i : ι) : ι → Prop
  | here : Leads rows i i
  | up {r : ρ} {p : ι} : r ∈ rows → up r = some p → Leads rows i p → Leads rows i (key r)

theorem mem_keys_of_find {rows' : List ρ} {j : ι}
    (hfind : Table.find key rows' j = Table.find key rows j) :
    j ∈ rows'.map key ↔ j ∈ rows.map key := by
  rw [← not_iff_not, ← Table.find_eq_none_iff, ← Table.find_eq_none_iff, hfind]

omit [DecidableEq ι] in
theorem Leads.mem_keys {j : ι} (h : Leads key up rows i j) : j = i ∨ j ∈ rows.map key := by
  cases h with
  | here => exact .inl rfl
  | up hr => exact .inr (List.mem_map_of_mem hr)

section Written

variable {rows' : List ρ} {r' : ρ}

/-- Where the row of `i` is written, the rows that lead to `i` are below it. -/
theorem Leads.exists_below (hn : (rows.map key).Nodup)
    (hkept : ∀ j, j ≠ i → Table.find key rows' j = Table.find key rows j)
    (hwritten : Table.find key rows' i = some r') {j : ι} (h : Leads key up rows i j) :
    ∃ k, Below (parentIn key up rows') i j k := by
  induction h with
  | here => exact ⟨0, .refl⟩
  | @up r p hr hup hp ih =>
      by_cases hi : key r = i
      · exact ⟨0, hi ▸ .refl⟩
      · obtain ⟨k, hk⟩ := ih
        refine ⟨k + 1, .step ?_ hk⟩
        have hmem : p ∈ rows'.map key := by
          by_cases hpi : p = i
          · rw [hpi, ← Table.key_of_find hwritten]
            exact List.mem_map_of_mem (Table.mem_of_find hwritten)
          · exact (mem_keys_of_find (hkept p hpi)).mpr (hp.mem_keys.resolve_left hpi)
        rw [parentIn, hkept _ hi, Table.find_of_mem hn hr, Option.map_some,
          hung_eq_some_iff.mpr ⟨hup, hmem⟩]

/-- Where the row of `i` is written, the rows that do not lead to `i` keep their parents. -/
theorem parentIn_of_not_leads
    (hkept : ∀ j, j ≠ i → Table.find key rows' j = Table.find key rows j) {j : ι}
    (h : ¬ Leads key up rows i j) : parentIn key up rows' j = parentIn key up rows j := by
  have hne : j ≠ i := fun heq => h (heq ▸ .here)
  rw [parentIn, parentIn, hkept j hne]
  cases hfind : Table.find key rows j with
  | none => rfl
  | some r =>
      rw [Option.map_some, Option.map_some, Option.some_inj]
      refine Option.ext fun p => ?_
      rw [hung_eq_some_iff, hung_eq_some_iff]
      refine and_congr_right fun hup => mem_keys_of_find (hkept p ?_)
      rintro rfl
      exact h (Table.key_of_find hfind ▸ .up (Table.mem_of_find hfind) hup .here)

theorem level_of_not_leads (hkept : ∀ j, j ≠ i → Table.find key rows' j = Table.find key rows j)
    {j : ι} {n : ℕ} (hj : ¬ Leads key up rows i j) (hlevel : Level (parentIn key up rows) j n) :
    Level (parentIn key up rows') j n := by
  refine hlevel.congr_on (fun j => ¬ Leads key up rows i j) ?_ ?_ hj
  · intro a b ha hab hb
    obtain ⟨r, hr, rfl, hhung⟩ := mem_of_parentIn hab
    exact ha (.up hr (hung_eq_some_iff.mp hhung).1 hb)
  · exact fun j hj => parentIn_of_not_leads hkept hj

theorem exists_level_written (hn' : (rows'.map key).Nodup)
    (hkept : ∀ j, j ≠ i → Table.find key rows' j = Table.find key rows j)
    (hwritten : Table.find key rows' i = some r')
    (hlevels : ∀ r ∈ rows, ∃ n, Level (parentIn key up rows) (key r) n)
    (hnot : ∀ q, up r' = some q → ¬ Leads key up rows i q) :
    ∃ n, Level (parentIn key up rows') i n := by
  have hparent : parentIn key up rows' (key r') = some (hung key up rows' r') :=
    parentIn_of_mem hn' (Table.mem_of_find hwritten)
  rw [Table.key_of_find hwritten] at hparent
  cases hhung : hung key up rows' r' with
  | none => exact ⟨1, .root (hhung ▸ hparent)⟩
  | some q =>
      obtain ⟨hq, hq'⟩ := hung_eq_some_iff.mp hhung
      have hfree := hnot q hq
      have hne : q ≠ i := fun heq => hfree (heq ▸ .here)
      obtain ⟨r, hr, rfl⟩ := List.mem_map.mp ((mem_keys_of_find (hkept q hne)).mp hq')
      obtain ⟨n, hlevel⟩ := hlevels r hr
      exact ⟨n + 1, .child (hhung ▸ hparent) (level_of_not_leads hkept hfree hlevel)⟩

/-- **One row is written.** Where all rows have levels, they have levels after one row is written
exactly if the parent that it names does not lead to it. -/
theorem levels_write_iff (hn : (rows.map key).Nodup) (hn' : (rows'.map key).Nodup)
    (hkept : ∀ j, j ≠ i → Table.find key rows' j = Table.find key rows j)
    (hwritten : Table.find key rows' i = some r')
    (hlevels : ∀ r ∈ rows, ∃ n, Level (parentIn key up rows) (key r) n) :
    (∀ r ∈ rows', ∃ n, Level (parentIn key up rows') (key r) n) ↔
      ∀ q, up r' = some q → ¬ Leads key up rows i q := by
  have hmem' := Table.mem_of_find hwritten
  have hkey' := Table.key_of_find hwritten
  constructor
  · intro h q hq hleads
    obtain ⟨k, hk⟩ := hleads.exists_below hn hkept hwritten
    obtain ⟨n, hlevel⟩ := h r' hmem'
    rw [hkey'] at hlevel
    have hq' : q ∈ rows'.map key := by
      by_cases hqi : q = i
      · exact hqi ▸ hkey' ▸ List.mem_map_of_mem hmem'
      · exact (mem_keys_of_find (hkept q hqi)).mpr (hleads.mem_keys.resolve_left hqi)
    have hparent : parentIn key up rows' (key r') = some (hung key up rows' r') :=
      parentIn_of_mem hn' hmem'
    rw [hkey', hung_eq_some_iff.mpr ⟨hq, hq'⟩] at hparent
    obtain ⟨m, rfl, hm⟩ := hlevel.of_child hparent
    -- The row would be below itself.
    have hsame := (hk.level hlevel).unique hm
    omega
  · intro hnot r hr
    by_cases hleads : Leads key up rows i (key r)
    · obtain ⟨k, hk⟩ := hleads.exists_below hn hkept hwritten
      obtain ⟨n, hlevel⟩ := exists_level_written hn' hkept hwritten hlevels hnot
      exact ⟨n + k, hk.level hlevel⟩
    · have hne : key r ≠ i := fun heq => hleads (heq ▸ .here)
      obtain ⟨r₀, hr₀, hkey⟩ := List.mem_map.mp
        ((mem_keys_of_find (hkept _ hne)).mp (List.mem_map_of_mem hr))
      obtain ⟨n, hlevel⟩ := hlevels r₀ hr₀
      exact ⟨n, level_of_not_leads hkept hleads (hkey ▸ hlevel)⟩

end Written

end Linked

end LarkPlat.Forest
