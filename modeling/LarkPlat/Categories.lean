import LarkPlat.Forests
import LarkPlat.Machine
import LarkPlat.RunService
import LarkPlat.Table
import Mathlib.Data.List.MinMax

/-!
# The Category Tree

`kb_service.py`: `create_category`, `update_category`, `delete_category` and `list_categories`. A
category names its parent, and `0` is no parent. The guards of the calls walk up from a category and
down from it, and rely on what they guard: that parents lead to a root.

A walk up stops where a category repeats. A walk down does not, so that it raises on a cycle; the
fuel of the walks is the number of categories, which no path without repetition exceeds.

## Main results

* `category_forest`: along any calls, parents exist and lead to a root within three levels, and the
  listing has every category once.
-/

namespace LarkPlat

open Machine Forest

/-! ### The calls -/

/-- `KB_CATEGORY_MAX_DEPTH`. -/
def kbCategoryMaxDepth : ℕ := 3

/-- The columns of `kb_category` that are read. -/
structure KbCategory where
  id : ℤ
  parentId : ℤ
  name : String
  sort : ℤ
  deriving DecidableEq

/-- The categories, with the next number of the sequence. -/
structure CategoryDb where
  categories : List KbCategory
  nextCategory : ℤ
  deriving DecidableEq

/-- `KbCategoryCreate`. -/
structure KbCategoryCreate where
  name : String
  parentId : Option ℤ
  sort : ℤ

/-- `KbCategoryUpdate`: a field that is absent is not written. -/
structure KbCategoryUpdate where
  name : Option String
  parentId : Option ℤ
  sort : Option ℤ

namespace CategoryDb

/-- `db.get(KbCategory, id)`. -/
def get (db : CategoryDb) (id : ℤ) : Option KbCategory :=
  Table.find KbCategory.id db.categories id

/-- The rows under a category, in the order of the table. -/
def childrenOf (db : CategoryDb) (id : ℤ) : List KbCategory :=
  db.categories.filter fun c => decide (c.parentId = id)

/-- The loop of `_category_depth`. -/
def depthFrom (db : CategoryDb) : ℕ → List ℤ → ℤ → ℕ
  | 0, _, _ => 0
  | fuel + 1, seen, cur =>
      if cur = 0 ∨ cur ∈ seen then 0
      else
        match db.get cur with
        | none => 0
        | some cat => depthFrom db fuel (cur :: seen) cat.parentId + 1

/-- `_category_depth`. -/
def categoryDepth (db : CategoryDb) (id : ℤ) : ℕ :=
  db.depthFrom (db.categories.length + 1) [] id

/-- The depth of a category under a parent, as `create_category` and `update_category` compute
it. -/
def depthUnder (db : CategoryDb) (parentId : ℤ) : ℕ :=
  if parentId = 0 then 1 else db.categoryDepth parentId + 1

/-- The loop of `_is_descendant`. -/
def descendsFrom (db : CategoryDb) (ancestorId : ℤ) : ℕ → List ℤ → ℤ → Bool
  | 0, _, _ => false
  | fuel + 1, seen, cur =>
      if cur = 0 ∨ cur ∈ seen then false
      else if cur = ancestorId then true
      else
        match db.get cur with
        | none => false
        | some cat => descendsFrom db ancestorId fuel (cur :: seen) cat.parentId

/-- `_is_descendant`. -/
def isDescendant (db : CategoryDb) (ancestorId nodeId : ℤ) : Bool :=
  db.descendsFrom ancestorId (db.categories.length + 1) [] nodeId

/-- `_subtree_height`, which raises where the recursion has no end. -/
def subtreeHeight (db : CategoryDb) : ℕ → ℤ → Except PyErr ℕ
  | 0, _ => .error .recursionError
  | fuel + 1, id =>
      match db.childrenOf id with
      | [] => .ok 0
      | c :: cs => do
          let heights ← (c :: cs).mapM fun c => subtreeHeight db fuel c.id
          return 1 + heights.foldr max 0

/-- The columns take the row: `sort` is an integer of 32 bits and `parent_id` one of 64. -/
def Fits (c : KbCategory) : Prop :=
  -2 ^ 31 ≤ c.sort ∧ c.sort < 2 ^ 31 ∧ -2 ^ 63 ≤ c.parentId ∧ c.parentId < 2 ^ 63

instance (c : KbCategory) : Decidable (Fits c) := inferInstanceAs (Decidable (_ ∧ _ ∧ _ ∧ _))

/-- `create_category`. -/
def createCategory (db : CategoryDb) (g : Gate) (data : KbCategoryCreate) :
    Except PyErr (CategoryDb × KbCategory) := do
  g.check "kb:category:add"
  let parentId := data.parentId.getD 0
  if parentId ≠ 0 ∧ db.get parentId = none then
    throw (.validation ("parent category not found: " ++ toString parentId))
  let depth := db.depthUnder parentId
  if kbCategoryMaxDepth < depth then
    throw (.validation ("category depth " ++ toString depth ++ " exceeds max " ++
      toString kbCategoryMaxDepth))
  let category : KbCategory := ⟨db.nextCategory, parentId, data.name, data.sort⟩
  if ¬ Fits category then throw .integrityError
  return (⟨db.categories ++ [category], db.nextCategory + 1⟩, category)

/-- The guards of `update_category` on a new parent. -/
def checkMove (db : CategoryDb) (categoryId newParent : ℤ) : Except PyErr Unit := do
  if newParent ≠ 0 ∧ db.get newParent = none then
    throw (.validation ("parent category not found: " ++ toString newParent))
  if newParent ≠ 0 ∧ db.isDescendant categoryId newParent = true then
    throw (.validation "cannot move a category into itself or a descendant")
  let depth := db.depthUnder newParent
  let height ← db.subtreeHeight (db.categories.length + 1) categoryId
  if kbCategoryMaxDepth < depth + height then
    throw (.validation ("category depth exceeds max " ++ toString kbCategoryMaxDepth))

/-- `update_category`. -/
def updateCategory (db : CategoryDb) (g : Gate) (categoryId : ℤ) (data : KbCategoryUpdate) :
    Except PyErr (CategoryDb × KbCategory) := do
  g.check "kb:category:edit"
  match db.get categoryId with
  | none => throw (.notFound "category not found")
  | some old =>
      match data.parentId with
      | none => pure ()
      | some newParent => db.checkMove categoryId newParent
      let category : KbCategory :=
        ⟨old.id, data.parentId.getD old.parentId, data.name.getD old.name, data.sort.getD old.sort⟩
      if ¬ Fits category then throw .integrityError
      return ({ db with
        categories := Table.modify KbCategory.id db.categories categoryId fun _ => category },
        category)

/-- `delete_category`, where `articles` counts the articles of the category. -/
def deleteCategory (db : CategoryDb) (g : Gate) (articles : ℕ) (categoryId : ℤ) :
    Except PyErr CategoryDb := do
  g.check "kb:category:del"
  if db.get categoryId = none then throw (.notFound "category not found")
  if db.childrenOf categoryId ≠ [] then throw (.conflict "category has child categories")
  if articles ≠ 0 then throw (.conflict "category has articles")
  return { db with categories := db.categories.filter fun c => decide (c.id ≠ categoryId) }

/-! ### The listing -/

/-- A node of the tree that is listed. -/
inductive CategoryNode
  | mk (category : KbCategory) (children : List CategoryNode)

/-- What the loop of `list_categories` has linked: the roots, and the children of each node. -/
structure Links where
  roots : List KbCategory
  children : ℤ → List KbCategory

/-- The row is listed under its parent. -/
def attached (db : CategoryDb) (c : KbCategory) : Bool :=
  decide (c.parentId ≠ 0) && (db.get c.parentId).isSome

/-- One round of the loop. -/
def link (db : CategoryDb) (links : Links) (c : KbCategory) : Links :=
  if db.attached c then
    { links with
      children := Function.update links.children c.parentId (links.children c.parentId ++ [c]) }
  else { links with roots := links.roots ++ [c] }

/-- A node with the nodes under it. -/
def unfoldNode (children : ℤ → List KbCategory) : ℕ → KbCategory → CategoryNode
  | 0, c => .mk c []
  | fuel + 1, c => .mk c ((children c.id).map (unfoldNode children fuel))

/-- The rows in the order of the statement. -/
def ordered (db : CategoryDb) : List KbCategory :=
  db.categories.mergeSort fun a b => decide (a.sort < b.sort ∨ (a.sort = b.sort ∧ a.id ≤ b.id))

/-- `list_categories`. -/
def listCategories (db : CategoryDb) (g : Gate) : Except PyErr (List CategoryNode × ℕ) := do
  g.check "kb:category:list"
  let rows := db.ordered
  let links := rows.foldl db.link ⟨[], fun _ => []⟩
  return (links.roots.map (unfoldNode links.children rows.length), rows.length)

mutual

/-- The rows of a node, with those under it. -/
def CategoryNode.rows : CategoryNode → List KbCategory
  | .mk c children => c :: CategoryNode.rowsOf children

/-- The rows of nodes. -/
def CategoryNode.rowsOf : List CategoryNode → List KbCategory
  | [] => []
  | node :: nodes => node.rows ++ CategoryNode.rowsOf nodes

end

/-! ### Parents -/

/-- The parent that a row names. -/
def parent (db : CategoryDb) (id : ℤ) : Option (Option ℤ) :=
  (db.get id).map fun c => if c.parentId = 0 then none else some c.parentId

/-- The keys of the rows, and their levels. -/
structure Rooted (db : CategoryDb) : Prop where
  keyed : (db.categories.map KbCategory.id).Nodup
  positive : ∀ c ∈ db.categories, 0 < c.id
  below : ∀ c ∈ db.categories, c.id < db.nextCategory
  next : 0 < db.nextCategory
  levels : ∀ c ∈ db.categories, ∃ n ≤ kbCategoryMaxDepth, Level db.parent c.id n

variable {db : CategoryDb} {id : ℤ} {n : ℕ} {c : KbCategory}

theorem get_of_mem (h : db.Rooted) (hc : c ∈ db.categories) : db.get c.id = some c :=
  Table.find_of_mem h.keyed hc

theorem get_some (hget : db.get id = some c) : c ∈ db.categories ∧ c.id = id :=
  ⟨Table.mem_of_find hget, Table.key_of_find hget⟩

/-- A row of the table is a root, or the child of the category that it names. -/
theorem parent_of_get (hget : db.get id = some c) :
    db.parent id = some (if c.parentId = 0 then none else some c.parentId) := by
  rw [parent, hget]
  rfl

theorem get_of_parent {x : Option ℤ} (h : db.parent id = some x) :
    ∃ c, db.get id = some c ∧ x = if c.parentId = 0 then none else some c.parentId := by
  obtain ⟨c, hc, hx⟩ := Option.map_eq_some_iff.mp h
  exact ⟨c, hc, hx.symm⟩

theorem mem_of_level (h : Level db.parent id n) : ∃ c ∈ db.categories, c.id = id := by
  obtain ⟨x, hx⟩ := Option.ne_none_iff_exists'.mp h.ne_none
  obtain ⟨c, hget, -⟩ := get_of_parent hx
  exact ⟨c, get_some hget⟩

theorem ne_zero_of_level (h : db.Rooted) (hlevel : Level db.parent id n) : id ≠ 0 := by
  obtain ⟨c, hc, rfl⟩ := mem_of_level hlevel
  exact (h.positive c hc).ne'

theorem level_of_get (h : db.Rooted) (hget : db.get id = some c) :
    ∃ n ≤ kbCategoryMaxDepth, Level db.parent id n := by
  obtain ⟨hc, rfl⟩ := get_some hget
  exact h.levels c hc

theorem level_parent (h : db.Rooted) (hc : c ∈ db.categories) (hparent : c.parentId ≠ 0) :
    ∃ m, Level db.parent c.parentId m ∧ ∀ n, Level db.parent c.id n → n = m + 1 := by
  obtain ⟨n, -, hlevel⟩ := h.levels c hc
  have hchild := parent_of_get (get_of_mem h hc)
  rw [if_neg hparent] at hchild
  obtain ⟨m, rfl, hm⟩ := hlevel.of_child hchild
  exact ⟨m, hm, fun n hn => hn.unique hlevel⟩

theorem level_le_length (hlevel : Level db.parent id n) : n ≤ db.categories.length := by
  obtain ⟨path, hpath, hnodup, hlength⟩ := hlevel.exists_ascends
  have hsub : path ⊆ db.categories.map KbCategory.id := fun j hj => by
    obtain ⟨m, -, hm⟩ := hpath.level_le hlevel j hj
    obtain ⟨c, hc, rfl⟩ := mem_of_level hm
    exact List.mem_map_of_mem hc
  have hle := (List.subperm_of_subset hnodup hsub).length_le
  rwa [hlength, List.length_map] at hle

/-! ### Walks -/

/-- A walk at a node has not seen it, if what it has seen has greater levels. -/
theorem not_mem_seen {seen : List ℤ} (hlevel : Level db.parent id n)
    (hseen : ∀ s ∈ seen, ∃ m, Level db.parent s m ∧ n < m) : id ∉ seen := by
  intro hmem
  obtain ⟨m, hm, hlt⟩ := hseen id hmem
  exact hlt.ne (hlevel.unique hm)

theorem seen_step {seen : List ℤ} (hlevel : Level db.parent id (n + 1))
    (hseen : ∀ s ∈ seen, ∃ m, Level db.parent s m ∧ n + 1 < m) :
    ∀ s ∈ id :: seen, ∃ m, Level db.parent s m ∧ n < m := by
  intro s hs
  rcases List.mem_cons.mp hs with rfl | hs
  · exact ⟨n + 1, hlevel, Nat.lt_succ_self n⟩
  · obtain ⟨m, hm, hlt⟩ := hseen s hs
    exact ⟨m, hm, Nat.lt_of_succ_lt hlt⟩

/-- The loop of `_category_depth` counts the level of its node. -/
theorem depthFrom_eq (h : db.Rooted) (hlevel : Level db.parent id n) {fuel : ℕ} (hfuel : n < fuel)
    {seen : List ℤ} (hseen : ∀ s ∈ seen, ∃ m, Level db.parent s m ∧ n < m) :
    db.depthFrom fuel seen id = n := by
  induction hlevel generalizing fuel seen with
  | @root i hroot =>
      obtain ⟨fuel, rfl⟩ := Nat.exists_eq_succ_of_ne_zero (Nat.ne_zero_of_lt hfuel)
      obtain ⟨c, hget, hx⟩ := get_of_parent hroot
      have hzero : c.parentId = 0 := by
        by_contra hne
        rw [if_neg hne] at hx
        cases hx
      rw [depthFrom, if_neg (not_or.mpr ⟨ne_zero_of_level h (.root hroot),
        not_mem_seen (.root hroot) hseen⟩), hget]
      dsimp only
      rw [hzero]
      cases fuel with
      | zero => rfl
      | succ fuel => rw [depthFrom, if_pos (Or.inl rfl)]
  | @child i j n hchild hj ih =>
      obtain ⟨fuel, rfl⟩ := Nat.exists_eq_succ_of_ne_zero (Nat.ne_zero_of_lt hfuel)
      obtain ⟨c, hget, hx⟩ := get_of_parent hchild
      have hparent : c.parentId = j := by
        split_ifs at hx with hzero
        exact (Option.some.inj hx).symm
      have hi : Level db.parent i (n + 1) := .child hchild hj
      rw [depthFrom, if_neg (not_or.mpr ⟨ne_zero_of_level h hi, not_mem_seen hi hseen⟩), hget]
      dsimp only
      rw [hparent, ih (Nat.lt_of_succ_lt_succ hfuel) (seen_step hi hseen)]

/-- **`_category_depth`** is the level. -/
theorem categoryDepth_eq (h : db.Rooted) (hlevel : Level db.parent id n) :
    db.categoryDepth id = n := by
  refine depthFrom_eq h hlevel (Nat.lt_succ_of_le (level_le_length hlevel)) fun s hs => ?_
  cases hs

/-- The loop of `_is_descendant` finds the ancestors of its node. -/
theorem descendsFrom_iff (h : db.Rooted) (hlevel : Level db.parent id n) {fuel : ℕ}
    (hfuel : n < fuel) {seen : List ℤ} (hseen : ∀ s ∈ seen, ∃ m, Level db.parent s m ∧ n < m)
    (ancestorId : ℤ) :
    db.descendsFrom ancestorId fuel seen id = true ↔ ∃ k, Below db.parent ancestorId id k := by
  induction hlevel generalizing fuel seen with
  | @root i hroot =>
      obtain ⟨fuel, rfl⟩ := Nat.exists_eq_succ_of_ne_zero (Nat.ne_zero_of_lt hfuel)
      obtain ⟨c, hget, hx⟩ := get_of_parent hroot
      have hzero : c.parentId = 0 := by
        by_contra hne
        rw [if_neg hne] at hx
        cases hx
      rw [descendsFrom, if_neg (not_or.mpr ⟨ne_zero_of_level h (.root hroot),
        not_mem_seen (.root hroot) hseen⟩)]
      by_cases hancestor : i = ancestorId
      · rw [if_pos hancestor]
        exact iff_of_true rfl ⟨0, hancestor ▸ .refl⟩
      · rw [if_neg hancestor, hget]
        dsimp only
        have hfalse : db.descendsFrom ancestorId fuel (i :: seen) c.parentId = false := by
          cases fuel with
          | zero => rfl
          | succ fuel => rw [descendsFrom, if_pos (Or.inl hzero)]
        rw [hfalse]
        refine iff_of_false Bool.false_ne_true ?_
        rintro ⟨k, hk⟩
        cases hk with
        | refl => exact hancestor rfl
        | step hstep =>
            rw [hroot] at hstep
            cases hstep
  | @child i j n hchild hj ih =>
      obtain ⟨fuel, rfl⟩ := Nat.exists_eq_succ_of_ne_zero (Nat.ne_zero_of_lt hfuel)
      obtain ⟨c, hget, hx⟩ := get_of_parent hchild
      have hparent : c.parentId = j := by
        split_ifs at hx with hzero
        exact (Option.some.inj hx).symm
      have hi : Level db.parent i (n + 1) := .child hchild hj
      rw [descendsFrom, if_neg (not_or.mpr ⟨ne_zero_of_level h hi, not_mem_seen hi hseen⟩)]
      by_cases hancestor : i = ancestorId
      · rw [if_pos hancestor]
        exact iff_of_true rfl ⟨0, hancestor ▸ .refl⟩
      · rw [if_neg hancestor, hget]
        dsimp only
        rw [hparent, ih (Nat.lt_of_succ_lt_succ hfuel) (seen_step hi hseen)]
        constructor
        · exact fun ⟨k, hk⟩ => ⟨k + 1, .step hchild hk⟩
        · rintro ⟨k, hk⟩
          cases hk with
          | refl => exact absurd rfl hancestor
          | step hstep hk =>
              obtain rfl := Option.some.inj (Option.some.inj (hchild.symm.trans hstep))
              exact ⟨_, hk⟩

/-- **`_is_descendant`** decides whether a node lies in a subtree. -/
theorem isDescendant_iff (h : db.Rooted) (hlevel : Level db.parent id n) (ancestorId : ℤ) :
    db.isDescendant ancestorId id = true ↔ ∃ k, Below db.parent ancestorId id k := by
  refine descendsFrom_iff h hlevel (Nat.lt_succ_of_le (level_le_length hlevel))
    (fun s hs => ?_) ancestorId
  cases hs

/-! ### Heights -/

theorem exists_of_mapM {α β : Type} {f : α → Except PyErr β} {xs : List α} {ys : List β} {x : α}
    (hys : xs.mapM f = .ok ys) (hx : x ∈ xs) : ∃ y ∈ ys, f x = .ok y := by
  induction xs generalizing ys with
  | nil => cases hx
  | cons a xs ih =>
      rw [List.mapM_cons, bind_eq_ok] at hys
      obtain ⟨y, hy, hys⟩ := hys
      obtain ⟨ys', hys', hys⟩ := bind_eq_ok.mp hys
      obtain rfl := Except.ok.inj hys
      rcases List.mem_cons.mp hx with rfl | hx
      · exact ⟨y, List.mem_cons_self, hy⟩
      · obtain ⟨y', hy', hx⟩ := ih hys' hx
        exact ⟨y', List.mem_cons_of_mem _ hy', hx⟩

theorem mapM_returns {α β : Type} {f : α → Except PyErr β} {xs : List α}
    (h : ∀ x ∈ xs, ∃ y, f x = .ok y) : ∃ ys, xs.mapM f = .ok ys := by
  induction xs with
  | nil => exact ⟨[], rfl⟩
  | cons x xs ih =>
      obtain ⟨y, hy⟩ := h x List.mem_cons_self
      obtain ⟨ys, hys⟩ := ih fun x hx => h x (List.mem_cons_of_mem _ hx)
      rw [List.mapM_cons, hy, hys]
      exact ⟨_, rfl⟩

theorem mem_childrenOf : c ∈ db.childrenOf id ↔ c ∈ db.categories ∧ c.parentId = id := by
  rw [childrenOf, List.mem_filter, decide_eq_true_iff]

theorem child_mem (hchild : db.parent c.id = some (some id)) :
    ∃ c' ∈ db.childrenOf id, c'.id = c.id := by
  obtain ⟨c', hget, hx⟩ := get_of_parent hchild
  obtain ⟨hc', hid⟩ := get_some hget
  split_ifs at hx with hzero
  exact ⟨c', mem_childrenOf.mpr ⟨hc', (Option.some.inj hx).symm⟩, hid⟩

/-- **`_subtree_height`** bounds the distance of what is below its node. -/
theorem le_subtreeHeight {fuel height k : ℕ} {j : ℤ}
    (hheight : db.subtreeHeight fuel id = .ok height)
    (hbelow : Below db.parent id j k) : k ≤ height := by
  induction fuel generalizing id height k with
  | zero => cases hheight
  | succ fuel ih =>
      cases k with
      | zero => exact Nat.zero_le _
      | succ k =>
          obtain ⟨i, hi, hbelow⟩ := hbelow.exists_child
          obtain ⟨c, hget, -⟩ := get_of_parent hi
          obtain ⟨-, rfl⟩ := get_some hget
          obtain ⟨c', hc', hid⟩ := child_mem hi
          rw [subtreeHeight] at hheight
          split at hheight
          · next hnil =>
              rw [hnil] at hc'
              cases hc'
          · next hcons =>
              obtain ⟨heights, hheights, hmax⟩ := bind_eq_ok.mp hheight
              obtain ⟨y, hy, hchild⟩ := exists_of_mapM hheights (hcons ▸ hc')
              rw [hid] at hchild
              rw [← Except.ok.inj hmax, Nat.add_comm 1]
              exact Nat.succ_le_succ ((ih hchild hbelow).trans (List.le_max_of_le' 0 hy le_rfl))

/-- **Walks down end.** The recursion of `_subtree_height` returns. -/
theorem subtreeHeight_returns (h : db.Rooted) (hlevel : Level db.parent id n) {fuel : ℕ}
    (hfuel : db.categories.length < fuel + n) :
    ∃ height, db.subtreeHeight fuel id = .ok height := by
  induction fuel generalizing id n with
  | zero => exact absurd (level_le_length hlevel) (by omega)
  | succ fuel ih =>
      have hchildren : ∀ c ∈ db.childrenOf id,
          ∃ height, db.subtreeHeight fuel c.id = .ok height := by
        intro c hc
        obtain ⟨hmem, hparent⟩ := mem_childrenOf.mp hc
        have hchild := parent_of_get (get_of_mem h hmem)
        rw [hparent, if_neg (ne_zero_of_level h hlevel)] at hchild
        exact ih (.child hchild hlevel) (by omega)
      rw [subtreeHeight]
      split
      · exact ⟨0, rfl⟩
      · next hcons =>
          rw [hcons] at hchildren
          obtain ⟨heights, hheights⟩ := mapM_returns hchildren
          exact ⟨_, bind_eq_ok.mpr ⟨heights, hheights, rfl⟩⟩

/-! ### What the calls keep -/

variable {db' : CategoryDb} {g : Gate}

/-- A node under a parent that passed its guard has the depth that was computed. -/
theorem level_depthUnder (h : db.Rooted) {parentId : ℤ}
    (hparent : ¬ (parentId ≠ 0 ∧ db.get parentId = none)) (hzero : parentId ≠ 0) :
    ∃ m, Level db.parent parentId m ∧ db.depthUnder parentId = m + 1 := by
  obtain ⟨c, hget⟩ := Option.ne_none_iff_exists'.mp fun hnone => hparent ⟨hzero, hnone⟩
  obtain ⟨m, -, hlevel⟩ := level_of_get h hget
  exact ⟨m, hlevel, by rw [depthUnder, if_neg hzero, categoryDepth_eq h hlevel]⟩

/-- What a successful `create_category` has checked, and its new row. -/
theorem createCategory_ok {data : KbCategoryCreate}
    (hok : db.createCategory g data = .ok (db', c)) :
    ¬ (c.parentId ≠ 0 ∧ db.get c.parentId = none) ∧
      db.depthUnder c.parentId ≤ kbCategoryMaxDepth ∧ c.id = db.nextCategory ∧
      db' = ⟨db.categories ++ [c], db.nextCategory + 1⟩ := by
  obtain ⟨_, -, hok⟩ := bind_eq_ok.mp hok
  dsimp only at hok
  split at hok
  · exact absurd hok (throw_bind_ne_ok _ _ _)
  next hparent =>
    split at hok
    · exact absurd hok (throw_bind_ne_ok _ _ _)
    next hdepth =>
      split at hok
      · exact absurd hok (throw_bind_ne_ok _ _ _)
      · cases hok
        exact ⟨hparent, Nat.le_of_not_lt hdepth, rfl, rfl⟩

theorem checkMove_ok {newParent : ℤ} (hok : db.checkMove id newParent = .ok ()) :
    ¬ (newParent ≠ 0 ∧ db.get newParent = none) ∧
      ¬ (newParent ≠ 0 ∧ db.isDescendant id newParent = true) ∧
      ∃ height, db.subtreeHeight (db.categories.length + 1) id = .ok height ∧
        db.depthUnder newParent + height ≤ kbCategoryMaxDepth := by
  rw [checkMove] at hok
  split at hok
  · exact absurd hok (throw_bind_ne_ok _ _ _)
  next hparent =>
    split at hok
    · exact absurd hok (throw_bind_ne_ok _ _ _)
    next hinside =>
      obtain ⟨height, hheight, hok⟩ := bind_eq_ok.mp hok
      split at hok
      · cases hok
      next hdepth => exact ⟨hparent, hinside, height, hheight, Nat.le_of_not_lt hdepth⟩

/-- What a successful `update_category` has checked, and the row that it writes. -/
theorem updateCategory_ok {data : KbCategoryUpdate}
    (hok : db.updateCategory g id data = .ok (db', c)) :
    ∃ old, db.get id = some old ∧ c.id = id ∧
      (c.parentId = old.parentId ∨ db.checkMove id c.parentId = .ok ()) ∧
      db' = { db with categories := Table.modify KbCategory.id db.categories id fun _ => c } := by
  obtain ⟨_, -, hok⟩ := bind_eq_ok.mp hok
  split at hok
  · cases hok
  next old hget =>
    have hid := (get_some hget).2
    cases hparent : data.parentId with
    | none =>
        rw [hparent] at hok
        dsimp only at hok
        split at hok
        · cases hok
        · cases hok
          exact ⟨old, hget, hid, .inl rfl, rfl⟩
    | some newParent =>
        rw [hparent] at hok
        obtain ⟨_, hmove, hok⟩ := bind_eq_ok.mp hok
        dsimp only at hok
        split at hok
        · cases hok
        · cases hok
          exact ⟨old, hget, hid, .inr hmove, rfl⟩

/-- What a successful `delete_category` has checked. -/
theorem deleteCategory_ok {articles : ℕ} (hok : db.deleteCategory g articles id = .ok db') :
    db.childrenOf id = [] ∧
      db' = { db with categories := db.categories.filter fun c => decide (c.id ≠ id) } := by
  obtain ⟨_, -, hok⟩ := bind_eq_ok.mp hok
  dsimp only at hok
  split at hok
  · exact absurd hok (throw_bind_ne_ok _ _ _)
  · split at hok
    · exact absurd hok (throw_bind_ne_ok _ _ _)
    next hchildren =>
      split at hok
      · cases hok
      · cases hok
        exact ⟨not_not.mp hchildren, rfl⟩

theorem level_kept (S : ℤ → Prop) (hclosed : ∀ i j, S i → db.parent i = some (some j) → S j)
    (hget : ∀ i, S i → db'.get i = db.get i) (hlevel : Level db.parent id n) (hid : S id) :
    Level db'.parent id n :=
  hlevel.congr_on S hclosed (fun i hi => by rw [parent, parent, hget i hi]) hid

theorem exists_get_parent (h : db.Rooted) {i j : ℤ} (hparent : db.parent i = some (some j)) :
    ∃ c, db.get j = some c := by
  obtain ⟨c, hget, -⟩ := get_of_parent hparent
  obtain ⟨m, -, hlevel⟩ := level_of_get h hget
  obtain ⟨m, -, hj⟩ := hlevel.of_child hparent
  obtain ⟨c', hc', rfl⟩ := mem_of_level hj
  exact ⟨c', get_of_mem h hc'⟩

/-- A row is at the depth that was computed for its parent, if its parent has kept its level. -/
theorem level_under (h : db.Rooted) (hget : db'.get id = some c)
    (hparent : ¬ (c.parentId ≠ 0 ∧ db.get c.parentId = none))
    (hkept : c.parentId ≠ 0 → ∀ m, Level db.parent c.parentId m → Level db'.parent c.parentId m) :
    Level db'.parent id (db.depthUnder c.parentId) := by
  have hrow := parent_of_get hget
  by_cases hzero : c.parentId = 0
  · rw [if_pos hzero] at hrow
    rw [depthUnder, if_pos hzero]
    exact .root hrow
  · rw [if_neg hzero] at hrow
    obtain ⟨m, hm, hdepth⟩ := level_depthUnder h hparent hzero
    rw [hdepth]
    exact .child hrow (hkept hzero m hm)

theorem rooted_create (h : db.Rooted) {data : KbCategoryCreate}
    (hok : db.createCategory g data = .ok (db', c)) : db'.Rooted := by
  obtain ⟨hparent, hdepth, hid, rfl⟩ := createCategory_ok hok
  have hfresh : c.id ∉ db.categories.map KbCategory.id := by
    rw [hid]
    exact Table.new_of_below h.below
  have hold : ∀ {i n}, Level db.parent i n →
      Level (CategoryDb.mk (db.categories ++ [c]) (db.nextCategory + 1)).parent i n := by
    intro i n hlevel
    refine level_kept (fun i => ∃ r, db.get i = some r)
      (fun i j _ hj => exists_get_parent h hj) ?_ hlevel ?_
    · rintro i ⟨r, hr⟩
      exact (Table.find_append hr [c]).trans hr.symm
    · obtain ⟨r, hr, rfl⟩ := mem_of_level hlevel
      exact ⟨r, get_of_mem h hr⟩
  refine ⟨?_, ?_, ?_, Int.lt_add_one_of_le h.next.le, ?_⟩
  · exact Table.nodup_concat h.keyed hfresh
  · intro r hr
    rcases List.mem_append.mp hr with hr | hr
    · exact h.positive r hr
    · rw [List.mem_singleton.mp hr, hid]
      exact h.next
  · exact Table.below_concat h.below hid (Int.lt_succ _)
  · intro r hr
    rcases List.mem_append.mp hr with hr | hr
    · obtain ⟨n, hn, hlevel⟩ := h.levels r hr
      exact ⟨n, hn, hold hlevel⟩
    · obtain rfl := List.mem_singleton.mp hr
      exact ⟨_, hdepth, level_under h (Table.find_concat_self (Table.find_eq_none_iff.mpr hfresh))
        hparent fun _ m => hold⟩

/-- A move leaves every category within the levels that its guards have checked. -/
theorem levels_moved (h : db.Rooted) (hget : db'.get id = some c)
    (hother : ∀ i, i ≠ id → db'.get i = db.get i) (hlevel : Level db.parent id n)
    (hmove : db.checkMove id c.parentId = .ok ()) {r : KbCategory} (hr : r ∈ db.categories) :
    ∃ m ≤ kbCategoryMaxDepth, Level db'.parent r.id m := by
  obtain ⟨hparent, hinside, height, hheight, hdepth⟩ := checkMove_ok hmove
  have houtside : ∀ {i m}, Level db.parent i m → (∀ k, ¬ Below db.parent id i k) →
      Level db'.parent i m := by
    intro i m hi hnot
    refine level_kept (fun i => ∀ k, ¬ Below db.parent id i k)
      (fun i j hnot hij => not_below_parent hij hnot) (fun i hnot => hother i ?_) hi hnot
    rintro rfl
    exact hnot 0 .refl
  by_cases hbelow : ∃ k, Below db.parent id r.id k
  · obtain ⟨k, hk⟩ := hbelow
    have htop : Level db'.parent id (db.depthUnder c.parentId) := by
      refine level_under h hget hparent fun hzero m hm => houtside hm fun k hk => ?_
      exact hinside ⟨hzero, (isDescendant_iff h hm id).mpr ⟨k, hk⟩⟩
    have hle := le_subtreeHeight hheight hk
    exact ⟨_, by omega, .moved hk hlevel (fun j hj => by rw [parent, parent, hother j hj]) htop⟩
  · obtain ⟨m, hm, hi⟩ := h.levels r hr
    exact ⟨m, hm, houtside hi fun k hk => hbelow ⟨k, hk⟩⟩

theorem rooted_update (h : db.Rooted) {data : KbCategoryUpdate}
    (hok : db.updateCategory g id data = .ok (db', c)) : db'.Rooted := by
  obtain ⟨old, hget, hid, hmove, hdb⟩ := updateCategory_ok hok
  have hkey : ∀ r : KbCategory, r.id = id → c.id = id := fun _ _ => hid
  have hrows : db'.categories = Table.modify KbCategory.id db.categories id fun _ => c := by
    rw [hdb]
  have hnext : db'.nextCategory = db.nextCategory := by rw [hdb]
  have hother : ∀ i, i ≠ id → db'.get i = db.get i := fun i hne => by
    rw [get, hrows]
    exact Table.find_modify_ne hkey hne
  have hself : db'.get id = some c := by
    rw [get, hrows, Table.find_modify_self hkey]
    exact congrArg (Option.map fun _ => c) hget
  have hmem : ∀ r ∈ db'.categories, ∃ r₀ ∈ db.categories, r.id = r₀.id := by
    intro r hr
    rw [hrows] at hr
    rcases Table.mem_modify.mp hr with ⟨r₀, hr₀, hk, rfl⟩ | ⟨hr, -⟩
    · exact ⟨r₀, hr₀, hid.trans hk.symm⟩
    · exact ⟨r, hr, rfl⟩
  obtain ⟨n, -, hlevel⟩ := level_of_get h hget
  have hlevels : ∀ r ∈ db.categories, ∃ m ≤ kbCategoryMaxDepth, Level db'.parent r.id m := by
    intro r hr
    rcases hmove with hsame | hmove
    · obtain ⟨m, hm, hi⟩ := h.levels r hr
      refine ⟨m, hm, hi.congr_on (fun _ => True) (fun _ _ _ _ => trivial) (fun i _ => ?_) trivial⟩
      by_cases hne : i = id
      · rw [hne, parent_of_get hself, parent_of_get hget, hsame]
      · rw [parent, parent, hother i hne]
    · exact levels_moved h hself hother hlevel hmove hr
  refine ⟨?_, ?_, ?_, hnext ▸ h.next, ?_⟩
  · rw [hrows, Table.map_key_modify hkey]
    exact h.keyed
  · intro r hr
    obtain ⟨r₀, hr₀, heq⟩ := hmem r hr
    rw [heq]
    exact h.positive r₀ hr₀
  · intro r hr
    obtain ⟨r₀, hr₀, heq⟩ := hmem r hr
    rw [heq, hnext]
    exact h.below r₀ hr₀
  · intro r hr
    obtain ⟨r₀, hr₀, heq⟩ := hmem r hr
    rw [heq]
    exact hlevels r₀ hr₀

theorem rooted_delete (h : db.Rooted) {articles : ℕ}
    (hok : db.deleteCategory g articles id = .ok db') : db'.Rooted := by
  obtain ⟨hchildren, rfl⟩ := deleteCategory_ok hok
  have hmem : ∀ {r}, r ∈ db.categories.filter (fun c => decide (c.id ≠ id)) →
      r ∈ db.categories ∧ r.id ≠ id := fun hr => by
    rwa [List.mem_filter, decide_eq_true_iff] at hr
  have hsub : (db.categories.filter fun c => decide (c.id ≠ id)).Sublist db.categories :=
    List.filter_sublist
  have hkeyed := h.keyed.sublist (hsub.map KbCategory.id)
  refine ⟨hkeyed, fun r hr => h.positive r (hmem hr).1, fun r hr => h.below r (hmem hr).1, h.next,
    fun r hr => ?_⟩
  obtain ⟨n, hn, hlevel⟩ := h.levels r (hmem hr).1
  refine ⟨n, hn, level_kept (fun i => i ≠ id) ?_ ?_ hlevel (hmem hr).2⟩
  · rintro i j - hij rfl
    obtain ⟨r, hr, hx⟩ := get_of_parent hij
    split_ifs at hx with hzero
    have hnone : r ∈ db.childrenOf j :=
      mem_childrenOf.mpr ⟨(get_some hr).1, (Option.some.inj hx).symm⟩
    rw [hchildren] at hnone
    cases hnone
  · intro i hi
    rw [get, get, Table.find, Table.find, List.find?_filter]
    congr 1
    funext r
    by_cases hri : r.id = i
    · simp [hri, hi]
    · simp [hri]

/-! ### What is listed -/

theorem mem_rowsOf {nodes : List CategoryNode} {r : KbCategory} :
    r ∈ CategoryNode.rowsOf nodes ↔ ∃ node ∈ nodes, r ∈ node.rows := by
  induction nodes with
  | nil => simp [CategoryNode.rowsOf]
  | cons node nodes ih => simp [CategoryNode.rowsOf, ih]

theorem rowsOf_eq_flatMap (nodes : List CategoryNode) :
    CategoryNode.rowsOf nodes = nodes.flatMap CategoryNode.rows := by
  induction nodes with
  | nil => rfl
  | cons node nodes ih => rw [CategoryNode.rowsOf, List.flatMap_cons, ih]

/-- The loop of `list_categories` collects the roots and the children in the order of the rows. -/
theorem foldl_link (rows : List KbCategory) (links : Links) :
    rows.foldl db.link links =
      ⟨links.roots ++ rows.filter fun c => !db.attached c,
        fun p => links.children p ++
          rows.filter fun c => db.attached c && decide (c.parentId = p)⟩ := by
  induction rows generalizing links with
  | nil => simp
  | cons c rows ih =>
      rw [List.foldl_cons, ih, link]
      by_cases hattached : db.attached c
      · rw [if_pos hattached]
        simp only [hattached, List.filter_cons, Bool.not_true, Bool.false_eq_true, if_false,
          Bool.true_and, Links.mk.injEq, true_and]
        funext p
        by_cases hp : p = c.parentId
        · subst hp
          simp
        · simp [Function.update_of_ne hp, Ne.symm hp]
      · rw [if_neg hattached]
        simp only [Bool.not_eq_true] at hattached
        simp [hattached]

/-- The children in the listing of a table. -/
def listed (db : CategoryDb) (p : ℤ) : List KbCategory :=
  db.ordered.filter fun c => db.attached c && decide (c.parentId = p)

theorem mem_ordered : c ∈ db.ordered ↔ c ∈ db.categories :=
  (List.mergeSort_perm _ _).mem_iff

theorem nodup_categories (h : db.Rooted) : db.categories.Nodup :=
  h.keyed.of_map KbCategory.id

theorem nodup_ordered (h : db.Rooted) : db.ordered.Nodup :=
  (List.mergeSort_perm _ _).nodup_iff.mpr (nodup_categories h)

theorem attached_iff (h : db.Rooted) (hc : c ∈ db.categories) :
    db.attached c = true ↔ c.parentId ≠ 0 := by
  rw [attached, Bool.and_eq_true, decide_eq_true_iff]
  refine and_iff_left_of_imp fun hzero => ?_
  obtain ⟨m, hm, -⟩ := level_parent h hc hzero
  obtain ⟨p, hp, hid⟩ := mem_of_level hm
  rw [← hid, get_of_mem h hp]
  rfl

theorem mem_listed (h : db.Rooted) {p : ℤ} :
    c ∈ db.listed p ↔ c ∈ db.categories ∧ db.parent c.id = some (some p) := by
  rw [listed, List.mem_filter, mem_ordered, Bool.and_eq_true, decide_eq_true_iff]
  refine and_congr_right fun hc => ?_
  rw [attached_iff h hc, parent_of_get (get_of_mem h hc)]
  by_cases hzero : c.parentId = 0
  · simp [hzero]
  · simp [hzero]

theorem row_unique (h : db.Rooted) {c' : KbCategory} (hc : c ∈ db.categories)
    (hc' : c' ∈ db.categories) (hid : c.id = c'.id) : c = c' :=
  List.inj_on_of_nodup_map h.keyed hc hc' hid

/-- A node of the listing has the rows below its row, as deep as it is unfolded. -/
theorem mem_unfoldNode (h : db.Rooted) {fuel : ℕ} {r : KbCategory} (hc : c ∈ db.categories) :
    r ∈ (unfoldNode db.listed fuel c).rows ↔
      r ∈ db.categories ∧ ∃ k ≤ fuel, Below db.parent c.id r.id k := by
  induction fuel generalizing c with
  | zero =>
      rw [unfoldNode, CategoryNode.rows, CategoryNode.rowsOf, List.mem_singleton]
      constructor
      · rintro rfl
        exact ⟨hc, 0, le_rfl, .refl⟩
      · rintro ⟨hr, k, hk, hbelow⟩
        obtain rfl := Nat.le_zero.mp hk
        generalize hid : r.id = i at hbelow
        cases hbelow
        exact row_unique h hr hc hid
  | succ fuel ih =>
      rw [unfoldNode, CategoryNode.rows, List.mem_cons, mem_rowsOf]
      constructor
      · rintro (rfl | ⟨node, hnode, hr⟩)
        · exact ⟨hc, 0, Nat.zero_le _, .refl⟩
        · obtain ⟨c', hc', rfl⟩ := List.mem_map.mp hnode
          obtain ⟨hmem, hparent⟩ := (mem_listed h).mp hc'
          obtain ⟨hr, k, hk, hbelow⟩ := (ih hmem).mp hr
          exact ⟨hr, k + 1, Nat.succ_le_succ hk, hbelow.up hparent⟩
      · rintro ⟨hr, k, hk, hbelow⟩
        cases k with
        | zero =>
            generalize hid : r.id = i at hbelow
            cases hbelow
            exact .inl (row_unique h hr hc hid)
        | succ k =>
            obtain ⟨i, hi, hbelow⟩ := hbelow.exists_child
            obtain ⟨c', hget, -⟩ := get_of_parent hi
            obtain ⟨hc', rfl⟩ := get_some hget
            exact .inr ⟨_, List.mem_map_of_mem ((mem_listed h).mpr ⟨hc', hi⟩),
              (ih hc').mpr ⟨hr, k, Nat.le_of_succ_le_succ hk, hbelow⟩⟩

theorem nodup_rowsOf (h : db.Rooted) {fuel : ℕ} {cs : List KbCategory} (hnodup : cs.Nodup)
    (hcs : ∀ c ∈ cs, c ∈ db.categories ∧ Level db.parent c.id n)
    (hnodes : ∀ c ∈ cs, (unfoldNode db.listed fuel c).rows.Nodup) :
    (CategoryNode.rowsOf (cs.map (unfoldNode db.listed fuel))).Nodup := by
  rw [rowsOf_eq_flatMap, List.flatMap_map, List.nodup_flatMap]
  refine ⟨hnodes, hnodup.imp_of_mem fun {a b} ha hb hne => ?_⟩
  intro r hra hrb
  obtain ⟨-, k, -, hk⟩ := (mem_unfoldNode h (hcs a ha).1).mp hra
  obtain ⟨-, m, -, hm⟩ := (mem_unfoldNode h (hcs b hb).1).mp hrb
  exact hne (row_unique h (hcs a ha).1 (hcs b hb).1
    (hk.top_unique hm (hcs a ha).2 (hcs b hb).2))

theorem nodup_unfoldNode (h : db.Rooted) {fuel : ℕ} (hc : c ∈ db.categories) :
    (unfoldNode db.listed fuel c).rows.Nodup := by
  induction fuel generalizing c with
  | zero => exact List.nodup_singleton c
  | succ fuel ih =>
      obtain ⟨n, -, hlevel⟩ := h.levels c hc
      have hlisted : ∀ c' ∈ db.listed c.id, c' ∈ db.categories ∧ Level db.parent c'.id (n + 1) := by
        intro c' hc'
        obtain ⟨hmem, hparent⟩ := (mem_listed h).mp hc'
        exact ⟨hmem, .child hparent hlevel⟩
      rw [unfoldNode, CategoryNode.rows, List.nodup_cons]
      constructor
      · intro hmem
        obtain ⟨node, hnode, hrow⟩ := mem_rowsOf.mp hmem
        obtain ⟨c', hc', rfl⟩ := List.mem_map.mp hnode
        obtain ⟨-, k, -, hk⟩ := (mem_unfoldNode h (hlisted c' hc').1).mp hrow
        have hsame := (hk.level (hlisted c' hc').2).unique hlevel
        omega
      · exact nodup_rowsOf h ((nodup_ordered h).filter _) hlisted fun c' hc' =>
          ih (hlisted c' hc').1

/-- **The listing** has every category once. -/
theorem listCategories_perm (h : db.Rooted) (hg : g.check "kb:category:list" = .ok ()) :
    ∃ tree, db.listCategories g = .ok (tree, db.categories.length) ∧
      (CategoryNode.rowsOf tree).Perm db.categories := by
  have hlength : db.ordered.length = db.categories.length := (List.mergeSort_perm _ _).length_eq
  have hlinks : db.ordered.foldl db.link ⟨[], fun _ => []⟩ =
      ⟨db.ordered.filter fun c => !db.attached c, db.listed⟩ := by
    rw [foldl_link]
    rfl
  refine ⟨(db.ordered.filter fun c => !db.attached c).map
    (unfoldNode db.listed db.ordered.length), ?_, ?_⟩
  · rw [listCategories, hg, ← hlength]
    dsimp only
    rw [hlinks]
    rfl
  · have hroots : ∀ c ∈ db.ordered.filter (fun c => !db.attached c),
        c ∈ db.categories ∧ Level db.parent c.id 1 := by
      intro c hc
      obtain ⟨hmem, hroot⟩ := List.mem_filter.mp hc
      rw [mem_ordered] at hmem
      rw [Bool.not_eq_true', ← Bool.not_eq_true, attached_iff h hmem, not_not] at hroot
      have hrow := parent_of_get (get_of_mem h hmem)
      rw [if_pos hroot] at hrow
      exact ⟨hmem, .root hrow⟩
    refine (List.perm_ext_iff_of_nodup (nodup_rowsOf h ((nodup_ordered h).filter _) hroots
      fun c hc => nodup_unfoldNode h (hroots c hc).1) (nodup_categories h)).mpr fun r => ?_
    rw [mem_rowsOf]
    constructor
    · rintro ⟨node, hnode, hr⟩
      obtain ⟨c, hc, rfl⟩ := List.mem_map.mp hnode
      exact ((mem_unfoldNode h (hroots c hc).1).mp hr).1
    · intro hr
      obtain ⟨n, -, hlevel⟩ := h.levels r hr
      obtain ⟨i, k, hi, rfl, hbelow⟩ := hlevel.exists_root
      obtain ⟨c, hget, hx⟩ := get_of_parent hi
      obtain ⟨hc, rfl⟩ := get_some hget
      have hzero : c.parentId = 0 := by
        by_contra hne
        rw [if_neg hne] at hx
        cases hx
      have hle : k + 1 ≤ db.ordered.length := hlength ▸ level_le_length hlevel
      refine ⟨_, List.mem_map_of_mem (List.mem_filter.mpr ⟨mem_ordered.mpr hc, ?_⟩),
        (mem_unfoldNode h hc).mpr ⟨hr, k, Nat.le_of_succ_le hle, hbelow⟩⟩
      rw [Bool.not_eq_true', ← Bool.not_eq_true, attached_iff h hc, not_not]
      exact hzero

/-! ### Runs -/

/-- A call, of which any may raise. -/
inductive CategoryOp
  | create (g : Gate) (data : KbCategoryCreate)
  | update (g : Gate) (categoryId : ℤ) (data : KbCategoryUpdate)
  | delete (g : Gate) (articles : ℕ) (categoryId : ℤ)

/-- One call. A call that raises is rolled back. -/
def apply (db : CategoryDb) : CategoryOp → CategoryDb
  | .create g data =>
      match db.createCategory g data with
      | .ok (db', _) => db'
      | .error _ => db
  | .update g categoryId data =>
      match db.updateCategory g categoryId data with
      | .ok (db', _) => db'
      | .error _ => db
  | .delete g articles categoryId =>
      match db.deleteCategory g articles categoryId with
      | .ok db' => db'
      | .error _ => db

theorem rooted_apply (h : db.Rooted) (op : CategoryOp) : (db.apply op).Rooted := by
  cases op with
  | create g data =>
      rw [apply]
      split
      next db' c hok => exact rooted_create h hok
      · exact h
  | update g categoryId data =>
      rw [apply]
      split
      next db' c hok => exact rooted_update h hok
      · exact h
  | delete g articles categoryId =>
      rw [apply]
      split
      next db' hok => exact rooted_delete h hok
      · exact h

theorem rooted_empty : Rooted ⟨[], 1⟩ :=
  ⟨List.nodup_nil, fun _ h => absurd h List.not_mem_nil, fun _ h => absurd h List.not_mem_nil,
    Int.one_pos, fun _ h => absurd h List.not_mem_nil⟩

/-- **The category forest.** After any calls, of which any may have raised, a parent that is named
exists, the parents of a category lead to a root without repetition and within three levels, and the
listing has every category once. -/
theorem category_forest (ops : List CategoryOp) :
    (∀ c ∈ (run apply ⟨[], 1⟩ ops).categories, c.parentId ≠ 0 →
        ∃ p ∈ (run apply ⟨[], 1⟩ ops).categories, p.id = c.parentId) ∧
      (∀ c ∈ (run apply ⟨[], 1⟩ ops).categories, ∃ path,
        Ascends (run apply ⟨[], 1⟩ ops).parent c.id path ∧ path.Nodup ∧
          path.length ≤ kbCategoryMaxDepth) ∧
      ((run apply ⟨[], 1⟩ ops).categories.map KbCategory.id).Nodup ∧
      ∀ g : Gate, g.check "kb:category:list" = .ok () →
        ∃ tree, (run apply ⟨[], 1⟩ ops).listCategories g =
            .ok (tree, (run apply ⟨[], 1⟩ ops).categories.length) ∧
          (CategoryNode.rowsOf tree).Perm (run apply ⟨[], 1⟩ ops).categories := by
  have h : (run apply ⟨[], 1⟩ ops).Rooted :=
    run_invariant (P := Rooted) (fun _ op h => rooted_apply h op) rooted_empty ops
  refine ⟨fun c hc hzero => ?_, fun c hc => ?_, h.keyed, fun g hg => listCategories_perm h hg⟩
  · obtain ⟨m, hm, -⟩ := level_parent h hc hzero
    exact mem_of_level hm
  · obtain ⟨n, hn, hlevel⟩ := h.levels c hc
    obtain ⟨path, hpath, hnodup, hlength⟩ := hlevel.exists_ascends
    exact ⟨path, hpath, hnodup, hlength.trans_le hn⟩

end CategoryDb

end LarkPlat
