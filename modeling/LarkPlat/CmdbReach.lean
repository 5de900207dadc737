import LarkPlat.Cmdb

/-!
# What the Searches Reach

`topology` and `impact` are two loops over one table of relations, which may be cyclic and may have
many relations between two entities. Both find the entities within the depth from the root. The flag
says that the last layer has an entity, which is one that was found, while what was left out lies
behind it.

## Main results

* `topology_reaches`: both calls show an administrator the entities within the depth, each once and
  in the same order, and edges between them.
* `truncated_exact_iff`: the flag says that something lies behind the depth exactly if the depth is
  zero and the root has no relation, or the last layer is empty or has something behind it.
-/

namespace LarkPlat.Cmdb

open Search

/-- The text of a direction. -/
def Direction.name : Direction → String
  | .up => "up"
  | .down => "down"
  | .both => "both"

section Reach

variable {db : CmdbDb} {scan : Scan db.relations} {user : Actor} {root node x y : Entity}
  {d : Direction} {n j : ℕ} {relTypes : Option (List String)}

@[simp] theorem checkDirection_name (d : Direction) : checkDirection (some d.name) = .ok d := by
  cases d <;> rfl

theorem clampDepth_of_le (hn : n ≤ 3) : clampDepth (some n) = .ok n := by
  have hin : ¬ ((n : ℤ) < 0 ∨ 3 < (n : ℤ)) := by omega
  rw [clampDepth, if_neg hin, Int.toNat_natCast]

theorem entityVisible_admin (hadmin : user.isAdmin = true) (e : Entity) :
    (db.visibleScope user).entityVisible e = true := by
  rw [CmdbDb.visibleScope, if_pos hadmin, Scope.entityVisible]
  split_ifs <;> rfl

/-- One end of a row of a node is the node, and the other one is linked to it. -/
theorem ends_of_mem_edgesFor {r : EntityRelation} (hr : r ∈ edgesFor scan d relTypes node) :
    (r.src = node ∧ Linked db.relations d relTypes node r.dst) ∨
      (r.dst = node ∧ Linked db.relations d relTypes node r.src) := by
  obtain ⟨hmem, hpasses, htouches⟩ := mem_edgesFor.mp hr
  have hlinked : ∀ {y}, LeadsTo r node y d → Linked db.relations d relTypes node y :=
    fun h => ⟨r, hmem, hpasses, h⟩
  cases d with
  | down =>
      have hsrc : r.src = node := of_decide_eq_true htouches
      exact .inl ⟨hsrc, hlinked ⟨hsrc, rfl⟩⟩
  | up =>
      have hdst : r.dst = node := of_decide_eq_true htouches
      exact .inr ⟨hdst, hlinked ⟨hdst, rfl⟩⟩
  | both =>
      have hends : r.src = node ∨ r.dst = node := of_decide_eq_true htouches
      rcases hends with hsrc | hdst
      · exact .inl ⟨hsrc, hlinked (.inl ⟨hsrc, rfl⟩)⟩
      · exact .inr ⟨hdst, hlinked (.inr ⟨hdst, rfl⟩)⟩

/-- Both ends of a row of a node within some steps are within one step more. -/
theorem within_of_edge {r : EntityRelation}
    (hnode : Within (Linked db.relations d relTypes) root j node)
    (hr : r ∈ edgesFor scan d relTypes node) :
    Within (Linked db.relations d relTypes) root (j + 1) r.src ∧
      Within (Linked db.relations d relTypes) root (j + 1) r.dst := by
  obtain ⟨k, hk, hwalk⟩ := hnode
  have hown : Within (Linked db.relations d relTypes) root (j + 1) node :=
    ⟨k, Nat.le_succ_of_le hk, hwalk⟩
  have hother : ∀ y, Linked db.relations d relTypes node y →
      Within (Linked db.relations d relTypes) root (j + 1) y :=
    fun y hy => ⟨k + 1, Nat.succ_le_succ hk, .step hwalk hy⟩
  rcases ends_of_mem_edgesFor hr with ⟨hsrc, hdst⟩ | ⟨hdst, hsrc⟩
  · exact ⟨hsrc ▸ hown, hother _ hdst⟩
  · exact ⟨hother _ hsrc, hdst ▸ hown⟩

/-- **Bounded reachability.** For an administrator, the nodes of `topology` are the entities within
the depth from the root, each once, its edges join two of them, and `impact` shows the nodes without
the root, in their order if the rows are scanned in the same one. -/
theorem topology_reaches (scan : Scan db.relations) (root : Entity) (d : Direction)
    (relTypes : Option (List String)) (henabled : db.enabled = true)
    (hperm : user.hasPerm "asset:topo:view" = true) (hadmin : user.isAdmin = true) (hn : n ≤ 3) :
    ∃ topo, topology db scan user root (some d.name) (some n) relTypes = .ok topo ∧
      (topo.nodes.map TopologyNode.entity).Nodup ∧
      (∀ x, x ∈ topo.nodes.map TopologyNode.entity ↔
        Within (Linked db.relations d relTypes) root n x) ∧
      (∀ e ∈ topo.edges, e.src ∈ topo.nodes.map TopologyNode.entity ∧
        e.dst ∈ topo.nodes.map TopologyNode.entity) ∧
      ∀ scan' : Scan db.relations,
        ∃ imp, impact db scan' user root (some d.name) (some n) relTypes = .ok imp ∧
          (imp.affected.map LabelledEntity.entity).Nodup ∧
          (∀ x, x ∈ imp.affected.map LabelledEntity.entity ↔
            x ∈ topo.nodes.map TopologyNode.entity ∧ x ≠ root) ∧
          (scan' = scan → topo.nodes.map TopologyNode.entity =
            root :: imp.affected.map LabelledEntity.entity) := by
  obtain ⟨topo, hok, htopo⟩ := topology_ok scan root relTypes henabled hperm (checkDirection_name d)
    (clampDepth_of_le hn)
  have hall : ∀ es : List Entity, es.filter (db.visibleScope user).entityVisible = es := fun es =>
    List.filter_eq_self.mpr fun e _ => entityVisible_admin hadmin e
  have hnodes := htopo.nodes
  rw [hall] at hnodes
  have hlayer := layers_isLayer scan d relTypes root n
  have hmem : ∀ x, x ∈ topo.nodes.map TopologyNode.entity ↔
      Within (Linked db.relations d relTypes) root n x := fun x => hnodes ▸ hlayer.seen x
  refine ⟨topo, hok, hnodes ▸ hlayer.distinct, hmem, fun e he => ?_, fun scan' => ?_⟩
  · obtain ⟨-, -, j, hj, node, hnode, r, hr, rfl⟩ := htopo.edges e he
    have hwithin := (((layers_isLayer scan d relTypes root j).next node).mp hnode).within
    obtain ⟨hsrc, hdst⟩ := within_of_edge hwithin hr
    exact ⟨(hmem _).mpr (hsrc.mono hj), (hmem _).mpr (hdst.mono hj)⟩
  · obtain ⟨imp, himp, hisImpact⟩ := impact_ok scan' root (some d.name) relTypes henabled hperm
      (checkDirection_name d) (clampDepth_of_le hn)
    have haffected := hisImpact.affected
    rw [hall] at haffected
    have hlayer' := layers_isLayer scan' d relTypes root n
    obtain ⟨rest, hrest⟩ := layers_seen_eq (neighbours (edgesFor scan' d relTypes)) root n
    rw [hrest, List.tail_cons] at haffected
    have hdistinct := hlayer'.distinct
    rw [hrest, List.nodup_cons] at hdistinct
    refine ⟨imp, himp, haffected ▸ hdistinct.2, fun x => ?_, ?_⟩
    · rw [haffected, hmem, ← hlayer'.seen, hrest, List.mem_cons]
      constructor
      · intro hx
        exact ⟨.inr hx, fun heq => hdistinct.1 (heq ▸ hx)⟩
      · rintro ⟨hx, hne⟩
        exact hx.resolve_left hne
    · rintro rfl
      rw [hnodes, haffected, hrest]

/-! ### The flag -/

/-- Some entity is reached that is not within the depth. -/
def LeavesOut (rows : List EntityRelation) (d : Direction) (relTypes : Option (List String))
    (root : Entity) (n : ℕ) : Prop :=
  ∃ k x, Walk (Linked rows d relTypes) root k x ∧ ¬ Within (Linked rows d relTypes) root n x

/-- Both calls say whether an entity that is reached is left out. -/
def FlagExact (db : CmdbDb) (scan : Scan db.relations) (user : Actor) (root : Entity)
    (d : Direction) (n : ℕ) (relTypes : Option (List String)) : Prop :=
  ∃ topo imp, topology db scan user root (some d.name) (some n) relTypes = .ok topo ∧
    impact db scan user root (some d.name) (some n) relTypes = .ok imp ∧
    (topo.truncated = true ↔ LeavesOut db.relations d relTypes root n) ∧
    (imp.truncated = true ↔ LeavesOut db.relations d relTypes root n)

/-- The depth is zero and nothing is linked to the root, or it is not zero and the entities at its
distance, if there are any, are not the last ones. -/
def BoundarySeen (rows : List EntityRelation) (d : Direction) (relTypes : Option (List String))
    (root : Entity) (n : ℕ) : Prop :=
  (n = 0 → ∀ x, ¬ AtDistance (Linked rows d relTypes) root 1 x) ∧
    (n ≠ 0 → (∃ x, AtDistance (Linked rows d relTypes) root n x) →
      ∃ x, AtDistance (Linked rows d relTypes) root (n + 1) x)

/-- The last layer of the search is empty exactly if no entity is at its distance. -/
theorem next_ne_nil_iff (scan : Scan db.relations) (d : Direction) (relTypes : Option (List String))
    (root : Entity) (n : ℕ) :
    (layers (neighbours (edgesFor scan d relTypes)) root n).next ≠ [] ↔
      ∃ x, AtDistance (Linked db.relations d relTypes) root n x := by
  rw [Ne, List.eq_nil_iff_forall_not_mem, not_forall_not]
  exact exists_congr (layers_isLayer scan d relTypes root n).next

/-- **The flag** of both calls is exact exactly if the boundary of the search is seen. -/
theorem truncated_exact_iff (scan : Scan db.relations) (root : Entity) (d : Direction)
    (relTypes : Option (List String)) (henabled : db.enabled = true)
    (hperm : user.hasPerm "asset:topo:view" = true) (hn : n ≤ 3) :
    FlagExact db scan user root d n relTypes ↔ BoundarySeen db.relations d relTypes root n := by
  obtain ⟨topo, hok, htopo⟩ := topology_ok scan root relTypes henabled hperm
    (checkDirection_name d) (clampDepth_of_le hn)
  obtain ⟨imp, himp, hisImpact⟩ := impact_ok scan root (some d.name) relTypes henabled hperm
    (checkDirection_name d) (clampDepth_of_le hn)
  have hflags : (n ≠ 0 ∧ ∃ x, AtDistance (Linked db.relations d relTypes) root n x) ↔
      topo.truncated = true := by
    rw [htopo.truncated, next_ne_nil_iff]
  have hsame : imp.truncated = true ↔ topo.truncated = true :=
    hisImpact.truncated.trans htopo.truncated.symm
  have hexact : FlagExact db scan user root d n relTypes ↔
      (topo.truncated = true ↔ LeavesOut db.relations d relTypes root n) := by
    constructor
    · rintro ⟨topo', -, hok', -, hflag, -⟩
      rwa [Except.ok.inj (hok.symm.trans hok')]
    · exact fun hflag => ⟨topo, imp, hok, himp, hflag, hsame.trans hflag⟩
  rw [hexact, ← hflags, LeavesOut, exists_beyond_iff, BoundarySeen]
  by_cases hzero : n = 0
  · subst hzero
    simp
  · simp only [hzero, ne_eq, not_false_eq_true, true_and, false_imp_iff, true_imp_iff]
    refine ⟨Iff.mp, fun h => ⟨h, ?_⟩⟩
    rintro ⟨x, hx⟩
    obtain ⟨-, y, hy, -⟩ := atDistance_succ_iff.mp hx
    exact ⟨y, hy⟩

end Reach

/-! ### A leaf at the boundary -/

/-- A host. -/
def host (id : ℤ) : Entity := ⟨"host", id⟩

/-- One relation, from host 1 to host 2. -/
def oneRelation : CmdbDb where
  enabled := true
  hosts := [⟨1, "web", "10.0.0.1", some 1⟩, ⟨2, "db", "10.0.0.2", some 1⟩]
  groups := [⟨1, "prod"⟩]
  relations := [⟨1, host 1, host 2, "depends_on", none, "", none, 0, 0⟩]
  nextRelation := 2

/-- The rows in their order. -/
def Scan.inOrder (rows : List EntityRelation) : Scan rows := ⟨fun _ => rows, fun _ => .refl rows⟩

/-- An administrator. -/
def cmdbAdmin : Actor := ⟨1, true, [], fun _ => true⟩

theorem none_behind_leaf (x : Entity) :
    ¬ AtDistance (Linked oneRelation.relations .down none) (host 1) 2 x := by
  have hnone : (layers (neighbours (edgesFor (Scan.inOrder oneRelation.relations) .down none))
      (host 1) 2).next = [] := by
    decide
  exact fun hx => (next_ne_nil_iff (Scan.inOrder _) .down none (host 1) 2).mpr ⟨x, hx⟩ hnone

/-- Host 2 is shown to an administrator. -/
theorem leaf_shown : ∃ topo,
    topology oneRelation (Scan.inOrder _) cmdbAdmin (host 1) (some "down") (some 1) none =
        .ok topo ∧
      host 2 ∈ topo.nodes.map TopologyNode.entity := by
  obtain ⟨topo, hok, -, hmem, -⟩ := topology_reaches (Scan.inOrder oneRelation.relations) (host 1)
    .down none rfl (rfl : cmdbAdmin.hasPerm "asset:topo:view" = true) rfl (by decide : 1 ≤ 3)
  refine ⟨topo, hok, (hmem _).mpr ⟨1, le_rfl, .step .refl ?_⟩⟩
  exact ⟨_, List.mem_singleton_self _, rfl, rfl, rfl⟩

/-- Both hosts are shown, and the flag says that something is left out. -/
theorem leaf_reported_truncated :
    ¬ FlagExact oneRelation (Scan.inOrder _) cmdbAdmin (host 1) .down 1 none := by
  rintro ⟨topo, -, hok, -, hflag, -⟩
  have hshown :
      topology oneRelation (Scan.inOrder _) cmdbAdmin (host 1) (some "down") (some 1) none =
        .ok ⟨[⟨host 1, "web", "root"⟩, ⟨host 2, "db", "down"⟩],
          [⟨host 1, host 2, "depends_on"⟩], true⟩ := by
    decide
  obtain rfl := Except.ok.inj (hshown.symm.trans hok)
  obtain ⟨x, hx⟩ := exists_beyond_iff.mp (hflag.mp rfl)
  exact none_behind_leaf x hx

/-- With two steps the flag is exact. -/
theorem leaf_inside_exact :
    FlagExact oneRelation (Scan.inOrder _) cmdbAdmin (host 1) .down 2 none :=
  (truncated_exact_iff (Scan.inOrder _) (host 1) .down none rfl rfl (by decide)).mpr
    ⟨fun h => absurd h (by decide), fun _ ⟨x, hx⟩ => absurd hx (none_behind_leaf x)⟩

end LarkPlat.Cmdb
