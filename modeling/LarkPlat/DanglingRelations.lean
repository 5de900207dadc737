import LarkPlat.CmdbVisibility
import LarkPlat.HostGroups
import LarkPlat.Machine

/-!
# Relations of Deleted Entities

A relation names its endpoints by type and number, and the table has no foreign keys. `delete_host`
and `delete_group` delete the row of the host or the group, and `create_relation` looks at the
visibility of the endpoints and not at their rows. The three calls that read relations show an
endpoint that the caller sees, with an empty label if its row is gone.

The numbers of hosts and of groups come from sequences and are used once.

## Main results

* `NoDangling.of_stored`: the readers show no deleted endpoint if none is stored.
* `relations_kept_iff`: along any calls no deleted endpoint is stored or shown exactly if no delete
  that goes through finds a relation of its entity and no relation that is stored names a deleted
  one.
-/

namespace LarkPlat.Cmdb

open Machine Search

/-! ### The tables -/

/-- The host as the visibility of entities reads it. Numbers are positive. -/
def assetHost (h : HostRow) : AssetHost := ⟨h.id.toNat, h.hostname, h.ip, h.groupId.map Int.toNat⟩

/-- The hosts, the groups and the relations, with the entities that have been deleted. -/
structure AssetStore where
  hosts : HostTable
  groups : GroupDb
  enabled : Bool
  relations : List EntityRelation
  nextRelation : ℤ
  gone : List Entity

namespace AssetStore

/-- The tables as the calls on relations read them. -/
def cmdb (st : AssetStore) : CmdbDb where
  enabled := st.enabled
  hosts := st.hosts.rows.map assetHost
  groups := st.groups.groups.map fun g => ⟨g.id, g.name⟩
  relations := st.relations
  nextRelation := st.nextRelation

/-- `host_count`. -/
def hostCount (st : AssetStore) (groupId : ℤ) : ℕ :=
  st.hosts.rows.countP fun h => decide (h.groupId = some groupId)

/-- The calls, of which any may raise. -/
inductive AssetOp
  | createRelation (now : ℚ) (user : Actor) (data : RelationCreate)
  | deleteRelation (user : Actor) (relationId : ℤ)
  | deleteHost (env : HostEnv) (user : Actor) (hostId : ℤ)
  | deleteGroup (groupId : ℤ)

/-- One call. A call that raises is rolled back. -/
def apply (st : AssetStore) : AssetOp → AssetStore
  | .createRelation now user data =>
      match createRelation now user data st.cmdb with
      | .ok (db, _) => { st with relations := db.relations, nextRelation := db.nextRelation }
      | .error _ => st
  | .deleteRelation user relationId =>
      match deleteRelation user relationId st.cmdb with
      | .ok db => { st with relations := db.relations }
      | .error _ => st
  | .deleteHost env user hostId =>
      match deleteHost env user st.hosts hostId with
      | .ok hosts => { st with hosts := hosts, gone := st.gone ++ [⟨"host", hostId⟩] }
      | .error _ => st
  | .deleteGroup groupId =>
      match st.groups.deleteGroup (st.hostCount groupId) groupId with
      | .ok groups => { st with groups := groups, gone := st.gone ++ [⟨"host_group", groupId⟩] }
      | .error _ => st

/-! ### Deleted endpoints -/

/-- Neither endpoint has been deleted. -/
def Alive (st : AssetStore) (r : EntityRelation) : Prop := r.src ∉ st.gone ∧ r.dst ∉ st.gone

/-- No relation has an endpoint that has been deleted, and no reader shows one. -/
structure NoDangling (st : AssetStore) : Prop where
  stored : ∀ r ∈ st.relations, st.Alive r
  listed : ∀ user filters page size res,
    listRelations st.cmdb user filters page size = .ok res → ∀ r ∈ res.list, st.Alive r
  topology : ∀ (scan : Scan st.cmdb.relations) user root direction depth relTypes res,
    topology st.cmdb scan user root direction depth relTypes = .ok res →
      (∀ e ∈ res.edges, e.src ∉ st.gone ∧ e.dst ∉ st.gone) ∧
        ∀ k ∈ res.nodes, k.entity ≠ root → k.entity ∉ st.gone
  impact : ∀ (scan : Scan st.cmdb.relations) user root direction depth relTypes res,
    impact st.cmdb scan user root direction depth relTypes = .ok res →
      ∀ k ∈ res.affected, k.entity ∉ st.gone

section Readers

variable {st : AssetStore} {root x : Entity} {d : Direction} {n : ℕ}
  {relTypes : Option (List String)}

theorem endpoint_of_within (h : ∀ r ∈ st.relations, st.Alive r)
    (hwithin : Within (Linked st.relations d relTypes) root n x) (hne : x ≠ root) :
    x ∉ st.gone := by
  obtain ⟨k, -, hwalk⟩ := hwithin
  cases hwalk with
  | refl => exact absurd rfl hne
  | step _ hlinked =>
      obtain ⟨r, hr, -, hleads⟩ := hlinked
      obtain ⟨hsrc, hdst⟩ := h r hr
      cases d with
      | down => exact hleads.2 ▸ hdst
      | up => exact hleads.2 ▸ hsrc
      | both =>
          rcases hleads with ⟨-, rfl⟩ | ⟨-, rfl⟩
          · exact hdst
          · exact hsrc

/-- **The readers** show no deleted endpoint if none is stored. -/
theorem NoDangling.of_stored (h : ∀ r ∈ st.relations, st.Alive r) : st.NoDangling := by
  refine ⟨h, ?_, ?_, ?_⟩
  · intro user filters page size res hok r hr
    obtain ⟨-, -, hok⟩ := bind_eq_ok.mp hok
    obtain ⟨-, -, hok⟩ := bind_eq_ok.mp hok
    obtain rfl := Except.ok.inj hok
    have hlisted := List.mem_of_mem_drop (List.mem_of_mem_take hr)
    exact h r (((treatsVisible_scope st.cmdb user).list filters r).mp hlisted).1
  · intro scan user root direction depth relTypes res hok
    obtain ⟨d, n, -, -, rfl⟩ := topology_eq hok
    have hsearch : IsTopology st.cmdb scan (st.cmdb.visibleScope user) root d n relTypes _ :=
      isTopology_search _
    refine ⟨fun e he => ?_, fun k hk hne => ?_⟩
    · obtain ⟨-, -, j, -, node, -, r, hr, rfl⟩ := hsearch.edges e he
      exact h r (mem_edgesFor.mp hr).1
    · have hmem := (mem_topology_nodes hsearch k.entity).mp (List.mem_map_of_mem hk)
      exact endpoint_of_within h hmem.1 hne
  · intro scan user root direction depth relTypes res hok k hk
    obtain ⟨d, n, -, -, rfl⟩ := impact_eq hok
    have hmem := (mem_impact_affected (isImpact_search _) k.entity).mp (List.mem_map_of_mem hk)
    exact endpoint_of_within h hmem.1 hmem.2.1

end Readers

/-! ### Calls -/

/-- A delete that goes through finds no relation of its entity, and a relation that is stored names
no entity that has been deleted. -/
def KeepsAlive (st : AssetStore) : AssetOp → Prop
  | .createRelation now user data =>
      (∃ res, createRelation now user data st.cmdb = .ok res) →
        data.src ∉ st.gone ∧ data.dst ∉ st.gone
  | .deleteRelation _ _ => True
  | .deleteHost env user hostId =>
      (∃ hosts, deleteHost env user st.hosts hostId = .ok hosts) →
        ∀ r ∈ st.relations, r.src ≠ ⟨"host", hostId⟩ ∧ r.dst ≠ ⟨"host", hostId⟩
  | .deleteGroup groupId =>
      (∃ groups, st.groups.deleteGroup (st.hostCount groupId) groupId = .ok groups) →
        ∀ r ∈ st.relations, r.src ≠ ⟨"host_group", groupId⟩ ∧ r.dst ≠ ⟨"host_group", groupId⟩

section Calls

variable {st : AssetStore}

/-- `create_relation` answers with a row of its endpoints, which is there or is added. -/
theorem createRelation_ok {now : ℚ} {user : Actor} {data : RelationCreate} {db db' : CmdbDb}
    {row : EntityRelation} (h : createRelation now user data db = .ok (db', row)) :
    row.src = data.src ∧ row.dst = data.dst ∧
      ((row ∈ db.relations ∧ db' = db) ∨ db'.relations = db.relations ++ [row]) := by
  obtain ⟨-, -, h⟩ := bind_eq_ok.mp h
  obtain ⟨-, -, h⟩ := bind_eq_ok.mp h
  obtain ⟨-, -, h⟩ := bind_eq_ok.mp h
  obtain ⟨-, -, h⟩ := bind_eq_ok.mp h
  cases hfind : db.relations.find? fun r =>
      decide (r.src = data.src ∧ r.dst = data.dst ∧ r.relType = data.relType) with
  | some existing =>
      rw [hfind] at h
      obtain ⟨rfl, rfl⟩ := Prod.mk.inj (Except.ok.inj h)
      have hkey := List.find?_some hfind
      rw [decide_eq_true_iff] at hkey
      exact ⟨hkey.1, hkey.2.1, .inl ⟨List.mem_of_find?_eq_some hfind, rfl⟩⟩
  | none =>
      rw [hfind] at h
      dsimp only at h
      split_ifs at h
      obtain ⟨rfl, rfl⟩ := Prod.mk.inj (Except.ok.inj h)
      exact ⟨rfl, rfl, .inr rfl⟩

/-- `delete_relation` leaves relations that were there. -/
theorem deleteRelation_ok {user : Actor} {relationId : ℤ} {db db' : CmdbDb}
    (h : deleteRelation user relationId db = .ok db') : ∀ r ∈ db'.relations, r ∈ db.relations := by
  obtain ⟨-, -, h⟩ := bind_eq_ok.mp h
  obtain ⟨-, -, h⟩ := bind_eq_ok.mp h
  cases hfind : db.relations.find? fun r => decide (r.id = relationId) with
  | none =>
      rw [hfind] at h
      cases h
  | some row =>
      rw [hfind] at h
      obtain ⟨-, -, h⟩ := bind_eq_ok.mp h
      obtain rfl := Except.ok.inj h
      exact fun r hr => List.mem_of_mem_filter hr

/-- An entity more is deleted: no relation has a deleted endpoint exactly if none has this one. -/
theorem alive_concat_iff (h : ∀ r ∈ st.relations, st.Alive r) (e : Entity) :
    (∀ r ∈ st.relations, r.src ∉ st.gone ++ [e] ∧ r.dst ∉ st.gone ++ [e]) ↔
      ∀ r ∈ st.relations, r.src ≠ e ∧ r.dst ≠ e := by
  refine forall_congr' fun r => imp_congr_right fun hr => ?_
  obtain ⟨hsrc, hdst⟩ := h r hr
  simp only [List.mem_append, List.mem_singleton, not_or, hsrc, hdst, not_false_eq_true, true_and,
    Ne]

/-- **One call** leaves no relation with a deleted endpoint exactly under its condition. -/
theorem alive_apply_iff (h : ∀ r ∈ st.relations, st.Alive r) (op : AssetOp) :
    (∀ r ∈ (st.apply op).relations, (st.apply op).Alive r) ↔ st.KeepsAlive op := by
  cases op with
  | createRelation now user data =>
      rw [apply, KeepsAlive]
      cases hres : createRelation now user data st.cmdb with
      | error e => simpa using h
      | ok res =>
          obtain ⟨db, row⟩ := res
          obtain ⟨hsrc, hdst, hrows⟩ := createRelation_ok hres
          rw [← hsrc, ← hdst]
          rcases hrows with ⟨hmem, rfl⟩ | hrows
          · exact iff_of_true h fun _ => h row hmem
          · dsimp only
            rw [hrows]
            constructor
            · exact fun hall _ => hall row (List.mem_append_right _ (List.mem_singleton_self row))
            · intro hrow r hr
              rcases List.mem_append.mp hr with hr | hr
              · exact h r hr
              · rw [List.mem_singleton.mp hr]
                exact hrow ⟨_, rfl⟩
  | deleteRelation user relationId =>
      rw [apply, KeepsAlive]
      refine iff_of_true ?_ trivial
      cases hres : deleteRelation user relationId st.cmdb with
      | error e => exact h
      | ok db => exact fun r hr => h r (deleteRelation_ok hres r hr)
  | deleteHost env user hostId =>
      rw [apply, KeepsAlive]
      cases hres : deleteHost env user st.hosts hostId with
      | error e => simpa using h
      | ok hosts =>
          refine (alive_concat_iff h _).trans ⟨fun hnone _ => hnone, fun hnone => ?_⟩
          exact hnone ⟨hosts, rfl⟩
  | deleteGroup groupId =>
      rw [apply, KeepsAlive]
      cases hres : st.groups.deleteGroup (st.hostCount groupId) groupId with
      | error e => simpa using h
      | ok groups =>
          refine (alive_concat_iff h _).trans ⟨fun hnone _ => hnone, fun hnone => ?_⟩
          exact hnone ⟨groups, rfl⟩

end Calls

/-- **No dangling relations.** Along any calls, from tables of which nothing has been deleted yet,
no relation with a deleted endpoint is stored or shown in any state exactly if each call meets its
condition. -/
theorem relations_kept_iff {st : AssetStore} (hgone : st.gone = []) (ops : List AssetOp) :
    (∀ pre, pre <+: ops → (run apply st pre).NoDangling) ↔ Meets apply KeepsAlive st ops := by
  refine always_iff_meets (P := fun _ => True) (Q := NoDangling) (fun _ _ _ => trivial)
    (fun s op _ hs => ?_) trivial (.of_stored fun r _ => ?_) ops
  · rw [← alive_apply_iff hs.stored op]
    exact ⟨NoDangling.stored, .of_stored⟩
  · rw [Alive, hgone]
    exact ⟨List.not_mem_nil, List.not_mem_nil⟩

/-! ### A host with a relation -/

/-- A host of group 1. -/
def plainHost (id : ℤ) (hostname ip : String) : HostRow :=
  ⟨id, hostname, ip, "linux", "", some 1, "prod", .arr [], "low", "online", "ssh", none, "", none,
    "", none, 0, 0⟩

/-- Two hosts without a relation. -/
def pairStore : AssetStore where
  hosts := ⟨[plainHost 1 "web" "10.0.0.1", plainHost 2 "db" "10.0.0.2"], by decide, by decide⟩
  groups := ⟨[⟨1, 0, "prod", 0, ""⟩], 2⟩
  enabled := true
  relations := []
  nextRelation := 1
  gone := []

/-- The hosts are related. -/
def relatePair : AssetOp :=
  .createRelation 0 cmdbAdmin ⟨host 1, host 2, "depends_on", none, ""⟩

/-- Host 2, which no task names, is deleted. -/
def deletePeer : AssetOp := .deleteHost ⟨[⟨1, "prod"⟩], 3, 0, fun _ => 0, fun _ => 0⟩ cmdbAdmin 2

/-- The relation outlives its host. -/
theorem relation_outlives_host :
    ¬ ∀ pre, pre <+: [relatePair, deletePeer] → (run apply pairStore pre).NoDangling := by
  intro h
  have hrelations : (run apply pairStore [relatePair, deletePeer]).relations =
      [⟨1, host 1, host 2, "depends_on", none, "", some 1, 0, 0⟩] := by
    decide
  have hgone : (run apply pairStore [relatePair, deletePeer]).gone = [host 2] := by decide
  obtain ⟨-, hdst⟩ := (h _ List.prefix_rfl).stored _ (hrelations ▸ List.mem_singleton_self _)
  rw [hgone] at hdst
  exact hdst (List.mem_singleton_self _)

/-- A relation that is deleted before its host. -/
def deletedFirst : List AssetOp := [relatePair, .deleteRelation cmdbAdmin 1, deletePeer]

/-- The host leaves nothing behind. -/
theorem relation_deleted_first : (run apply pairStore deletedFirst).NoDangling := by
  have hmeets : Meets apply KeepsAlive pairStore deletedFirst := by
    refine ⟨fun _ => ?_, trivial, fun _ => ?_, trivial⟩
    · exact ⟨List.not_mem_nil, List.not_mem_nil⟩
    · have hnone :
          (run apply pairStore [relatePair, .deleteRelation cmdbAdmin 1]).relations = [] := by
        decide
      exact fun r hr => absurd (hnone ▸ hr : r ∈ []) List.not_mem_nil
  exact (relations_kept_iff rfl deletedFirst).mpr hmeets deletedFirst List.prefix_rfl

end AssetStore

end LarkPlat.Cmdb
