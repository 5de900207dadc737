import LarkPlat.BoundedSearch
import LarkPlat.HostWrites
import LarkPlat.Visibility

/-!
# Relations of Entities

`cmdb_service.py`: the table `entity_relation` of directed relations between hosts and host groups,
the calls that write and list it, and the two searches of it, `topology` and `impact`. A caller who
is no administrator sees a host whose number is among the names of the visible hosts, and the groups
of the caller's roles.

The statement of `_edges_for` asks for no order: a `Scan` gives the rows of each query in some
order. The searches stop at a depth of at most three.

## Main results

* `topologyLevels_spec`, `impactLevels_spec`: both loops are the search of the layers, and set the
  flag exactly if the last layer is not empty.
* `topology_ok`, `impact_ok`: what the two calls return.
-/

namespace LarkPlat.Cmdb

open Search

/-! ### Rows -/

/-- An endpoint of a relation. -/
structure Entity where
  type : String
  id : ℤ
  deriving DecidableEq

/-- The columns of `entity_relation`. -/
structure EntityRelation where
  id : ℤ
  src : Entity
  dst : Entity
  relType : String
  properties : Option Json
  remark : String
  createdBy : Option ℕ
  createdAt : ℚ
  updatedAt : ℚ
  deriving DecidableEq

/-- The tables. `enabled` is the truth value of the rule `feature.cmdb_topology`. -/
structure CmdbDb where
  enabled : Bool
  hosts : List AssetHost
  groups : List AssetGroup
  relations : List EntityRelation
  nextRelation : ℤ
  deriving DecidableEq

/-- The rows of the table in the order in which the query of a node gives them. -/
structure Scan (rows : List EntityRelation) where
  rowsFor : Entity → List EntityRelation
  perm : ∀ node, (rowsFor node).Perm rows

/-- `ENTITY_TYPES`. -/
def entityTypes : List String := ["host", "host_group"]

/-- `REL_TYPES`. -/
def relTypeNames : List String := ["depends_on", "runs_on", "connects_to", "member_of", "hosts"]

/-- `_require_feature`. -/
def CmdbDb.requireFeature (db : CmdbDb) : Except PyErr Unit :=
  if db.enabled then .ok () else .error (.badRequest "feature disabled")

/-! ### Visibility -/

/-- The names of hosts and the numbers of groups that a caller sees; `none` is no restriction. -/
structure Scope where
  hosts : Option (List String)
  groups : Option (List ℕ)
  deriving DecidableEq

/-- `_visible_scope`. -/
def CmdbDb.visibleScope (db : CmdbDb) (user : Actor) : Scope :=
  if user.isAdmin then ⟨none, none⟩
  else ⟨some (visibleEntityIds db.hosts user.visibleGroupIds), some user.visibleGroupIds⟩

/-- `_entity_visible`. -/
def Scope.entityVisible (scope : Scope) (e : Entity) : Bool :=
  if e.type = "host" then scope.hosts.all fun hosts => decide (toString e.id ∈ hosts)
  else if e.type = "host_group" then
    scope.groups.all fun groups => decide (e.id ∈ groups.map Nat.cast)
  else scope.hosts.isNone && scope.groups.isNone

/-! ### Arguments -/

/-- The directions of a search: `up`, `down` and `both`. -/
inductive Direction
  | up | down | both
  deriving DecidableEq, Repr

/-- `_clamp_depth`. -/
def clampDepth : Option ℤ → Except PyErr ℕ
  | none => .ok 2
  | some depth =>
      if depth < 0 ∨ 3 < depth then .error (.validation "depth must be 0..3") else .ok depth.toNat

/-- `_check_direction`. -/
def checkDirection (direction : Option String) : Except PyErr Direction :=
  let d := direction.getD ""
  if d = "" ∨ d = "both" then .ok .both
  else if d = "up" then .ok .up
  else if d = "down" then .ok .down
  else .error (.validation "direction must be one of ['both', 'down', 'up']")

/-- `RelationCreate`. -/
structure RelationCreate where
  src : Entity
  dst : Entity
  relType : String
  properties : Option Json
  remark : String

/-- `_validate_create`. -/
def validateCreate (data : RelationCreate) : Except PyErr Unit :=
  if data.src.type ∉ entityTypes ∨ data.dst.type ∉ entityTypes then
    .error (.validation "entity_type must be one of ['host', 'host_group']")
  else if data.relType ∉ relTypeNames then
    .error (.validation
      "rel_type must be one of ['connects_to', 'depends_on', 'hosts', 'member_of', 'runs_on']")
  else if data.src = data.dst then .error (.validation "self relation is not allowed")
  else .ok ()

/-- `_labels`, as it is read with `get(key, "")`. -/
def CmdbDb.labels (db : CmdbDb) (keys : List Entity) (e : Entity) : String :=
  if e ∉ keys then ""
  else if e.type = "host" then
    match db.hosts.find? fun h => decide ((h.id : ℤ) = e.id) with
    | some h => if h.hostname = "" then h.ip else h.hostname
    | none => ""
  else if e.type = "host_group" then
    match db.groups.find? fun g => decide (g.id = e.id) with
    | some g => g.name
    | none => ""
  else ""

/-- The relation passes the filter of types, which is none where it is empty. -/
def passes (relTypes : Option (List String)) (r : EntityRelation) : Bool :=
  match relTypes with
  | none => true
  | some types => types.isEmpty || decide (r.relType ∈ types)

/-- The relation is one of the node in the direction. -/
def touches (direction : Direction) (node : Entity) (r : EntityRelation) : Bool :=
  match direction with
  | .down => decide (r.src = node)
  | .up => decide (r.dst = node)
  | .both => decide (r.src = node ∨ r.dst = node)

/-- `_edges_for`. -/
def edgesFor {rows : List EntityRelation} (scan : Scan rows) (direction : Direction)
    (relTypes : Option (List String)) (node : Entity) : List EntityRelation :=
  (scan.rowsFor node).filter fun r => passes relTypes r && touches direction node r

/-! ### Writes and lists -/

/-- The filters of `list_relations`. -/
structure RelationFilters where
  srcType : Option String
  srcId : Option ℤ
  dstType : Option String
  dstId : Option ℤ
  relType : Option String

/-- The row passes the filters. -/
def RelationFilters.pass (f : RelationFilters) (r : EntityRelation) : Bool :=
  f.srcType.all (fun x => decide (r.src.type = x)) &&
    f.srcId.all (fun x => decide (r.src.id = x)) &&
    f.dstType.all (fun x => decide (r.dst.type = x)) &&
    f.dstId.all (fun x => decide (r.dst.id = x)) && f.relType.all fun x => decide (r.relType = x)

/-- A page of relations, with the number of all. -/
structure RelationPage where
  list : List EntityRelation
  total : ℕ
  page : ℕ
  size : ℕ
  deriving DecidableEq

/-- The rows that `list_relations` shows on its pages. -/
def CmdbDb.listedRows (db : CmdbDb) (user : Actor) (filters : RelationFilters) :
    List EntityRelation :=
  ((db.relations.filter filters.pass).mergeSort fun a b => decide (b.id ≤ a.id)).filter fun r =>
    (db.visibleScope user).entityVisible r.src && (db.visibleScope user).entityVisible r.dst

/-- `list_relations`, of a page that is at least one. -/
def listRelations (db : CmdbDb) (user : Actor) (filters : RelationFilters) (page size : ℕ) :
    Except PyErr RelationPage := do
  db.requireFeature
  user.requirePerm "asset:relation:list"
  let rows := db.listedRows user filters
  return ⟨(rows.drop ((page - 1) * size)).take size, rows.length, page, size⟩

/-- The caller sees both endpoints. -/
def CmdbDb.requireEndpoints (db : CmdbDb) (user : Actor) (src dst : Entity) : Except PyErr Unit :=
  let scope := db.visibleScope user
  if scope.entityVisible src && scope.entityVisible dst then .ok ()
  else .error (.forbidden "relation endpoints not visible to caller")

/-- The columns take the row. -/
def EntityRelation.Fits (r : EntityRelation) : Prop :=
  r.remark.length ≤ 256 ∧ -2 ^ 63 ≤ r.src.id ∧ r.src.id < 2 ^ 63 ∧ -2 ^ 63 ≤ r.dst.id ∧
    r.dst.id < 2 ^ 63

instance EntityRelation.fitsDecidable (r : EntityRelation) : Decidable r.Fits :=
  inferInstanceAs (Decidable (_ ∧ _ ∧ _ ∧ _ ∧ _))

/-- `create_relation`, which answers an edge that is there with its row. -/
def createRelation (now : ℚ) (user : Actor) (data : RelationCreate) (db : CmdbDb) :
    Except PyErr (CmdbDb × EntityRelation) := do
  db.requireFeature
  user.requirePerm "asset:relation:add"
  validateCreate data
  db.requireEndpoints user data.src data.dst
  match db.relations.find? fun r =>
      decide (r.src = data.src ∧ r.dst = data.dst ∧ r.relType = data.relType) with
  | some existing => return (db, existing)
  | none =>
      let row : EntityRelation :=
        ⟨db.nextRelation, data.src, data.dst, data.relType, data.properties, data.remark,
          some user.id, now, now⟩
      if row.Fits then
        return ({ db with
          relations := db.relations ++ [row]
          nextRelation := db.nextRelation + 1 }, row)
      else throw .integrityError

/-- `delete_relation`. -/
def deleteRelation (user : Actor) (relationId : ℤ) (db : CmdbDb) : Except PyErr CmdbDb := do
  db.requireFeature
  user.requirePerm "asset:relation:del"
  match db.relations.find? fun r => decide (r.id = relationId) with
  | none => throw (.notFound "relation not found")
  | some row =>
      db.requireEndpoints user row.src row.dst
      return { db with relations := db.relations.filter fun r => decide (r.id ≠ relationId) }

/-! ### Topology -/

/-- An edge of a topology, by which the loop keys it, too. -/
structure TopologyEdge where
  src : Entity
  dst : Entity
  relType : String
  deriving DecidableEq

/-- The variables of the loop of `topology`; the dictionaries are in the order of insertion. -/
structure TopologyLoop where
  nodeRole : List (Entity × String)
  edgeMap : List TopologyEdge
  order : List Entity
  nxt : List Entity
  deriving DecidableEq

/-- The edge of a row. -/
def EntityRelation.edge (r : EntityRelation) : TopologyEdge := ⟨r.src, r.dst, r.relType⟩

/-- The other end of a row of a node. -/
def EntityRelation.other (r : EntityRelation) (node : Entity) : Entity :=
  if r.src = node then r.dst else r.src

/-- The body of the inner loop. -/
def TopologyLoop.visit (node : Entity) (st : TopologyLoop) (r : EntityRelation) : TopologyLoop :=
  let st := if r.edge ∈ st.edgeMap then st else { st with edgeMap := st.edgeMap ++ [r.edge] }
  if r.other node ∈ st.nodeRole.map Prod.fst then st
  else
    { st with
      nodeRole := st.nodeRole ++ [(r.other node, if r.src = node then "down" else "up")]
      order := st.order ++ [r.other node]
      nxt := st.nxt ++ [r.other node] }

/-- One level: the rows of each node of the frontier. -/
def TopologyLoop.level (edges : Entity → List EntityRelation) (st : TopologyLoop)
    (frontier : List Entity) : TopologyLoop :=
  frontier.foldl (fun st node => (edges node).foldl (TopologyLoop.visit node) st)
    { st with nxt := [] }

/-- The outer loop of `topology`, with the levels that are left, and its flag. -/
def topologyLevels (edges : Entity → List EntityRelation) :
    ℕ → List Entity → TopologyLoop → TopologyLoop × Bool
  | 0, _, st => (st, false)
  | left + 1, frontier, st =>
      let st := st.level edges frontier
      if st.nxt = [] then (st, false)
      else if left = 0 then (st, true)
      else topologyLevels edges left st.nxt st

/-- A node of a topology. -/
structure TopologyNode where
  entity : Entity
  label : String
  role : String
  deriving DecidableEq

/-- What `topology` returns. -/
structure Topology where
  nodes : List TopologyNode
  edges : List TopologyEdge
  truncated : Bool
  deriving DecidableEq

/-- The variables before the loop of `topology`. -/
def TopologyLoop.start (root : Entity) : TopologyLoop := ⟨[(root, "root")], [], [root], []⟩

/-- `topology` behind its checks. -/
def searchTopology (db : CmdbDb) (scan : Scan db.relations) (scope : Scope) (root : Entity)
    (direction : Direction) (depth : ℕ) (relTypes : Option (List String)) : Topology :=
  let (st, truncated) :=
    topologyLevels (edgesFor scan direction relTypes) depth [root] (TopologyLoop.start root)
  let keep := st.order.filter scope.entityVisible
  { nodes := keep.map fun k => ⟨k, db.labels keep k, (st.nodeRole.lookup k).getD ""⟩
    edges := st.edgeMap.filter fun e => scope.entityVisible e.src && scope.entityVisible e.dst
    truncated := truncated }

/-- `topology`. -/
def topology (db : CmdbDb) (scan : Scan db.relations) (user : Actor) (root : Entity)
    (direction : Option String) (depth : Option ℤ) (relTypes : Option (List String)) :
    Except PyErr Topology := do
  db.requireFeature
  user.requirePerm "asset:topo:view"
  let direction ← checkDirection direction
  let depth ← clampDepth depth
  return searchTopology db scan (db.visibleScope user) root direction depth relTypes

/-! ### Impact -/

/-- The variables of the loop of `impact`. -/
structure ImpactLoop where
  visited : List Entity
  order : List Entity
  nxt : List Entity
  deriving DecidableEq

/-- The body of the inner loop. -/
def ImpactLoop.visit (node : Entity) (st : ImpactLoop) (r : EntityRelation) : ImpactLoop :=
  if r.other node ∈ st.visited then st
  else ⟨st.visited ++ [r.other node], st.order ++ [r.other node], st.nxt ++ [r.other node]⟩

/-- One level: the rows of each node of the frontier. -/
def ImpactLoop.level (edges : Entity → List EntityRelation) (st : ImpactLoop)
    (frontier : List Entity) : ImpactLoop :=
  frontier.foldl (fun st node => (edges node).foldl (ImpactLoop.visit node) st)
    { st with nxt := [] }

/-- The outer loop of `impact`, with the levels that are left, and its flag. -/
def impactLevels (edges : Entity → List EntityRelation) :
    ℕ → List Entity → ImpactLoop → ImpactLoop × Bool
  | 0, _, st => (st, false)
  | left + 1, frontier, st =>
      let st := st.level edges frontier
      if st.nxt = [] then (st, false)
      else if left = 0 then (st, true)
      else impactLevels edges left st.nxt st

/-- An entity with its label. -/
structure LabelledEntity where
  entity : Entity
  label : String
  deriving DecidableEq

/-- What `impact` returns. -/
structure Impact where
  root : LabelledEntity
  affected : List LabelledEntity
  count : ℕ
  truncated : Bool
  deriving DecidableEq

/-- `impact` behind its checks. -/
def searchImpact (db : CmdbDb) (scan : Scan db.relations) (scope : Scope) (root : Entity)
    (direction : Direction) (depth : ℕ) (relTypes : Option (List String)) : Impact :=
  let (st, truncated) :=
    impactLevels (edgesFor scan direction relTypes) depth [root] ⟨[root], [], []⟩
  let affected := st.order.filter scope.entityVisible
  let labels := db.labels (affected ++ [root])
  { root := ⟨root, labels root⟩
    affected := affected.map fun k => ⟨k, labels k⟩
    count := affected.length
    truncated := truncated }

/-- `impact`. -/
def impact (db : CmdbDb) (scan : Scan db.relations) (user : Actor) (root : Entity)
    (direction : Option String) (depth : Option ℤ) (relTypes : Option (List String)) :
    Except PyErr Impact := do
  db.requireFeature
  user.requirePerm "asset:topo:view"
  let direction ← checkDirection (some (direction.getD "down"))
  let depth ← clampDepth depth
  return searchImpact db scan (db.visibleScope user) root direction depth relTypes

/-! ### The loops as a search -/

section Loops

variable {edges : Entity → List EntityRelation} {root node : Entity} {k : ℕ}

/-- The entities that are looked at from a node. -/
def neighbours (edges : Entity → List EntityRelation) (node : Entity) : List Entity :=
  (edges node).map fun r => r.other node

/-- What the loop of `topology` has found. -/
def TopologyLoop.found (st : TopologyLoop) : Found Entity := ⟨st.order, st.nxt⟩

/-- What the loop of `impact` has found. -/
def ImpactLoop.found (st : ImpactLoop) : Found Entity := ⟨st.visited, st.nxt⟩

/-- The roles are those of the nodes that were found. -/
def TopologyLoop.Tracks (st : TopologyLoop) : Prop := st.nodeRole.map Prod.fst = st.order

/-- The order is that of the visited entities without the root. -/
def ImpactLoop.Tracks (root : Entity) (st : ImpactLoop) : Prop := st.visited = root :: st.order

theorem TopologyLoop.visit_found {st : TopologyLoop} (h : st.Tracks) (r : EntityRelation) :
    (st.visit node r).Tracks ∧ (st.visit node r).found = st.found.discover (r.other node) := by
  obtain ⟨roles, edgeMap, order, nxt⟩ := st
  obtain rfl : roles.map Prod.fst = order := h
  unfold TopologyLoop.visit TopologyLoop.found Found.discover TopologyLoop.Tracks
  by_cases hedge : r.edge ∈ edgeMap
  · by_cases hseen : r.other node ∈ roles.map Prod.fst
    · simp [hedge, hseen]
    · simp [hedge, hseen]
  · by_cases hseen : r.other node ∈ roles.map Prod.fst
    · simp [hedge, hseen]
    · simp [hedge, hseen]

theorem ImpactLoop.visit_found {st : ImpactLoop} (h : st.Tracks root) (r : EntityRelation) :
    (st.visit node r).Tracks root ∧
      (st.visit node r).found = st.found.discover (r.other node) := by
  obtain ⟨visited, order, nxt⟩ := st
  obtain rfl : visited = root :: order := h
  unfold ImpactLoop.visit ImpactLoop.found Found.discover ImpactLoop.Tracks
  by_cases hseen : r.other node ∈ root :: order
  · simp [hseen]
  · simp [hseen]

/-- A level of `topology` is a layer. -/
theorem TopologyLoop.level_found {st : TopologyLoop} (h : st.Tracks) {frontier : List Entity}
    (hseen : st.order = (layers (neighbours edges) root k).seen)
    (hnext : frontier = (layers (neighbours edges) root k).next) :
    (st.level edges frontier).Tracks ∧
      (st.level edges frontier).found = layers (neighbours edges) root (k + 1) := by
  have hvisit : ∀ (node : Entity) (st : TopologyLoop) (r : EntityRelation), st.Tracks →
      (st.visit node r).Tracks ∧ (st.visit node r).found = st.found.discover (r.other node) :=
    fun _ _ r hst => TopologyLoop.visit_found hst r
  have hstart : TopologyLoop.Tracks { st with nxt := [] } := h
  obtain ⟨htracks, hfound⟩ := foldl_found hvisit edges frontier hstart
  refine ⟨htracks, hfound.trans ?_⟩
  rw [layers, Found.expand, ← hnext, ← hseen]
  rfl

theorem TopologyLoop.mem_level_edgeMap {st : TopologyLoop} {frontier : List Entity}
    {e : TopologyEdge} (he : e ∈ (st.level edges frontier).edgeMap) :
    e ∈ st.edgeMap ∨ ∃ node ∈ frontier, ∃ r ∈ edges node, r.edge = e := by
  have hvisit : ∀ (node : Entity) (st : TopologyLoop) (r : EntityRelation),
      e ∈ (st.visit node r).edgeMap → e ∈ st.edgeMap ∨ r.edge = e := by
    intro node st r he
    have hmap : (st.visit node r).edgeMap =
        if r.edge ∈ st.edgeMap then st.edgeMap else st.edgeMap ++ [r.edge] := by
      unfold TopologyLoop.visit
      dsimp only
      split_ifs <;> rfl
    rw [hmap] at he
    split_ifs at he
    · exact .inl he
    · exact (List.mem_append.mp he).imp_right fun h => (List.mem_singleton.mp h).symm
  rw [TopologyLoop.level] at he
  have hfrom := of_foldl (P := fun st : TopologyLoop => e ∈ st.edgeMap) hvisit edges frontier he
  exact hfrom

/-- The loop of `topology` has seen the layers up to a number. Its rows are those that it had, and
rows of the nodes of the layers before. -/
structure TopologyLoop.Reached (edges : Entity → List EntityRelation) (root : Entity)
    (old : List TopologyEdge) (k : ℕ) (st : TopologyLoop) : Prop where
  tracks : st.Tracks
  order : st.order = (layers (neighbours edges) root k).seen
  edges : ∀ e ∈ st.edgeMap, e ∈ old ∨
    ∃ j < k, ∃ node ∈ (layers (neighbours edges) root j).next, ∃ r ∈ edges node, r.edge = e

theorem TopologyLoop.Reached.level {old : List TopologyEdge} {st : TopologyLoop}
    (h : TopologyLoop.Reached edges root old k st) :
    TopologyLoop.Reached edges root old (k + 1)
        (st.level edges (layers (neighbours edges) root k).next) ∧
      (st.level edges (layers (neighbours edges) root k).next).nxt =
        (layers (neighbours edges) root (k + 1)).next := by
  obtain ⟨htracks, hfound⟩ := TopologyLoop.level_found h.tracks h.order rfl
  refine ⟨⟨htracks, congrArg Found.seen hfound, fun e he => ?_⟩, congrArg Found.next hfound⟩
  rcases TopologyLoop.mem_level_edgeMap he with he | ⟨node, hnode, hr⟩
  · exact (h.edges e he).imp_right fun ⟨j, hj, hrow⟩ => ⟨j, Nat.lt_succ_of_lt hj, hrow⟩
  · exact .inr ⟨k, Nat.lt_succ_self k, node, hnode, hr⟩

theorem TopologyLoop.Reached.over {old : List TopologyEdge} {st : TopologyLoop} {j : ℕ}
    (hnone : (layers (neighbours edges) root k).next = []) (hle : k ≤ j)
    (h : TopologyLoop.Reached edges root old k st) : TopologyLoop.Reached edges root old j st := by
  have hseen := congrArg Found.seen (layers_of_next_nil hnone hle)
  refine ⟨h.tracks, h.order.trans hseen.symm, fun e he => ?_⟩
  exact (h.edges e he).imp_right fun ⟨i, hi, hrow⟩ => ⟨i, hi.trans_le hle, hrow⟩

theorem topologyLevels_eq (left : ℕ) (frontier : List Entity) (st : TopologyLoop) :
    topologyLevels edges left frontier st =
      levels (TopologyLoop.level edges) TopologyLoop.nxt left frontier st := by
  induction left generalizing frontier st with
  | zero => rfl
  | succ left ih => simp only [topologyLevels, levels, ih]

/-- **The loop of `topology`** sees the layers up to its depth, with the rows of all nodes but those
of the last layer, and sets its flag if this layer is not empty. -/
theorem topologyLevels_spec (left : ℕ) {st : TopologyLoop} (h : st.Tracks) {frontier : List Entity}
    (hseen : st.order = (layers (neighbours edges) root k).seen)
    (hnext : frontier = (layers (neighbours edges) root k).next) :
    let res := topologyLevels edges left frontier st
    res.1.Tracks ∧ res.1.order = (layers (neighbours edges) root (k + left)).seen ∧
      (res.2 = true ↔ left ≠ 0 ∧ (layers (neighbours edges) root (k + left)).next ≠ []) ∧
      ∀ e ∈ res.1.edgeMap, e ∈ st.edgeMap ∨ ∃ j < k + left,
        ∃ node ∈ (layers (neighbours edges) root j).next, ∃ r ∈ edges node, r.edge = e := by
  have hreached : TopologyLoop.Reached edges root st.edgeMap k st :=
    ⟨h, hseen, fun e he => .inl he⟩
  obtain ⟨⟨htracks, horder, hedges⟩, hflag⟩ :=
    levels_spec (TopologyLoop.level edges) TopologyLoop.nxt
      (TopologyLoop.Reached edges root st.edgeMap) (fun _ _ => TopologyLoop.Reached.level)
      (fun _ _ _ => TopologyLoop.Reached.over) left hreached hnext
  rw [topologyLevels_eq]
  exact ⟨htracks, horder, hflag, hedges⟩

/-- A level of `impact` is a layer. -/
theorem ImpactLoop.level_found {st : ImpactLoop} (h : st.Tracks root) {frontier : List Entity}
    (hseen : st.visited = (layers (neighbours edges) root k).seen)
    (hnext : frontier = (layers (neighbours edges) root k).next) :
    (st.level edges frontier).Tracks root ∧
      (st.level edges frontier).found = layers (neighbours edges) root (k + 1) := by
  have hvisit : ∀ (node : Entity) (st : ImpactLoop) (r : EntityRelation), st.Tracks root →
      (st.visit node r).Tracks root ∧ (st.visit node r).found = st.found.discover (r.other node) :=
    fun _ _ r hst => ImpactLoop.visit_found hst r
  have hstart : ImpactLoop.Tracks root { st with nxt := [] } := h
  obtain ⟨htracks, hfound⟩ := foldl_found hvisit edges frontier hstart
  refine ⟨htracks, hfound.trans ?_⟩
  rw [layers, Found.expand, ← hnext, ← hseen]
  rfl

/-- The loop of `impact` has seen the layers up to a number. -/
structure ImpactLoop.Reached (edges : Entity → List EntityRelation) (root : Entity) (k : ℕ)
    (st : ImpactLoop) : Prop where
  tracks : st.Tracks root
  visited : st.visited = (layers (neighbours edges) root k).seen

theorem ImpactLoop.Reached.level {st : ImpactLoop} (h : ImpactLoop.Reached edges root k st) :
    ImpactLoop.Reached edges root (k + 1)
        (st.level edges (layers (neighbours edges) root k).next) ∧
      (st.level edges (layers (neighbours edges) root k).next).nxt =
        (layers (neighbours edges) root (k + 1)).next := by
  obtain ⟨htracks, hfound⟩ := ImpactLoop.level_found h.tracks h.visited rfl
  exact ⟨⟨htracks, congrArg Found.seen hfound⟩, congrArg Found.next hfound⟩

theorem ImpactLoop.Reached.over {st : ImpactLoop} {j : ℕ}
    (hnone : (layers (neighbours edges) root k).next = []) (hle : k ≤ j)
    (h : ImpactLoop.Reached edges root k st) : ImpactLoop.Reached edges root j st :=
  ⟨h.tracks, h.visited.trans (congrArg Found.seen (layers_of_next_nil hnone hle)).symm⟩

theorem impactLevels_eq (left : ℕ) (frontier : List Entity) (st : ImpactLoop) :
    impactLevels edges left frontier st =
      levels (ImpactLoop.level edges) ImpactLoop.nxt left frontier st := by
  induction left generalizing frontier st with
  | zero => rfl
  | succ left ih => simp only [impactLevels, levels, ih]

/-- **The loop of `impact`** sees the layers up to its depth, and sets its flag if the last one is
not empty. -/
theorem impactLevels_spec (left : ℕ) {st : ImpactLoop} (h : st.Tracks root) {frontier : List Entity}
    (hseen : st.visited = (layers (neighbours edges) root k).seen)
    (hnext : frontier = (layers (neighbours edges) root k).next) :
    let res := impactLevels edges left frontier st
    res.1.Tracks root ∧ res.1.visited = (layers (neighbours edges) root (k + left)).seen ∧
      (res.2 = true ↔ left ≠ 0 ∧ (layers (neighbours edges) root (k + left)).next ≠ []) := by
  have hreached : ImpactLoop.Reached edges root k st := ⟨h, hseen⟩
  obtain ⟨⟨htracks, hvisited⟩, hflag⟩ :=
    levels_spec (ImpactLoop.level edges) ImpactLoop.nxt (ImpactLoop.Reached edges root)
      (fun _ _ => ImpactLoop.Reached.level) (fun _ _ _ => ImpactLoop.Reached.over) left hreached
      hnext
  rw [impactLevels_eq]
  exact ⟨htracks, hvisited, hflag⟩

end Loops

/-! ### The calls as a search -/

/-- The relation leads from the one entity to the other in the direction. -/
def LeadsTo (r : EntityRelation) (x y : Entity) : Direction → Prop
  | .down => r.src = x ∧ r.dst = y
  | .up => r.dst = x ∧ r.src = y
  | .both => (r.src = x ∧ r.dst = y) ∨ (r.dst = x ∧ r.src = y)

/-- Some relation that passes the filter leads from the one entity to the other. -/
def Linked (rows : List EntityRelation) (direction : Direction) (relTypes : Option (List String))
    (x y : Entity) : Prop :=
  ∃ r ∈ rows, passes relTypes r = true ∧ LeadsTo r x y direction

section Calls

variable {db : CmdbDb} {scan : Scan db.relations} {user : Actor} {root : Entity}
  {direction : Option String} {d : Direction} {depth : Option ℤ} {n : ℕ}
  {relTypes : Option (List String)}

theorem mem_edgesFor {rows : List EntityRelation} {scan : Scan rows} {node : Entity}
    {r : EntityRelation} :
    r ∈ edgesFor scan d relTypes node ↔
      r ∈ rows ∧ passes relTypes r = true ∧ touches d node r = true := by
  rw [edgesFor, List.mem_filter, (scan.perm node).mem_iff, Bool.and_eq_true]

/-- The other ends of the rows of a node are the entities that it is linked to. -/
theorem mem_neighbours {rows : List EntityRelation} (scan : Scan rows) (x y : Entity) :
    y ∈ neighbours (edgesFor scan d relTypes) x ↔ Linked rows d relTypes x y := by
  rw [neighbours, List.mem_map, Linked]
  refine exists_congr fun r => ?_
  rw [mem_edgesFor, and_assoc, and_assoc]
  refine and_congr_right fun _ => and_congr_right fun _ => ?_
  rw [EntityRelation.other]
  cases d with
  | down =>
      rw [touches, LeadsTo, decide_eq_true_iff]
      exact and_congr_right fun hsrc => by rw [if_pos hsrc]
  | up =>
      rw [touches, LeadsTo, decide_eq_true_iff]
      refine and_congr_right fun hdst => ?_
      split_ifs with hsrc
      · rw [hdst, hsrc]
      · rfl
  | both =>
      rw [touches, LeadsTo, decide_eq_true_iff]
      split_ifs with hsrc
      · grind
      · simp [hsrc]

/-- **The search of the layers** is that of the entities within the depth. -/
theorem layers_isLayer {rows : List EntityRelation} (scan : Scan rows) (d : Direction)
    (relTypes : Option (List String)) (root : Entity) (n : ℕ) :
    IsLayer (Linked rows d relTypes) root n
      (layers (neighbours (edgesFor scan d relTypes)) root n) :=
  layers_spec (mem_neighbours scan) root n

/-- What `topology` returns of a search. -/
structure IsTopology (db : CmdbDb) (scan : Scan db.relations) (scope : Scope) (root : Entity)
    (d : Direction) (n : ℕ) (relTypes : Option (List String)) (res : Topology) : Prop where
  nodes : res.nodes.map TopologyNode.entity =
    (layers (neighbours (edgesFor scan d relTypes)) root n).seen.filter scope.entityVisible
  edges : ∀ e ∈ res.edges, scope.entityVisible e.src = true ∧ scope.entityVisible e.dst = true ∧
    ∃ j < n, ∃ node ∈ (layers (neighbours (edgesFor scan d relTypes)) root j).next,
      ∃ r ∈ edgesFor scan d relTypes node, r.edge = e
  truncated : res.truncated = true ↔
    n ≠ 0 ∧ (layers (neighbours (edgesFor scan d relTypes)) root n).next ≠ []

theorem isTopology_search (scope : Scope) :
    IsTopology db scan scope root d n relTypes
      (searchTopology db scan scope root d n relTypes) := by
  have hstart : (TopologyLoop.start root).Tracks := rfl
  have hseen : (TopologyLoop.start root).order =
    (layers (neighbours (edgesFor scan d relTypes)) root 0).seen := rfl
  have hnext : [root] = (layers (neighbours (edgesFor scan d relTypes)) root 0).next := rfl
  obtain ⟨-, horder, hflag, hedges⟩ := topologyLevels_spec n hstart hseen hnext
  rw [Nat.zero_add] at horder hflag hedges
  refine ⟨?_, fun e he => ?_, hflag⟩
  · rw [searchTopology, List.map_map, ← horder]
    exact List.map_id _
  · obtain ⟨he, hvisible⟩ := List.mem_filter.mp he
    rw [Bool.and_eq_true] at hvisible
    exact ⟨hvisible.1, hvisible.2, (hedges e he).resolve_left List.not_mem_nil⟩

/-- **`topology`** shows the visible ones of the entities that the search has seen. -/
theorem topology_ok (scan : Scan db.relations) (root : Entity) (relTypes : Option (List String))
    (henabled : db.enabled = true) (hperm : user.hasPerm "asset:topo:view" = true)
    (hdirection : checkDirection direction = .ok d) (hdepth : clampDepth depth = .ok n) :
    ∃ res, topology db scan user root direction depth relTypes = .ok res ∧
      IsTopology db scan (db.visibleScope user) root d n relTypes res := by
  refine ⟨_, ?_, isTopology_search (db.visibleScope user)⟩
  unfold topology CmdbDb.requireFeature Actor.requirePerm
  rw [henabled, hperm, hdirection, hdepth]
  rfl

/-- What `impact` returns of a search. -/
structure IsImpact (db : CmdbDb) (scan : Scan db.relations) (scope : Scope) (root : Entity)
    (d : Direction) (n : ℕ) (relTypes : Option (List String)) (res : Impact) : Prop where
  affected : res.affected.map LabelledEntity.entity =
    (layers (neighbours (edgesFor scan d relTypes)) root n).seen.tail.filter scope.entityVisible
  labels : ∀ k ∈ res.affected, k.label = db.labels [k.entity] k.entity
  asked : res.root = ⟨root, db.labels [root] root⟩
  count : res.count = res.affected.length
  truncated : res.truncated = true ↔
    n ≠ 0 ∧ (layers (neighbours (edgesFor scan d relTypes)) root n).next ≠ []

theorem labels_of_mem {keys : List Entity} {e : Entity} (he : e ∈ keys) :
    db.labels keys e = db.labels [e] e := by
  unfold CmdbDb.labels
  rw [if_neg (not_not.mpr he), if_neg (not_not.mpr (List.mem_singleton_self e))]

theorem isImpact_search (scope : Scope) :
    IsImpact db scan scope root d n relTypes (searchImpact db scan scope root d n relTypes) := by
  have hstart : ImpactLoop.Tracks root ⟨[root], [], []⟩ := rfl
  have hseen : [root] = (layers (neighbours (edgesFor scan d relTypes)) root 0).seen := rfl
  have hnext : [root] = (layers (neighbours (edgesFor scan d relTypes)) root 0).next := rfl
  obtain ⟨htracks, hvisited, hflag⟩ := impactLevels_spec n hstart hseen hnext
  rw [Nat.zero_add] at hvisited hflag
  have horder := htracks.symm.trans hvisited
  refine ⟨?_, fun k hk => ?_, ?_, (List.length_map _).symm, hflag⟩
  · rw [searchImpact, List.map_map, ← horder]
    exact List.map_id _
  · obtain ⟨e, he, rfl⟩ := List.mem_map.mp hk
    exact labels_of_mem (List.mem_append_left _ he)
  · exact congrArg (LabelledEntity.mk root)
      (labels_of_mem (List.mem_append_right _ (List.mem_singleton_self root)))

/-- **`impact`** shows the visible ones of the entities that the search has seen after the root, and
the root. -/
theorem impact_ok (scan : Scan db.relations) (root : Entity) (direction : Option String)
    (relTypes : Option (List String)) (henabled : db.enabled = true)
    (hperm : user.hasPerm "asset:topo:view" = true)
    (hdirection : checkDirection (some (direction.getD "down")) = .ok d)
    (hdepth : clampDepth depth = .ok n) :
    ∃ res, impact db scan user root direction depth relTypes = .ok res ∧
      IsImpact db scan (db.visibleScope user) root d n relTypes res := by
  refine ⟨_, ?_, isImpact_search (db.visibleScope user)⟩
  unfold impact CmdbDb.requireFeature Actor.requirePerm
  rw [henabled, hperm, hdirection, hdepth]
  rfl

end Calls

end LarkPlat.Cmdb
