import LarkPlat.CmdbReach

/-!
# Hosts that are Seen by their Name

A caller who is no administrator sees a host if the number of the host is a text in the set of names
that `visible_entity_ids` makes of the hosts in the caller's groups. The set has the addresses and
the host names of these hosts beside their numbers, and a host may be called by the number of
another one.

## Main results

* `entityVisible_host_iff`: what is seen as a host.
* `uses_identity_iff`: the calls treat exactly the hosts in the caller's groups as visible exactly
  if no such host is called by the number of a host that is not.
-/

namespace LarkPlat.Cmdb

open Search

/-! ### Numbers as texts -/

theorem natText_inj {m n : ℕ} (h : toString m = toString n) : m = n := by
  have hdigits : Nat.toDigits 10 m = Nat.toDigits 10 n := by
    have hlists := congrArg String.toList h
    rwa [show (toString m).toList = Nat.toDigits 10 m from Nat.toList_repr,
      show (toString n).toList = Nat.toDigits 10 n from Nat.toList_repr] at hlists
  have hvalues := congrArg (fun cs => Nat.ofDigitChars 10 cs 0) hdigits
  rwa [Nat.ofDigitChars_toDigits (by decide) (by decide),
    Nat.ofDigitChars_toDigits (by decide) (by decide)] at hvalues

theorem intText_eq_iff {n : ℕ} {z : ℤ} : toString z = toString n ↔ (n : ℤ) = z := by
  cases z with
  | ofNat m =>
      constructor
      · intro h
        exact congrArg Int.ofNat (natText_inj h).symm
      · intro h
        exact congrArg (fun k : ℕ => toString k) (Int.ofNat.inj h).symm
  | negSucc m =>
      refine iff_of_false (fun h => ?_) (by simp)
      -- a sign is no digit
      have hlists := congrArg String.toList h
      rw [show (toString n).toList = Nat.toDigits 10 n from Nat.toList_repr] at hlists
      have hsign : '-' ∈ Nat.toDigits 10 n := hlists ▸ by
        change '-' ∈ ("-" ++ Nat.repr (m + 1)).toList
        simp
      exact absurd (Nat.isDigit_of_mem_toDigits (by decide) (by decide) hsign) (by decide)

theorem intText_inj {y z : ℤ} (h : toString y = toString z) : y = z := by
  cases y with
  | ofNat m => exact intText_eq_iff.mp h.symm
  | negSucc m =>
      cases z with
      | ofNat n => exact (intText_eq_iff.mp h).symm
      | negSucc n =>
          have hlists := congrArg String.toList h
          change ("-" ++ Nat.repr (m + 1)).toList = ("-" ++ Nat.repr (n + 1)).toList at hlists
          rw [String.toList_append, String.toList_append, List.append_cancel_left_eq] at hlists
          have hsucc := natText_inj (String.toList_inj.mp hlists)
          exact congrArg Int.negSucc (Nat.succ.inj hsucc)

theorem intText_ne_empty (z : ℤ) : toString z ≠ "" := by
  intro h
  cases z with
  | ofNat m =>
      have hlists := congrArg String.toList h
      rw [show (toString (Int.ofNat m)).toList = Nat.toDigits 10 m from Nat.toList_repr] at hlists
      exact Nat.toDigits_ne_nil hlists
  | negSucc m =>
      have hlists := congrArg String.toList h
      change ("-" ++ Nat.repr (m + 1)).toList = _ at hlists
      simp at hlists

/-! ### What is visible -/

section Visible

variable {db : CmdbDb} {user : Actor}

/-- The host of the number is there and is in a group of the caller. -/
def OwnHost (db : CmdbDb) (user : Actor) (id : ℤ) : Prop :=
  ∃ h ∈ db.hosts, (h.id : ℤ) = id ∧ h.inGroups user.visibleGroupIds = true

/-- A host of the caller's groups has the text as its address or its host name. -/
def Called (db : CmdbDb) (user : Actor) (name : String) : Prop :=
  ∃ h ∈ db.hosts, h.inGroups user.visibleGroupIds = true ∧ (h.ip = name ∨ h.hostname = name)

/-- **A host is seen** if it is in the caller's groups, or a host in these is called by its
number. -/
theorem entityVisible_host_iff (hadmin : user.isAdmin = false) (id : ℤ) :
    (db.visibleScope user).entityVisible (host id) = true ↔
      OwnHost db user id ∨ Called db user (toString id) := by
  have hnames : ∀ h : AssetHost,
      toString id ∈ h.names ↔
        (h.ip = toString id ∨ h.hostname = toString id) ∨ (h.id : ℤ) = id := by
    intro h
    rw [AssetHost.names, List.mem_append, List.mem_append, List.mem_singleton, intText_eq_iff]
    refine or_congr_left (or_congr ?_ ?_)
    · split_ifs with hempty
      · exact iff_of_false List.not_mem_nil fun heq => intText_ne_empty id (heq.symm.trans hempty)
      · rw [List.mem_singleton, eq_comm]
    · split_ifs with hempty
      · exact iff_of_false List.not_mem_nil fun heq => intText_ne_empty id (heq.symm.trans hempty)
      · rw [List.mem_singleton, eq_comm]
  have htype : (host id).type = "host" := rfl
  rw [CmdbDb.visibleScope, if_neg (by simp [hadmin]), Scope.entityVisible,
    if_pos htype, Option.all_some, decide_eq_true_iff, mem_visibleEntityIds, OwnHost, Called]
  constructor
  · rintro ⟨h, hmem, hgroups, hname⟩
    rcases (hnames h).mp hname with hcalled | hid
    · exact .inr ⟨h, hmem, hgroups, hcalled⟩
    · exact .inl ⟨h, hmem, hid, hgroups⟩
  · rintro (⟨h, hmem, hid, hgroups⟩ | ⟨h, hmem, hgroups, hcalled⟩)
    · exact ⟨h, hmem, hgroups, (hnames h).mpr (.inr hid)⟩
    · exact ⟨h, hmem, hgroups, (hnames h).mpr (.inl hcalled)⟩

/-- The entity is seen by its identity: a host if it is in the caller's groups, and any other one as
the calls see it. -/
def SeenByIdentity (db : CmdbDb) (user : Actor) (e : Entity) : Prop :=
  if e.type = "host" then OwnHost db user e.id else (db.visibleScope user).entityVisible e = true

/-- No host in the caller's groups is called by the number of a host that is not. -/
def NamesNoOther (db : CmdbDb) (user : Actor) : Prop :=
  ∀ id : ℤ, Called db user (toString id) → OwnHost db user id

/-- What is seen is seen by its identity exactly if no host is called by the number of another. -/
theorem visible_iff_identity (hadmin : user.isAdmin = false) :
    (∀ e, SeenByIdentity db user e ↔ (db.visibleScope user).entityVisible e = true) ↔
      NamesNoOther db user := by
  constructor
  · intro h id hcalled
    exact (h (host id)).mpr ((entityVisible_host_iff hadmin id).mpr (.inr hcalled))
  · rintro h ⟨type, id⟩
    rw [SeenByIdentity]
    split_ifs with hhost
    · obtain rfl : type = "host" := hhost
      refine Iff.trans ?_ (entityVisible_host_iff hadmin id).symm
      exact ⟨.inl, fun hseen => hseen.elim (fun hown => hown) (h id)⟩
    · rfl

end Visible

/-! ### The calls -/

/-- The calls treat exactly the entities of `T` as visible. -/
structure TreatsVisible (db : CmdbDb) (user : Actor) (T : Entity → Prop) : Prop where
  create : ∀ now data, db.enabled = true → user.hasPerm "asset:relation:add" = true →
    validateCreate data = .ok () →
      (createRelation now user data db =
        .error (.forbidden "relation endpoints not visible to caller") ↔
          ¬ (T data.src ∧ T data.dst))
  delete : ∀ relationId row, db.enabled = true → user.hasPerm "asset:relation:del" = true →
    (db.relations.find? fun r => decide (r.id = relationId)) = some row →
      (deleteRelation user relationId db =
        .error (.forbidden "relation endpoints not visible to caller") ↔ ¬ (T row.src ∧ T row.dst))
  list : ∀ filters r, r ∈ db.listedRows user filters ↔
    r ∈ db.relations ∧ filters.pass r = true ∧ T r.src ∧ T r.dst
  topology : ∀ (scan : Scan db.relations) root d n relTypes topo, n ≤ 3 →
    topology db scan user root (some d.name) (some (n : ℕ)) relTypes = .ok topo →
      (∀ x, x ∈ topo.nodes.map TopologyNode.entity ↔
        Within (Linked db.relations d relTypes) root n x ∧ T x) ∧
      ∀ e, e ∈ topo.edges ↔
        e ∈ (searchTopology db scan ⟨none, none⟩ root d n relTypes).edges ∧ T e.src ∧ T e.dst
  impact : ∀ (scan : Scan db.relations) root d n relTypes imp, n ≤ 3 →
    impact db scan user root (some d.name) (some (n : ℕ)) relTypes = .ok imp →
      ∀ x, x ∈ imp.affected.map LabelledEntity.entity ↔
        Within (Linked db.relations d relTypes) root n x ∧ x ≠ root ∧ T x

section Treats

variable {db : CmdbDb} {user : Actor} {T : Entity → Prop}

/-- `requireEndpoints` refuses a pair of which one is not seen. -/
theorem requireEndpoints_eq (src dst : Entity) :
    db.requireEndpoints user src dst =
      if (db.visibleScope user).entityVisible src = true ∧
          (db.visibleScope user).entityVisible dst = true then .ok ()
      else .error (.forbidden "relation endpoints not visible to caller") := by
  simp only [CmdbDb.requireEndpoints, Bool.and_eq_true]

/-- `create_relation` is forbidden exactly where an endpoint is not seen. -/
theorem createRelation_forbidden_iff {now : ℚ} {data : RelationCreate}
    (henabled : db.enabled = true) (hperm : user.hasPerm "asset:relation:add" = true)
    (hvalid : validateCreate data = .ok ()) :
    createRelation now user data db =
        .error (.forbidden "relation endpoints not visible to caller") ↔
      ¬ ((db.visibleScope user).entityVisible data.src = true ∧
        (db.visibleScope user).entityVisible data.dst = true) := by
  have hfeature : db.requireFeature = .ok () := if_pos henabled
  have hallowed : user.requirePerm "asset:relation:add" = .ok () := if_pos hperm
  rw [createRelation, hfeature, hallowed, hvalid, requireEndpoints_eq]
  by_cases hsee : (db.visibleScope user).entityVisible data.src = true ∧
      (db.visibleScope user).entityVisible data.dst = true
  · rw [if_pos hsee]
    refine iff_of_false (fun h => ?_) (not_not.mpr hsee)
    cases hfind : db.relations.find? fun r =>
        decide (r.src = data.src ∧ r.dst = data.dst ∧ r.relType = data.relType) with
    | some existing =>
        simp only [hfind] at h
        cases h
    | none =>
        simp only [hfind] at h
        change (if _ then _ else _) = _ at h
        split_ifs at h
        · cases h
        · cases h
  · rw [if_neg hsee]
    exact iff_of_true rfl hsee

/-- `delete_relation` of a row is forbidden exactly where an endpoint is not seen. -/
theorem deleteRelation_forbidden_iff {relationId : ℤ} {row : EntityRelation}
    (henabled : db.enabled = true) (hperm : user.hasPerm "asset:relation:del" = true)
    (hrow : (db.relations.find? fun r => decide (r.id = relationId)) = some row) :
    deleteRelation user relationId db =
        .error (.forbidden "relation endpoints not visible to caller") ↔
      ¬ ((db.visibleScope user).entityVisible row.src = true ∧
        (db.visibleScope user).entityVisible row.dst = true) := by
  have hfeature : db.requireFeature = .ok () := if_pos henabled
  have hallowed : user.requirePerm "asset:relation:del" = .ok () := if_pos hperm
  rw [deleteRelation, hfeature, hallowed, hrow]
  dsimp only
  rw [requireEndpoints_eq]
  by_cases hsee : (db.visibleScope user).entityVisible row.src = true ∧
      (db.visibleScope user).entityVisible row.dst = true
  · rw [if_pos hsee]
    refine iff_of_false (fun h => ?_) (not_not.mpr hsee)
    cases h
  · rw [if_neg hsee]
    exact iff_of_true rfl hsee

/-- A call of `topology` that returns has searched. -/
theorem topology_eq {scan : Scan db.relations} {root : Entity} {direction : Option String}
    {depth : Option ℤ} {relTypes : Option (List String)} {topo : Topology}
    (h : topology db scan user root direction depth relTypes = .ok topo) :
    ∃ d n, checkDirection direction = .ok d ∧ clampDepth depth = .ok n ∧
      topo = searchTopology db scan (db.visibleScope user) root d n relTypes := by
  obtain ⟨-, -, h⟩ := bind_eq_ok.mp h
  obtain ⟨-, -, h⟩ := bind_eq_ok.mp h
  obtain ⟨d, hd, h⟩ := bind_eq_ok.mp h
  obtain ⟨n, hn, h⟩ := bind_eq_ok.mp h
  exact ⟨d, n, hd, hn, (Except.ok.inj h).symm⟩

/-- A call of `impact` that returns has searched. -/
theorem impact_eq {scan : Scan db.relations} {root : Entity} {direction : Option String}
    {depth : Option ℤ} {relTypes : Option (List String)} {imp : Impact}
    (h : impact db scan user root direction depth relTypes = .ok imp) :
    ∃ d n, checkDirection (some (direction.getD "down")) = .ok d ∧ clampDepth depth = .ok n ∧
      imp = searchImpact db scan (db.visibleScope user) root d n relTypes := by
  obtain ⟨-, -, h⟩ := bind_eq_ok.mp h
  obtain ⟨-, -, h⟩ := bind_eq_ok.mp h
  obtain ⟨d, hd, h⟩ := bind_eq_ok.mp h
  obtain ⟨n, hn, h⟩ := bind_eq_ok.mp h
  exact ⟨d, n, hd, hn, (Except.ok.inj h).symm⟩

theorem mem_topology_nodes {scan : Scan db.relations} {scope : Scope} {root : Entity}
    {d : Direction} {n : ℕ} {relTypes : Option (List String)} {topo : Topology}
    (h : IsTopology db scan scope root d n relTypes topo) (x : Entity) :
    x ∈ topo.nodes.map TopologyNode.entity ↔
      Within (Linked db.relations d relTypes) root n x ∧ scope.entityVisible x = true := by
  rw [h.nodes, List.mem_filter, (layers_isLayer scan d relTypes root n).seen]

theorem mem_impact_affected {scan : Scan db.relations} {scope : Scope} {root : Entity}
    {d : Direction} {n : ℕ} {relTypes : Option (List String)} {imp : Impact}
    (h : IsImpact db scan scope root d n relTypes imp) (x : Entity) :
    x ∈ imp.affected.map LabelledEntity.entity ↔
      Within (Linked db.relations d relTypes) root n x ∧ x ≠ root ∧
        scope.entityVisible x = true := by
  obtain ⟨rest, hrest⟩ := layers_seen_eq (neighbours (edgesFor scan d relTypes)) root n
  have hlayer := layers_isLayer scan d relTypes root n
  have hdistinct := hlayer.distinct
  rw [hrest, List.nodup_cons] at hdistinct
  rw [h.affected, List.mem_filter, ← hlayer.seen, hrest, List.tail_cons, List.mem_cons, ← and_assoc]
  refine and_congr_left fun _ => ⟨fun hx => ⟨.inr hx, fun heq => hdistinct.1 (heq ▸ hx)⟩, ?_⟩
  rintro ⟨hx, hne⟩
  exact hx.resolve_left hne

/-- **The calls** treat as visible what is in their scope. -/
theorem treatsVisible_scope (db : CmdbDb) (user : Actor) :
    TreatsVisible db user fun e => (db.visibleScope user).entityVisible e = true := by
  refine ⟨fun _ _ => createRelation_forbidden_iff, fun _ _ => deleteRelation_forbidden_iff, ?_, ?_,
    ?_⟩
  · intro filters r
    rw [CmdbDb.listedRows, List.mem_filter, (List.mergeSort_perm _ _).mem_iff, List.mem_filter,
      Bool.and_eq_true, and_assoc]
  · intro scan root d n relTypes topo hn h
    obtain ⟨d', n', hd, hdepth, rfl⟩ := topology_eq h
    obtain rfl := Except.ok.inj ((checkDirection_name d).symm.trans hd)
    obtain rfl := Except.ok.inj ((clampDepth_of_le hn).symm.trans hdepth)
    refine ⟨mem_topology_nodes (isTopology_search _), fun e => ?_⟩
    have hall : ∀ x, Scope.entityVisible ⟨none, none⟩ x = true := fun x => by
      rw [Scope.entityVisible]
      split_ifs <;> rfl
    simp only [searchTopology, List.mem_filter, hall, Bool.and_self, and_true, Bool.and_eq_true]
  · intro scan root d n relTypes imp hn h
    obtain ⟨d', n', hd, hdepth, rfl⟩ := impact_eq h
    obtain rfl := Except.ok.inj ((checkDirection_name d).symm.trans hd)
    obtain rfl := Except.ok.inj ((clampDepth_of_le hn).symm.trans hdepth)
    exact mem_impact_affected (isImpact_search _)

/-- What the calls treat as visible is determined: `topology` of no steps shows its root or not. -/
theorem TreatsVisible.iff_scope (h : TreatsVisible db user T) (henabled : db.enabled = true)
    (hperm : user.hasPerm "asset:topo:view" = true) (e : Entity) :
    T e ↔ (db.visibleScope user).entityVisible e = true := by
  obtain ⟨topo, hok, htopo⟩ := topology_ok ⟨fun _ => db.relations, fun _ => .refl _⟩ e none henabled
    hperm (checkDirection_name .down) (clampDepth_of_le (Nat.zero_le 3))
  have hin := mem_topology_nodes htopo e
  have hT := (h.topology _ e .down 0 none topo (Nat.zero_le 3) hok).1 e
  have hroot : Within (Linked db.relations .down none) e 0 e := within_zero_iff.mpr rfl
  rw [and_iff_right hroot] at hin hT
  exact hT.symm.trans hin

/-- **Visibility by identity.** The calls treat exactly the hosts in the caller's groups as visible
exactly if no such host is called by the number of a host that is not in them. -/
theorem uses_identity_iff (henabled : db.enabled = true)
    (hperm : user.hasPerm "asset:topo:view" = true) (hadmin : user.isAdmin = false) :
    TreatsVisible db user (SeenByIdentity db user) ↔ NamesNoOther db user := by
  rw [← visible_iff_identity hadmin]
  constructor
  · exact fun h => h.iff_scope henabled hperm
  · intro h
    have hsame : SeenByIdentity db user = fun e => (db.visibleScope user).entityVisible e = true :=
      funext fun e => propext (h e)
    rw [hsame]
    exact treatsVisible_scope db user

end Treats

/-! ### A host called by a number -/

/-- Host 7 of the caller's group is called `42`, and host 42 is in another group. -/
def numberNamed : CmdbDb where
  enabled := true
  hosts := [⟨7, "42", "10.0.0.7", some 1⟩, ⟨42, "ledger", "10.0.0.42", some 2⟩]
  groups := [⟨1, "web"⟩, ⟨2, "finance"⟩]
  relations := []
  nextRelation := 1

/-- A caller of group 1. -/
def webUser : Actor := ⟨5, false, [1], fun _ => true⟩

/-- Host 42 is seen although it is in no group of the caller. -/
theorem named_host_seen :
    ¬ TreatsVisible numberNamed webUser (SeenByIdentity numberNamed webUser) := by
  intro h
  have hseen := (h.iff_scope rfl rfl (host 42)).mpr
    ((entityVisible_host_iff rfl 42).mpr (.inr ⟨_, List.mem_cons_self, by decide, .inr rfl⟩))
  have hown : OwnHost numberNamed webUser 42 := hseen
  obtain ⟨h, hmem, hid, hgroup⟩ := hown
  simp only [numberNamed, List.mem_cons, List.not_mem_nil, or_false] at hmem
  rcases hmem with rfl | rfl
  · exact absurd hid (by decide)
  · exact absurd hgroup (by decide)

/-- Host 7 is called by its own number. -/
def ownNumberNamed : CmdbDb where
  enabled := true
  hosts := [⟨7, "7", "7", some 1⟩, ⟨42, "ledger", "10.0.0.42", some 2⟩]
  groups := [⟨1, "web"⟩, ⟨2, "finance"⟩]
  relations := []
  nextRelation := 1

/-- Hosts are seen by their identity where none is called by the number of another. -/
theorem own_number_seen :
    TreatsVisible ownNumberNamed webUser (SeenByIdentity ownNumberNamed webUser) := by
  refine (uses_identity_iff rfl rfl rfl).mpr ?_
  rintro id ⟨h, hmem, hgroup, hname⟩
  simp only [ownNumberNamed, List.mem_cons, List.not_mem_nil, or_false] at hmem
  rcases hmem with rfl | rfl
  · have htext : toString id = toString 7 := hname.elim Eq.symm Eq.symm
    exact ⟨_, List.mem_cons_self, intText_eq_iff.mp htext, rfl⟩
  · exact absurd hgroup (by decide)

end LarkPlat.Cmdb
