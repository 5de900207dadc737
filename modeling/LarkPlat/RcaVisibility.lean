import LarkPlat.CmdbVisibility
import LarkPlat.Rca

/-!
# What a Report Tells of Other Groups

`impact` clips the entities that it has found, and gives the label of its root as it is. `run` asks
for no alert whether the caller sees its entity: the report repeats the entity, and the rule and the
severity where something visible lies behind it.

An alert says its entity by a text, which is the address, the name or the number of a host. It is
one of the caller's groups if the text names a host in them, or the entity that `run` looks up is in
them.

## Main results

* `reports_clipped_iff`: a report tells of entities of the caller's groups only, exactly if its root
  is one of them or has nothing to tell, and no host in them is called by the number of another one
  that lies within the depth.
-/

namespace LarkPlat.Rca

open Cmdb Search

variable {env : RcaEnv} {db : RcaDb} {scan : Scan db.relations} {user : Actor}

/-! ### Runs -/

/-- An entity of a type that is a text. -/
def typedEntity : Json → ℤ → Option Entity
  | .str type, id => some ⟨type, id⟩
  | _, _ => none

/-- The entity that `run` looks up. -/
def AlertRow.root (env : RcaEnv) (a : AlertRow) : Option Entity :=
  (coerceId env a.entityId).bind fun id => typedEntity a.rootType id

/-- What lies behind an entity, as `impact` answers it. -/
def behind (db : CmdbDb) (scan : Scan db.relations) (user : Actor) (n : ℕ) :
    Option Entity → List LabelledEntity
  | none => []
  | some root => (searchImpact db scan (db.visibleScope user) root .down n none).affected

theorem clampDepth_le {depth : Option ℤ} {n : ℕ} (h : clampDepth depth = .ok n) : n ≤ 3 := by
  cases depth with
  | none =>
      obtain rfl : 2 = n := Except.ok.inj h
      omega
  | some depth =>
      rw [clampDepth] at h
      split_ifs at h with hout
      obtain rfl : depth.toNat = n := Except.ok.inj h
      omega

/-- What `run` takes from `impact`. -/
theorem affectedBy_ok {etype : Json} {eid : ℤ} {n : ℕ} {affected : List LabelledEntity}
    (hn : n ≤ 3) (h : affectedBy env db.toCmdbDb scan user etype eid n = .ok affected) :
    affected = behind db.toCmdbDb scan user n (typedEntity etype eid) := by
  have hother : ∀ x : Except PyErr DictKey,
      (do
        db.requireFeature
        user.requirePerm "asset:topo:view"
        let _ ← x
        if n = 0 then return [] else throw env.refused) = .ok affected → affected = [] := by
    intro x h
    obtain ⟨-, -, h⟩ := bind_eq_ok.mp h
    obtain ⟨-, -, h⟩ := bind_eq_ok.mp h
    obtain ⟨-, -, h⟩ := bind_eq_ok.mp h
    split_ifs at h
    exact (Except.ok.inj h).symm
  cases etype with
  | str type =>
      obtain ⟨imp, himp, h⟩ := bind_eq_ok.mp h
      obtain ⟨d, n', hd, hdepth, rfl⟩ := impact_eq himp
      obtain rfl : Direction.down = d := Except.ok.inj ((checkDirection_name .down).symm.trans hd)
      obtain rfl := Except.ok.inj ((clampDepth_of_le hn).symm.trans hdepth)
      exact (Except.ok.inj h).symm
  | null => exact hother _ h
  | bool b => exact hother _ h
  | int i => exact hother _ h
  | float q => exact hother _ h
  | arr items => exact hother _ h
  | obj fields => exact hother _ h

/-- **A report** repeats the entity of its alert, and lists what lies behind it. -/
theorem run_ok {alertId : ℤ} {depth : Option ℤ} {rep : RcaReport}
    (h : run env db scan user alertId depth = .ok rep) :
    ∃ a n, (db.alerts.rows.find? fun a => decide ((a.id : ℤ) = alertId)) = some a ∧
      clampDepth depth = .ok n ∧ rep.rootEntity = ⟨a.rootType, a.entityId, a.entityName⟩ ∧
      rep.candidates = (behind db.toCmdbDb scan user n (a.root env)).map
        fun k => candidate a k.entity := by
  obtain ⟨-, -, h⟩ := bind_eq_ok.mp h
  obtain ⟨-, -, h⟩ := bind_eq_ok.mp h
  cases hfind : db.alerts.rows.find? fun a => decide ((a.id : ℤ) = alertId) with
  | none =>
      rw [hfind] at h
      cases h
  | some a =>
      rw [hfind] at h
      obtain ⟨n, hdepth, h⟩ := bind_eq_ok.mp h
      obtain ⟨affected, haffected, h⟩ := bind_eq_ok.mp h
      obtain rfl := Except.ok.inj h
      refine ⟨a, n, rfl, hdepth, rfl, ?_⟩
      suffices hbehind : affected = behind db.toCmdbDb scan user n (a.root env) by rw [hbehind]
      rw [AlertRow.root]
      cases hid : coerceId env a.entityId with
      | none =>
          rw [hid] at haffected
          exact (Except.ok.inj haffected).symm
      | some eid =>
          rw [hid] at haffected
          exact affectedBy_ok (clampDepth_le hdepth) haffected

/-! ### What a report tells -/

/-- A row of the entity has a name. -/
def Labelled (db : CmdbDb) (e : Entity) : Prop :=
  (e.type = "host" ∧ ∃ h, (db.hosts.find? fun h => decide ((h.id : ℤ) = e.id)) = some h ∧
    (h.hostname ≠ "" ∨ h.ip ≠ "")) ∨
  (e.type = "host_group" ∧ ∃ g, (db.groups.find? fun g => decide (g.id = e.id)) = some g ∧
    g.name ≠ "")

/-- The text is the address or the host name of a host. -/
def NamesHost (db : CmdbDb) (name : String) : Prop :=
  name ≠ "" ∧ ∃ h ∈ db.hosts, h.ip = name ∨ h.hostname = name

/-- The entity of the alert is one of the caller's groups: its text names a host in them, or what
`run` looks up is in them. -/
def AlertSeen (env : RcaEnv) (db : CmdbDb) (user : Actor) (a : AlertRow) : Prop :=
  env.str a.entityId ∈ visibleEntityIds db.hosts user.visibleGroupIds ∨
    ∃ root ∈ a.root env, SeenByIdentity db user root

/-- The result of `impact` tells of entities of the caller's groups only. -/
structure ImpactClipped (db : CmdbDb) (user : Actor) (imp : Impact) : Prop where
  root : imp.root.label ≠ "" → SeenByIdentity db user imp.root.entity
  affected : ∀ k ∈ imp.affected, SeenByIdentity db user k.entity

/-- The report has no name of its root, no rule and no severity. -/
structure Silent (env : RcaEnv) (db : CmdbDb) (rep : RcaReport) : Prop where
  name : rep.rootEntity.name.truthy = false
  id : ¬ NamesHost db (env.str rep.rootEntity.id)
  evidence : ∀ c ∈ rep.candidates, c.evidence = []

/-- The report on an alert tells of entities of the caller's groups only. -/
structure ReportClipped (env : RcaEnv) (db : CmdbDb) (user : Actor) (a : AlertRow)
    (rep : RcaReport) : Prop where
  root : AlertSeen env db user a ∨ Silent env db rep
  candidates : ∀ c ∈ rep.candidates, ∃ e, SeenByIdentity db user e ∧ c.entityType = e.type ∧
    c.entityId = toString e.id

/-- Another entity lies within the depth from the root, and the calls see it. -/
def LiesBehind (db : CmdbDb) (user : Actor) (d : Direction) (n : ℕ)
    (relTypes : Option (List String)) (root e : Entity) : Prop :=
  Within (Linked db.relations d relTypes) root n e ∧ e ≠ root ∧
    (db.visibleScope user).entityVisible e = true

/-- There is nothing to tell of an alert. -/
structure NothingToTell (env : RcaEnv) (db : CmdbDb) (user : Actor) (n : ℕ) (a : AlertRow) :
    Prop where
  name : a.entityName.truthy = false
  id : ¬ NamesHost db (env.str a.entityId)
  behind : ∀ root ∈ a.root env, ∀ e, ¬ LiesBehind db user .down n none root e

section Told

variable {d : Direction} {n : ℕ} {relTypes : Option (List String)} {root e : Entity}
  {a : AlertRow}

theorem labels_ne_empty_iff (db : CmdbDb) (e : Entity) :
    db.labels [e] e ≠ "" ↔ Labelled db e := by
  rw [CmdbDb.labels, if_neg (not_not.mpr (List.mem_singleton_self e)), Labelled]
  split_ifs with hhost hgroup
  · have hother : e.type ≠ "host_group" := hhost ▸ by decide
    rw [and_iff_right hhost, or_iff_left fun h => hother h.1]
    cases db.hosts.find? fun h => decide ((h.id : ℤ) = e.id) with
    | none => simp
    | some h =>
        by_cases hname : h.hostname = ""
        · simp [hname]
        · simp [hname]
  · rw [and_iff_right hgroup, or_iff_right fun h => hhost h.1]
    cases db.groups.find? fun g => decide (g.id = e.id) with
    | none => simp
    | some g => simp
  · simp [hhost, hgroup]

/-- What `impact` lists is what lies behind its root. -/
theorem mem_affected_iff (scan : Scan db.relations) :
    e ∈ (searchImpact db.toCmdbDb scan (db.visibleScope user) root d n relTypes).affected.map
        LabelledEntity.entity ↔ LiesBehind db.toCmdbDb user d n relTypes root e :=
  mem_impact_affected (isImpact_search _) e

theorem mem_behind_iff (scan : Scan db.relations) (found : Option Entity) :
    e ∈ (behind db.toCmdbDb scan user n found).map LabelledEntity.entity ↔
      ∃ root ∈ found, LiesBehind db.toCmdbDb user .down n none root e := by
  cases found with
  | none => simp [behind]
  | some root => simp [behind, mem_affected_iff]

/-- The result of a search is clipped exactly if its root and what lies behind it may be told. -/
theorem searchImpact_clipped_iff (scan : Scan db.relations) :
    ImpactClipped db.toCmdbDb user
        (searchImpact db.toCmdbDb scan (db.visibleScope user) root d n relTypes) ↔
      (Labelled db.toCmdbDb root → SeenByIdentity db.toCmdbDb user root) ∧
        ∀ e, LiesBehind db.toCmdbDb user d n relTypes root e →
          SeenByIdentity db.toCmdbDb user e := by
  have himpact : IsImpact db.toCmdbDb scan (db.visibleScope user) root d n relTypes _ :=
    isImpact_search _
  have hroot := himpact.asked
  constructor
  · intro h
    refine ⟨fun hlabel => ?_, fun e he => ?_⟩
    · have hseen := h.root
      rw [hroot] at hseen
      exact hseen ((labels_ne_empty_iff _ _).mpr hlabel)
    · obtain ⟨k, hk, rfl⟩ := List.mem_map.mp ((mem_affected_iff scan).mpr he)
      exact h.affected k hk
  · rintro ⟨hseen, hbehind⟩
    refine ⟨?_, fun k hk => hbehind _ ((mem_affected_iff scan).mp (List.mem_map_of_mem hk))⟩
    rw [hroot]
    exact fun hlabel => hseen ((labels_ne_empty_iff _ _).mp hlabel)

/-- A report has nothing to tell exactly if there is nothing to tell of its alert. -/
theorem silent_iff (scan : Scan db.relations) {rep : RcaReport}
    (hroot : rep.rootEntity = ⟨a.rootType, a.entityId, a.entityName⟩)
    (hcandidates : rep.candidates = (behind db.toCmdbDb scan user n (a.root env)).map
      fun k => candidate a k.entity) :
    Silent env db.toCmdbDb rep ↔ NothingToTell env db.toCmdbDb user n a := by
  have hname : rep.rootEntity.name = a.entityName := by rw [hroot]
  have hid : rep.rootEntity.id = a.entityId := by rw [hroot]
  constructor
  · rintro ⟨h, hnamed, hevidence⟩
    refine ⟨hname ▸ h, hid ▸ hnamed, fun root hfound e hbehind => ?_⟩
    obtain ⟨k, hk, -⟩ := List.mem_map.mp ((mem_behind_iff scan _).mpr ⟨root, hfound, hbehind⟩)
    have hcandidate : candidate a k.entity ∈ rep.candidates :=
      hcandidates ▸ List.mem_map_of_mem hk
    exact List.cons_ne_nil _ _ (hevidence _ hcandidate)
  · rintro ⟨h, hnamed, hnone⟩
    refine ⟨hname ▸ h, hid ▸ hnamed, fun c hc => ?_⟩
    rw [hcandidates] at hc
    obtain ⟨k, hk, rfl⟩ := List.mem_map.mp hc
    obtain ⟨root, hfound, hbehind⟩ := (mem_behind_iff scan _).mp (List.mem_map_of_mem hk)
    exact absurd hbehind (hnone root hfound _)

/-- The candidates are of the caller's groups exactly if what lies behind the entity is. -/
theorem candidates_seen_iff (scan : Scan db.relations) (user : Actor) (n : ℕ) (a : AlertRow)
    (found : Option Entity) :
    (∀ c ∈ (behind db.toCmdbDb scan user n found).map fun k => candidate a k.entity,
      ∃ e, SeenByIdentity db.toCmdbDb user e ∧ c.entityType = e.type ∧
        c.entityId = toString e.id) ↔
      ∀ root ∈ found, ∀ e, LiesBehind db.toCmdbDb user .down n none root e →
        SeenByIdentity db.toCmdbDb user e := by
  constructor
  · intro h root hfound e hbehind
    obtain ⟨k, hk, rfl⟩ := List.mem_map.mp ((mem_behind_iff scan _).mpr ⟨root, hfound, hbehind⟩)
    obtain ⟨e, hseen, htype, hid⟩ := h _ (List.mem_map_of_mem hk)
    have heq : k.entity = e := congrArg₂ Entity.mk htype (intText_inj hid)
    exact heq ▸ hseen
  · intro h c hc
    obtain ⟨k, hk, rfl⟩ := List.mem_map.mp hc
    obtain ⟨root, hfound, hbehind⟩ := (mem_behind_iff scan _).mp (List.mem_map_of_mem hk)
    exact ⟨k.entity, h root hfound _ hbehind, rfl, rfl⟩

/-- **Reports of visible entities.** A result of `impact` tells of the caller's groups only exactly
if its root is in them or has no name, and so is all that lies behind it. A report of `run` does
exactly if the entity of its alert is in them or there is nothing to tell, and so is all that lies
behind it. -/
theorem reports_clipped_iff (env : RcaEnv) (db : RcaDb) (scan : Scan db.relations)
    (user : Actor) :
    (∀ root direction depth relTypes imp d n,
      impact db.toCmdbDb scan user root direction depth relTypes = .ok imp →
      checkDirection (some (direction.getD "down")) = .ok d → clampDepth depth = .ok n →
      (ImpactClipped db.toCmdbDb user imp ↔
        (Labelled db.toCmdbDb root → SeenByIdentity db.toCmdbDb user root) ∧
          ∀ e, LiesBehind db.toCmdbDb user d n relTypes root e →
            SeenByIdentity db.toCmdbDb user e)) ∧
    ∀ alertId depth rep a n, run env db scan user alertId depth = .ok rep →
      (db.alerts.rows.find? fun a => decide ((a.id : ℤ) = alertId)) = some a →
      clampDepth depth = .ok n →
      (ReportClipped env db.toCmdbDb user a rep ↔
        (AlertSeen env db.toCmdbDb user a ∨ NothingToTell env db.toCmdbDb user n a) ∧
          ∀ root ∈ a.root env, ∀ e, LiesBehind db.toCmdbDb user .down n none root e →
            SeenByIdentity db.toCmdbDb user e) := by
  constructor
  · intro root direction depth relTypes imp d n himp hdirection hdepth
    obtain ⟨d', n', hd, hn, rfl⟩ := impact_eq himp
    obtain rfl := Except.ok.inj (hdirection.symm.trans hd)
    obtain rfl := Except.ok.inj (hdepth.symm.trans hn)
    exact searchImpact_clipped_iff scan
  · intro alertId depth rep a n hrun hfind hdepth
    obtain ⟨a', n', ha, hn, hroot, hcandidates⟩ := run_ok hrun
    obtain rfl := Option.some.inj (hfind.symm.trans ha)
    obtain rfl := Except.ok.inj (hdepth.symm.trans hn)
    have hseen := candidates_seen_iff scan user n a (a.root env)
    rw [← hcandidates] at hseen
    rw [← silent_iff scan hroot hcandidates, ← hseen]
    exact ⟨fun h => ⟨h.root, h.candidates⟩, fun h => ⟨h.1, h.2⟩⟩

end Told

/-! ### An alert on a host of another group -/

/-- Texts and numbers as Python has them. -/
def plainEnv : RcaEnv := ⟨Json.pyStr, Json.parseInt, .valueError, "2026-09-28T00:00:00+00:00"⟩

/-- An alert on a host. -/
def hostAlert (id hostId : ℕ) (name : String) : AlertRow where
  id := id
  ruleId := some 3
  ruleName := "disk"
  entity := [("entity_type", .str "host"), ("entity_id", .int hostId), ("entity_name", .str name)]
  status := "firing"
  severity := "critical"

/-- Host 42 of group 2 runs on host 7 of group 1, and there is an alert on each. -/
def ledgerDb : RcaDb where
  enabled := true
  hosts := [⟨7, "web-1", "10.0.0.7", some 1⟩, ⟨42, "ledger", "10.0.0.42", some 2⟩]
  groups := [⟨1, "web"⟩, ⟨2, "finance"⟩]
  relations := [⟨1, host 42, host 7, "runs_on", none, "", none, 0, 0⟩]
  nextRelation := 2
  rcaEnabled := true
  alerts := ⟨[hostAlert 1 42 "ledger", hostAlert 2 7 "web-1"], by decide⟩

/-- The rows of each query in the order of the table. -/
def ledgerScan : Scan ledgerDb.relations := Scan.inOrder ledgerDb.relations

theorem ledger_not_own : ¬ SeenByIdentity ledgerDb.toCmdbDb webUser (host 42) := by
  rintro ⟨h, hmem, hid, hgroup⟩
  simp only [ledgerDb, List.mem_cons, List.not_mem_nil, or_false] at hmem
  rcases hmem with rfl | rfl
  · exact absurd hid (by decide)
  · exact absurd hgroup (by decide)

/-- A caller of group 1 gets the name of host 42 from `impact`, and the name, the rule and the
severity of its alert from `run`. -/
theorem ledger_told :
    (∃ imp, impact ledgerDb.toCmdbDb ledgerScan webUser (host 42) none none none = .ok imp ∧
      ¬ ImpactClipped ledgerDb.toCmdbDb webUser imp) ∧
    ∃ rep, run plainEnv ledgerDb ledgerScan webUser 1 none = .ok rep ∧
      ¬ ReportClipped plainEnv ledgerDb.toCmdbDb webUser (hostAlert 1 42 "ledger") rep := by
  refine ⟨⟨_, rfl, fun h => ?_⟩, ⟨_, rfl, fun h => ?_⟩⟩
  · exact ledger_not_own (h.root (by decide))
  · rcases h.root with (hname | ⟨root, hroot, hseen⟩) | hsilent
    · exact absurd hname (by decide +kernel)
    · obtain rfl : host 42 = root := Option.some.inj hroot
      exact ledger_not_own hseen
    · exact absurd hsilent.name (by decide)

/-- Host 7 is in the caller's group, and so is all that is told of it and of its alert. -/
theorem web_told :
    ∃ imp rep, impact ledgerDb.toCmdbDb ledgerScan webUser (host 7) none (some 0) none = .ok imp ∧
      run plainEnv ledgerDb ledgerScan webUser 2 (some 0) = .ok rep ∧
      ImpactClipped ledgerDb.toCmdbDb webUser imp ∧
      ReportClipped plainEnv ledgerDb.toCmdbDb webUser (hostAlert 2 7 "web-1") rep := by
  have hown : SeenByIdentity ledgerDb.toCmdbDb webUser (host 7) :=
    ⟨_, List.mem_cons_self, rfl, by decide⟩
  have hnone : ∀ root e, ¬ LiesBehind ledgerDb.toCmdbDb webUser .down 0 none root e :=
    fun root e h => h.2.1 (within_zero_iff.mp h.1)
  have hclipped := reports_clipped_iff plainEnv ledgerDb ledgerScan webUser
  refine ⟨_, _, rfl, rfl, ?_, ?_⟩
  · refine (hclipped.1 (host 7) none (some 0) none _ .down 0 rfl rfl rfl).mpr ?_
    exact ⟨fun _ => hown, fun e he => absurd he (hnone _ e)⟩
  · refine (hclipped.2 2 (some 0) _ _ 0 rfl rfl rfl).mpr ?_
    exact ⟨.inl (.inr ⟨host 7, rfl, hown⟩), fun root _ e he => absurd he (hnone root e)⟩

end LarkPlat.Rca
