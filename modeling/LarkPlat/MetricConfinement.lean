import LarkPlat.MetricReads
import Mathlib.Data.Fintype.EquivFin

/-!
# Metrics of Other Groups

What a user reads of the metrics should depend on the samples of visible entities only. Two
databases that agree on these give the same result to a query if something of the request is left
once it is cut down to the visible entities. If nothing is left, the query is not filtered. The
current values are taken from the newest rows of all entities, so that rows of others crowd out the
user's own.

## Main results

* `metrics_confined_iff`: a read is confined to the visible samples exactly if it is refused, or is
  a query with something visible in its scope or with bounds that no time satisfies.
* `invisible_request_reads`: a request for an entity that the user may not see returns its samples.
-/

namespace LarkPlat

variable {env : MetricEnv} {hosts : List AssetHost} {user : Actor}

/-! ### Confinement -/

/-- The entities that a user who is no administrator may see. -/
def visibleTo (hosts : List AssetHost) (user : Actor) : List String :=
  visibleEntityIds hosts user.visibleGroupIds

/-- The samples of these entities. -/
def visibleSamples (hosts : List AssetHost) (user : Actor) (samples : List MetricSample) :
    List MetricSample :=
  samples.filter fun s => decide (s.entityId ∈ visibleTo hosts user)

/-- The entities that a read asks for. -/
def MetricCall.entityIds : MetricCall → Option (List String)
  | .query q => q.entityIds
  | .current entityIds _ => entityIds

/-- The answer shows no sample. -/
def MetricAnswer.HasNoPoints : MetricAnswer → Prop
  | .buckets _ points => points = []
  | .page points _ _ _ => points = []
  | .current list => list = []

/-- The user sees nothing of what the read asks for. -/
def MetricCall.AsksInvisible (hosts : List AssetHost) (user : Actor) (call : MetricCall) : Prop :=
  visibleTo hosts user = [] ∨ ∃ ids, call.entityIds = some ids ∧ ∀ e ∈ ids, e ∉ visibleTo hosts user

/-- Databases that agree on the visible samples give the same result, and a read that asks for
nothing visible shows no sample. -/
structure MetricCall.Confined (env : MetricEnv) (hosts : List AssetHost) (user : Actor)
    (call : MetricCall) : Prop where
  same : ∀ s₁ s₂, visibleSamples hosts user s₁ = visibleSamples hosts user s₂ →
    call.result env ⟨hosts, s₁⟩ user = call.result env ⟨hosts, s₂⟩ user
  nothing : call.AsksInvisible hosts user → ∀ samples answer,
    call.result env ⟨hosts, samples⟩ user = .ok answer → answer.HasNoPoints

/-- The user may not read metrics. -/
def Refused (user : Actor) : Prop := user.hasPerm "monitor:metric:view" = false

/-- No time satisfies the bounds of the query, or they cannot be read. -/
def MetricQuery.EmptyWindow (env : MetricEnv) (q : MetricQuery) : Prop :=
  ∀ first last, queryWindow env q = .ok (first, last) → ∀ t, inWindow first last t = false

/-- The read is refused, or it is a query that is filtered, or one that selects nothing. -/
def MetricCall.Filtered (env : MetricEnv) (hosts : List AssetHost) (user : Actor) :
    MetricCall → Prop
  | .query q =>
      Refused user ∨ scopeMetricIds hosts user q.entityIds q.groupId ≠ some [] ∨ q.EmptyWindow env
  | .current _ _ => Refused user

/-! ### Scopes -/

theorem mem_of_mem_narrow {others : List String} {requested : Option (List String)} {e : String}
    (h : e ∈ narrow others requested) : e ∈ others := by
  cases requested with
  | none => exact h
  | some ids => exact of_decide_eq_true (List.mem_filter.mp h).2

/-- The scope of a user who is no administrator is cut down to the visible entities. -/
theorem scopeMetricIds_eq (hadmin : user.isAdmin = false) (entityIds : Option (List String))
    (groupId : Option ℕ) :
    scopeMetricIds hosts user entityIds groupId =
      some (narrow (visibleTo hosts user) (groupScope hosts entityIds groupId)) := by
  rw [scopeMetricIds, scopeOf, hadmin]
  rfl

theorem mem_of_mem_groupScope {ids : List String} {groupId : Option ℕ} {ids' : List String}
    (h : groupScope hosts (some ids) groupId = some ids') {e : String} (he : e ∈ ids') :
    e ∈ ids := by
  cases groupId with
  | none => exact Option.some.inj h ▸ he
  | some g =>
      rw [groupScope] at h
      split_ifs at h
      · exact Option.some.inj h ▸ he
      · rw [← Option.some.inj h] at he
        exact (List.mem_filter.mp he).1

theorem scope_of_asksInvisible (hadmin : user.isAdmin = false) {entityIds : Option (List String)}
    (groupId : Option ℕ)
    (h : visibleTo hosts user = [] ∨
      ∃ ids, entityIds = some ids ∧ ∀ e ∈ ids, e ∉ visibleTo hosts user) :
    scopeMetricIds hosts user entityIds groupId = some [] := by
  rw [scopeMetricIds_eq hadmin]
  refine congrArg some (List.eq_nil_iff_forall_not_mem.mpr fun e he => ?_)
  obtain hnone | ⟨ids, rfl, hids⟩ := h
  · exact absurd (hnone ▸ mem_of_mem_narrow he) List.not_mem_nil
  · have hscope : ∃ ids', groupScope hosts (some ids) groupId = some ids' := by
      cases groupId with
      | none => exact ⟨ids, rfl⟩
      | some g =>
          rw [groupScope]
          split_ifs
          · exact ⟨ids, rfl⟩
          · exact ⟨_, rfl⟩
    obtain ⟨ids', hids'⟩ := hscope
    rw [hids'] at he
    exact hids e (mem_of_mem_groupScope hids' (List.mem_filter.mp he).1) (mem_of_mem_narrow he)

/-! ### Queries that are filtered -/

theorem matching_visible {ids : List String} (hne : ids ≠ [])
    (hvisible : ∀ e ∈ ids, e ∈ visibleTo hosts user) (metricName : String) (first last : Option ℚ)
    (samples : List MetricSample) :
    matching (some ids) metricName first last (visibleSamples hosts user samples) =
      matching (some ids) metricName first last samples := by
  rw [matching, matching, visibleSamples, List.filter_filter]
  refine List.filter_congr fun s _ => ?_
  by_cases hs : s.entityId ∈ ids
  · rw [decide_eq_true (hvisible _ hs), Bool.and_true]
  · have hwanted : entityWanted (some ids) s = false :=
      decide_eq_false fun h => h.elim hne hs
    rw [hwanted, Bool.and_false, Bool.false_and, Bool.false_and]

theorem matching_emptyWindow {first last : Option ℚ} (h : ∀ t, inWindow first last t = false)
    (entityIds : Option (List String)) (metricName : String) (samples : List MetricSample) :
    matching entityIds metricName first last samples = [] :=
  List.filter_eq_nil_iff.mpr fun s _ hs => by
    rw [h, Bool.and_false] at hs
    exact absurd hs Bool.false_ne_true

theorem answerQuery_nil (env : MetricEnv) (q : MetricQuery) :
    (answerQuery env q []).HasNoPoints := by
  rw [answerQuery]
  split_ifs
  · exact congrArg _ (List.mergeSort_nil)
  · change List.map _ _ = []
    rw [newestFirst, List.mergeSort_nil, List.drop_nil, List.take_nil, List.map_nil]

/-! ### Results -/

theorem result_refused (h : Refused user) (db : MetricDb) (call : MetricCall) :
    call.result env db user =
      .error (.forbidden ("permission denied: " ++ "monitor:metric:view")) := by
  have hperm : user.requirePerm "monitor:metric:view" =
      .error (.forbidden ("permission denied: " ++ "monitor:metric:view")) :=
    if_neg (Bool.eq_false_iff.mp h)
  cases call with
  | query q =>
      rw [MetricCall.result, queryMetrics, hperm]
      rfl
  | current entityIds metricName =>
      rw [MetricCall.result, currentMetrics, hperm]
      rfl

theorem result_query (h : ¬ Refused user) (db : MetricDb) (q : MetricQuery) :
    (MetricCall.query q).result env db user = (queryWindow env q).map fun w =>
      answerQuery env q (matching (scopeMetricIds db.hosts user q.entityIds q.groupId) q.metricName
        w.1 w.2 db.samples) := by
  have hperm : user.requirePerm "monitor:metric:view" = .ok () :=
    if_pos (Bool.not_eq_false _ ▸ h)
  rw [MetricCall.result, queryMetrics, hperm]
  cases queryWindow env q with
  | error e => rfl
  | ok w => rfl

theorem result_current (h : ¬ Refused user) (db : MetricDb) (entityIds : Option (List String))
    (metricName : Option String) :
    (MetricCall.current entityIds metricName).result env db user =
      .ok (.current ((latestByEntity (scopeMetricIds db.hosts user entityIds none)
        (metricName.getD "") db.samples).map fun s =>
          ⟨s.entityId, s.metricName, s.value, env.isoText s.ts⟩)) := by
  have hperm : user.requirePerm "monitor:metric:view" = .ok () :=
    if_pos (Bool.not_eq_false _ ▸ h)
  rw [MetricCall.result, currentMetrics, hperm]
  rfl

theorem confined_of_refused (h : Refused user) (call : MetricCall) :
    call.Confined env hosts user where
  same s₁ s₂ _ := by rw [result_refused h, result_refused h]
  nothing _ samples answer hanswer := by
    rw [result_refused h] at hanswer
    cases hanswer

/-- **A query that is filtered** is confined. -/
theorem confined_of_scope (hadmin : user.isAdmin = false) (hperm : ¬ Refused user) {q : MetricQuery}
    (hscope : scopeMetricIds hosts user q.entityIds q.groupId ≠ some []) :
    (MetricCall.query q).Confined env hosts user where
  same s₁ s₂ hsame := by
    rw [result_query hperm, result_query hperm]
    dsimp only
    rw [scopeMetricIds_eq hadmin] at hscope ⊢
    have hne : narrow (visibleTo hosts user) (groupScope hosts q.entityIds q.groupId) ≠ [] :=
      fun hnil => hscope (congrArg some hnil)
    congr 1
    funext w
    rw [← matching_visible hne (fun _ he => mem_of_mem_narrow he), hsame,
      matching_visible hne fun _ he => mem_of_mem_narrow he]
  nothing hnone _ _ _ := absurd (scope_of_asksInvisible hadmin q.groupId hnone) hscope

theorem confined_of_emptyWindow (hperm : ¬ Refused user) {q : MetricQuery}
    (hempty : q.EmptyWindow env) : (MetricCall.query q).Confined env hosts user := by
  have hresult (samples : List MetricSample) :
      (MetricCall.query q).result env ⟨hosts, samples⟩ user =
        (queryWindow env q).map fun _ => answerQuery env q [] := by
    rw [result_query hperm]
    cases hw : queryWindow env q with
    | error e => rfl
    | ok w =>
        change Except.ok (answerQuery env q (matching _ _ w.1 w.2 samples)) = _
        rw [matching_emptyWindow (hempty w.1 w.2 hw)]
        rfl
  refine ⟨fun s₁ s₂ _ => by rw [hresult, hresult], fun _ samples answer hanswer => ?_⟩
  rw [hresult] at hanswer
  cases hw : queryWindow env q with
  | error e =>
      rw [hw] at hanswer
      cases hanswer
  | ok w =>
      rw [hw] at hanswer
      exact Except.ok.inj hanswer ▸ answerQuery_nil env q

/-! ### Reads that leak -/

/-- A sample of a metric of an entity at a time. -/
def sampleOf (entityId metricName : String) (t : ℚ) : MetricSample where
  entityType := .str "host"
  entityId := entityId
  entityName := .str entityId
  metricName := metricName
  value := .finite 1
  source := .str "agent"
  ts := ⟨t, 0⟩
  labels := .null
  fingerprint := .str "auto"
  origin := ⟨.str "agent", .null⟩

theorem exists_invisible (hosts : List AssetHost) (user : Actor) :
    ∃ e, e ∉ visibleTo hosts user := by
  obtain ⟨e, he⟩ := Infinite.exists_notMem_finset (visibleTo hosts user).toFinset
  exact ⟨e, fun hmem => he (List.mem_toFinset.mpr hmem)⟩

theorem entityWanted_nil (s : MetricSample) : entityWanted (some []) s = true :=
  decide_eq_true (p := ([] : List String) = [] ∨ s.entityId ∈ []) (.inl rfl)

theorem visibleSamples_others {samples : List MetricSample}
    (h : ∀ s ∈ samples, s.entityId ∉ visibleTo hosts user) :
    visibleSamples hosts user samples = [] :=
  List.filter_eq_nil_iff.mpr fun s hs hd => h s hs (of_decide_eq_true hd)

theorem answerQuery_singleton_ne (env : MetricEnv) (q : MetricQuery) (s : MetricSample) :
    answerQuery env q [s] ≠ answerQuery env q [] := by
  rw [answerQuery, answerQuery]
  split_ifs
  · intro h
    have hpoints := congrArg List.length (MetricAnswer.buckets.inj h).2
    rw [bucketed, bucketed, List.length_map, List.length_map, List.length_mergeSort,
      List.length_mergeSort] at hpoints
    exact Nat.one_ne_zero hpoints
  · intro h
    exact Nat.one_ne_zero (MetricAnswer.page.inj h).2.1

/-- **A query without a filter** shows a sample of another entity. -/
theorem not_confined_query (hperm : ¬ Refused user) {q : MetricQuery}
    (hscope : scopeMetricIds hosts user q.entityIds q.groupId = some [])
    (hwindow : ¬ q.EmptyWindow env) : ¬ (MetricCall.query q).Confined env hosts user := by
  intro hconfined
  obtain ⟨e, he⟩ := exists_invisible hosts user
  have hopen : ∃ w, queryWindow env q = .ok w ∧ ∃ t, inWindow w.1 w.2 t = true := by
    by_contra hnone
    refine hwindow fun first last hw t => ?_
    by_contra ht
    exact hnone ⟨(first, last), hw, t, Bool.not_eq_false _ ▸ ht⟩
  obtain ⟨w, hw, t, ht⟩ := hopen
  have hother : visibleSamples hosts user [sampleOf e q.metricName t] = [] :=
    visibleSamples_others fun s hs => List.mem_singleton.mp hs ▸ he
  have hsame := hconfined.same [] [sampleOf e q.metricName t] hother.symm
  have hmatching : matching (some []) q.metricName w.1 w.2 [sampleOf e q.metricName t] =
      [sampleOf e q.metricName t] := by
    refine List.filter_eq_self.mpr fun s hs => ?_
    rw [List.mem_singleton.mp hs]
    have hmetric : metricWanted q.metricName (sampleOf e q.metricName t) = true :=
      decide_eq_true (.inr rfl)
    rw [hmetric, entityWanted_nil]
    exact ht
  rw [result_query hperm, result_query hperm, hw] at hsame
  dsimp only at hsame
  rw [hscope] at hsame
  change Except.ok (answerQuery env q []) =
    Except.ok (answerQuery env q (matching _ _ _ _ _)) at hsame
  rw [hmatching] at hsame
  exact answerQuery_singleton_ne env q _ (Except.ok.inj hsame).symm

theorem latestByEntity_eq {samples : List MetricSample} (entityIds : Option (List String))
    (metricName : String)
    (h : samples.Pairwise fun a b => decide (b.ts.time ≤ a.ts.time) = true) :
    latestByEntity entityIds metricName samples = firstOfEach ((samples.take 500).filter fun s =>
      metricWanted metricName s && entityWanted entityIds s) := by
  rw [latestByEntity, newestFirst, List.mergeSort_of_pairwise h]

theorem latestByEntity_singleton {entityIds : Option (List String)} {metricName : String}
    {s : MetricSample} (hmetric : metricWanted metricName s = true)
    (hentity : entityWanted entityIds s = true) :
    latestByEntity entityIds metricName [s] = [s] := by
  rw [latestByEntity_eq _ _ (List.pairwise_singleton _ _)]
  change firstOfEach (List.filter _ [s]) = _
  rw [List.filter_eq_self.mpr fun x hx => by rw [List.mem_singleton.mp hx, hmetric, hentity]; rfl]
  rfl

theorem latestByEntity_crowded {ids : List String} (hne : ids ≠ []) {e : String} (he : e ∉ ids)
    (metricName : String) (other : String) :
    latestByEntity (some ids) metricName
      (List.replicate 500 (sampleOf e metricName 1) ++ [sampleOf other metricName 0]) = [] := by
  have hsorted : (List.replicate 500 (sampleOf e metricName 1) ++
      [sampleOf other metricName 0]).Pairwise fun a b => decide (b.ts.time ≤ a.ts.time) = true := by
    refine List.pairwise_append.mpr ⟨List.pairwise_replicate.mpr (.inr ?_), ?_, fun a ha b hb => ?_⟩
    · exact decide_eq_true le_rfl
    · exact List.pairwise_singleton _ _
    · rw [List.eq_of_mem_replicate ha, List.mem_singleton.mp hb]
      exact decide_eq_true (by decide : (0 : ℚ) ≤ 1)
  rw [latestByEntity_eq _ _ hsorted, List.take_append_of_le_length (by rw [List.length_replicate])]
  have hnone : (List.take 500 (List.replicate 500 (sampleOf e metricName 1))).filter (fun s =>
      metricWanted metricName s && entityWanted (some ids) s) = [] := by
    refine List.filter_eq_nil_iff.mpr fun s hs hwanted => ?_
    rw [List.eq_of_mem_replicate (List.mem_of_mem_take hs)] at hwanted
    have hentity := (Bool.and_eq_true _ _ ▸ hwanted).2
    exact (of_decide_eq_true hentity).elim hne he
  rw [hnone]
  rfl

/-- **A read of current values** that is not refused is never confined. -/
theorem not_confined_current (hadmin : user.isAdmin = false) (hperm : ¬ Refused user)
    (entityIds : Option (List String)) (metricName : Option String) :
    ¬ (MetricCall.current entityIds metricName).Confined env hosts user := by
  intro hconfined
  obtain ⟨e, he⟩ := exists_invisible hosts user
  set metric := metricName.getD "" with hmetricName
  have hmetric (e : String) (t : ℚ) : metricWanted metric (sampleOf e metric t) = true :=
    decide_eq_true (.inr rfl)
  set ids := narrow (visibleTo hosts user) (groupScope hosts entityIds none) with hids
  have hscope : scopeMetricIds hosts user entityIds none = some ids := scopeMetricIds_eq hadmin _ _
  -- without a filter, a sample of another entity is shown; else such samples crowd out the user's
  have hpair : ∃ s₁ s₂, visibleSamples hosts user s₁ = visibleSamples hosts user s₂ ∧
      ∃ x, latestByEntity (some ids) metric s₁ = [] ∧
        latestByEntity (some ids) metric s₂ = [x] := by
    by_cases hnil : ids = []
    · refine ⟨[], [sampleOf e metric 0], ?_, sampleOf e metric 0, ?_, ?_⟩
      · exact (visibleSamples_others fun s hs => List.mem_singleton.mp hs ▸ he).symm
      · rw [latestByEntity_eq _ _ .nil]
        rfl
      · rw [hnil]
        exact latestByEntity_singleton (hmetric e 0) (entityWanted_nil _)
    · obtain ⟨v, hv⟩ := List.exists_mem_of_ne_nil _ hnil
      have he' : e ∉ ids := fun hmem => he (mem_of_mem_narrow hmem)
      refine ⟨List.replicate 500 (sampleOf e metric 1) ++ [sampleOf v metric 0],
        [sampleOf v metric 0], ?_, sampleOf v metric 0, ?_, ?_⟩
      · have hothers : visibleSamples hosts user (List.replicate 500 (sampleOf e metric 1)) = [] :=
          visibleSamples_others fun s hs => List.eq_of_mem_replicate hs ▸ he
        rw [visibleSamples, List.filter_append]
        exact congrArg (· ++ _) hothers
      · exact latestByEntity_crowded hnil he' metric v
      · exact latestByEntity_singleton (hmetric v 0)
          (decide_eq_true (p := ids = [] ∨ v ∈ ids) (.inr hv))
  obtain ⟨s₁, s₂, hagree, x, hfirst, hsecond⟩ := hpair
  have hsame := hconfined.same s₁ s₂ hagree
  rw [result_current hperm, result_current hperm] at hsame
  dsimp only at hsame
  rw [hscope, hfirst, hsecond] at hsame
  cases hsame

/-- **Metric reads do not leak across groups** exactly if they are refused, or are queries with
something visible in their scope or with bounds that no time satisfies. -/
theorem metrics_confined_iff (env : MetricEnv) (hosts : List AssetHost)
    (hadmin : user.isAdmin = false) (call : MetricCall) :
    call.Confined env hosts user ↔ call.Filtered env hosts user := by
  by_cases hperm : Refused user
  · refine iff_of_true (confined_of_refused hperm call) ?_
    cases call with
    | query q => exact .inl hperm
    | current entityIds metricName => exact hperm
  cases call with
  | query q =>
      constructor
      · intro hconfined
        by_contra hfiltered
        rw [MetricCall.Filtered, not_or, not_or, not_not] at hfiltered
        exact not_confined_query hperm hfiltered.2.1 hfiltered.2.2 hconfined
      · rintro (hrefused | hscope | hempty)
        · exact confined_of_refused hrefused _
        · exact confined_of_scope hadmin hperm hscope
        · exact confined_of_emptyWindow hperm hempty
  | current entityIds metricName =>
      exact iff_of_false (not_confined_current hadmin hperm entityIds metricName) hperm

/-! ### Two groups -/

/-- A host in each of two groups. -/
def metricHosts : List AssetHost :=
  [⟨1, "web-1", "10.0.0.1", some 1⟩, ⟨2, "web-2", "10.0.0.2", some 2⟩]

/-- A user of the first group. -/
def groupUser : Actor := ⟨7, false, [1], fun code => code = "monitor:metric:view"⟩

/-- A database without bounds on times. -/
def plainMetricEnv : MetricEnv where
  castTime _ := .error .valueError
  dateTrunc _ t := t
  collates a b := decide (a ≤ b)
  avg values := values.headD (.finite 0)
  max values := values.headD (.finite 0)
  min values := values.headD (.finite 0)
  bucketText t := toString t
  isoText ts := toString ts.time

/-- The first page of the samples of an entity. -/
def pageOf (entityId : String) : MetricCall :=
  .query ⟨some [entityId], none, "cpu", none, none, "", 1, 50⟩

/-- The samples of a host of the group. -/
theorem own_request_confined :
    (pageOf "10.0.0.1").Confined plainMetricEnv metricHosts groupUser := by
  refine (metrics_confined_iff plainMetricEnv metricHosts rfl _).mpr (.inr (.inl ?_))
  decide

/-- A request for a host of the other group shows its sample. -/
theorem invisible_request_reads :
    ¬ (pageOf "10.0.0.2").Confined plainMetricEnv metricHosts groupUser := by
  intro hconfined
  have hasks : (pageOf "10.0.0.2").AsksInvisible metricHosts groupUser :=
    .inr ⟨["10.0.0.2"], rfl, by decide⟩
  have hresult : ((pageOf "10.0.0.2").result plainMetricEnv
      ⟨metricHosts, [sampleOf "10.0.0.2" "cpu" 0]⟩ groupUser).toOption =
        some (.page [⟨"0", "10.0.0.2", .finite 1, .str "agent"⟩] 1 1 50) := by
    decide +kernel
  cases hread : (pageOf "10.0.0.2").result plainMetricEnv
      ⟨metricHosts, [sampleOf "10.0.0.2" "cpu" 0]⟩ groupUser with
  | error e =>
      rw [hread] at hresult
      cases hresult
  | ok answer =>
      rw [hread] at hresult
      obtain rfl := Option.some.inj hresult
      exact List.cons_ne_nil _ _ (hconfined.nothing hasks _ _ hread)

end LarkPlat
