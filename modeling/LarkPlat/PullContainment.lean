import LarkPlat.HostWrites
import LarkPlat.SlashPaths
import LarkPlat.TransferDispatch
import Mathlib.Data.List.DropRight

/-!
# Containment of Pulled Paths

`path_within_whitelist` compares normalised texts. For a path that starts with one slash, or with
more than two, the normalised text is a slash and the names that the path resolves to, so that the
comparison of the texts is one of the lists of names. `create_task` refuses a pull from a path that
the whitelist does not contain, and the dispatch asks again.

## Main results

* `normpath_absolute`: the normalised text of an absolute path.
* `pathWithinWhitelist_iff`: what the whitelist contains.
* `pull_contained`: this, and the dispatch of a created pull fetches its path if the whitelist is
  still the same.
-/

namespace LarkPlat

open SlashPaths

/-! ### Normalised texts -/

/-- The text starts with a slash. -/
def IsAbsolute (path : String) : Prop := ['/'].isPrefixOf path.toList = true

/-- The text starts with exactly two slashes. -/
def StartsWithTwoSlashes (path : String) : Prop :=
  ['/', '/'].isPrefixOf path.toList = true ∧ ¬ ['/', '/', '/'].isPrefixOf path.toList = true

instance (path : String) : Decidable (IsAbsolute path) := inferInstanceAs (Decidable (_ = _))

instance (path : String) : Decidable (StartsWithTwoSlashes path) :=
  inferInstanceAs (Decidable (_ ∧ _))

section Normpath

variable {path : String} {names : List (List Char)} {comp : List Char}

theorem takeComponent_one (hnames : ∀ n ∈ names, IsName n) :
    takeComponent 1 names comp = walk names comp := by
  rw [takeComponent, walk]
  split_ifs with hstay htake hback hback
  · rfl
  · rcases htake with hname | hroot | hlast
    · exact absurd hback hname
    · exact absurd hroot.1 (by decide)
    · exact absurd rfl (hnames _ (List.mem_of_getLast? hlast)).dots
  · rfl
  · rfl
  · exact absurd (.inl hback) htake

theorem foldl_takeComponent_one {comps : List (List Char)} (hcomps : ∀ c ∈ comps, '/' ∉ c)
    (hnames : ∀ n ∈ names, IsName n) :
    comps.foldl (takeComponent 1) names = comps.foldl walk names := by
  induction comps generalizing names with
  | nil => rfl
  | cons comp comps ih =>
      have hcomp := hcomps comp List.mem_cons_self
      rw [List.foldl_cons, List.foldl_cons, takeComponent_one hnames]
      exact ih (fun c hc => hcomps c (List.mem_cons_of_mem _ hc)) (isName_walk hnames hcomp)

/-- The normalised text of an absolute path is a slash and the names that it resolves to. -/
theorem normpath_absolute (habs : IsAbsolute path) (htwo : ¬ StartsWithTwoSlashes path) :
    normpath path.toList = '/' :: joined (resolve path.toList) := by
  have hslashes : initialSlashes path.toList = 1 := by
    rw [initialSlashes, if_pos (show ['/'].isPrefixOf path.toList = true from habs)]
    exact if_neg htwo
  have hne : path.toList ≠ [] := by
    intro h
    rw [IsAbsolute, h] at habs
    exact absurd habs (by decide)
  have hcomps : (path.toList.splitOn '/').foldl (takeComponent 1) [] = resolve path.toList :=
    foldl_takeComponent_one (fun _ hc => (Text.of_mem_splitOn hc).1)
      fun _ hn => absurd hn List.not_mem_nil
  rw [normpath, if_neg hne]
  simp only [hslashes, hcomps, List.replicate_one, List.singleton_append]
  rw [if_neg (List.cons_ne_nil _ _)]
  rfl

theorem takeComponent_mem {slashes : ℕ} (hnames : ∀ n ∈ names, n ≠ [] ∧ '/' ∉ n)
    (hcomp : '/' ∉ comp) : ∀ n ∈ takeComponent slashes names comp, n ≠ [] ∧ '/' ∉ n := by
  intro n hn
  rw [takeComponent] at hn
  split_ifs at hn with hstay htake
  · exact hnames n hn
  · rcases List.mem_append.mp hn with hn | hn
    · exact hnames n hn
    · rw [List.mem_singleton.mp hn]
      exact ⟨fun h => hstay (.inl h), hcomp⟩
  · exact hnames n (List.mem_of_mem_dropLast hn)

theorem foldl_takeComponent_mem {slashes : ℕ} {comps : List (List Char)}
    (hcomps : ∀ c ∈ comps, '/' ∉ c) (hnames : ∀ n ∈ names, n ≠ [] ∧ '/' ∉ n) :
    ∀ n ∈ comps.foldl (takeComponent slashes) names, n ≠ [] ∧ '/' ∉ n := by
  induction comps generalizing names with
  | nil => exact hnames
  | cons comp comps ih =>
      exact ih (fun c hc => hcomps c (List.mem_cons_of_mem _ hc))
        (takeComponent_mem hnames (hcomps comp List.mem_cons_self))

theorem normpath_relative (habs : ¬ IsAbsolute path) :
    ¬ ['/'].isPrefixOf (normpath path.toList) = true := by
  have hslashes : initialSlashes path.toList = 0 := if_neg habs
  rw [normpath]
  split_ifs with hempty
  · decide
  · simp only [hslashes, List.replicate_zero, List.nil_append]
    split_ifs with hnone
    · decide
    · exact not_slash_prefix_joined (foldl_takeComponent_mem
        (fun _ hc => (Text.of_mem_splitOn hc).1) fun _ hn => absurd hn List.not_mem_nil)

end Normpath

/-! ### The whitelist -/

section Whitelist

variable {path entry : String}

/-- The names of the path resolve to something, and extend those of an absolute entry. -/
def PullContained (path : String) (whitelist : List String) : Prop :=
  IsAbsolute path ∧ resolve path.toList ≠ [] ∧
    ∃ entry ∈ whitelist, IsAbsolute entry ∧ resolve entry.toList <+: resolve path.toList

theorem rstripSlash_joined {names : List (List Char)} (hne : names ≠ [])
    (hnames : ∀ n ∈ names, IsName n) :
    rstripSlash ('/' :: joined names) = '/' :: joined names := by
  have hjoined : joined names ≠ [] := fun h => hne ((joined_eq_nil_iff hnames).mp h)
  refine List.rdropWhile_eq_self_iff.mpr fun hl => ?_
  rw [decide_eq_true_iff, List.getLast_cons hjoined]
  intro hlast
  exact getLast?_joined_ne hnames (by rw [List.getLast?_eq_getLast_of_ne_nil hjoined, hlast])

theorem comparison_iff {names base : List (List Char)}
    (hnames : ∀ n ∈ names, IsName n) (hbase : ∀ n ∈ base, IsName n) :
    ('/' :: joined names = '/' :: joined base ∨
        (rstripSlash ('/' :: joined base) ++ ['/']).isPrefixOf ('/' :: joined names) = true) ↔
      base <+: names := by
  by_cases hroot : base = []
  · rw [hroot]
    refine iff_of_true (.inr ?_) (List.nil_prefix)
    simp [rstripSlash, joined]
  · rw [rstripSlash_joined hroot hbase, List.isPrefixOf_iff_prefix, List.cons_append,
      List.cons_prefix_cons, joined_slash_prefix_iff hroot hbase hnames, List.cons.injEq,
      joined_inj hnames hbase]
    constructor
    · rintro (⟨-, heq⟩ | ⟨-, hprefix, -⟩)
      · rw [heq]
      · exact hprefix
    · intro hprefix
      by_cases heq : names = base
      · exact .inl ⟨rfl, heq⟩
      · exact .inr ⟨rfl, hprefix, fun h => heq h.symm⟩

/-- The whitelist contains a path exactly if its names resolve to something and extend those of an
absolute entry. -/
theorem pathWithinWhitelist_iff {whitelist : List String} (hpath : ¬ StartsWithTwoSlashes path)
    (hentries : ∀ e ∈ whitelist, ¬ StartsWithTwoSlashes e) :
    pathWithinWhitelist path whitelist = true ↔ PullContained path whitelist := by
  by_cases habs : IsAbsolute path
  · have hnames : ∀ n ∈ resolve path.toList, IsName n := isName_of_mem_resolve
    rw [pathWithinWhitelist, if_neg (not_not.mpr (show _ = true from habs))]
    simp only [normpath_absolute habs hpath]
    by_cases hroot : resolve path.toList = []
    · rw [hroot, if_pos (.inl rfl)]
      exact iff_of_false (by decide) fun h => h.2.1 hroot
    · rw [splitOn_slash_joined hroot hnames, if_neg, List.any_eq_true]
      · constructor
        · rintro ⟨entry, hmem, hentry⟩
          rw [Bool.and_eq_true] at hentry
          by_cases hbase : IsAbsolute entry
          · refine ⟨habs, hroot, entry, hmem, hbase, ?_⟩
            rw [normpath_absolute hbase (hentries entry hmem), Bool.or_eq_true,
              decide_eq_true_iff] at hentry
            exact (comparison_iff hnames isName_of_mem_resolve).mp hentry.2
          · exact absurd hentry.1 (normpath_relative hbase)
        · rintro ⟨-, -, entry, hmem, hbase, hextends⟩
          refine ⟨entry, hmem, ?_⟩
          rw [normpath_absolute hbase (hentries entry hmem), Bool.and_eq_true, Bool.or_eq_true,
            decide_eq_true_iff]
          exact ⟨rfl, (comparison_iff hnames isName_of_mem_resolve).mpr hextends⟩
      · rintro (heq | ⟨seg, hseg, hdots⟩)
        · rw [List.cons.injEq] at heq
          exact hroot ((joined_eq_nil_iff hnames).mp heq.2)
        · rcases List.mem_cons.mp hseg with rfl | hseg
          · exact absurd hdots (by decide)
          · exact hdots.elim (hnames seg hseg).dots (hnames seg hseg).dot
  · rw [pathWithinWhitelist, if_pos (show ¬ _ = true from habs)]
    exact iff_of_false (by decide) fun h => habs h.1

end Whitelist

/-! ### Created pulls -/

/-- `TransferTaskCreate`. -/
structure TransferCreate where
  mode : String
  packageId : Option ℕ
  sourceHostPath : Option String
  targetPath : String
  hostIds : List ℤ
  overwrite : ℤ
  verify : ℤ
  limitMbps : Option ℤ

/-- The columns of `asset_host` that `create_task` reads. -/
structure TargetHost where
  id : ℕ
  groupId : Option ℤ

/-- What `create_task` finds: the values of the rules `feature.transfer` and
`transfer.pull_whitelist`, the tables, the next numbers of the sequences, and whether the database
takes the rows. -/
structure CreationEnv where
  featureRule : Option Json
  whitelistRule : Option Json
  hosts : List TargetHost
  packages : List FilePackage
  items : List FileItem
  taskNo : String
  taskId : ℕ
  nextHostId : ℕ
  takes : TransferTask → List TransferHost → Bool

/-- `v == 0`. -/
def Json.equalsZero : Json → Bool
  | .int n => decide (n = 0)
  | .bool b => !b
  | .float q => decide (q = 0)
  | _ => false

/-- `_feature_enabled`, of the value of the rule. -/
def featureEnabled : Option Json → Except PyErr Bool
  | none => pure true
  | some ruleValue => do
      let enabled ← (ruleValue.pyOr (.obj [])).get "enabled"
      return !enabled.equalsZero

/-- The host that `create_task` finds under an id. -/
def targetOf (env : CreationEnv) (user : Actor) (hid : ℤ) : Except PyErr TargetHost :=
  match env.hosts.find? fun h => decide ((h.id : ℤ) = hid) with
  | none => .error (.notFound ("host " ++ toString hid ++ " not found"))
  | some host =>
      if user.seesGroup host.groupId then .ok host
      else .error (.forbidden ("no data permission for host " ++ toString hid))

/-- The package of a push, or the path of a pull. -/
def sourceOf (env : CreationEnv) (data : TransferCreate) :
    Except PyErr (Option ℕ × Option String) :=
  if data.mode = "push" then
    match data.packageId with
    | none => .error (.badRequest "package_id required for push mode")
    | some packageId =>
        match env.packages.find? fun p => decide (p.id = packageId) with
        | none => .error (.notFound "package not found")
        | some pkg =>
            if (env.items.filter fun i => decide (i.packageId = pkg.id)) = [] then
              .error (.badRequest "package has no files")
            else .ok (some pkg.id, none)
  else
    match data.sourceHostPath.getD "" with
    | "" => .error (.badRequest "source_host_path required for pull mode")
    | path => do
        if pathWithinWhitelist path (← pullWhitelist env.whitelistRule) then
          return (none, some path)
        else throw (.badRequest "source_host_path outside pull whitelist")

/-- The row of a transfer that is created. -/
def transferRow (env : CreationEnv) (user : Actor) (data : TransferCreate)
    (source : Option ℕ × Option String) : TransferTask where
  id := env.taskId
  taskNo := env.taskNo
  mode := data.mode
  packageId := source.1
  sourceHostPath := source.2
  targetPath := data.targetPath
  overwrite := data.overwrite
  verify := data.verify
  limitMbps := data.limitMbps
  status := "processing"
  finishedAt := none
  createdBy := some user.id
  version := 0

/-- The rows of its hosts. -/
def transferHostRows (env : CreationEnv) (hosts : List TargetHost) : List TransferHost :=
  hosts.mapIdx fun k h =>
    ⟨env.nextHostId + k, env.taskId, h.id, "pending", 0, none, none, none, none⟩

/-- `create_task`, up to its commit: the rows. -/
def createTask (env : CreationEnv) (user : Actor) (data : TransferCreate) :
    Except PyErr (TransferTask × List TransferHost) := do
  user.requirePerm "transfer:task:run"
  if !(← featureEnabled env.featureRule) then throw (.badRequest "transfer feature disabled")
  let hosts ← data.hostIds.mapM (targetOf env user)
  if data.mode ∉ ["push", "pull"] then throw (.badRequest "invalid mode (push/pull)")
  let source ← sourceOf env data
  if env.takes (transferRow env user data source) (transferHostRows env hosts) then
    return (transferRow env user data source, transferHostRows env hosts)
  else throw .integrityError

section Creation

variable {env : CreationEnv} {user : Actor} {data : TransferCreate} {task : TransferTask}
  {hosts : List TransferHost}

theorem createTask_source (h : createTask env user data = .ok (task, hosts)) :
    ∃ source, sourceOf env data = .ok source ∧ task = transferRow env user data source := by
  obtain ⟨-, -, h⟩ := bind_eq_ok.mp h
  obtain ⟨enabled, -, h⟩ := bind_eq_ok.mp h
  dsimp only at h
  by_cases hoff : (!enabled) = true
  · rw [if_pos hoff] at h
    exact absurd h (throw_bind_ne_ok _ _ _)
  · rw [if_neg hoff] at h
    obtain ⟨targets, -, h⟩ := bind_eq_ok.mp h
    by_cases hmode : data.mode ∉ ["push", "pull"]
    · rw [if_pos hmode] at h
      exact absurd h (throw_bind_ne_ok _ _ _)
    · rw [if_neg hmode] at h
      obtain ⟨source, hsource, h⟩ := bind_eq_ok.mp h
      refine ⟨source, hsource, ?_⟩
      split_ifs at h with htakes
      exact (congrArg Prod.fst (Except.ok.inj h)).symm

theorem sourceOf_pull {source : Option ℕ × Option String} (hmode : data.mode ≠ "push")
    (h : sourceOf env data = .ok source) :
    ∃ path whitelist, path ≠ "" ∧ source = (none, some path) ∧
      pullWhitelist env.whitelistRule = .ok whitelist ∧
      pathWithinWhitelist path whitelist = true := by
  rw [sourceOf, if_neg hmode] at h
  split at h
  · exact absurd h (by simp)
  · next path hpath =>
      obtain ⟨whitelist, hwhitelist, h⟩ := bind_eq_ok.mp h
      split_ifs at h with hwithin
      exact ⟨_, whitelist, hpath, (Except.ok.inj h).symm, hwhitelist, hwithin⟩

theorem sourceAllowed_created (h : createTask env user data = .ok (task, hosts))
    (hmode : task.mode ≠ "push") {tenv : TransferEnv}
    (hrule : tenv.whitelistRule = env.whitelistRule) :
    Transfers.sourceAllowed tenv task = .ok true := by
  obtain ⟨source, hsource, rfl⟩ := createTask_source h
  obtain ⟨path, whitelist, hne, rfl, hwhitelist, hwithin⟩ := sourceOf_pull hmode hsource
  rw [Transfers.sourceAllowed, hrule]
  change (if path = "" then _ else _) = _
  rw [if_neg hne, hwhitelist]
  exact congrArg Except.ok hwithin

end Creation

theorem dispatchPull_allowed {env : TransferEnv} {task : TransferTask} {th : TransferHost}
    (h : Transfers.sourceAllowed env task = .ok true) :
    Transfers.dispatchPull env task th =
      Transfers.fetchAllowed env task th (task.sourceHostPath.getD "") := by
  funext s
  rw [Transfers.dispatchPull, h]
  rfl

/-- The whitelist contains a path exactly if its names resolve to something and extend those of an
absolute entry, and the dispatch of a created pull fetches its path under the same whitelist. -/
theorem pull_contained (path : String) (whitelist : List String)
    (hpath : ¬ StartsWithTwoSlashes path) (hentries : ∀ e ∈ whitelist, ¬ StartsWithTwoSlashes e) :
    (pathWithinWhitelist path whitelist = true ↔ PullContained path whitelist) ∧
      ∀ (env : CreationEnv) (user : Actor) (data : TransferCreate) (task : TransferTask)
        (hosts : List TransferHost) (tenv : TransferEnv) (th : TransferHost),
        createTask env user data = .ok (task, hosts) → task.mode = "pull" →
        tenv.whitelistRule = env.whitelistRule →
        Transfers.dispatchPull tenv task th =
          Transfers.fetchAllowed tenv task th (task.sourceHostPath.getD "") := by
  refine ⟨pathWithinWhitelist_iff hpath hentries, ?_⟩
  intro env user data task hosts tenv th hcreated hmode hrule
  have hpull : task.mode ≠ "push" := by
    rw [hmode]
    decide
  exact dispatchPull_allowed (sourceAllowed_created hcreated hpull hrule)

/-- A pull of a report. -/
def reportPull : TransferCreate where
  mode := "pull"
  packageId := none
  sourceHostPath := some "/var/lib//lark-agent/tmp/../outbox/report"
  targetPath := "/srv"
  hostIds := [7]
  overwrite := 0
  verify := 1
  limitMbps := none

/-- A database with one host that can be pulled from, and the default whitelist. -/
def reportCreation : CreationEnv :=
  ⟨none, none, [⟨7, none⟩], [], [], "TF-1", 1, 1, fun _ _ => true⟩

/-- A dispatch with the default whitelist. -/
def reportDispatch : TransferEnv where
  bindings := [⟨7, some "web-1"⟩]
  items := []
  whitelistRule := none
  agentOnline _ _ := true
  gateway _ _ := PushEnv.greetingEnv
  now n := n

theorem report_contained :
    pathWithinWhitelist "/var/lib//lark-agent/tmp/../outbox/report" defaultPullWhitelist = true ∧
      ∃ task hosts, createTask reportCreation ⟨1, true, [], fun _ => true⟩ reportPull =
          .ok (task, hosts) ∧
        Transfers.dispatchPull reportDispatch task PushEnv.greetingHost =
          Transfers.fetchAllowed reportDispatch task PushEnv.greetingHost
            "/var/lib//lark-agent/tmp/../outbox/report" := by
  have h := pull_contained "/var/lib//lark-agent/tmp/../outbox/report" defaultPullWhitelist
    (by decide) (by decide)
  have hcreated : createTask reportCreation ⟨1, true, [], fun _ => true⟩ reportPull = .ok
      (transferRow reportCreation ⟨1, true, [], fun _ => true⟩ reportPull
        (none, some "/var/lib//lark-agent/tmp/../outbox/report"),
      transferHostRows reportCreation [⟨7, none⟩]) := by
    rfl
  refine ⟨h.1.mpr ⟨by decide, by decide, _, List.mem_singleton_self _, by decide, by decide⟩, _, _,
    hcreated, ?_⟩
  exact h.2 _ _ _ _ _ reportDispatch PushEnv.greetingHost hcreated rfl rfl

end LarkPlat
