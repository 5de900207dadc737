import LarkPlat.RcaVisibility

/-!
# The Windows of Alerts

`aggregate` goes once through the alerts and puts each into the window of its type, its entity and
its rule, with a running maximum of the severities. Severities of no known rank never become the
maximum. The windows are keys of a dictionary, so a type that is a list or a dictionary stops the
call.

## Main results

* `groupWindows_spec`: the windows of rows.
* `aggregate_partitions_iff`: the pages of `aggregate` list a partition of the alerts, whatever their
  order, exactly if the type of none of them is a list or a dictionary.
-/

namespace LarkPlat.Rca

open Cmdb Grouping

/-! ### Severities -/

/-- The highest of the known ones among some severities, and none if all are unknown. -/
structure IsTop (among : String → Prop) (top : Option String) : Prop where
  highest : ∀ s, among s → severityRank (some s) ≤ severityRank top
  known : ∀ s, top = some s → among s ∧ s ∈ monLevels

section Severities

variable {among among' : String → Prop} {top top' : Option String} {s t : String}

theorem severityRank_known (h : s ∈ monLevels) : severityRank (some s) = monLevels.idxOf s :=
  if_pos h

theorem severityRank_unknown (h : s ∉ monLevels) : severityRank (some s) = -1 := if_neg h

theorem known_of_severityRank (h : -1 < severityRank (some s)) : s ∈ monLevels := by
  by_contra hunknown
  rw [severityRank_unknown hunknown] at h
  exact lt_irrefl _ h

theorem severityRank_ge (top : Option String) : -1 ≤ severityRank top := by
  cases top with
  | none => exact le_rfl
  | some s =>
      by_cases h : s ∈ monLevels
      · rw [severityRank_known h]
        omega
      · exact (severityRank_unknown h).ge

theorem severityRank_inj (hs : s ∈ monLevels) (ht : t ∈ monLevels)
    (h : severityRank (some s) = severityRank (some t)) : s = t := by
  rw [severityRank_known hs, severityRank_known ht] at h
  exact (List.idxOf_inj hs).mp (Int.ofNat.inj h)

theorem isTop_none : IsTop (fun _ => False) none :=
  ⟨fun _ h => h.elim, fun _ h => by cases h⟩

theorem IsTop.add (h : IsTop among top) (s : String) :
    IsTop (fun t => among t ∨ s = t)
      (if severityRank top < severityRank (some s) then some s else top) := by
  split_ifs with hlt
  · refine ⟨fun t ht => ?_, fun t ht => ?_⟩
    · rcases ht with ht | rfl
      · exact (h.highest t ht).trans hlt.le
      · exact le_rfl
    · obtain rfl : s = t := Option.some.inj ht
      exact ⟨.inr rfl, known_of_severityRank ((severityRank_ge top).trans_lt hlt)⟩
  · refine ⟨fun t ht => ?_, fun t ht => ⟨.inl (h.known t ht).1, (h.known t ht).2⟩⟩
    rcases ht with ht | rfl
    · exact h.highest t ht
    · exact not_lt.mp hlt

theorem IsTop.unique (h : IsTop among top) (h' : IsTop among top') : top = top' := by
  have hle : ∀ {top top' : Option String}, IsTop among top → IsTop among top' →
      severityRank top ≤ severityRank top' := by
    intro top top' h h'
    cases top with
    | none => exact severityRank_ge top'
    | some s => exact h'.highest s (h.known s rfl).1
  have hrank := (hle h h').antisymm (hle h' h)
  have hnone : ∀ {s}, IsTop among (some s) → severityRank (some s) ≠ severityRank none := by
    intro s hs heq
    rw [severityRank_known (hs.known s rfl).2, severityRank] at heq
    omega
  cases top with
  | none =>
      cases top' with
      | none => rfl
      | some t => exact absurd hrank.symm (hnone h')
  | some s =>
      cases top' with
      | none => exact absurd hrank (hnone h)
      | some t => exact congrArg some (severityRank_inj (h.known s rfl).2 (h'.known t rfl).2 hrank)

end Severities

/-! ### The window of a group -/

/-- The window has the alerts of a list. -/
structure HasAlerts (w : Window) (rows : List AlertRow) : Prop where
  alertIds : w.alertIds = rows.map AlertRow.id
  count : w.count = rows.length
  severity : IsTop (fun s => ∃ a ∈ rows, a.severity = s) w.maxSeverity

theorem hasAlerts_start (env : RcaEnv) (a : AlertRow) : HasAlerts (Window.start env a) [] := by
  refine ⟨rfl, rfl, ?_⟩
  have hnone : (fun s => ∃ b ∈ ([] : List AlertRow), b.severity = s) = fun _ => False := by
    funext s
    simp
  rw [hnone]
  exact isTop_none

theorem HasAlerts.add {w : Window} {rows : List AlertRow} (h : HasAlerts w rows) (a : AlertRow) :
    HasAlerts (w.add a) (rows ++ [a]) := by
  refine ⟨?_, ?_, ?_⟩
  · rw [List.map_append, ← h.alertIds]
    rfl
  · rw [List.length_append, ← h.count]
    rfl
  · have hmore : (fun s => ∃ b ∈ rows ++ [a], b.severity = s) =
        fun s => (∃ b ∈ rows, b.severity = s) ∨ a.severity = s := by
      funext s
      simp only [List.mem_append, List.mem_singleton, or_and_right, exists_or, exists_eq_left]
    rw [hmore]
    exact h.severity.add a.severity

/-- The window is the one of the alert's type, entity and rule. -/
def Window.Of (env : RcaEnv) (w : Window) (a : AlertRow) : Prop :=
  dictKey w.entityType = dictKey a.entityType ∧ w.entityId = env.str a.entityId ∧
    w.rule = a.windowRule

theorem foldl_add (env : RcaEnv) (a : AlertRow) (rows : List AlertRow) :
    HasAlerts (rows.foldl Window.add (Window.start env a)) rows ∧
      (rows.foldl Window.add (Window.start env a)).Of env a := by
  induction rows using List.reverseRecOn with
  | nil => exact ⟨hasAlerts_start env a, rfl, rfl, rfl⟩
  | append_singleton rows b ih =>
      rw [List.foldl_append, List.foldl_cons, List.foldl_nil]
      exact ⟨ih.1.add b, ih.2⟩

/-! ### The loop -/

/-- The value is no list and no dictionary. -/
def Hashable (v : Json) : Prop := (∀ items, v ≠ .arr items) ∧ ∀ fields, v ≠ .obj fields

theorem hashable_iff (v : Json) : Hashable v ↔ ∃ k, dictKey v = .ok k := by
  cases v <;> simp [Hashable, dictKey]

/-- What a dictionary compares of a value that has a hash. -/
def typeKey (v : Json) : DictKey :=
  match dictKey v with
  | .ok k => k
  | .error _ => .none

theorem dictKey_eq {v : Json} (h : Hashable v) : dictKey v = .ok (typeKey v) := by
  obtain ⟨k, hk⟩ := (hashable_iff v).mp h
  rw [typeKey, hk]

/-- The key of the window of an alert. -/
def AlertRow.windowKey (env : RcaEnv) (a : AlertRow) : WindowKey :=
  ⟨typeKey a.entityType, env.str a.entityId, a.windowRule⟩

/-- **The loop** groups rows whose types have a hash. -/
theorem foldlM_addToWindow (env : RcaEnv) {rows : List AlertRow}
    (h : ∀ a ∈ rows, Hashable a.entityType) (windows : List (WindowKey × Window)) :
    rows.foldlM (addToWindow env) windows = .ok (rows.foldl (fun windows a =>
      insertAt (a.windowKey env) (Window.start env a) (Window.add · a) windows) windows) := by
  induction rows generalizing windows with
  | nil => rfl
  | cons a rows ih =>
      obtain ⟨ha, hrows⟩ := List.forall_mem_cons.mp h
      have hstep : addToWindow env windows a =
          .ok (insertAt (a.windowKey env) (Window.start env a) (Window.add · a) windows) := by
        rw [addToWindow, dictKey_eq ha]
        rfl
      rw [List.foldlM_cons, hstep]
      exact ih hrows _

theorem hashable_of_foldlM {env : RcaEnv} {rows : List AlertRow}
    {windows windows' : List (WindowKey × Window)}
    (h : rows.foldlM (addToWindow env) windows = .ok windows') :
    ∀ a ∈ rows, Hashable a.entityType := by
  induction rows generalizing windows with
  | nil => exact fun _ ha => absurd ha List.not_mem_nil
  | cons a rows ih =>
      rw [List.foldlM_cons] at h
      obtain ⟨next, hstep, hrest⟩ := bind_eq_ok.mp h
      obtain ⟨k, hk, -⟩ := bind_eq_ok.mp hstep
      exact List.forall_mem_cons.mpr ⟨(hashable_iff _).mpr ⟨k, hk⟩, ih hrest⟩

/-- The windows of the groups, sorted. -/
def sortedWindows (env : RcaEnv) (rows : List AlertRow) : List Window :=
  ((groupRows (AlertRow.windowKey env) (Window.start env) Window.add rows).map
    Prod.snd).mergeSort fun a b => decide (a.sortKey env ≤ b.sortKey env)

theorem groupWindows_ok (env : RcaEnv) {rows : List AlertRow}
    (h : ∀ a ∈ rows, Hashable a.entityType) :
    groupWindows env rows = .ok (sortedWindows env rows) := by
  rw [groupWindows, foldlM_addToWindow env h]
  rfl

theorem hashable_of_groupWindows {env : RcaEnv} {rows : List AlertRow} {windows : List Window}
    (h : groupWindows env rows = .ok windows) : ∀ a ∈ rows, Hashable a.entityType := by
  obtain ⟨groups, hfold, -⟩ := bind_eq_ok.mp h
  exact hashable_of_foldlM hfold

/-! ### The windows of rows -/

/-- The windows are a partition of the alerts, each with its count and its highest severity. -/
structure Partitions (env : RcaEnv) (passing : AlertRow → Prop) (windows : List Window) : Prop where
  own : ∀ a, passing a → ∃! w, w ∈ windows ∧ a.id ∈ w.alertIds
  isOf : ∀ a, passing a → ∀ w ∈ windows, a.id ∈ w.alertIds ↔ w.Of env a
  only : ∀ w ∈ windows, ∀ id ∈ w.alertIds, ∃ a, passing a ∧ a.id = id
  once : ∀ w ∈ windows, w.alertIds.Nodup
  count : ∀ w ∈ windows, w.count = w.alertIds.length
  severity : ∀ w ∈ windows,
    IsTop (fun s => ∃ a, passing a ∧ a.id ∈ w.alertIds ∧ a.severity = s) w.maxSeverity
  sorted : windows.Pairwise fun w w' => w'.count ≤ w.count
  distinct : windows.Nodup

section Windows

variable {env : RcaEnv} {rows : List AlertRow}

theorem window_of_group {k : WindowKey} {w : Window}
    (hg : (k, w) ∈ groupRows (AlertRow.windowKey env) (Window.start env) Window.add rows) :
    HasAlerts w (rowsUnder (AlertRow.windowKey env) k rows) ∧
      ∃ a ∈ rows, a.windowKey env = k ∧ w.Of env a := by
  obtain ⟨a, rest, hrows, hvalue⟩ := (isGrouping_groupRows _ _ _ rows).value _ hg
  have hmem : a ∈ rowsUnder (AlertRow.windowKey env) k rows := by
    rw [hrows]
    exact List.mem_cons_self
  obtain ⟨ha, hkey⟩ := mem_rowsUnder.mp hmem
  obtain ⟨hhas, hof⟩ := foldl_add env a (rowsUnder (AlertRow.windowKey env) k rows)
  have hfold : w = (rowsUnder (AlertRow.windowKey env) k rows).foldl Window.add
      (Window.start env a) := hvalue
  rw [hfold]
  exact ⟨hhas, a, ha, hkey, hof⟩

theorem mem_sortedWindows {w : Window} :
    w ∈ sortedWindows env rows ↔
      ∃ k, (k, w) ∈ groupRows (AlertRow.windowKey env) (Window.start env) Window.add rows := by
  rw [sortedWindows, (List.mergeSort_perm _ _).mem_iff, List.mem_map]
  constructor
  · rintro ⟨⟨k, w⟩, hg, rfl⟩
    exact ⟨k, hg⟩
  · rintro ⟨k, hg⟩
    exact ⟨(k, w), hg, rfl⟩

theorem windowKey_eq_iff (hhash : ∀ a ∈ rows, Hashable a.entityType) {k : WindowKey} {w : Window}
    (hg : (k, w) ∈ groupRows (AlertRow.windowKey env) (Window.start env) Window.add rows)
    {a : AlertRow} (ha : a ∈ rows) : a.windowKey env = k ↔ w.Of env a := by
  obtain ⟨-, b, hb, rfl, htype, hid, hrule⟩ := window_of_group hg
  rw [AlertRow.windowKey, AlertRow.windowKey, WindowKey.mk.injEq, Window.Of, htype, hid, hrule,
    dictKey_eq (hhash a ha), dictKey_eq (hhash b hb), Except.ok.injEq]
  exact ⟨fun h => ⟨h.1.symm, h.2.1.symm, h.2.2.symm⟩, fun h => ⟨h.1.symm, h.2.1.symm, h.2.2.symm⟩⟩

theorem sortedWindows_sorted (env : RcaEnv) (rows : List AlertRow) :
    (sortedWindows env rows).Pairwise fun w w' => w'.count ≤ w.count := by
  refine (List.pairwise_mergeSort (fun a b c hab hbc => ?_) (fun a b => ?_) _).imp
    fun {w w'} hle => ?_
  · exact decide_eq_true (le_trans (of_decide_eq_true hab) (of_decide_eq_true hbc))
  · rw [Bool.or_eq_true, decide_eq_true_eq, decide_eq_true_eq]
    exact le_total _ _
  · have hkeys : w.sortKey env ≤ w'.sortKey env := of_decide_eq_true hle
    have hcount : -(w.count : ℤ) ≤ -(w'.count : ℤ) := by
      rcases Prod.Lex.toLex_le_toLex.mp hkeys with hlt | ⟨heq, -⟩
      · exact hlt.le
      · exact heq.le
    omega

theorem mem_alertIds_iff (hids : (rows.map AlertRow.id).Nodup)
    (hhash : ∀ a ∈ rows, Hashable a.entityType) {w : Window} (hw : w ∈ sortedWindows env rows)
    {a : AlertRow} (ha : a ∈ rows) : a.id ∈ w.alertIds ↔ w.Of env a := by
  obtain ⟨k, hg⟩ := mem_sortedWindows.mp hw
  rw [← windowKey_eq_iff hhash hg ha, (window_of_group hg).1.alertIds, List.mem_map]
  constructor
  · rintro ⟨b, hb, hid⟩
    obtain ⟨hb, hkey⟩ := mem_rowsUnder.mp hb
    exact List.inj_on_of_nodup_map hids hb ha hid ▸ hkey
  · exact fun hkey => ⟨a, mem_rowsUnder.mpr ⟨ha, hkey⟩, rfl⟩

/-- **The windows of rows** are a partition of them. -/
theorem groupWindows_spec (hids : (rows.map AlertRow.id).Nodup)
    (hhash : ∀ a ∈ rows, Hashable a.entityType) :
    Partitions env (· ∈ rows) (sortedWindows env rows) := by
  have hgrouping := isGrouping_groupRows (AlertRow.windowKey env) (Window.start env) Window.add rows
  have hnodup : (sortedWindows env rows).Nodup := by
    rw [sortedWindows, (List.mergeSort_perm _ _).nodup_iff]
    refine (List.nodup_map_iff_inj_on (List.Nodup.of_map Prod.fst hgrouping.nodup)).mpr ?_
    rintro ⟨k, w⟩ hg ⟨k', w'⟩ hg' rfl
    obtain ⟨-, a, ha, rfl, hof⟩ := window_of_group hg
    rw [(windowKey_eq_iff hhash hg' ha).mpr hof]
  have hof : ∀ a ∈ rows, ∀ w ∈ sortedWindows env rows, a.id ∈ w.alertIds ↔ w.Of env a :=
    fun a ha w hw => mem_alertIds_iff hids hhash hw ha
  refine ⟨fun a ha => ?_, hof, fun w hw id hid => ?_, fun w hw => ?_, fun w hw => ?_,
    fun w hw => ?_, sortedWindows_sorted env rows, hnodup⟩
  · obtain ⟨w, hg⟩ := hgrouping.exists_group ha
    have hw := mem_sortedWindows.mpr ⟨_, hg⟩
    refine ⟨w, ⟨hw, (hof a ha w hw).mpr ((windowKey_eq_iff hhash hg ha).mp rfl)⟩, ?_⟩
    rintro w' ⟨hw', hid⟩
    obtain ⟨k, hg'⟩ := mem_sortedWindows.mp hw'
    have hkey := (windowKey_eq_iff hhash hg' ha).mpr ((hof a ha w' hw').mp hid)
    exact congrArg Prod.snd (hgrouping.unique hg' hg hkey.symm)
  · obtain ⟨k, hg⟩ := mem_sortedWindows.mp hw
    rw [(window_of_group hg).1.alertIds] at hid
    obtain ⟨a, ha, rfl⟩ := List.mem_map.mp hid
    exact ⟨a, (mem_rowsUnder.mp ha).1, rfl⟩
  · obtain ⟨k, hg⟩ := mem_sortedWindows.mp hw
    rw [(window_of_group hg).1.alertIds]
    exact hids.sublist (List.filter_sublist.map _)
  · obtain ⟨k, hg⟩ := mem_sortedWindows.mp hw
    rw [(window_of_group hg).1.alertIds, (window_of_group hg).1.count, List.length_map]
  · obtain ⟨k, hg⟩ := mem_sortedWindows.mp hw
    have hsame : (fun s => ∃ a, a ∈ rows ∧ a.id ∈ w.alertIds ∧ a.severity = s) =
        fun s => ∃ a ∈ rowsUnder (AlertRow.windowKey env) k rows, a.severity = s := by
      funext s
      refine propext (exists_congr fun a => ?_)
      rw [mem_rowsUnder, and_assoc]
      refine and_congr_right fun ha => and_congr_left fun _ => ?_
      rw [hof a ha w hw, windowKey_eq_iff hhash hg ha]
    rw [hsame]
    exact (window_of_group hg).1.severity

end Windows

/-! ### The order of the alerts -/

/-- Two windows of one key say the same of its alerts. -/
structure Window.Same (w w' : Window) : Prop where
  type : dictKey w.entityType = dictKey w'.entityType
  entityId : w.entityId = w'.entityId
  rule : w.rule = w'.rule
  count : w.count = w'.count
  severity : w.maxSeverity = w'.maxSeverity

theorem Window.Same.symm {w w' : Window} (h : w.Same w') : w'.Same w :=
  ⟨h.type.symm, h.entityId.symm, h.rule.symm, h.count.symm, h.severity.symm⟩

theorem exists_same_of_perm {env : RcaEnv} {rows rows' : List AlertRow} (hperm : rows.Perm rows')
    (hhash : ∀ a ∈ rows, Hashable a.entityType) {w : Window} (hw : w ∈ sortedWindows env rows) :
    ∃ w' ∈ sortedWindows env rows', w.Same w' := by
  obtain ⟨k, hg⟩ := mem_sortedWindows.mp hw
  obtain ⟨hhas, a, ha, rfl, htype, hid, hrule⟩ := window_of_group hg
  have ha' := hperm.mem_iff.mp ha
  have hhash' : ∀ a ∈ rows', Hashable a.entityType := fun b hb => hhash b (hperm.mem_iff.mpr hb)
  obtain ⟨w', hg'⟩ := (isGrouping_groupRows (AlertRow.windowKey env) (Window.start env) Window.add
    rows').exists_group ha'
  have hhas' := (window_of_group hg').1
  obtain ⟨htype', hid', hrule'⟩ := (windowKey_eq_iff hhash' hg' ha').mp rfl
  have hrows : (rowsUnder (AlertRow.windowKey env) (a.windowKey env) rows).Perm
      (rowsUnder (AlertRow.windowKey env) (a.windowKey env) rows') := hperm.filter _
  have hcount : w.count = w'.count := by rw [hhas.count, hhas'.count, hrows.length_eq]
  have hseverity := hhas.severity
  simp only [hrows.mem_iff] at hseverity
  exact ⟨w', mem_sortedWindows.mpr ⟨_, hg'⟩, htype.trans htype'.symm, hid.trans hid'.symm,
    hrule.trans hrule'.symm, hcount, hseverity.unique hhas'.severity⟩

/-! ### The pages -/

theorem pageOf_flatMap {α : Type} (l : List α) (size n : ℕ) :
    ((List.range n).flatMap fun p => pageOf l (p + 1) size) = l.take (n * size) := by
  induction n with
  | zero => rw [Nat.zero_mul, List.take_zero, List.range_zero, List.flatMap_nil]
  | succ n ih =>
      rw [List.range_succ, List.flatMap_append, ih, List.flatMap_singleton, pageOf,
        Nat.add_sub_cancel, Nat.succ_mul, List.take_add]

/-- The alerts that a caller sees and that pass the filters. -/
def Passing (env : RcaEnv) (db : RcaDb) (user : Actor) (filters : WindowFilters) (a : AlertRow) :
    Prop :=
  a ∈ db.alerts.rows ∧ a.inScope env (scopeOf db.hosts user) = true ∧ filters.pass a = true

/-- The pages of any size list windows that are a partition of the alerts, with counts and
severities that are the same for any order of the rows. -/
structure ListsPartition (env : RcaEnv) (db : RcaDb) (user : Actor) (filters : WindowFilters)
    (windows : List Window) : Prop where
  partition : Partitions env (Passing env db user filters) windows
  pages : ∀ size n, 0 < size → windows.length ≤ n * size → ∃ pages,
    ((List.range n).mapM fun p => aggregate env db user filters (p + 1) size) = .ok pages ∧
      pages.flatMap WindowPage.list = windows
  anyOrder : ∀ rows, rows.Perm (db.scanned env user filters) → ∃ windows',
    groupWindows env rows = .ok windows' ∧ (∀ w ∈ windows, ∃ w' ∈ windows', w.Same w') ∧
      ∀ w' ∈ windows', ∃ w ∈ windows, w.Same w'

section Pages

variable {env : RcaEnv} {db : RcaDb} {user : Actor} {filters : WindowFilters}

theorem mem_scanned {a : AlertRow} :
    a ∈ db.scanned env user filters ↔ Passing env db user filters a := by
  rw [RcaDb.scanned, List.mem_filter, (List.mergeSort_perm _ _).mem_iff, Bool.and_eq_true, Passing]

theorem scanned_ids : ((db.scanned env user filters).map AlertRow.id).Nodup := by
  have hsorted := ((List.mergeSort_perm db.alerts.rows fun a b => decide (b.id ≤ a.id)).map
    AlertRow.id).nodup_iff.mpr db.alerts.key
  exact hsorted.sublist (List.filter_sublist.map _)

/-- A page of windows. -/
def windowPage (env : RcaEnv) (windows : List Window) (page size : ℕ) : WindowPage :=
  ⟨pageOf windows page size, windows.length, page, size, env.nowIso, false⟩

theorem aggregate_ok (henabled : db.rcaEnabled = true) (hperm : user.hasPerm "ai:use" = true)
    (hhash : ∀ a ∈ db.scanned env user filters, Hashable a.entityType) (page size : ℕ) :
    aggregate env db user filters page size =
      .ok (windowPage env (sortedWindows env (db.scanned env user filters)) page size) := by
  rw [aggregate, RcaDb.requireRca, if_pos henabled, Actor.requirePerm, if_pos hperm,
    groupWindows_ok env hhash]
  rfl

theorem hashable_of_aggregate {page size : ℕ} {res : WindowPage}
    (h : aggregate env db user filters page size = .ok res) {a : AlertRow}
    (ha : Passing env db user filters a) : Hashable a.entityType := by
  obtain ⟨-, -, h⟩ := bind_eq_ok.mp h
  obtain ⟨-, -, h⟩ := bind_eq_ok.mp h
  obtain ⟨windows, hgroup, -⟩ := bind_eq_ok.mp h
  exact hashable_of_groupWindows hgroup a (mem_scanned.mpr ha)

theorem ListsPartition.hashable {windows : List Window}
    (h : ListsPartition env db user filters windows) {a : AlertRow}
    (ha : Passing env db user filters a) : Hashable a.entityType := by
  obtain ⟨pages, hpages, -⟩ := h.pages 1 (windows.length + 1) one_pos (by omega)
  rw [List.range_succ_eq_map, List.mapM_cons] at hpages
  obtain ⟨res, hres, -⟩ := bind_eq_ok.mp hpages
  exact hashable_of_aggregate hres ha

/-- **Aggregation partitions the alerts** that a caller sees and that pass the filters, exactly if
the type of none of them is a list or a dictionary. -/
theorem aggregate_partitions_iff (env : RcaEnv) (db : RcaDb) (user : Actor)
    (filters : WindowFilters) (henabled : db.rcaEnabled = true)
    (hperm : user.hasPerm "ai:use" = true) :
    (∃ windows, ListsPartition env db user filters windows) ↔
      ∀ a, Passing env db user filters a → Hashable a.entityType := by
  refine ⟨fun ⟨_, h⟩ a ha => h.hashable ha, fun h => ?_⟩
  have hhash : ∀ a ∈ db.scanned env user filters, Hashable a.entityType :=
    fun a ha => h a (mem_scanned.mp ha)
  refine ⟨sortedWindows env (db.scanned env user filters), ?_, fun size n _ hn => ?_,
    fun rows hrows => ?_⟩
  · have hpassing : (· ∈ db.scanned env user filters) = Passing env db user filters :=
      funext fun a => propext mem_scanned
    exact hpassing ▸ groupWindows_spec scanned_ids hhash
  · refine ⟨(List.range n).map fun p =>
      windowPage env (sortedWindows env (db.scanned env user filters)) (p + 1) size, ?_, ?_⟩
    · simp only [aggregate_ok henabled hperm hhash]
      exact List.mapM_pure
    · rw [List.flatMap_map]
      exact (pageOf_flatMap _ size n).trans (List.take_of_length_le hn)
  · have hhash' : ∀ a ∈ rows, Hashable a.entityType := fun a ha => hhash a (hrows.mem_iff.mp ha)
    refine ⟨_, groupWindows_ok env hhash', fun w hw => ?_, fun w' hw' => ?_⟩
    · exact exists_same_of_perm hrows.symm hhash hw
    · obtain ⟨w, hw, hsame⟩ := exists_same_of_perm hrows hhash' hw'
      exact ⟨w, hw, hsame.symm⟩

end Pages

/-! ### An alert of a type that is a list -/

/-- The tables with one alert, whose type is a list. -/
def listTyped : RcaDb where
  toCmdbDb := ledgerDb.toCmdbDb
  rcaEnabled := true
  alerts := ⟨[⟨1, some 3, "disk", [("entity_type", .arr []), ("entity_id", .str "web-1")], "firing",
    "critical"⟩], by decide⟩

/-- No window is listed where the caller sees the alert. -/
theorem list_typed_unlisted :
    ¬ ∃ windows, ListsPartition plainEnv listTyped webUser ⟨none, none⟩ windows := by
  rintro ⟨windows, h⟩
  have hpassing : Passing plainEnv listTyped webUser ⟨none, none⟩ _ :=
    ⟨List.mem_cons_self, by decide +kernel, rfl⟩
  exact (h.hashable hpassing).1 [] rfl

/-- The alerts on hosts are listed. -/
theorem host_alerts_listed :
    ∃ windows, ListsPartition plainEnv ledgerDb webUser ⟨none, none⟩ windows := by
  refine (aggregate_partitions_iff plainEnv ledgerDb webUser ⟨none, none⟩ rfl rfl).mpr ?_
  rintro a ⟨ha, -⟩
  simp only [ledgerDb, List.mem_cons, List.not_mem_nil, or_false] at ha
  rcases ha with rfl | rfl
  · exact (hashable_iff _).mpr ⟨_, rfl⟩
  · exact (hashable_iff _).mpr ⟨_, rfl⟩

end LarkPlat.Rca
