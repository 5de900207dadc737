import LarkPlat.Escalation

/-!
# What the Sweep Reaches

The sweep walks through what `MonAlertRepository.active` returns, the first five hundred active
alerts in the order of their identifiers. Stale alerts, those of disabled rules and those that fire
already keep their places among them, whatever the sweep does.

## Main results

* `mem_activeAlerts_iff`: an active alert is walked through if fewer than the limit are older.
* `sweptOn_iff`: the sweep advances an alert that is due exactly if it walks through it.
* `sweep_complete_iff`: the sweep is complete exactly if every alert that is due has fewer than five
  hundred older active ones.
-/

namespace LarkPlat

open MonDb AlertEffect

/-- At the time of the sweep, the alert is due: it is fresh, its rule is found, enabled and not
deleted, and it is pending with the duration elapsed, or fires with an escalation ahead. -/
inductive MonDb.DueAt (db : MonDb) (env : SweepEnv) (a : MonAlert) : Prop where
  | fire (rule : MonRule) (hrule : AlertProg.ruleOf db.rules a = some rule)
      (hlive : ¬ Skips rule env a) (hst : a.status = .pending) (hripe : Ripe rule env.now a)
  | escalate (rule : MonRule) (hrule : AlertProg.ruleOf db.rules a = some rule)
      (hlive : ¬ Skips rule env a) (hst : a.status = .firing ∨ a.status = .acknowledged)
      (target : String) (hnext : AlertProg.escalation rule a env.now = some target)

/-- The alert is not pending any more, or an escalation of it was logged. -/
structure SweptOn (db db' : MonDb) (a : MonAlert) : Prop where
  fired : a.status = .pending → ∀ b, db'.alert? a.id = some b → b.status ≠ .pending
  escalated : a.status ≠ .pending →
    (escalations db'.log a.id).length = (escalations db.log a.id).length + 1

section Sweep

variable {db : MonDb} {env : SweepEnv} {rule : MonRule} {a : MonAlert} {now now' : ℚ}

/-- An active alert is among the first ones if fewer active ones are older. -/
theorem mem_activeAlerts_iff (hv : db.Valid) (limit : ℕ) :
    a ∈ db.activeAlerts limit ↔ (a ∈ db.alerts ∧ a.status.active = true) ∧
      (db.alerts.countP fun b => decide (b.id < a.id) && b.status.active) < limit := by
  have hn := hv.keyed.sublist
    ((List.filter_sublist (p := fun b : MonAlert => b.status.active)).map MonAlert.id)
  rw [activeAlerts, Table.mem_take_mergeSort_iff hn, List.mem_filter, List.countP_filter]

theorem escalation_mono {target : String} (hle : now ≤ now')
    (h : AlertProg.escalation rule a now = some target) :
    AlertProg.escalation rule a now' = some target := by
  rw [AlertProg.escalation] at h ⊢
  cases hfired : a.firedAt with
  | none => rw [hfired] at h; cases h
  | some fired =>
      rw [hfired] at h
      dsimp only at h ⊢
      by_cases hoff : rule.escalationEnabled = 0 ∨ rule.escalationAfterSeconds.getD 0 ≤ 0
      · rw [if_pos hoff] at h
        cases h
      rw [if_neg hoff] at h ⊢
      cases hnext : rule.escalateLevels[nextLevel rule.escalateLevels a.severity]? with
      | none => rw [hnext] at h; cases h
      | some target' =>
          rw [hnext] at h
          dsimp only at h ⊢
          split_ifs at h with hearly
          rw [if_neg fun hlt => hearly (lt_of_le_of_lt (sub_le_sub_right hle fired) hlt)]
          exact h

/-- An alert that is due is active. -/
theorem MonDb.DueAt.active (h : db.DueAt env a) : a.status.active = true := by
  cases h with
  | fire _ _ _ hst _ => rw [hst]; rfl
  | escalate _ _ _ hst _ _ => rcases hst with hst | hst <;> rw [hst] <;> rfl

theorem sweep_view (hv : db.Valid) (env : SweepEnv) (id : ℕ) :
    ∃ v v', ViewStep (fun _ => []) db id (.sweepActiveAlerts env) v v' ∧
      v.row = db.alert? id ∧ v'.row = (db.apply (.sweepActiveAlerts env)).alert? id ∧
      escalations v.log id = escalations db.log id ∧
      escalations v'.log id = escalations (db.apply (.sweepActiveAlerts env)).log id := by
  set m : Monitor := ⟨db, []⟩
  have hstep := apply_view (m := m) (fun _ => []) hv (.sweepActiveAlerts env) id
  refine ⟨_, _, hstep, rfl, ?_, escalations_view m id, ?_⟩
  · rw [Monitor.view, m.apply_db _ hv]
  · rw [escalations_view, m.apply_db _ hv]

/-- **An alert that is due is advanced** exactly if the sweep walks through it. -/
theorem sweptOn_iff (hv : db.Valid) (hdue : env.featureEnabled = true ∧ env.due = true)
    (ha : a ∈ db.alerts) (hclock : env.now ≤ (env.readings a.id).escalated)
    (h : db.DueAt env a) :
    SweptOn db (db.apply (.sweepActiveAlerts env)) a ↔ a ∈ db.activeAlerts 500 := by
  obtain ⟨v, v', hstep, hrow, hrow', hlog, hlog'⟩ := sweep_view hv env a.id
  have hfind : v.row = some a := hrow.trans (Table.find_of_mem hv.keyed ha)
  constructor
  · intro hadv
    by_contra hmem
    have hsame : v' = v := by
      cases hstep with
      | pass => rfl
      | sweep _ hrow'' _ hmem' =>
          rw [Option.some.inj (hrow''.symm.trans hfind)] at hmem'
          exact absurd hmem' hmem
    subst hsame
    cases h with
    | fire _ _ _ hst _ => exact hadv.fired hst a (hrow'.symm.trans hfind) hst
    | escalate _ _ _ hst _ _ =>
        have hcount := hadv.escalated (ne_pending_of_fires hst)
        rw [← hlog, ← hlog'] at hcount
        omega
  · intro hmem
    cases hstep with
    | pass _ _ hno => exact absurd ⟨hdue, hmem⟩ (hno a hfind)
    | sweep _ hrow'' _ _ =>
        obtain rfl := (Option.some.inj (hrow''.symm.trans hfind)).symm
        cases h with
        | fire rule hrule hlive hst hripe =>
            refine ⟨fun _ b hb hpend => ?_, fun hne => absurd hst hne⟩
            have hrow := hrow'.trans hb
            rw [AlertView.perform, hrule, sweeping_of_ripe _ _ hlive hst hripe, firing_row] at hrow
            exact AlertStatus.noConfusion
              (hpend.symm.trans (congrArg MonAlert.status (Option.some.inj hrow)).symm)
        | escalate rule hrule hlive hst target hnext =>
            have hpend := ne_pending_of_fires hst
            have hentry := @escalations_escalating (fun _ => []) rule (env.readings a.id) a.id
              (nothing a) rfl
            rw [nothing, escalation_mono hclock hnext] at hentry
            refine ⟨fun hst => absurd hst hpend, fun _ => ?_⟩
            rw [← hlog, ← hlog', AlertView.perform, hrule, sweeping_of_firing _ _ hlive hpend,
              escalations_append, List.length_append, nothing, hentry]
            rfl

/-- **When the sweep is complete.** A due sweep of valid tables, of any size, advances every alert
that is due at its time exactly if each of them has fewer than five hundred active alerts with a
smaller identifier, whatever keeps those active. -/
theorem sweep_complete_iff (hv : db.Valid) (hdue : env.featureEnabled = true ∧ env.due = true)
    (hclock : ∀ a ∈ db.alerts, env.now ≤ (env.readings a.id).escalated) :
    (∀ a ∈ db.alerts, db.DueAt env a → SweptOn db (db.apply (.sweepActiveAlerts env)) a) ↔
      ∀ a ∈ db.alerts, db.DueAt env a →
        (db.alerts.countP fun b => decide (b.id < a.id) && b.status.active) < 500 := by
  refine forall₂_congr fun a ha => forall_congr' fun h => ?_
  rw [sweptOn_iff hv hdue ha (hclock a ha) h, mem_activeAlerts_iff hv]
  exact and_iff_right ⟨ha, h.active⟩

end Sweep

/-! ### A crowd of firing alerts -/

/-- A firing alert of its own rule, on the host of the others. -/
def standing (i : ℕ) : MonAlert :=
  ⟨i + 1, some (i + 2), some "10.0.0.1", .firing, "warning", 1, some 0, none, some 0, some 0, 0, 1⟩

/-- A pending alert of the load rule, with an event at second 30. -/
def waiting (id : ℕ) : MonAlert :=
  ⟨id, some 1, some "10.0.0.1", .pending, "warning", 1, none, none, some 30, some 30, 30, 0⟩

/-- A pending alert behind firing ones; every rule asks for a load over ten seconds. -/
def crowded (n : ℕ) : MonDb where
  rules := (List.range (n + 1)).map fun i => { cooledRule with id := i + 1 }
  alerts := (List.range n).map standing ++ [waiting (n + 1)]
  log := []
  nextRule := n + 2
  nextAlert := n + 2

/-- A sweep at second 41, with five minutes of freshness. -/
def sweepAt41 : SweepEnv :=
  ⟨true, true, 300, 41, fun _ => ⟨41, 41, 41, 41, 41, 41, 41, 41⟩⟩

theorem crowded_ids (n : ℕ) :
    (crowded n).alerts.map MonAlert.id = (List.range (n + 1)).map Nat.succ := by
  rw [crowded, List.map_append, List.map_map, List.range_succ, List.map_append]
  rfl

theorem crowded_valid (n : ℕ) : (crowded n).Valid := by
  have hkeyed : ((crowded n).alerts.map MonAlert.id).Nodup := by
    rw [crowded_ids]
    exact List.nodup_range.map Nat.succ_injective
  have hrules : (crowded n).rules.map MonRule.id = (List.range (n + 1)).map Nat.succ :=
    List.map_map
  have hkeys : (crowded n).alerts.filterMap MonAlert.activeKey =
      (List.range n).map (fun i => (i + 2, "10.0.0.1")) ++ [(1, "10.0.0.1")] := by
    rw [crowded, List.filterMap_append, List.filterMap_map]
    exact congrArg (· ++ [(1, "10.0.0.1")])
      (congrFun (List.filterMap_eq_map (f := fun i => (i + 2, "10.0.0.1"))) (List.range n))
  refine ⟨(MonDb.indexed_iff _).mp ?_, hkeyed, fun a ha => ?_, ?_, fun r hr => ?_⟩
  · rw [indexed, hkeys]
    refine (List.nodup_range.map fun i j h => ?_).append (List.nodup_singleton _) ?_
    · exact Nat.add_right_cancel (congrArg Prod.fst h)
    · intro k hk hone
      obtain ⟨i, -, rfl⟩ := List.mem_map.mp hk
      exact absurd (congrArg Prod.fst (List.mem_singleton.mp hone)) (by simp)
  · have hid := List.mem_map_of_mem (f := MonAlert.id) ha
    rw [crowded_ids] at hid
    obtain ⟨i, hi, heq⟩ := List.mem_map.mp hid
    have := List.mem_range.mp hi
    rw [← heq]
    exact Nat.succ_lt_succ this
  · rw [hrules]
    exact List.nodup_range.map Nat.succ_injective
  · obtain ⟨i, hi, rfl⟩ := List.mem_map.mp hr
    exact Nat.succ_lt_succ (List.mem_range.mp hi)

/-- Behind five hundred firing alerts, a pending one that is due stays pending. -/
theorem sweep_incomplete :
    waiting 501 ∈ (crowded 500).alerts ∧ (crowded 500).DueAt sweepAt41 (waiting 501) ∧
      ¬ SweptOn (crowded 500) ((crowded 500).apply (.sweepActiveAlerts sweepAt41))
        (waiting 501) := by
  have hmem : waiting 501 ∈ (crowded 500).alerts :=
    List.mem_append_right _ (List.mem_singleton_self _)
  have hdue : (crowded 500).DueAt sweepAt41 (waiting 501) :=
    .fire { cooledRule with id := 1 } (by decide +kernel) (by decide +kernel) rfl
      (by decide +kernel)
  refine ⟨hmem, hdue, ?_⟩
  rw [sweptOn_iff (crowded_valid 500) ⟨rfl, rfl⟩ hmem (le_refl _) hdue,
    mem_activeAlerts_iff (crowded_valid 500)]
  rintro ⟨-, hcount⟩
  revert hcount
  decide +kernel

/-- Behind one firing alert it fires. -/
theorem sweep_complete_for_two :
    SweptOn (crowded 1) ((crowded 1).apply (.sweepActiveAlerts sweepAt41)) (waiting 2) :=
  (sweep_complete_iff (crowded_valid 1) ⟨rfl, rfl⟩ fun _ _ => le_refl _).mpr
    (fun _ _ _ => lt_of_le_of_lt List.countP_le_length (by decide)) (waiting 2) (by decide +kernel)
    (.fire { cooledRule with id := 1 } (by decide +kernel) (by decide +kernel) rfl
      (by decide +kernel))

end LarkPlat
