import LarkPlat.CmdbVisibility
import LarkPlat.HostWrites
import LarkPlat.Text

/-!
# What a Host is Referenced by

`delete_host` refuses a host that tasks or schedules name. It counts the host rows of the executed
tasks by the column `host_id`. The schedules hold their hosts as a JSON object with a list of
numbers, and the query takes this object as text and looks for the digits of the host in it.

## Main results

* `occursIn_targetsText_iff`: the digits are found exactly if they are part of the digits of one of
  the numbers.
* `blocked_exactly_iff`: a host is refused exactly if it is referenced, unless it is not and its
  digits are part of another number.
-/

namespace LarkPlat

open Text Cmdb

/-! ### The query -/

/-- What names hosts: the column `host_id` of `exec_task_host`, and the column `target_host_ids` of
`schedule_task`. -/
structure References where
  execHosts : List ℤ
  schedules : List (Option (List ℤ))

/-- `target_host_ids.cast(String)`. -/
def targetsText (ids : List ℤ) : String :=
  "\x7b\"ids\": [" ++ ", ".intercalate (ids.map toString) ++ "]\x7d"

/-- The count of `task_refs`. -/
def References.taskRefs (refs : References) (hostId : ℤ) : ℕ :=
  refs.execHosts.count hostId

/-- The count of `sched_refs`. A column without a value is not counted. -/
def References.schedRefs (refs : References) (hostId : ℤ) : ℕ :=
  refs.schedules.countP fun targets =>
    targets.any fun ids => occursIn (toString hostId) (targetsText ids)

/-- The call finds these references. -/
def References.found (refs : References) (env : HostEnv) : HostEnv :=
  { env with taskRefs := refs.taskRefs, schedRefs := refs.schedRefs }

/-- A host row of a task has this host, or the list of a schedule does. -/
def References.Real (refs : References) (hostId : ℤ) : Prop :=
  hostId ∈ refs.execHosts ∨ ∃ ids, some ids ∈ refs.schedules ∧ hostId ∈ ids

/-- The digits of the host are part of a number that a schedule lists. -/
def References.Digits (refs : References) (hostId : ℤ) : Prop :=
  ∃ ids, some ids ∈ refs.schedules ∧ ∃ id ∈ ids, occursIn (toString hostId) (toString id) = true

theorem mem_intText {z : ℤ} {c : Char} (hc : c ∈ (toString z).toList) :
    c.isDigit = true ∨ c = '-' := by
  have hnat {n : ℕ} (h : c ∈ (Nat.repr n).toList) : c.isDigit = true := by
    rw [Nat.toList_repr] at h
    exact Nat.isDigit_of_mem_toDigits (by decide) (by decide) h
  cases z with
  | ofNat n => exact .inl (hnat hc)
  | negSucc n =>
      change c ∈ ("-" ++ Nat.repr (n + 1)).toList at hc
      rw [String.toList_append, List.mem_append] at hc
      rcases hc with hc | hc
      · exact .inr (List.mem_singleton.mp hc)
      · exact .inl (hnat hc)

theorem not_mem_intText (z : ℤ) {sep : List Char}
    (hsep : (sep.all fun c => !c.isDigit && c != '-') = true) :
    ∀ c ∈ sep, c ∉ (toString z).toList := by
  intro c hc hmem
  have hother := List.all_eq_true.mp hsep c hc
  rw [Bool.and_eq_true, Bool.not_eq_true', bne_iff_ne] at hother
  rcases mem_intText hmem with hdigit | hsign
  · exact absurd hdigit (by rw [hother.1]; decide)
  · exact hother.2 hsign

/-- The digits are found in the text of a list exactly if they are part of one of its numbers. -/
theorem occursIn_targetsText_iff (hostId : ℤ) (ids : List ℤ) :
    occursIn (toString hostId) (targetsText ids) = true ↔
      ∃ id ∈ ids, occursIn (toString hostId) (toString id) = true := by
  have hne : (toString hostId).toList ≠ [] := fun h =>
    intText_ne_empty hostId (String.toList_eq_nil_iff.mp h)
  have hclose : (toString hostId).toList <:+:
      (", ".intercalate (ids.map toString)).toList ++ ("]\x7d".toList ++ []) ↔
      (toString hostId).toList <:+: (", ".intercalate (ids.map toString)).toList := by
    rw [infix_append_sep_iff hne (by decide) (not_mem_intText hostId (by decide))]
    exact or_iff_left fun h => hne (List.eq_nil_of_infix_nil h)
  rw [occursIn, decide_eq_true_iff, targetsText, String.toList_append, String.toList_append,
    List.append_assoc, infix_sep_append_iff hne (not_mem_intText hostId (by decide)),
    ← List.append_nil "]\x7d".toList, hclose, String.toList_intercalate,
    infix_intercalate_iff hne (by decide) (not_mem_intText hostId (by decide)), List.map_map]
  constructor
  · rintro ⟨text, hmem, hpart⟩
    obtain ⟨id, hid, rfl⟩ := List.mem_map.mp hmem
    exact ⟨id, hid, decide_eq_true hpart⟩
  · rintro ⟨id, hid, hpart⟩
    exact ⟨_, List.mem_map.mpr ⟨id, hid, rfl⟩, of_decide_eq_true hpart⟩

section Deletion

variable {env : HostEnv} {refs : References} {hostId : ℤ}

theorem taskRefs_ne_zero_iff : refs.taskRefs hostId ≠ 0 ↔ hostId ∈ refs.execHosts := by
  rw [References.taskRefs, ← Nat.pos_iff_ne_zero, List.count_pos_iff]

/-- The schedules count a host exactly if its digits are part of one of their numbers. -/
theorem schedRefs_ne_zero_iff : refs.schedRefs hostId ≠ 0 ↔ refs.Digits hostId := by
  rw [References.schedRefs, ← Nat.pos_iff_ne_zero, List.countP_pos_iff]
  constructor
  · rintro ⟨targets, hmem, hany⟩
    cases targets with
    | none => exact absurd hany (by simp)
    | some ids => exact ⟨ids, hmem, (occursIn_targetsText_iff hostId ids).mp hany⟩
  · rintro ⟨ids, hmem, hdigits⟩
    exact ⟨some ids, hmem, (occursIn_targetsText_iff hostId ids).mpr hdigits⟩

theorem References.Real.counted (h : refs.Real hostId) :
    hostId ∈ refs.execHosts ∨ refs.Digits hostId := by
  rcases h with hexec | ⟨ids, hmem, hid⟩
  · exact .inl hexec
  · exact .inr ⟨ids, hmem, hostId, hid, decide_eq_true (List.infix_refl _)⟩

end Deletion

/-- `delete_host` refuses a host that the caller sees as referenced. -/
theorem deleteHost_refused_iff {env : HostEnv} {user : Actor} {table : HostTable} {hostId : ℤ}
    {host : HostRow} (hget : table.get hostId = some host)
    (hsees : user.seesGroup host.groupId = true) :
    deleteHost env user table hostId = .error (.conflict "host referenced by tasks or schedules") ↔
      env.taskRefs hostId ≠ 0 ∨ env.schedRefs hostId ≠ 0 := by
  simp only [deleteHost, hget]
  rw [if_neg (by rw [hsees]; decide)]
  constructor
  · intro h
    by_contra hnone
    rw [if_neg hnone] at h
    exact absurd h (by simp)
  · intro h
    rw [if_pos h]

/-- A host that the caller sees is refused exactly if it is referenced, unless it is not referenced
and its digits are part of a number that a schedule lists. -/
theorem blocked_exactly_iff (env : HostEnv) (refs : References) {user : Actor} {table : HostTable}
    {hostId : ℤ} {host : HostRow} (hget : table.get hostId = some host)
    (hsees : user.seesGroup host.groupId = true) :
    (deleteHost (refs.found env) user table hostId =
        .error (.conflict "host referenced by tasks or schedules") ↔ refs.Real hostId) ↔
      (refs.Real hostId ∨ ¬ refs.Digits hostId) := by
  rw [deleteHost_refused_iff hget hsees,
    show (refs.found env).taskRefs hostId ≠ 0 ↔ _ from taskRefs_ne_zero_iff,
    show (refs.found env).schedRefs hostId ≠ 0 ↔ _ from schedRefs_ne_zero_iff]
  constructor
  · intro h
    by_cases hdigits : refs.Digits hostId
    · exact .inl (h.mp (.inr hdigits))
    · exact .inr hdigits
  · rintro (hreal | hdigits)
    · exact iff_of_true hreal.counted hreal
    · refine ⟨fun h => .inl (h.resolve_right hdigits), fun hreal => hreal.counted⟩

/-- A table with one host, and an environment in which nothing is referenced. -/
def unreferencedHost : HostTable × HostEnv :=
  (⟨[⟨1, "web", "10.0.0.6", "linux", "", none, "prod", .null, "normal", "offline", "agent", none,
      "", none, "", none, 0, 0⟩], List.nodup_singleton _, List.nodup_singleton _⟩,
    ⟨[], 2, 0, fun _ => 0, fun _ => 0⟩)

/-- A schedule for host 12 keeps host 1, which nothing references. -/
theorem other_host_blocks :
    deleteHost (References.found ⟨[], [some [12]]⟩ unreferencedHost.2) cmdbAdmin
        unreferencedHost.1 1 =
        .error (.conflict "host referenced by tasks or schedules") ∧
      ¬ References.Real ⟨[], [some [12]]⟩ 1 := by
  refine ⟨(deleteHost_refused_iff rfl rfl).mpr (.inr (by decide)), ?_⟩
  rintro (h | ⟨ids, hmem, hid⟩)
  · exact List.not_mem_nil h
  · obtain rfl := Option.some.inj (List.mem_singleton.mp hmem)
    exact absurd hid (by decide)

theorem own_host_blocked_exactly :
    (deleteHost (References.found ⟨[1], []⟩ unreferencedHost.2) cmdbAdmin unreferencedHost.1 1 =
        .error (.conflict "host referenced by tasks or schedules") ↔
      References.Real ⟨[1], []⟩ 1) ↔
    (References.Real ⟨[1], []⟩ 1 ∨ ¬ References.Digits ⟨[1], []⟩ 1) :=
  blocked_exactly_iff unreferencedHost.2 ⟨[1], []⟩ rfl rfl

end LarkPlat
