import LarkPlat.Interleaving

/-!
# Interference between Sessions

A session that has read the rows before a cancellation or a callback, and commits after it,
can undo it: commits write without a condition. The source counts on the statuses being
checked at the start of a call, which a session that is already open has behind it. The two
main results say exactly which open sessions are harmless.

## Main results

* `cancel_wins_iff`: a committed cancellation stands in every later state exactly when no
  session that is open at its commit still has to write something else over it.
* `callback_kept_iff`: an accepted callback stands, and is the only one of its node, exactly
  when no session that is open at its acceptance still has to write over it.
-/

namespace LarkPlat

open Sessions (writeBack Session Store EachWrite)

variable {d : Json} {s : Interleaved}

/-! ### Rules for open sessions -/

/-- What a callback's update does: nothing to the rows, or the write of a waiting node. -/
theorem commitCallback_cases (d : Json) (s : Interleaved) (j : ℕ) :
    ((s.apply d (.commitCallback j)).store = s.store ∧
        (s.apply d (.commitCallback j)).accepted = s.accepted) ∨
      ∃ (c : OpenCallback) (n : WorkflowNodeRun), s.db.node? c.req.nodeKey = some n ∧
        n.status = .waiting ∧
        (s.apply d (.commitCallback j)).store =
          { s.store with db := s.db.setNode c.req.nodeKey fun _ => accept c.out c.req.now n } ∧
        (s.apply d (.commitCallback j)).accepted =
          s.accepted ++ [(c.req.nodeKey, c.req.payload)] := by
  rw [Interleaved.apply]
  rcases s.callbacks[j]? with _ | c
  · exact Or.inl ⟨rfl, rfl⟩
  rw [Option.elim_some, Interleaved.updateWith]
  rcases hu : updateCallback s.db c.req.nodeKey c.out c.req.now with _ | db
  · exact Or.inl ⟨rfl, rfl⟩
  · obtain ⟨n, hn, -, hw, rfl⟩ := updateCallback_eq_some hu
    exact Or.inr ⟨c, n, hn, hw, rfl, rfl⟩

/-- A property `Q` of the rows that holds on, as long as every open session has only writes
in `P` left to make. -/
structure Protects (d : Json) (P : RunState → RunState → Prop) (Q : RunState → Prop) : Prop where
  flush : ∀ base image db, P base image → Q db → Q (flush base image db)
  step : ∀ db env, Q db → EachWrite P db (step env d db).commits
  cancel : ∀ db env, Q db → db.run.status = .pending ∨ db.run.status = .running →
    P db (cancelRows env db)
  accept : ∀ db k n out now, Q db → db.node? k = some n → n.status = .waiting →
    Q (db.setNode k fun _ => LarkPlat.accept out now n)
  world : ∀ db release exec, Q db → Q { db with release := release, exec := exec }

section Rules

variable {P : RunState → RunState → Prop} {Q : RunState → Prop}

/-- One operation keeps a protected property, and opens only harmless sessions. -/
theorem Protects.apply (hp : Protects d P Q) (h : Q s.db ∧ s.store.Respects P) (op : SessionOp) :
    Q (s.apply d op).db ∧ (s.apply d op).store.Respects P := by
  obtain ⟨hQ, hP⟩ := h
  cases op with
  | openStep env => exact ⟨hQ, hP.openSession (hp.step s.db env hQ)⟩
  | openCancel env g =>
      rw [Interleaved.apply]
      rcases hc : cancelRun env g s.db with e | image
      · exact ⟨hQ, hP⟩
      · obtain ⟨hst, rfl⟩ := cancelRun_eq_ok hc
        exact ⟨hQ, hP.openSession ⟨hp.cancel s.db env hQ hst, trivial⟩⟩
  | commit i => exact ⟨Store.commit_invariant hp.flush hQ hP i, hP.commit i⟩
  | openCallback req =>
      rw [Interleaved.apply]
      split <;> exact ⟨hQ, hP⟩
  | commitCallback j =>
      rcases commitCallback_cases d s j with ⟨hst, -⟩ | ⟨c, n, hn, hw, hst, -⟩
      · rw [Interleaved.db, hst]
        exact ⟨hQ, hP⟩
      · rw [Interleaved.db, hst]
        exact ⟨hp.accept s.db _ n _ _ hQ hn hw, hP⟩
  | world release exec => exact ⟨hp.world s.db release exec hQ, hP⟩

/-- What survives every continuation is respected by every write that is still open. -/
theorem respects_of_survives
    (hback : ∀ base image db, Q (flush base image db) → P base image)
    (h : ∀ q, Q (interleave d s q).db) : s.store.Respects P := by
  intro ses hses
  obtain ⟨i, hi⟩ := List.mem_iff_getElem?.mp hses
  refine Store.eachWrite_of_commits hback hi fun n => ?_
  have hn := h (List.replicate n (.commit i))
  rw [interleave_commits] at hn
  exact hn

/-- **Survival.** A protected property survives every continuation exactly when no open session
has another write left to make. -/
theorem Protects.survives_iff (hp : Protects d P Q)
    (hback : ∀ base image db, Q (LarkPlat.flush base image db) → P base image) (hQ : Q s.db) :
    (∀ q, Q (interleave d s q).db) ↔ s.store.Respects P := by
  constructor
  · exact respects_of_survives hback
  · intro hP q
    exact (Machine.run_invariant (P := fun t : Interleaved => Q t.db ∧ t.store.Respects P)
      (fun _ op ht => hp.apply ht op) ⟨hQ, hP⟩ q).1

end Rules

theorem keys_apply (op : SessionOp) : (s.apply d op).db.keys = s.db.keys := by
  cases op with
  | openStep env => rfl
  | openCancel env g =>
      rw [Interleaved.apply]
      split <;> rfl
  | commit i =>
      show (s.store.commit flush i).db.keys = _
      rcases Store.commit_cases flush s.store i with hc | ⟨base, image, rest, -, hc⟩ <;> rw [hc]
      exact keys_flush base image s.db
  | openCallback req =>
      rw [Interleaved.apply]
      split <;> rfl
  | commitCallback j =>
      rcases commitCallback_cases d s j with ⟨hst, -⟩ | ⟨c, n, hn, -, hst, -⟩
      · rw [Interleaved.db, hst]
      · rw [Interleaved.db, hst]
        exact keys_write hn rfl
  | world release exec => rfl

theorem keys_interleave (d : Json) (s : Interleaved) (ops : List SessionOp) :
    (interleave d s ops).db.keys = s.db.keys :=
  Machine.run_invariant (P := fun t : Interleaved => t.db.keys = s.db.keys)
    (fun _ op ht => (keys_apply op).trans ht) rfl ops

theorem nodup_interleave (D : Definition) (h : RunHeader) (release : Option Release)
    (exec : ExecDb) (ops : List SessionOp) :
    (interleave D.json (Interleaved.start h D.json release exec) ops).db.keys.Nodup := by
  rw [keys_interleave]
  exact (sound_startRun D h release exec).nodup

/-! ### Cancellation -/

/-- A cancellation that read `base` stands: the run is cancelled, and the nodes that were open
are skipped. -/
def CancelStands (base db : RunState) : Prop :=
  db.run.status = .cancelled ∧
    ∀ k st, base.status k = some st → st.open? = true → db.status k = some .skipped

/-- A write that leaves a cancellation of `base` standing: the status of the run and those of
the nodes it skipped are left alone, or written with the same value. -/
def KeepsCancel (base b i : RunState) : Prop :=
  (i.run.status = b.run.status ∨ i.run.status = .cancelled) ∧
    ∀ k st, base.status k = some st → st.open? = true →
      ∀ nb ni, b.node? k = some nb → i.node? k = some ni →
        ni.status = nb.status ∨ ni.status = .skipped

theorem protects_cancel (d : Json) (base : RunState) :
    Protects d (KeepsCancel base) (CancelStands base) where
  flush := by
    rintro b i db ⟨hrun, hnodes⟩ ⟨hst, hskip⟩
    refine ⟨Sessions.writeBack_keeps (P := (· = RunStatus.cancelled)) hrun hst,
      fun k st hk ho => ?_⟩
    obtain ⟨n, hn, hs⟩ := RunState.exists_node?_of_status (hskip k st hk ho)
    obtain ⟨n', hn', hs'⟩ := flush_keeps_row (p := fun n => n.status = .skipped) hn hs
      fun nb ni hb hi => Sessions.writeBack_keeps (P := (· = NodeStatus.skipped))
        (hnodes k st hk ho nb ni hb hi) hs
    rw [RunState.status_of_node? hn', hs']
  step := by
    rintro db env ⟨hst, -⟩
    have hcommits : (LarkPlat.step env d db).commits = [] := by
      rw [LarkPlat.step, if_pos (by rw [hst]; rfl)]
    rw [hcommits]
    trivial
  cancel := by
    rintro db env ⟨hst, -⟩ (hc | hc)
    · rw [hst] at hc
      exact absurd hc (by decide)
    · rw [hst] at hc
      exact absurd hc (by decide)
  accept := by
    rintro db k n out now ⟨hst, hskip⟩ hn hw
    refine ⟨hst, fun j st hj ho => ?_⟩
    have hj' := hskip j st hj ho
    have hne : j ≠ k := by
      rintro rfl
      rw [RunState.status_of_node? hn, hw] at hj'
      exact absurd hj' (by decide)
    rw [RunState.status, node?_write_ne hn (by rfl) hne]
    exact hj'
  world := fun _ _ _ h => h

theorem keepsCancel_of_stands {base b i db : RunState} (h : CancelStands base (flush b i db)) :
    KeepsCancel base b i := by
  obtain ⟨hst, hskip⟩ := h
  refine ⟨Sessions.of_writeBack (P := (· = RunStatus.cancelled)) hst, ?_⟩
  intro k st hk ho nb ni hb hi
  obtain ⟨n', hn', hs⟩ := RunState.exists_node?_of_status (hskip k st hk ho)
  rw [node?_flush] at hn'
  obtain ⟨n, hn, rfl⟩ := Option.map_eq_some_iff.mp hn'
  rw [mergeAt_of_node? hb hi hn] at hs
  exact Sessions.of_writeBack (P := (· = NodeStatus.skipped)) hs

theorem cancelStands_flush {base db : RunState} (env : ExecEnv) (hkeys : db.keys = base.keys)
    (hopen : base.run.status = .pending ∨ base.run.status = .running) :
    CancelStands base (flush base (cancelRows env base) db) := by
  refine ⟨?_, fun k st hk ho => ?_⟩
  · have hne : RunStatus.cancelled ≠ base.run.status := by
      rcases hopen with h | h <;> rw [h] <;> decide
    exact if_neg hne
  · obtain ⟨b, hb, rfl⟩ := RunState.exists_node?_of_status hk
    have hi : (cancelRows env base).node? k = some (cancelNode env.now b) := by
      rw [node?_cancelRows, hb, Option.map_some]
    have hmem : k ∈ db.keys := by
      rw [hkeys]
      exact List.mem_map.mpr ⟨b, Table.mem_of_find hb, Table.key_of_find hb⟩
    obtain ⟨n, hn⟩ := Table.exists_find_of_mem_keys hmem
    rw [RunState.status_of_node? (node?_flush_of_held hb hi hn)]
    have hne : NodeStatus.skipped ≠ b.status := by
      intro hc
      rw [← hc] at ho
      exact absurd ho (by decide)
    simp only [mergeNode, cancelNode, ho, if_true, writeBack, if_neg hne]

theorem session_untouched {i : ℕ} {ses : Sessions.Session RunState}
    (hi : s.store.sessions[i]? = some ses) {ops : List SessionOp} (hops : .commit i ∉ ops) :
    (interleave d s ops).store.sessions[i]? = some ses := by
  have hopen : ∀ {st : Store RunState} {pending : List RunState}, st.sessions[i]? = some ses →
      (st.openSession pending).sessions[i]? = some ses := by
    intro st pending h
    exact List.getElem?_append_left (List.getElem?_eq_some_iff.mp h).1 ▸ h
  have hmeets : Machine.Meets (Interleaved.apply · d ·) (fun _ op => op ≠ .commit i) s ops := by
    refine Machine.meets_of_forall ?_
    rintro op hop rfl
    exact hops hop
  refine Machine.run_invariant_of_meets
    (P := fun t : Interleaved => t.store.sessions[i]? = some ses) ?_ hi hmeets
  intro t op ht hop
  cases op with
  | openStep env => exact hopen ht
  | openCancel env g =>
      rw [Interleaved.apply]
      split
      · exact ht
      · exact hopen ht
  | commit j =>
      have hne : i ≠ j := fun hc => hop (hc ▸ rfl)
      exact (Store.getElem?_commit_ne hne).trans ht
  | openCallback req =>
      rw [Interleaved.apply]
      split <;> exact ht
  | commitCallback j =>
      rcases commitCallback_cases d t j with ⟨hst, -⟩ | ⟨c, n, -, -, hst, -⟩ <;> rw [hst]
      · exact ht
      · exact ht
  | world release exec => exact ht

theorem session_of_openCancel {env : ExecEnv} {g : Gate} {image : RunState}
    (hcancel : cancelRun env g s.db = .ok image) {r : List SessionOp}
    (hopen : .commit s.store.sessions.length ∉ r) :
    (interleave d s (.openCancel env g :: r)).store.sessions[s.store.sessions.length]? =
      some ⟨s.db, [image]⟩ := by
  have hopened : (s.apply d (.openCancel env g)).store.sessions[s.store.sessions.length]? =
      some ⟨s.db, [image]⟩ := by
    rw [Interleaved.apply, hcancel]
    exact List.getElem?_concat_length
  exact session_untouched hopened hopen

/-- **Cancellation wins.** In every interleaving, let `cancel_run` read a pending or running
run and commit some time later. From its commit on, in every continuation, the run stays
cancelled and the nodes it skipped stay skipped, if and only if no other session that is
open at the commit still has to write another status of the run or of one of these nodes. -/
theorem cancel_wins_iff (D : Definition) (h : RunHeader) (release : Option Release)
    (exec : ExecDb) (p r : List SessionOp) (env : ExecEnv) (g : Gate) {image : RunState}
    (hcancel : cancelRun env g
      (interleave D.json (Interleaved.start h D.json release exec) p).db = .ok image)
    (hopen : .commit (interleave D.json (Interleaved.start h D.json release exec)
      p).store.sessions.length ∉ r) :
    let s₀ := Interleaved.start h D.json release exec
    let base := (interleave D.json s₀ p).db
    let i := (interleave D.json s₀ p).store.sessions.length
    let s := interleave D.json s₀ (p ++ .openCancel env g :: r)
    (∀ q, CancelStands base (interleave D.json s (.commit i :: q)).db) ↔
      ∀ j ses, j ≠ i → s.store.sessions[j]? = some ses →
        EachWrite (KeepsCancel base) ses.base ses.pending := by
  intro s₀ base i s
  obtain ⟨hst, rfl⟩ := cancelRun_eq_ok hcancel
  have hses : s.store.sessions[i]? = some ⟨base, [cancelRows env base]⟩ := by
    show (interleave D.json s₀ (p ++ .openCancel env g :: r)).store.sessions[i]? = _
    rw [interleave, Machine.run_append]
    exact session_of_openCancel hcancel hopen
  have hkeys : s.db.keys = base.keys :=
    (keys_interleave D.json s₀ _).trans (keys_interleave D.json s₀ p).symm
  have hstands : CancelStands base (s.apply D.json (.commit i)).db := by
    show CancelStands base (s.store.commit flush i).db
    rw [Store.commit_of_pending flush hses]
    exact cancelStands_flush env hkeys hst
  rw [← Store.respects_commit_last hses]
  exact (protects_cancel D.json base).survives_iff (fun _ _ _ => keepsCancel_of_stands) hstands

/-- What a cancellation at time `t` reads from outside. -/
def cancelEnv (t : ℚ) : ExecEnv := (StepEnv.atTime t).dispatch.toExecEnv

/-- The first timer has been activated, and a step that ends it has read the rows. -/
def timerDue : List SessionOp :=
  [.openStep (StepEnv.atTime 0), .commit 0, .openStep (StepEnv.atTime 1)]

theorem cancel_wins_iff_timers :
    let s₀ := Interleaved.start manualHeader timersDefinition.json none emptyExec
    let base := (interleave timersDefinition.json s₀ timerDue).db
    let s := interleave timersDefinition.json s₀
      (timerDue ++ [.openCancel (cancelEnv 2) ⟨true, true⟩, .commit 1])
    (∀ q, CancelStands base (interleave timersDefinition.json s (.commit 2 :: q)).db) ↔
      ∀ j ses, j ≠ 2 → s.store.sessions[j]? = some ses →
        EachWrite (KeepsCancel base) ses.base ses.pending := by
  refine cancel_wins_iff timersDefinition manualHeader none emptyExec timerDue [.commit 1]
    (cancelEnv 2) ⟨true, true⟩ (cancelRun_of_open _ (by decide +kernel)) ?_
  rw [List.mem_singleton, SessionOp.commit.injEq]
  decide +kernel

/-- Both timers have run, and the step that ends the second one has read the rows. -/
def lastTimerDue : List SessionOp :=
  [.openStep (StepEnv.atTime 0), .commit 0, .openStep (StepEnv.atTime 1), .commit 1,
    .openStep (StepEnv.atTime 2), .commit 2, .openStep (StepEnv.atTime 3)]

/-- A cancellation goes through and commits while the last step is open; the commit of that
step then writes the run as succeeded. -/
theorem stale_step_undoes_cancel :
    let s₀ := Interleaved.start manualHeader timersDefinition.json none emptyExec
    let base := (interleave timersDefinition.json s₀ lastTimerDue).db
    let s := interleave timersDefinition.json s₀
      (lastTimerDue ++ [.openCancel (cancelEnv 4) ⟨true, true⟩])
    cancelRun (cancelEnv 4) ⟨true, true⟩ base = .ok (cancelRows (cancelEnv 4) base) ∧
      ¬ ∀ q, CancelStands base (interleave timersDefinition.json s (.commit 4 :: q)).db := by
  intro s₀ base s
  refine ⟨cancelRun_of_open _ (by decide +kernel), fun hall => ?_⟩
  obtain ⟨hst, -⟩ := hall [.commit 3]
  exact absurd hst (by decide +kernel)

/-! ### Callbacks -/

/-- The row of the node has succeeded and carries the payload. -/
def Carries (k : String) (v : Json) (db : RunState) : Prop :=
  ∃ n, db.node? k = some n ∧ n.status = .succeeded ∧ n.output.lookup "payload" = some v

/-- An accepted callback is kept: it is the only one accepted for the node, and the row of the
node carries it. -/
def CallbackKept (k : String) (v : Json) (s : Interleaved) : Prop :=
  s.accepted.filter (fun a => decide (a.1 = k)) = [(k, v)] ∧ Carries k v s.db

/-- A write that leaves an accepted callback standing: the status and the output of the node
are left alone, or written with its values. -/
def KeepsCallback (k : String) (v : Json) (b i : RunState) : Prop :=
  ∀ nb ni, b.node? k = some nb → i.node? k = some ni →
    (ni.status = nb.status ∨ ni.status = .succeeded) ∧
      (ni.output = nb.output ∨ ni.output.lookup "payload" = some v)

theorem keepsCallback_of_same {k : String} {v : Json} {n : WorkflowNodeRun} {b i : RunState}
    (hb : b.node? k = some n) (hi : i.node? k = some n) : KeepsCallback k v b i := by
  intro nb ni hnb hni
  obtain rfl : n = nb := Option.some.inj (hb.symm.trans hnb)
  obtain rfl : n = ni := Option.some.inj (hi.symm.trans hni)
  exact ⟨Or.inl rfl, Or.inl rfl⟩

theorem protects_callback (d : Json) (k : String) (v : Json) :
    Protects d (KeepsCallback k v) (fun db => db.keys.Nodup ∧ Carries k v db) where
  flush := by
    rintro b i db hkeep ⟨hnodup, n, hn, hst, hout⟩
    refine ⟨by rw [keys_flush]; exact hnodup, ?_⟩
    refine flush_keeps_row (p := fun n => n.status = .succeeded ∧
      n.output.lookup "payload" = some v) hn ⟨hst, hout⟩ fun nb ni hb hi => ?_
    obtain ⟨hs, ho⟩ := hkeep nb ni hb hi
    exact ⟨Sessions.writeBack_keeps (P := (· = NodeStatus.succeeded)) hs hst,
      Sessions.writeBack_keeps (P := (List.lookup "payload" · = some v)) ho hout⟩
  step := by
    rintro db env ⟨hnodup, n, hn, hst, -⟩
    -- a step does not touch the row of a node that it reads as ended
    refine Sessions.eachWrite_of_forall (C := fun s => s.node? k = some n)
      (fun _ _ => keepsCallback_of_same) hn fun image himage => ?_
    have hm := (List.pairwise_cons.mp (step_tracks env d db)).1 image himage
    exact Micros.node?_of_terminal hm hnodup hn (by rw [hst]; rfl)
  cancel := by
    rintro db env ⟨-, n, hn, hst, -⟩ -
    refine keepsCallback_of_same hn ?_
    rw [node?_cancelRows, hn, Option.map_some, cancelNode, hst]
    rfl
  accept := by
    rintro db j m out now ⟨hnodup, n, hn, hst, hout⟩ hm hw
    have hne : k ≠ j := by
      rintro rfl
      obtain rfl : n = m := Option.some.inj (hn.symm.trans hm)
      rw [hst] at hw
      exact absurd hw (by decide)
    refine ⟨by rw [keys_write hm (by rfl)]; exact hnodup, n, ?_, hst, hout⟩
    rw [node?_write_ne hm (by rfl) hne]
    exact hn
  world := fun _ _ _ h => h

theorem keepsCallback_of_carries {k : String} {v : Json} {b i db : RunState}
    (h : Carries k v (flush b i db)) : KeepsCallback k v b i := by
  obtain ⟨n', hn', hst, hout⟩ := h
  intro nb ni hb hi
  rw [node?_flush] at hn'
  obtain ⟨n, hn, rfl⟩ := Option.map_eq_some_iff.mp hn'
  rw [mergeAt_of_node? hb hi hn] at hst hout
  exact ⟨Sessions.of_writeBack (P := (· = NodeStatus.succeeded)) hst,
    Sessions.of_writeBack (P := (List.lookup "payload" · = some v)) hout⟩

theorem accepted_apply {k : String} {v : Json} (h : Carries k v s.db) (op : SessionOp) :
    (s.apply d op).accepted.filter (fun a => decide (a.1 = k)) =
      s.accepted.filter (fun a => decide (a.1 = k)) := by
  cases op with
  | openStep env => rfl
  | openCancel env g =>
      rw [Interleaved.apply]
      split <;> rfl
  | commit i => rfl
  | openCallback req =>
      rw [Interleaved.apply]
      split <;> rfl
  | commitCallback j =>
      rcases commitCallback_cases d s j with ⟨-, ha⟩ | ⟨c, m, hm, hw, -, ha⟩ <;> rw [ha]
      obtain ⟨n, hn, hst, -⟩ := h
      have hne : c.req.nodeKey ≠ k := by
        rintro rfl
        obtain rfl : n = m := Option.some.inj (hn.symm.trans hm)
        rw [hst] at hw
        exact absurd hw (by decide)
      simp [List.filter_append, hne]
  | world release exec => rfl

/-- An accepted callback, with only harmless sessions open. -/
structure CallbackSafe (k : String) (v : Json) (s : Interleaved) : Prop where
  kept : CallbackKept k v s
  nodup : s.db.keys.Nodup
  harmless : s.store.Respects (KeepsCallback k v)

theorem CallbackSafe.apply {k : String} {v : Json} (h : CallbackSafe k v s) (op : SessionOp) :
    CallbackSafe k v (s.apply d op) := by
  obtain ⟨⟨honly, hcarries⟩, hnodup, hharmless⟩ := h
  obtain ⟨⟨hnodup', hcarries'⟩, hharmless'⟩ :=
    (protects_callback d k v).apply ⟨⟨hnodup, hcarries⟩, hharmless⟩ op
  exact ⟨⟨(accepted_apply hcarries op).trans honly, hcarries'⟩, hnodup', hharmless'⟩

section Wins

variable {j : ℕ} {c : OpenCallback} {db : RunState}

theorem apply_of_wins (hc : s.callbacks[j]? = some c)
    (hwin : updateCallback s.db c.req.nodeKey c.out c.req.now = some db) :
    s.apply d (.commitCallback j) =
      ⟨{ s.store with db := db }, s.callbacks.eraseIdx j,
        s.accepted ++ [(c.req.nodeKey, c.req.payload)]⟩ := by
  rw [Interleaved.apply, hc, Option.elim_some, Interleaved.updateWith, hwin]

theorem callbackKept_of_wins (hc : s.callbacks[j]? = some c)
    (hwin : updateCallback s.db c.req.nodeKey c.out c.req.now = some db)
    (hfirst : ∀ a ∈ s.accepted, a.1 ≠ c.req.nodeKey) :
    CallbackKept c.req.nodeKey c.req.payload (s.apply d (.commitCallback j)) := by
  rw [apply_of_wins hc hwin]
  refine ⟨?_, ?_⟩
  · have hnil : s.accepted.filter (fun a => decide (a.1 = c.req.nodeKey)) = [] := by
      rw [List.filter_eq_nil_iff]
      intro a ha
      simpa using hfirst a ha
    simp [List.filter_append, hnil]
  · obtain ⟨n, hn, -, -, rfl⟩ := updateCallback_eq_some hwin
    exact ⟨accept c.out c.req.now n, node?_write_self hn rfl, rfl, c.carries⟩

end Wins

/-- **An accepted callback is kept.** In every interleaving, let a callback request win the
update of its node, as the first one for that node. From then on, in every continuation, it
stays the only accepted one and the node has succeeded with its payload, if and only if no
session that is open at that moment still has to write another status or output into the
row of the node. -/
theorem callback_kept_iff (D : Definition) (h : RunHeader) (release : Option Release)
    (exec : ExecDb) (p : List SessionOp) (j : ℕ) {c : OpenCallback} {db : RunState}
    (hc : (interleave D.json (Interleaved.start h D.json release exec) p).callbacks[j]? = some c)
    (hwin : updateCallback (interleave D.json (Interleaved.start h D.json release exec) p).db
      c.req.nodeKey c.out c.req.now = some db)
    (hfirst : ∀ a ∈ (interleave D.json (Interleaved.start h D.json release exec) p).accepted,
      a.1 ≠ c.req.nodeKey) :
    let s := interleave D.json (Interleaved.start h D.json release exec) p
    (∀ q, CallbackKept c.req.nodeKey c.req.payload
        (interleave D.json s (.commitCallback j :: q))) ↔
      s.store.Respects (KeepsCallback c.req.nodeKey c.req.payload) := by
  intro s
  set k := c.req.nodeKey with hk
  set v := c.req.payload with hv
  set s' := s.apply D.json (.commitCallback j) with hs'
  have hsessions : s'.store.sessions = s.store.sessions := by
    rw [hs', apply_of_wins hc hwin]
  have hkept : CallbackKept k v s' := callbackKept_of_wins hc hwin hfirst
  have hnodup : s'.db.keys.Nodup := by
    rw [hs', keys_apply]
    exact nodup_interleave D h release exec p
  constructor
  · intro hall
    have hrespects : s'.store.Respects (KeepsCallback k v) :=
      respects_of_survives (Q := Carries k v) (fun _ _ _ => keepsCallback_of_carries)
        fun q => (hall q).2
    intro ses hses
    exact hrespects ses (hsessions ▸ hses)
  · intro hothers q
    have hrespects : s'.store.Respects (KeepsCallback k v) := by
      intro ses hses
      exact hothers ses (hsessions ▸ hses)
    have hsafe : CallbackSafe k v (interleave D.json s' q) :=
      Machine.run_invariant (fun _ op ht => ht.apply op) ⟨hkept, hnodup, hrespects⟩ q
    exact hsafe.kept

/-- The rows of a new release run. -/
def newRelease : Interleaved :=
  Interleaved.start manualHeader releaseDefinition.json none emptyExec

/-- The `deploy` node waits, and a request that carries `ok` has read it. -/
def deployAnswered : List SessionOp :=
  [.openStep (StepEnv.atTime 0), .commit 0, .openStep (StepEnv.atTime 1), .commit 1,
    .openCallback (deployCallback (.str "ok"))]

theorem callback_kept_iff_deploy :
    let s := interleave releaseDefinition.json newRelease deployAnswered
    ∃ c db, s.callbacks[0]? = some c ∧
      updateCallback s.db c.req.nodeKey c.out c.req.now = some db ∧ s.accepted = [] ∧
      ((∀ q, CallbackKept c.req.nodeKey c.req.payload
          (interleave releaseDefinition.json s (.commitCallback 0 :: q))) ↔
        s.store.Respects (KeepsCallback c.req.nodeKey c.req.payload)) := by
  intro s
  have hfirst : s.accepted = [] := by decide +kernel
  have hwins : (s.callbacks[0]?.bind fun c =>
      updateCallback s.db c.req.nodeKey c.out c.req.now).isSome = true := by decide +kernel
  obtain ⟨db, hdb⟩ := Option.isSome_iff_exists.mp hwins
  obtain ⟨c, hc, hwin⟩ := Option.bind_eq_some_iff.mp hdb
  refine ⟨c, db, hc, hwin, hfirst, ?_⟩
  refine callback_kept_iff releaseDefinition manualHeader none emptyExec deployAnswered 0 hc hwin ?_
  show ∀ a ∈ s.accepted, _
  rw [hfirst]
  exact fun a ha => absurd ha List.not_mem_nil

/-- A step reads the waiting node after its timeout, and the request is accepted before that
step commits: the node fails and the payload is lost. -/
theorem stale_timeout_loses_callback :
    let s := interleave releaseDefinition.json newRelease
      (deployAnswered ++ [.openStep (StepEnv.atTime 90000)])
    (interleave releaseDefinition.json s [.commitCallback 0]).accepted = [("deploy", .str "ok")] ∧
      ¬ ∀ q, CallbackKept "deploy" (.str "ok")
        (interleave releaseDefinition.json s (.commitCallback 0 :: q)) := by
  intro s
  refine ⟨by decide +kernel, fun hall => ?_⟩
  obtain ⟨-, n, hn, hst, -⟩ := hall [.commit 2]
  have hfailed : (interleave releaseDefinition.json s [.commitCallback 0, .commit 2]).db.status
      "deploy" = some .failed := by decide +kernel
  rw [RunState.status_of_node? hn, hst] at hfailed
  exact absurd hfailed (by decide)

end LarkPlat
