import LarkPlat.TransferRules
import Mathlib.Data.List.MinMax
import Mathlib.Data.List.Nodup

/-!
# Served Hosts

A pass should serve every pending host: hand it to its channel, or mark it. It should not raise, and
the lines that it appends for a host should continue the numbers of the lines that are stored. For a
host that resolves a channel the pass appends two lines before it commits, with one number: either
the next commit raises, or the lines are lost.

## Main results

* `dispatchHosts_settled`: while no host resolves a channel, each one is marked with a line of its
  own.
* `dispatchHosts_doomed`: after a host that resolves a channel, the session holds lines that no
  commit takes.
* `dispatch_serves_iff`: a pass serves the pending hosts of a task exactly if none of them resolves
  a channel.
-/

namespace LarkPlat.Transfers

open Outcomes

/-! ### What a pass promises -/

/-- The lines that are stored for a host. -/
def linesOf (transferHostId : ℕ) (logs : List TransferLog) : List TransferLog :=
  logs.filter fun l => decide (l.transferHostId = transferHostId)

/-- The lines that are appended for a host. -/
def appendedOf (transferHostId : ℕ) (lines : List LogLine) : List LogLine :=
  lines.filter fun l => decide (l.transferHostId = transferHostId)

/-- For each host, the appended lines are stored behind the lines of before, in their order, and
their numbers go on from the last one. -/
def LogsContinue (before : TransferStore) (after : List TransferLog) (appended : List LogLine) :
    Prop :=
  ∀ i, ∃ new, linesOf i after = linesOf i before.logs ++ new ∧
    (new.map fun l => (l.level, l.content)) =
      (appendedOf i appended).map (fun l => (l.level, l.content)) ∧
    new.map TransferLog.seq = List.range' (before.maxSeq i + 1) new.length

/-- The host is marked degraded or failed. -/
def Marked (st : TransferStore) (transferHostId : ℕ) : Prop :=
  ∃ h ∈ st.hosts, h.id = transferHostId ∧ (h.status = "degraded" ∨ h.status = "failed")

/-- The pass returns, each pending host is handed to its channel or marked, and the lines
continue. -/
def ServesPending (env : TransferEnv) (st : TransferStore) (taskId : ℕ) : Prop :=
  ∃ response s, transferDispatch env taskId (.opened st) = .ok (response, s) ∧
    (∀ th, IsPending st taskId th → th.id ∈ s.handed ∨ Marked s.committed th.id) ∧
    LogsContinue st s.committed.logs s.appended

variable {env : TransferEnv} {st : TransferStore} {s : TransferSession} {task : TransferTask}
  {th : TransferHost} {ths : List TransferHost}

/-! ### Lines that no commit takes -/

/-- The key of a line within its transaction. -/
def lineKey (l : LogLine) : ℕ × ℕ := (l.transferHostId, l.seq)

/-- Two waiting lines have one key. -/
def Doomed (s : TransferSession) : Prop := ¬ (s.added.map lineKey).Nodup

/-- A line waits with the number that the next line of the host gets. -/
def Waiting (th : TransferHost) (s : TransferSession) : Prop :=
  (th.id, s.store.maxSeq th.id + 1) ∈ s.added.map lineKey

/-- A line for each host is stored or waits, as often as one was appended. -/
structure Ledger (st : TransferStore) (s : TransferSession) : Prop where
  stored : s.store.logs = s.committed.logs
  balance : ∀ i, (linesOf i s.committed.logs).length + (appendedOf i s.added).length =
    (linesOf i st.logs).length + (appendedOf i s.appended).length

theorem doomed_append (lines : List LogLine) (h : Doomed s) :
    Doomed { s with added := s.added ++ lines } := by
  intro hn
  rw [List.map_append] at hn
  exact h (List.nodup_append.mp hn).1

theorem appendedOf_append (i : ℕ) (a b : List LogLine) :
    appendedOf i (a ++ b) = appendedOf i a ++ appendedOf i b :=
  List.filter_append ..

theorem appendedOf_singleton {i : ℕ} {l : LogLine} (h : l.transferHostId = i) :
    appendedOf i [l] = [l] :=
  List.filter_cons_of_pos (decide_eq_true h)

theorem appendedOf_singleton_ne {i : ℕ} {l : LogLine} (h : l.transferHostId ≠ i) :
    appendedOf i [l] = [] :=
  List.filter_cons_of_neg fun hd => h (of_decide_eq_true hd)

theorem appendLog_waiting (h : Waiting th s) (content level : String) :
    Ends (appendLog th content level s) (fun _ s' => Doomed s') fun _ => True := by
  refine ends_modify fun hn => ?_
  rw [List.map_append, List.map_singleton] at hn
  exact (List.nodup_append.mp hn).2.2 _ h _ (List.mem_singleton_self _) rfl

theorem Flushable.nodup (h : Flushable env s) : (s.added.map lineKey).Nodup := by
  have hkeys : (s.added.map (stamped (env.now s.commits))).map logKey =
      (s.added.map lineKey).map fun k => (env.now s.commits, k.1, k.2) := by
    rw [List.map_map, List.map_map]
    rfl
  have hn := h.1
  rw [hkeys] at hn
  exact List.Nodup.of_map _ hn

theorem commit_doomed (h : Doomed s) {Q : Unit → TransferSession → Prop} :
    Ends (commit env s) Q fun _ => True := by
  rw [commit, if_neg fun hf => h hf.nodup]
  trivial

theorem linesOf_append (i : ℕ) (a b : List TransferLog) :
    linesOf i (a ++ b) = linesOf i a ++ linesOf i b :=
  List.filter_append ..

theorem linesOf_singleton {i : ℕ} {l : TransferLog} (h : l.transferHostId = i) :
    linesOf i [l] = [l] :=
  List.filter_cons_of_pos (decide_eq_true h)

theorem linesOf_singleton_ne {i : ℕ} {l : TransferLog} (h : l.transferHostId ≠ i) :
    linesOf i [l] = [] :=
  List.filter_cons_of_neg fun hd => h (of_decide_eq_true hd)

theorem linesOf_stamped (i : ℕ) (t : ℚ) (lines : List LogLine) :
    linesOf i (lines.map (stamped t)) = (appendedOf i lines).map (stamped t) := by
  rw [linesOf, List.filter_map]
  rfl

theorem Ledger.append (h : Ledger st s) (l : LogLine) :
    Ledger st { s with added := s.added ++ [l], appended := s.appended ++ [l] } := by
  refine ⟨h.stored, fun i => ?_⟩
  have hi := h.balance i
  change (linesOf i s.committed.logs).length + (appendedOf i (s.added ++ [l])).length =
    (linesOf i st.logs).length + (appendedOf i (s.appended ++ [l])).length
  rw [appendedOf_append, appendedOf_append, List.length_append, List.length_append]
  omega

theorem Ledger.commit (h : Ledger st s) :
    Ledger st { s with
      committed := flushed env s, store := flushed env s, added := []
      commits := s.commits + 1 } := by
  refine ⟨rfl, fun i => ?_⟩
  have hi := h.balance i
  change (linesOf i (s.store.logs ++ s.added.map (stamped (env.now s.commits)))).length + 0 = _
  rw [linesOf_append, linesOf_stamped, List.length_append, List.length_map, h.stored]
  omega

theorem stable_ledger (env : TransferEnv) (st : TransferStore) :
    Stable env (fun _ => True) (Ledger st) (fun _ => True) where
  raised _ _ := trivial
  append _ _ _ h := h.append _
  host _ _ _ h := ⟨h.stored, h.balance⟩
  task _ _ h := ⟨h.stored, h.balance⟩
  commit _ h := h.commit
  delivered _ _ h := ⟨h.stored, h.balance⟩
  handed _ h := ⟨h.stored, h.balance⟩

theorem stable_doomed (env : TransferEnv) (st : TransferStore) :
    Stable env (fun _ => True) (fun s => Ledger st s ∧ Doomed s) (fun _ => True) where
  raised _ _ := trivial
  append _ _ _ h := ⟨h.1.append _, doomed_append _ h.2⟩
  host _ _ _ h := ⟨⟨h.1.stored, h.1.balance⟩, h.2⟩
  task _ _ h := ⟨⟨h.1.stored, h.1.balance⟩, h.2⟩
  commit hf h := absurd hf.nodup h.2
  delivered _ _ h := ⟨⟨h.1.stored, h.1.balance⟩, h.2⟩
  handed _ h := ⟨⟨h.1.stored, h.1.balance⟩, h.2⟩

/-- Where a line waits with the next number, the line of the mark cannot be committed. -/
theorem markTerminal_waiting (h : Waiting th s) (status error line : String)
    {Q : Unit → TransferSession → Prop} :
    Ends (markTerminal env th status error line s) Q fun _ => True := by
  refine ends_bind (ends_get (Q := fun a s' => s' = s) rfl) ?_
  rintro a _ rfl
  refine ends_bind (ends_modify (Q := fun _ s' => Waiting th s') h) fun _ s' hs' => ?_
  exact ends_bind (appendLog_waiting hs' line "error") fun _ _ hd => commit_doomed hd

/-! ### A host that resolves a channel -/

/-- The program leaves lines that no commit takes, if it does not raise. -/
def Dooms (st : TransferStore) {α : Type} (x : TransferM α) (s : TransferSession) : Prop :=
  Ends (x s) (fun _ s' => Ledger st s' ∧ Doomed s') fun _ => True

theorem dooms_append (h : Waiting th s) (hl : Ledger st s) (content level : String) {α : Type}
    {x : TransferM α}
    (hx : Maintains (fun s => Ledger st s ∧ Doomed s) (fun _ => True) x) :
    Dooms st (appendLog th content level >>= fun _ => x) s := by
  have hledger : Ends (appendLog th content level s) (fun _ s' => Ledger st s') fun _ => True :=
    ends_modify (hl.append _)
  exact ends_bind (hledger.and (appendLog_waiting h content level)) fun _ s' hs' => hx.ends s' hs'

theorem pushItems_waiting (h : Waiting th s) (hl : Ledger st s) {items : List FileItem}
    (hne : items ≠ []) (k : ℕ) : Dooms st (pushItems env task th k items) s := by
  cases items with
  | nil => exact absurd rfl hne
  | cons item items =>
      refine dooms_append h hl _ _ ((stable_doomed env st).announced trivial ?_ ?_)
      · exact (stable_doomed env st).pushItems items (fun _ _ => trivial) (k + 1)
      · exact ((stable_doomed env st).markTerminal ..).bind fun _ => maintains_pure false

theorem dispatchPush_waiting (h : Waiting th s) (hl : Ledger st s) :
    Dooms st (dispatchPush env task th) s := by
  rw [dispatchPush]
  cases task.packageId with
  | none => exact markTerminal_waiting h ..
  | some packageId =>
      dsimp only
      split_ifs with hitems
      · exact markTerminal_waiting h ..
      · refine ends_bind (pushItems_waiting h hl hitems 0) fun pushed s' hs' => ?_
        exact ((stable_doomed env st).pushed th pushed).ends s' hs'

theorem fetchAllowed_waiting (h : Waiting th s) (hl : Ledger st s) (path : String) :
    Dooms st (fetchAllowed env task th path) s :=
  dooms_append h hl _ _ ((stable_doomed env st).announced trivial
    ((stable_doomed env st).handOver th) ((stable_doomed env st).markTerminal ..))

theorem dispatchPull_waiting (h : Waiting th s) (hl : Ledger st s) :
    Dooms st (dispatchPull env task th) s := by
  have hattempt : Ends (attempt (sourceAllowed env task) s) (fun _ s' => s' = s) fun _ => True := by
    cases sourceAllowed env task with
    | error e => exact trivial
    | ok allowed => exact rfl
  refine ends_bind hattempt ?_
  rintro allowed _ rfl
  split_ifs
  · exact fetchAllowed_waiting h hl _
  · exact markTerminal_waiting h ..

/-- **A host that resolves a channel** leaves lines that no commit takes, if its dispatch does not
raise. -/
theorem dispatchHost_channel (hchannel : resolveChannel env th ≠ none) (hl : Ledger st s) :
    Dooms st (dispatchHost env task th) s := by
  have hstable := stable_ledger env st
  obtain ⟨kind, hkind⟩ := Option.ne_none_iff_exists'.mp hchannel
  rw [dispatchHost, hkind]
  refine ends_bind (maintains_get.ends s hl) fun s₀ s₁ h₁ => ?_
  refine ends_bind ((hstable.updateHost th.id ?_).ends s₁ h₁) fun _ s₂ h₂ => ?_
  · exact fun _ => ⟨rfl, rfl, rfl, rfl⟩
  · refine ends_bind (hstable.commitAll.ends s₂ h₂) fun _ s₃ h₃ => ?_
    have hline : Ends (appendLog th ("channel=" ++ kind ++ " mode=" ++ task.mode ++ " target=" ++
        task.targetPath) "info" s₃) (fun _ s' => Waiting th s') fun _ => True :=
      ends_modify (List.mem_map_of_mem (List.mem_append_right _ (List.mem_singleton_self _)))
    refine ends_bind (((hstable.appendLog ..).ends s₃ h₃).and hline) fun _ s₄ h₄ => ?_
    split_ifs
    · exact dispatchPush_waiting h₄.2 h₄.1
    · exact dispatchPull_waiting h₄.2 h₄.1

/-- **The loop** over hosts of which one resolves a channel. -/
theorem dispatchHosts_doomed (hl : Ledger st s)
    (h : ∃ th ∈ ths, th.status = "pending" ∧ resolveChannel env th ≠ none) :
    Dooms st (dispatchHosts env task ths) s := by
  induction ths generalizing s with
  | nil =>
      obtain ⟨_, hmem, _⟩ := h
      exact absurd hmem List.not_mem_nil
  | cons th ths ih =>
      rw [Stable.dispatchHosts_cons]
      by_cases hth : th.status = "pending" ∧ resolveChannel env th ≠ none
      · rw [if_pos hth.1]
        refine ends_bind (dispatchHost_channel hth.2 hl) fun _ s' hs' => ?_
        exact ((stable_doomed env st).dispatchHosts ths fun _ _ _ _ _ => trivial).ends s' hs'
      · have hrest : ∃ th ∈ ths, th.status = "pending" ∧ resolveChannel env th ≠ none := by
          obtain ⟨th', hmem, hth'⟩ := h
          obtain rfl | hmem := List.mem_cons.mp hmem
          · exact absurd hth' hth
          · exact ⟨th', hmem, hth'⟩
        split_ifs
        · have hhead : Ends (dispatchHost env task th s) (fun _ => Ledger st) fun _ => True :=
            ((stable_ledger env st).dispatchHost fun _ _ => trivial).ends s hl
          exact ends_bind hhead fun _ s' hs' => ih hs' hrest
        · exact ih hl hrest

/-! ### Hosts without a channel -/

theorem maxSeq_eq (st : TransferStore) (i : ℕ) :
    st.maxSeq i = ((linesOf i st.logs).map TransferLog.seq).foldr max 0 := rfl

theorem seq_le_maxSeq {l : TransferLog} (h : l ∈ st.logs) : l.seq ≤ st.maxSeq l.transferHostId := by
  have hmem : l.seq ∈ (linesOf l.transferHostId st.logs).map TransferLog.seq :=
    List.mem_map_of_mem (List.mem_filter.mpr ⟨h, decide_eq_true rfl⟩)
  rw [maxSeq_eq]
  exact List.le_max_of_le' 0 hmem le_rfl

theorem foldr_max_append (ns : List ℕ) (n : ℕ) (h : ns.foldr max 0 ≤ n) :
    (ns ++ [n]).foldr max 0 = n := by
  induction ns with
  | nil => exact max_eq_left (Nat.zero_le n)
  | cons m ns ih =>
      rw [List.foldr_cons] at h
      rw [List.cons_append, List.foldr_cons, ih ((le_max_right ..).trans h)]
      exact max_eq_right ((le_max_left ..).trans h)

/-- The numbers of the lines of a host that go on from `n`. -/
theorem foldr_max_range' (ns : List ℕ) (k : ℕ) :
    (ns ++ List.range' (ns.foldr max 0 + 1) k).foldr max 0 = ns.foldr max 0 + k := by
  induction k with
  | zero => rw [List.range'_zero, List.append_nil, Nat.add_zero]
  | succ k ih =>
      rw [List.range'_1_concat, ← List.append_assoc, foldr_max_append _ _ (by omega)]
      omega

theorem LogsContinue.append {after appended} (h : LogsContinue st after appended)
    (hlogs : s.store.logs = after) (th : TransferHost) (t : ℚ) (content level : String) :
    LogsContinue st
      (after ++ [stamped t (s.store.nextLine th content level)])
      (appended ++ [s.store.nextLine th content level]) := by
  intro i
  obtain ⟨new, hlines, htexts, hseqs⟩ := h i
  rw [linesOf_append, appendedOf_append]
  by_cases hi : th.id = i
  · have hmax : s.store.maxSeq th.id = st.maxSeq i + new.length := by
      rw [maxSeq_eq, hlogs, hi, hlines, List.map_append, hseqs]
      exact foldr_max_range' _ _
    refine ⟨new ++ [stamped t (s.store.nextLine th content level)], ?_, ?_, ?_⟩
    · rw [linesOf_singleton hi, hlines, List.append_assoc]
    · rw [appendedOf_singleton hi, List.map_append, List.map_append, htexts]
      rfl
    · rw [List.map_append, hseqs, List.length_append, List.length_singleton, List.range'_1_concat,
        Nat.add_right_comm, ← hmax]
      rfl
  · refine ⟨new, ?_, ?_, hseqs⟩
    · rw [linesOf_singleton_ne hi, List.append_nil, hlines]
    · rw [appendedOf_singleton_ne hi, List.append_nil, htexts]

/-- The pass has committed what it did, and some hosts are marked. -/
structure Settled (st : TransferStore) (marked : List ℕ) (s : TransferSession) : Prop where
  clean : s.added = []
  saved : s.store = s.committed
  ids : s.committed.hosts.map TransferHost.id = st.hosts.map TransferHost.id
  marked : ∀ i ∈ marked, Marked s.committed i
  lines : LogsContinue st s.committed.logs s.appended

theorem flushable_next (th : TransferHost) (content level : String)
    (h : s.added = [s.store.nextLine th content level]) : Flushable env s := by
  refine ⟨?_, fun l hl hmem => ?_⟩
  · rw [h]
    exact List.nodup_singleton _
  · rw [h, List.mem_singleton] at hl
    subst hl
    obtain ⟨row, hrow, hkey⟩ := List.mem_map.mp hmem
    have hle := seq_le_maxSeq hrow
    have hhost : row.transferHostId = th.id := congrArg (fun k => k.2.1) hkey
    have hseq : row.seq = s.store.maxSeq th.id + 1 := congrArg (fun k => k.2.2) hkey
    rw [hhost] at hle
    omega

section Marks

variable (st : TransferStore) (reason : String) (t : ℚ)

theorem marked_updateHost (j : ℕ) {i : ℕ} (h : Marked st i) :
    Marked (st.updateHost j (.terminated "degraded" reason t)) i := by
  obtain ⟨row, hrow, rfl, hmark⟩ := h
  by_cases hj : row.id = j
  · exact ⟨_, List.mem_map.mpr ⟨row, hrow, if_pos hj⟩, rfl, .inl rfl⟩
  · exact ⟨row, List.mem_map.mpr ⟨row, hrow, if_neg hj⟩, rfl, hmark⟩

theorem marked_updateHost_self {i : ℕ} (h : i ∈ st.hosts.map TransferHost.id) :
    Marked (st.updateHost i (.terminated "degraded" reason t)) i := by
  obtain ⟨row, hrow, rfl⟩ := List.mem_map.mp h
  exact ⟨_, List.mem_map.mpr ⟨row, hrow, if_pos rfl⟩, rfl, .inl rfl⟩

theorem ids_updateHost (i : ℕ) :
    (st.updateHost i (.terminated "degraded" reason t)).hosts.map TransferHost.id =
      st.hosts.map TransferHost.id := by
  rw [TransferStore.updateHost, List.map_map]
  refine List.map_congr_left fun row _ => ?_
  rw [Function.comp]
  split_ifs <;> rfl

end Marks

/-- The tables after a mark with its line. -/
def markedStore (st : TransferStore) (th : TransferHost) (status error line : String) (t : ℚ) :
    TransferStore :=
  { st.updateHost th.id (.terminated status error t) with
    logs := st.logs ++ [stamped t (st.nextLine th line "error")] }

theorem markTerminal_clean (h : s.added = []) (th : TransferHost) (status error line : String) :
    markTerminal env th status error line s = .ok ((), { s with
      committed := markedStore s.store th status error line (env.now s.commits)
      store := markedStore s.store th status error line (env.now s.commits)
      commits := s.commits + 1
      appended := s.appended ++ [s.store.nextLine th line "error"] }) := by
  obtain ⟨committed, store, added, commits, appended, handovers, handed⟩ := s
  obtain rfl : added = [] := h
  change commit env _ = _
  rw [commit, if_pos (flushable_next th line "error" rfl)]
  rfl

/-- **A host is marked degraded**, with one line, and the mark is committed. -/
theorem markDegraded_settled {marked : List ℕ} (h : Settled st marked s)
    (hmem : th.id ∈ st.hosts.map TransferHost.id) (reason : String) :
    Ends (markDegraded env th reason s) (fun _ s' => Settled st (th.id :: marked) s')
      fun _ => False := by
  rw [markDegraded, markTerminal_clean h.clean]
  refine ⟨h.clean, rfl, ?_, fun i hi => ?_, ?_⟩
  · exact (ids_updateHost s.store ..).trans (by rw [h.saved, h.ids])
  · obtain rfl | hi := List.mem_cons.mp hi
    · refine marked_updateHost_self s.store _ _ ?_
      rw [h.saved, h.ids]
      exact hmem
    · refine marked_updateHost s.store _ _ th.id ?_
      rw [h.saved]
      exact h.marked i hi
  · have hlogs : s.store.logs = s.committed.logs := congrArg TransferStore.logs h.saved
    have hlines := h.lines.append hlogs th (env.now s.commits) ("channel unavailable: " ++ reason)
      "error"
    rw [← hlogs] at hlines
    exact hlines

/-- **The loop** over hosts of which none resolves a channel: each pending one is marked. -/
theorem dispatchHosts_settled {marked : List ℕ} (h : Settled st marked s)
    (hmem : ∀ th ∈ ths, th.id ∈ st.hosts.map TransferHost.id)
    (hths : ∀ th ∈ ths, th.status = "pending" → resolveChannel env th = none) :
    Ends (dispatchHosts env task ths s)
      (fun _ s' => ∃ marked', Settled st (marked' ++ marked) s' ∧
        ∀ th ∈ ths, th.status = "pending" → th.id ∈ marked') fun _ => False := by
  induction ths generalizing marked s with
  | nil => exact ⟨[], h, fun _ hth => absurd hth List.not_mem_nil⟩
  | cons th ths ih =>
      rw [List.forall_mem_cons] at hmem hths
      rw [Stable.dispatchHosts_cons]
      split_ifs with hpending
      · rw [dispatchHost, hths.1 hpending]
        refine ends_bind (markDegraded_settled h hmem.1 _) fun _ s' hs' => ?_
        refine (ih hs' hmem.2 hths.2).mono ?_ fun _ => id
        rintro _ s'' ⟨marked', hsettled, hall⟩
        refine ⟨marked' ++ [th.id], by rwa [List.append_assoc], ?_⟩
        rw [List.forall_mem_cons]
        exact ⟨fun _ => List.mem_append_right _ (List.mem_singleton_self _),
          fun th' hth' hp => List.mem_append_left _ (hall th' hth' hp)⟩
      · refine (ih h hmem.2 hths.2).mono ?_ fun _ => id
        rintro _ s' ⟨marked', hsettled, hall⟩
        exact ⟨marked', hsettled, List.forall_mem_cons.mpr ⟨fun hp => absurd hp hpending, hall⟩⟩

theorem commit_settled {marked : List ℕ} (h : Settled st marked s) {store : TransferStore}
    (hhosts : store.hosts = s.store.hosts) (hlogs : store.logs = s.store.logs) :
    Ends (commit env { s with store := store }) (fun _ s' => Settled st marked s')
      fun _ => False := by
  rw [commit_clean (s := { s with store := store }) h.clean]
  rw [h.saved] at hhosts hlogs
  refine ⟨h.clean, rfl, hhosts ▸ h.ids, fun i hi => ?_, hlogs ▸ h.lines⟩
  obtain ⟨row, hrow, hid, hmark⟩ := h.marked i hi
  exact ⟨row, hhosts ▸ hrow, hid, hmark⟩

theorem maybeFinalize_settled {marked : List ℕ} (h : Settled st marked s) (task : TransferTask) :
    Ends (maybeFinalize env task s) (fun _ s' => Settled st marked s') fun _ => False := by
  rw [maybeFinalize]
  split_ifs
  · exact h
  · refine ends_bind (ends_get (Q := fun a s' => a = s ∧ s' = s) ⟨rfl, rfl⟩) ?_
    rintro _ _ ⟨rfl, rfl⟩
    split_ifs
    · exact h
    · exact h
    · refine ends_bind (ends_modify (Q := fun _ s' => s' = _) rfl) ?_
      rintro _ _ rfl
      exact ends_bind (commit_settled h rfl rfl) fun _ _ hs' => hs'
    · exact h

/-! ### The pass -/

variable {taskId : ℕ}

/-- Where lines have been lost, the stored lines do not match the appended ones. -/
theorem Ledger.lost (hl : Ledger st s) (hd : Doomed s) :
    ¬ LogsContinue st s.committed.logs s.appended := by
  intro hlines
  have hne : s.added ≠ [] := by
    intro hnil
    rw [Doomed, hnil] at hd
    exact hd List.nodup_nil
  obtain ⟨line, rest, hadded⟩ := List.exists_cons_of_ne_nil hne
  obtain ⟨new, hnew, htexts, -⟩ := hlines line.transferHostId
  have hlength := congrArg List.length htexts
  rw [List.length_map, List.length_map] at hlength
  have hbalance := hl.balance line.transferHostId
  have hwaits : 0 < (appendedOf line.transferHostId s.added).length := by
    rw [hadded]
    exact List.length_pos_of_mem (List.mem_filter.mpr ⟨List.mem_cons_self, decide_eq_true rfl⟩)
  rw [hnew, List.length_append] at hbalance
  omega

theorem transferDispatch_doomed (htask : st.task? taskId = some task)
    (hstatus : task.status = "processing") (hpending : IsPending st taskId th)
    (hchannel : resolveChannel env th ≠ none) :
    Ends (transferDispatch env taskId (.opened st)) (fun _ s => Ledger st s ∧ Doomed s)
      fun _ => True := by
  have hopened : Ledger st (.opened st) := ⟨rfl, fun _ => rfl⟩
  rw [transferDispatch_eq htask hstatus]
  refine ends_bind (dispatchHosts_doomed hopened ⟨th, ?_, hpending.2.2, hchannel⟩) ?_
  · exact mem_hostsOfTask.mpr ⟨hpending.1, hpending.2.1⟩
  · intro _ s hs
    refine ends_bind (((stable_doomed env st).maybeFinalize task).ends s hs) fun _ s' hs' => ?_
    exact ends_pure hs'

theorem transferDispatch_settled (htask : st.task? taskId = some task)
    (hstatus : task.status = "processing")
    (hchannel : ∀ th, IsPending st taskId th → resolveChannel env th = none) :
    Ends (transferDispatch env taskId (.opened st))
      (fun _ s => ∃ marked, Settled st marked s ∧ ∀ th, IsPending st taskId th → th.id ∈ marked)
      fun _ => False := by
  have hopened : Settled st [] (.opened st) :=
    ⟨rfl, rfl, rfl, fun _ hi => absurd hi List.not_mem_nil,
      fun i => ⟨[], (List.append_nil _).symm, rfl, rfl⟩⟩
  rw [transferDispatch_eq htask hstatus]
  refine ends_bind (dispatchHosts_settled hopened (fun th hth => ?_) fun th hth hp => ?_) ?_
  · exact List.mem_map_of_mem (mem_hostsOfTask.mp hth).1
  · exact hchannel th ⟨(mem_hostsOfTask.mp hth).1, (mem_hostsOfTask.mp hth).2, hp⟩
  · rintro _ s ⟨marked, hsettled, hmarked⟩
    refine ends_bind (maybeFinalize_settled hsettled task) fun _ s' hs' => ?_
    refine ends_pure ⟨_, hs', fun th hth => List.mem_append_left _ ?_⟩
    exact hmarked th (mem_hostsOfTask.mpr ⟨hth.1, hth.2.1⟩) hth.2.2

/-- **A pass serves every pending host** of a task that is processed, and stores the lines that it
appends, exactly if no pending host resolves a channel. -/
theorem dispatch_serves_iff (env : TransferEnv) (htask : st.task? taskId = some task)
    (hstatus : task.status = "processing") :
    ServesPending env st taskId ↔ ∀ th, IsPending st taskId th → resolveChannel env th = none := by
  constructor
  · rintro ⟨response, s, hpass, _, hlines⟩ th hpending
    by_contra hchannel
    obtain ⟨hl, hd⟩ := (transferDispatch_doomed htask hstatus hpending hchannel).of_ok hpass
    exact hl.lost hd hlines
  · intro hchannel
    obtain ⟨response, s, hpass, marked, hsettled, hmarked⟩ :=
      (transferDispatch_settled htask hstatus hchannel).exists_ok
    exact ⟨response, s, hpass, fun th hth => .inr (hsettled.marked th.id (hmarked th hth)),
      hsettled.lines⟩

/-! ### One host -/

/-- A pending transfer to host 7. -/
def loneHost : TransferHost := ⟨1, 1, 7, "pending", 0, none, none, none, none⟩

/-- A task that pushes to one host. -/
def loneStore : TransferStore := ⟨[PushEnv.greetingTask], [loneHost], []⟩

/-- The agent `web-1` of host 7 is online or not, and the package has one file. -/
def loneEnv (online : Bool) : TransferEnv where
  bindings := [⟨7, some "web-1"⟩]
  items := [PushEnv.greetingItem]
  whitelistRule := none
  agentOnline _ _ := online
  gateway _ _ := PushEnv.greetingEnv
  now n := n

/-- While its agent is offline, the host is served. -/
theorem offline_served : ServesPending (loneEnv false) loneStore 1 := by
  have htask : loneStore.task? 1 = some PushEnv.greetingTask := rfl
  refine (dispatch_serves_iff (loneEnv false) htask rfl).mpr ?_
  rintro th ⟨hmem, -, -⟩
  obtain rfl := List.mem_singleton.mp hmem
  decide

/-- While its agent is online, two lines are appended, and none is stored. -/
theorem online_lines_lost : ¬ ServesPending (loneEnv true) loneStore 1 := by
  rintro ⟨response, s, hpass, _, hlines⟩
  have hrun : (transferDispatch (loneEnv true) 1 (.opened loneStore)).toOption.map
      (fun p => (p.2.committed.logs, (appendedOf 1 p.2.appended).length)) = some ([], 2) := by
    decide +kernel
  rw [hpass] at hrun
  obtain ⟨hlogs, hcount⟩ := Prod.mk.inj (Option.some.inj hrun)
  obtain ⟨new, hnew, htexts, -⟩ := hlines 1
  dsimp only at hlogs hcount
  rw [hlogs] at hnew
  obtain rfl : new = [] := hnew.symm
  have hlength := congrArg List.length htexts
  rw [List.length_map, List.length_map, hcount] at hlength
  exact absurd hlength (by decide)

end LarkPlat.Transfers
