import LarkPlat.LogPages
import LarkPlat.Machine

/-!
# The Realtime Log

`useRealtimeLog.ts`: the view of the log of a task host. Lines come in frames of a socket and in
pages of the server, and `lastSeq` is the number of the last line that is shown. A frame with the
next number is shown; one with a greater number starts a backfill, and so does each connection. A
backfill asks for the lines behind `lastSeq`, page by page. Several backfills and frames interleave,
and each of them may move `lastSeq` while another one waits for its page.

## Main results

* `numbered_apply`: an operation keeps the lines numbered from 1 to `lastSeq`.
* `log_view`: the lines are numbered so after any operations, and every backfill ends once the
  server has stopped growing.
-/

namespace LarkPlat

open Machine

/-! ### The composable -/

/-- A frame of the type `log`, whose number may be any. -/
structure LogFrame where
  seq : ℚ
  level : String
  content : String
  createdAt : ℚ

/-- What `getLogs` answers. -/
structure ExecLogPage where
  list : List LogOut
  nextSeq : ℕ

/-- A call of `backfill`: it has asked for the lines behind a number, the server has answered, or it
has ended. The number is `prevSeq`. -/
inductive Backfill
  | asked (prevSeq : ℕ)
  | answered (prevSeq : ℕ) (page : ExecLogPage)
  | ended

/-- The view, the calls of `backfill`, and the lines that the server has stored. -/
structure LogView where
  lines : List LogOut
  lastSeq : ℕ
  calls : List Backfill
  rows : List LogOut

/-- An operation: the server stores a line, a frame comes, a backfill begins, the server answers a
call, a call takes its page, or its request fails. -/
inductive LogOp
  | store (level content : String) (createdAt : ℚ)
  | frame (frame : LogFrame)
  | backfill
  | answer (i : ℕ)
  | deliver (i : ℕ)
  | reject (i : ℕ)

namespace LogView

/-- `getLogs`: the first 500 lines behind the number, in order. -/
def getLogs (st : LogView) (afterSeq : ℕ) : ExecLogPage :=
  let rows := (st.rows.filter fun r => decide (afterSeq < r.seq)).take 500
  ⟨rows, afterSeq + rows.length⟩

/-- The loop body of `appendBatch`. -/
def appendLine (st : LogView) (line : LogOut) : LogView :=
  if st.lastSeq < line.seq then { st with lines := st.lines ++ [line], lastSeq := line.seq } else st

/-- `appendBatch`. -/
def appendBatch (st : LogView) (batch : List LogOut) : LogView := batch.foldl appendLine st

/-- `backfill` begins: it asks for the lines behind the last one. -/
def startBackfill (st : LogView) : LogView :=
  { st with calls := st.calls ++ [.asked st.lastSeq] }

/-- `onmessage` at a frame of the type `log`. -/
def onLog (st : LogView) (f : LogFrame) : LogView :=
  if (st.lastSeq : ℚ) < f.seq then
    if f.seq = st.lastSeq + 1 then
      { st with
        lines := st.lines ++ [⟨st.lastSeq + 1, f.level, f.content, f.createdAt⟩]
        lastSeq := st.lastSeq + 1 }
    else st.startBackfill
  else st

/-- What becomes of a call that has taken its page, where `lastSeq` is that after the page. -/
def nextBackfill (lastSeq prevSeq : ℕ) (page : ExecLogPage) : Backfill :=
  if page.list = [] ∨ page.nextSeq ≤ prevSeq then .ended else .asked lastSeq

/-- One operation. -/
def apply (st : LogView) : LogOp → LogView
  | .store level content createdAt =>
      { st with rows := st.rows ++ [⟨st.rows.length + 1, level, content, createdAt⟩] }
  | .frame f => st.onLog f
  | .backfill => st.startBackfill
  | .answer i =>
      match st.calls[i]? with
      | some (.asked prevSeq) =>
          { st with calls := st.calls.set i (.answered prevSeq (st.getLogs prevSeq)) }
      | _ => st
  | .deliver i =>
      match st.calls[i]? with
      | some (.answered prevSeq page) =>
          let st' := st.appendBatch page.list
          { st' with calls := st.calls.set i (nextBackfill st'.lastSeq prevSeq page) }
      | _ => st
  | .reject i => { st with calls := st.calls.set i .ended }

/-- Nothing is shown, and nothing is stored. -/
def start : LogView := ⟨[], 0, [], []⟩

/-! ### Numbers -/

/-- The page of a call holds lines behind the number it asked for, without a gap, that the server
has stored; the number is not behind the view. -/
def Fits (lastSeq stored : ℕ) : Backfill → Prop
  | .asked prevSeq => prevSeq ≤ lastSeq
  | .answered prevSeq page => prevSeq ≤ lastSeq ∧
      page.list.map LogOut.seq = List.range' (prevSeq + 1) page.list.length ∧
      page.nextSeq = prevSeq + page.list.length ∧
      (page.list = [] ∨ page.nextSeq ≤ stored)
  | .ended => True

/-- The lines and the rows are numbered from 1, and the calls fit. -/
structure Numbered (st : LogView) : Prop where
  lines : st.lines.map LogOut.seq = List.range' 1 st.lastSeq
  rows : st.rows.map LogOut.seq = List.range' 1 st.rows.length
  calls : ∀ call ∈ st.calls, Fits st.lastSeq st.rows.length call

variable {st : LogView} {i : ℕ} {call : Backfill} {prevSeq n m : ℕ} {page : ExecLogPage}

theorem fits_mono {lastSeq lastSeq' stored stored' : ℕ} (h : Fits lastSeq stored call)
    (hlast : lastSeq ≤ lastSeq') (hstored : stored ≤ stored') : Fits lastSeq' stored' call := by
  cases call with
  | asked prevSeq => exact Nat.le_trans h hlast
  | answered prevSeq page =>
      exact ⟨h.1.trans hlast, h.2.1, h.2.2.1, h.2.2.2.imp_right fun hle => hle.trans hstored⟩
  | ended => trivial

theorem filter_range' (after n : ℕ) : (List.range' 1 n).filter (fun k => decide (after < k)) =
    List.range' (after + 1) (n - after) := by
  induction n with
  | zero => simp
  | succ n ih =>
      rw [List.range'_1_concat, List.filter_append, ih]
      by_cases hlt : after < 1 + n
      · rw [List.filter_cons_of_pos (by simpa using hlt), List.filter_nil,
          show n + 1 - after = n - after + 1 by omega, List.range'_1_concat,
          show after + 1 + (n - after) = 1 + n by omega]
      · rw [List.filter_cons_of_neg (by simpa using hlt), List.filter_nil, List.append_nil,
          show n - after = 0 by omega, show n + 1 - after = 0 by omega]

theorem fits_answer (h : st.Numbered) (hprev : prevSeq ≤ st.lastSeq) :
    Fits st.lastSeq st.rows.length (.answered prevSeq (st.getLogs prevSeq)) := by
  have hrows : (st.rows.filter fun r => decide (prevSeq < r.seq)).map LogOut.seq =
      List.range' (prevSeq + 1) (st.rows.length - prevSeq) := by
    rw [← filter_range', ← h.rows, List.filter_map]
    rfl
  have hlist : (st.getLogs prevSeq).list.map LogOut.seq =
      List.range' (prevSeq + 1) (min 500 (st.rows.length - prevSeq)) := by
    rw [getLogs, List.map_take, hrows]
    rcases le_total 500 (st.rows.length - prevSeq) with hle | hle
    · rw [List.take_range'_of_length_ge hle, min_eq_left hle]
    · rw [List.take_range'_of_length_le hle, min_eq_right hle]
  have hlength : (st.getLogs prevSeq).list.length = min 500 (st.rows.length - prevSeq) := by
    rw [← List.length_map, hlist, List.length_range']
  refine ⟨hprev, hlist.trans (by rw [hlength]), rfl, ?_⟩
  by_cases hnil : (st.getLogs prevSeq).list = []
  · exact .inl hnil
  · have hpos := List.length_pos_iff.mpr hnil
    refine .inr ?_
    show prevSeq + (st.getLogs prevSeq).list.length ≤ st.rows.length
    omega

/-- **Batches.** A batch without a gap that begins no later than behind the last line moves the last
line to its own last one, and leaves no gap. -/
theorem appendBatch_spec {batch : List LogOut} (hlines : st.lines.map LogOut.seq =
      List.range' 1 st.lastSeq) (hprev : prevSeq ≤ st.lastSeq)
    (hbatch : batch.map LogOut.seq = List.range' (prevSeq + 1) batch.length) :
    (st.appendBatch batch).lines.map LogOut.seq = List.range' 1 (st.appendBatch batch).lastSeq ∧
      (st.appendBatch batch).lastSeq = max st.lastSeq (prevSeq + batch.length) ∧
      (st.appendBatch batch).rows = st.rows := by
  induction batch generalizing st prevSeq with
  | nil => exact ⟨hlines, (max_eq_left hprev).symm, rfl⟩
  | cons line batch ih =>
      rw [List.map_cons, List.length_cons, List.range'_succ] at hbatch
      obtain ⟨hseq, hrest⟩ := List.cons.inj hbatch
      rw [appendBatch, List.foldl_cons]
      have hnext : (st.appendLine line).lines.map LogOut.seq =
          List.range' 1 (st.appendLine line).lastSeq ∧
          (st.appendLine line).lastSeq = max st.lastSeq (prevSeq + 1) ∧
          (st.appendLine line).rows = st.rows := by
        rw [appendLine]
        split_ifs with hlt
        · have heq : st.lastSeq = prevSeq := by omega
          refine ⟨?_, hseq.trans (by omega), rfl⟩
          rw [List.map_append, hlines, List.map_singleton, hseq, List.range'_1_concat, heq,
            Nat.add_comm prevSeq 1]
        · exact ⟨hlines, by omega, rfl⟩
      obtain ⟨hlines', hlast, hrows⟩ := hnext
      obtain ⟨hlines'', hlast', hrows'⟩ := ih hlines' (by omega) hrest
      refine ⟨hlines'', hlast'.trans ?_, hrows'.trans hrows⟩
      rw [hlast, List.length_cons]
      omega

theorem numbered_start : start.Numbered :=
  ⟨rfl, rfl, fun _ h => absurd h List.not_mem_nil⟩

theorem mem_set_cases {calls : List Backfill} {new : Backfill} (h : call ∈ calls.set i new) :
    call ∈ calls ∨ call = new :=
  List.mem_or_eq_of_mem_set h

theorem numbered_startBackfill (h : st.Numbered) : st.startBackfill.Numbered := by
  refine ⟨h.lines, h.rows, fun call hcall => ?_⟩
  rcases List.mem_append.mp hcall with hcall | hcall
  · exact h.calls call hcall
  · rw [List.mem_singleton.mp hcall]
    exact le_rfl

/-- **Ordered and gap-free.** An operation keeps the lines numbered from 1 to the last one. -/
theorem numbered_apply (h : st.Numbered) (op : LogOp) : (st.apply op).Numbered := by
  cases op with
  | store level content createdAt =>
      refine ⟨h.lines, ?_, fun call hcall => fits_mono (h.calls call hcall) le_rfl ?_⟩
      · show (st.rows ++ [_]).map LogOut.seq = List.range' 1 (st.rows ++ [_]).length
        rw [List.map_append, h.rows, List.length_append, List.length_singleton,
          List.range'_1_concat, Nat.add_comm 1]
        rfl
      · exact (List.sublist_append_left _ _).length_le
  | frame f =>
      rw [apply, onLog]
      split_ifs
      · refine ⟨?_, h.rows, fun call hcall => fits_mono (h.calls call hcall) (Nat.le_succ _) le_rfl⟩
        show (st.lines ++ [_]).map LogOut.seq = List.range' 1 (st.lastSeq + 1)
        rw [List.map_append, h.lines, List.range'_1_concat, Nat.add_comm 1]
        rfl
      · exact numbered_startBackfill h
      · exact h
  | backfill => exact numbered_startBackfill h
  | answer i =>
      rw [apply]
      split
      next prevSeq hi =>
        refine ⟨h.lines, h.rows, fun call hcall => ?_⟩
        rcases mem_set_cases hcall with hcall | rfl
        · exact h.calls call hcall
        · show Fits st.lastSeq st.rows.length _
          exact fits_answer h (h.calls _ (List.mem_of_getElem? hi))
      · exact h
  | deliver i =>
      rw [apply]
      split
      next prevSeq page hi =>
        obtain ⟨hprev, hpage, -, -⟩ := h.calls _ (List.mem_of_getElem? hi)
        obtain ⟨hlines, hlast, hrows⟩ := appendBatch_spec h.lines hprev hpage
        refine ⟨hlines, ?_, fun call hcall => ?_⟩
        · dsimp only
          rw [hrows]
          exact h.rows
        · dsimp only at hcall ⊢
          rw [hrows]
          rcases mem_set_cases hcall with hcall | rfl
          · exact fits_mono (h.calls call hcall) (hlast ▸ le_max_left _ _) le_rfl
          · rw [nextBackfill]
            split_ifs
            · trivial
            · exact le_rfl
      · exact h
  | reject i =>
      refine ⟨h.lines, h.rows, fun call hcall => ?_⟩
      rcases mem_set_cases hcall with hcall | rfl
      · exact h.calls call hcall
      · trivial

/-! ### The end of a backfill -/

/-- What is left for a call to do, when the server has stored `n` lines. -/
def remaining (n : ℕ) : Option Backfill → ℕ
  | some (.asked prevSeq) => 2 * (n - prevSeq) + 2
  | some (.answered prevSeq _) => 2 * (n - prevSeq) + 1
  | _ => 0

/-- **Progress of one call.** Where the server does not grow, an operation leaves a call as it is,
or it ends, or less is left for it to do. -/
theorem call_apply (h : st.Numbered) {op : LogOp}
    (hop : ∀ level content t, op ≠ .store level content t) (hi : i < st.calls.length) :
    (st.apply op).calls[i]? = st.calls[i]? ∨
      (st.apply op).calls[i]? = some .ended ∨
        remaining st.rows.length (st.apply op).calls[i]? <
          remaining st.rows.length st.calls[i]? := by
  have hstart : st.startBackfill.calls[i]? = st.calls[i]? := List.getElem?_append_left hi
  cases op with
  | store level content createdAt => exact absurd rfl (hop level content createdAt)
  | frame f =>
      refine .inl ?_
      rw [apply, onLog]
      split_ifs
      · rfl
      · exact hstart
      · rfl
  | backfill => exact .inl hstart
  | answer k =>
      rw [apply]
      split
      next prevSeq hk =>
        by_cases hik : k = i
        · subst hik
          refine .inr (.inr ?_)
          rw [List.getElem?_set_self hi, hk]
          exact Nat.lt_succ_self _
        · exact .inl (List.getElem?_set_ne hik)
      · exact .inl rfl
  | deliver k =>
      rw [apply]
      split
      next prevSeq page hk =>
        by_cases hik : k = i
        · subst hik
          obtain ⟨hprev, hpage, hnext, hstored⟩ := h.calls _ (List.mem_of_getElem? hk)
          obtain ⟨-, hlast, -⟩ := appendBatch_spec h.lines hprev hpage
          refine .inr ?_
          dsimp only
          rw [List.getElem?_set_self hi, hk, nextBackfill]
          split_ifs with hend
          · exact .inl rfl
          · rw [not_or] at hend
            have hle := hstored.resolve_left hend.1
            refine .inr ?_
            rw [remaining, remaining]
            omega
        · exact .inl (List.getElem?_set_ne hik)
      · exact .inl rfl
  | reject k =>
      by_cases hik : k = i
      · subst hik
        exact .inr (.inl (List.getElem?_set_self hi))
      · exact .inl (List.getElem?_set_ne hik)

theorem rows_apply (h : st.Numbered) {op : LogOp}
    (hop : ∀ level content t, op ≠ .store level content t) : (st.apply op).rows = st.rows := by
  cases op with
  | store level content createdAt => exact absurd rfl (hop level content createdAt)
  | frame f =>
      rw [apply, onLog]
      split_ifs <;> rfl
  | backfill => rfl
  | answer k =>
      rw [apply]
      split <;> rfl
  | deliver k =>
      rw [apply]
      split
      next prevSeq page hk =>
        obtain ⟨hprev, hpage, -, -⟩ := h.calls _ (List.mem_of_getElem? hk)
        exact (appendBatch_spec h.lines hprev hpage).2.2
      · rfl
  | reject k => rfl

theorem length_calls_apply (op : LogOp) : st.calls.length ≤ (st.apply op).calls.length := by
  have hstart : st.calls.length ≤ st.startBackfill.calls.length :=
    (List.sublist_append_left _ _).length_le
  cases op with
  | store level content createdAt => exact le_rfl
  | frame f =>
      rw [apply, onLog]
      split_ifs
      · exact le_rfl
      · exact hstart
      · exact le_rfl
  | backfill => exact hstart
  | answer k =>
      rw [apply]
      split
      · exact (List.length_set ..).ge
      · exact le_rfl
  | deliver k =>
      rw [apply]
      split
      · exact (List.length_set ..).ge
      · exact le_rfl
  | reject k => exact (List.length_set ..).ge

/-- Each request is answered or fails, and each answer is taken or lost on its way. -/
def Served (st : LogView) (ops : ℕ → LogOp) : Prop :=
  ∀ t i, (∀ prevSeq, (trace apply st ops t).calls[i]? = some (.asked prevSeq) →
      ∃ t' ≥ t, ops t' = .answer i ∨ ops t' = .reject i) ∧
    ∀ prevSeq page, (trace apply st ops t).calls[i]? = some (.answered prevSeq page) →
      ∃ t' ≥ t, ops t' = .deliver i ∨ ops t' = .reject i

theorem call_changes {op : LogOp} (hi : i < st.calls.length)
    (hcall : (∃ prevSeq, st.calls[i]? = some (.asked prevSeq)) ∧ (op = .answer i ∨ op = .reject i) ∨
      (∃ prevSeq page, st.calls[i]? = some (.answered prevSeq page)) ∧
        (op = .deliver i ∨ op = .reject i)) :
    (st.apply op).calls[i]? ≠ st.calls[i]? := by
  rcases hcall with ⟨⟨prevSeq, hcall⟩, rfl | rfl⟩ | ⟨⟨prevSeq, page, hcall⟩, rfl | rfl⟩
  · rw [apply, hcall]
    dsimp only
    rw [List.getElem?_set_self hi]
    exact fun h => by cases h
  · rw [apply, hcall]
    dsimp only
    rw [List.getElem?_set_self hi]
    exact fun h => by cases h
  · rw [apply, hcall]
    dsimp only
    rw [List.getElem?_set_self hi, nextBackfill]
    split_ifs <;> exact fun h => by cases h
  · rw [apply, hcall]
    dsimp only
    rw [List.getElem?_set_self hi]
    exact fun h => by cases h

/-- A call ends, where the server has stopped growing and requests are served. -/
theorem backfill_ends (h : st.Numbered) {ops : ℕ → LogOp}
    (hops : ∀ t level content createdAt, ops t ≠ .store level content createdAt)
    (hserved : st.Served ops) {t : ℕ} (hi : i < (trace apply st ops t).calls.length) :
    ∃ t' ≥ t, (trace apply st ops t').calls[i]? = some .ended := by
  have hnumbered : ∀ t, (trace apply st ops t).Numbered := fun t =>
    trace_invariant (P := Numbered) (fun t _ h => numbered_apply h (ops t)) (t := 0) h
      (Nat.zero_le t)
  have hrows : ∀ t, (trace apply st ops t).rows = st.rows := fun t => by
    induction t with
    | zero => rfl
    | succ t ih => exact (rows_apply (hnumbered t) (hops t)).trans ih
  have hexists : ∀ t' ≥ t, i < (trace apply st ops t').calls.length := fun t' hle =>
    trace_invariant (P := fun st : LogView => i < st.calls.length)
      (fun t _ h => h.trans_le (length_calls_apply (ops t))) hi hle
  refine eventually_of_descent
    (fun t => remaining st.rows.length (trace apply st ops t).calls[i]?) (fun t₁ ht₁ => ?_) le_rfl
  have hstep : ∀ t' ≥ t₁, (trace apply st ops (t' + 1)).calls[i]? =
        (trace apply st ops t').calls[i]? ∨
      (trace apply st ops (t' + 1)).calls[i]? = some .ended ∨
        remaining st.rows.length (trace apply st ops (t' + 1)).calls[i]? <
          remaining st.rows.length (trace apply st ops t').calls[i]? := by
    intro t' hle
    have hcall := call_apply (hnumbered t') (hops t') (hexists t' (ht₁.trans hle))
    rwa [hrows t'] at hcall
  obtain ⟨call, hcall⟩ : ∃ call, (trace apply st ops t₁).calls[i]? = some call :=
    ⟨_, List.getElem?_eq_getElem (hexists t₁ ht₁)⟩
  cases call with
  | ended => exact ⟨t₁, le_rfl, .inl hcall⟩
  | asked prevSeq =>
      obtain ⟨t₂, hle, hop⟩ := (hserved t₁ i).1 prevSeq hcall
      refine descent_of_change (fun t => (trace apply st ops t).calls[i]?)
        (remaining st.rows.length) hstep hle fun hsame => ?_
      exact call_changes (hexists t₂ (ht₁.trans hle)) (.inl ⟨⟨prevSeq, hsame.trans hcall⟩, hop⟩)
  | answered prevSeq page =>
      obtain ⟨t₂, hle, hop⟩ := (hserved t₁ i).2 prevSeq page hcall
      refine descent_of_change (fun t => (trace apply st ops t).calls[i]?)
        (remaining st.rows.length) hstep hle fun hsame => ?_
      exact call_changes (hexists t₂ (ht₁.trans hle))
        (.inr ⟨⟨prevSeq, page, hsame.trans hcall⟩, hop⟩)

/-- **An ordered log view without gaps.** After any operations the lines are numbered from 1 to the
last one, each once and in order; and once the server has stopped growing, every backfill ends, as
long as its requests are answered or fail. -/
theorem log_view (ops : List LogOp) :
    (run apply start ops).lines.map LogOut.seq =
        List.range' 1 (run apply start ops).lastSeq ∧
      ∀ rest : ℕ → LogOp, (∀ t level content createdAt, rest t ≠ .store level content createdAt) →
        (run apply start ops).Served rest →
          ∀ t i, i < (trace apply (run apply start ops) rest t).calls.length →
            ∃ t' ≥ t, (trace apply (run apply start ops) rest t').calls[i]? = some .ended := by
  have h : (run apply start ops).Numbered :=
    run_invariant (P := Numbered) (fun _ op h => numbered_apply h op) numbered_start ops
  exact ⟨h.lines, fun rest hrest hserved t i hi => backfill_ends h hrest hserved hi⟩

end LogView

end LarkPlat
