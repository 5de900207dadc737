import LarkPlat.Machine
import Mathlib.Data.Rat.Defs

/-!
# The Realtime View of a Run

`useWorkflowRunRealtime.ts`: a frame of the socket notifies the view that its run has changed, and
the view asks the server for the run. While an answer to such a request is outstanding the flag
`syncing` is set, and a frame that is accepted then starts no request. A connection asks for the run
on its own before it opens the socket.

The server numbers its changes of the run. What an answer shows is the run at the time of the
answer.

## Main results

* `missed_iff`: after a run of the view a notification is missed exactly if a frame was accepted
  while `syncing` was set, and no other one was accepted, no connection began and nothing was
  stopped since.
* `notified_iff`: the same, with what the requests after the last notification show.
-/

namespace LarkPlat

open Machine

/-! ### The composable -/

/-- `WorkflowRunFrame`: its type, and its number, in the frame or in its data. -/
structure WorkflowRunFrame where
  type : String
  seq : Option ℚ

/-- A call of `getWorkflowRun`: whether `syncFromFrame` has started it, the change that its answer
shows, and whether it is settled. -/
structure RunRequest where
  bySync : Bool
  answer : Option ℕ
  settled : Bool
  deriving DecidableEq

/-- The state of `useWorkflowRunRealtime`, with the number of the last change at the server.
`notice` is the last notification of a view that was not stopped since: how many requests had been
started before it, and the last change at that time. -/
structure RunView where
  closed : Bool
  connecting : Bool
  syncing : Bool
  lastSeq : ℚ
  requests : List RunRequest
  version : ℕ
  notice : Option (ℕ × ℕ)
  deriving DecidableEq

/-- An operation: the run changes at the server, a frame comes, a connection begins, opens its
socket or ends without, a request is answered, its answer is taken (the run may be terminal) or it
fails, and the view is started or stopped. The socket may be closed with 4404. -/
inductive RunViewOp
  | change
  | frame (frame : WorkflowRunFrame)
  | connect
  | opened
  | connectEnded
  | answer (i : ℕ)
  | deliver (i : ℕ) (terminal : Bool)
  | fail (i : ℕ)
  | start
  | stop
  | gone

namespace RunView

/-- `getWorkflowRun` is called. -/
def request (st : RunView) (bySync : Bool) : RunView :=
  { st with requests := st.requests ++ [⟨bySync, none, false⟩] }

/-- `stop`. -/
def stop (st : RunView) : RunView := { st with closed := true, notice := none }

/-- `syncFromFrame` up to its `await`. -/
def syncFromFrame (st : RunView) : RunView :=
  if st.syncing || st.closed then st else { st.request true with syncing := true }

/-- The frame is not dropped for its number. -/
def accepts (st : RunView) (f : WorkflowRunFrame) : Bool :=
  f.seq.all fun seq => decide (st.lastSeq < seq)

/-- The frame is a notification. -/
def notifies (st : RunView) (f : WorkflowRunFrame) : Bool :=
  st.accepts f && decide (f.type = "run") && !st.closed

/-- `applyFrame`. -/
def applyFrame (st : RunView) (f : WorkflowRunFrame) : RunView :=
  if st.accepts f then
    let st' : RunView :=
      { st with
        lastSeq := f.seq.getD st.lastSeq
        notice := if st.notifies f then some (st.requests.length, st.version) else st.notice }
    if f.type = "run" then st'.syncFromFrame else st'
  else st

/-- A call of `connect` does something. -/
def connects (st : RunView) : Bool := !st.closed && !st.connecting

/-- `connect` up to its first `await`. -/
def connect (st : RunView) : RunView :=
  if st.connects then { st.request false with connecting := true } else st

/-- The request is settled. That of `syncFromFrame` resets its flag; that of `connect` ends the
connection if it has failed or the view is closed. -/
def settle (st : RunView) (i : ℕ) (r : RunRequest) (failed : Bool) : RunView :=
  let st' : RunView := { st with requests := st.requests.set i { r with settled := true } }
  if r.bySync then { st' with syncing := false }
  else if failed || st'.closed then { st' with connecting := false }
  else st'

/-- One operation. -/
def apply (st : RunView) : RunViewOp → RunView
  | .change => { st with version := st.version + 1 }
  | .frame f => st.applyFrame f
  | .connect => st.connect
  | .opened => { st with lastSeq := 0, connecting := false }
  | .connectEnded => { st with connecting := false }
  | .answer i =>
      match st.requests[i]? with
      | some ⟨bySync, none, false⟩ =>
          { st with requests := st.requests.set i ⟨bySync, some st.version, false⟩ }
      | _ => st
  | .deliver i terminal =>
      match st.requests[i]? with
      | some ⟨bySync, some version, false⟩ =>
          (if terminal then st.stop else st).settle i ⟨bySync, some version, false⟩ false
      | _ => st
  | .fail i =>
      match st.requests[i]? with
      | some ⟨bySync, answer, false⟩ => st.settle i ⟨bySync, answer, false⟩ true
      | _ => st
  | .start => { st with closed := false }.connect
  | .stop => st.stop
  | .gone => st.stop

/-- The view before it is started. -/
def init : RunView := ⟨false, false, false, 0, [], 0, none⟩

/-! ### Notifications -/

/-- A request was started after the last notification, unless the view was stopped since, and what
such requests show is at least as new. -/
def Notified (st : RunView) : Prop :=
  ∀ k v, st.notice = some (k, v) → k < st.requests.length ∧
    ∀ r ∈ st.requests.drop k, ∀ version, r.answer = some version → v ≤ version

/-- No request was started after the last notification. -/
def Missed (st : RunView) : Prop :=
  ∃ k v, st.notice = some (k, v) ∧ st.requests.length ≤ k

/-- The operation is a notification that finds a re-sync outstanding. -/
def Drops (st : RunView) : RunViewOp → Prop
  | .frame f => st.notifies f = true ∧ st.syncing = true
  | _ => False

/-- The operation is no notification, begins no connection and stops nothing. -/
def Quiet (st : RunView) : RunViewOp → Prop
  | .frame f => st.notifies f = false
  | .connect => st.connects = false
  | .start => st.connecting = true
  | .stop | .gone => False
  | .deliver i true => ∀ r, st.requests[i]? = some r → r.answer = none ∨ r.settled = true
  | _ => True

/-- What is known of a notification: it counts requests that were started, and later answers show
the change that it is about. -/
def Sound (st : RunView) : Prop :=
  ∀ k v, st.notice = some (k, v) → k ≤ st.requests.length ∧ v ≤ st.version ∧
    ∀ r ∈ st.requests.drop k, ∀ version, r.answer = some version → v ≤ version

variable {st st' : RunView}

theorem sound_init : init.Sound := fun k v h => by cases h

/-- An operation that leaves the notice keeps what is known of it, if requests are only added, and
answers that are new show the last change. -/
theorem sound_of_answers (h : st.Sound) (hnotice : st'.notice = st.notice ∨ st'.notice = none)
    (hversion : st.version ≤ st'.version) (hlength : st.requests.length ≤ st'.requests.length)
    (hanswers : ∀ (i : ℕ) r version, st'.requests[i]? = some r → r.answer = some version →
      st.version ≤ version ∨ ∃ r', st.requests[i]? = some r' ∧ r'.answer = some version) :
    st'.Sound := by
  intro k v hkv
  rcases hnotice with hnotice | hnotice
  · obtain ⟨hk, hv, hold⟩ := h k v (hnotice ▸ hkv)
    refine ⟨hk.trans hlength, hv.trans hversion, fun r hr version hanswer => ?_⟩
    obtain ⟨i, hi⟩ := List.mem_iff_getElem?.mp hr
    rw [List.getElem?_drop] at hi
    rcases hanswers _ r version hi hanswer with hle | ⟨r', hr', hanswer'⟩
    · exact hv.trans hle
    · rw [← List.getElem?_drop] at hr'
      exact hold r' (List.mem_of_getElem? hr') version hanswer'
  · rw [hnotice] at hkv
    cases hkv

theorem answers_request (bySync : Bool) (i : ℕ) (r : RunRequest) (version : ℕ)
    (hr : (st.request bySync).requests[i]? = some r) (hanswer : r.answer = some version) :
    st.version ≤ version ∨ ∃ r', st.requests[i]? = some r' ∧ r'.answer = some version := by
  rw [request, List.getElem?_append] at hr
  split_ifs at hr
  · exact .inr ⟨r, hr, hanswer⟩
  · obtain rfl := List.mem_singleton.mp (List.mem_of_getElem? hr)
    cases hanswer

/-- What a frame does: a notification is noted, and starts a request unless one of `syncFromFrame`
is outstanding; another frame leaves notice and requests. -/
theorem applyFrame_cases (st : RunView) (f : WorkflowRunFrame) :
    (st.applyFrame f).version = st.version ∧
      (st.notifies f = true ∧ (st.applyFrame f).notice = some (st.requests.length, st.version) ∧
          (st.applyFrame f).requests =
            (if st.syncing then st.requests else (st.request true).requests) ∨
        st.notifies f = false ∧ (st.applyFrame f).notice = st.notice ∧
          (st.applyFrame f).requests = st.requests) := by
  cases haccepts : st.accepts f with
  | false => simp [applyFrame, notifies, haccepts]
  | true =>
      by_cases htype : f.type = "run"
      · cases hclosed : st.closed with
        | true => simp [applyFrame, notifies, syncFromFrame, haccepts, htype, hclosed]
        | false =>
            cases hsyncing : st.syncing <;>
              simp [applyFrame, notifies, syncFromFrame, request, haccepts, htype, hclosed,
                hsyncing]
      · simp [applyFrame, notifies, haccepts, htype]

theorem connect_cases (st : RunView) :
    st.connect.version = st.version ∧ st.connect.notice = st.notice ∧
      st.connect.requests = (if st.connects then (st.request false).requests else st.requests) := by
  cases hconnects : st.connects <;> simp [connect, hconnects, request]

theorem settle_fields (st : RunView) (i : ℕ) (r : RunRequest) (failed : Bool) :
    (st.settle i r failed).version = st.version ∧ (st.settle i r failed).notice = st.notice ∧
      (st.settle i r failed).requests = st.requests.set i { r with settled := true } := by
  rw [settle]
  dsimp only
  split_ifs <;> exact ⟨rfl, rfl, rfl⟩

/-- The answer of a request that is replaced is that of before, or the last change. -/
theorem answers_set {i : ℕ} {old new : RunRequest} (hi : st.requests[i]? = some old)
    (hnew : ∀ version, new.answer = some version → version = st.version ∨ old.answer = some version)
    (j : ℕ) (r : RunRequest) (version : ℕ) (hr : (st.requests.set i new)[j]? = some r)
    (hanswer : r.answer = some version) :
    st.version ≤ version ∨ ∃ r', st.requests[j]? = some r' ∧ r'.answer = some version := by
  by_cases hij : i = j
  · subst hij
    rw [List.getElem?_set_self (List.getElem?_eq_some_iff.mp hi).1] at hr
    obtain rfl := Option.some.inj hr
    rcases hnew version hanswer with rfl | hold
    · exact .inl le_rfl
    · exact .inr ⟨old, hi, hold⟩
  · rw [List.getElem?_set_ne hij] at hr
    exact .inr ⟨r, hr, hanswer⟩

theorem sound_connect (h : st.Sound) : st.connect.Sound := by
  obtain ⟨hversion, hnotice, hrequests⟩ := connect_cases st
  refine sound_of_answers h (.inl hnotice) hversion.ge ?_ fun i r version hr hanswer => ?_
  · rw [hrequests]
    split_ifs
    · exact (List.sublist_append_left _ _).length_le
    · exact le_rfl
  · rw [hrequests] at hr
    split_ifs at hr
    · exact answers_request false i r version hr hanswer
    · exact .inr ⟨r, hr, hanswer⟩

theorem sound_settle (h : st.Sound) (st' : RunView)
    (hnotice : st'.notice = st.notice ∨ st'.notice = none) (hversion : st'.version = st.version)
    (hrequests : st'.requests = st.requests) {i : ℕ}
    {r : RunRequest} (hi : st.requests[i]? = some r) (failed : Bool) :
    (st'.settle i r failed).Sound := by
  obtain ⟨hversion', hnotice', hrequests'⟩ := settle_fields st' i r failed
  refine sound_of_answers h ?_ (hversion'.trans hversion).ge ?_ fun j r' version hr' hanswer => ?_
  · rwa [hnotice']
  · rw [hrequests', hrequests, List.length_set]
  · rw [hrequests', hrequests] at hr'
    refine answers_set hi (fun version hnew => ?_) j r' version hr' hanswer
    exact .inr hnew

theorem sound_frame (h : st.Sound) (f : WorkflowRunFrame) : (st.applyFrame f).Sound := by
  obtain ⟨hversion, ⟨-, hnotice, hrequests⟩ | ⟨-, hnotice, hrequests⟩⟩ := applyFrame_cases st f
  · intro k v hkv
    obtain ⟨rfl, rfl⟩ := Prod.mk.inj (Option.some.inj (hnotice.symm.trans hkv))
    rw [hrequests, hversion]
    split_ifs
    · refine ⟨le_rfl, le_rfl, fun r hr => ?_⟩
      rw [List.drop_length] at hr
      cases hr
    · refine ⟨(List.sublist_append_left _ _).length_le, le_rfl, fun r hr version hanswer => ?_⟩
      rw [request, List.drop_left] at hr
      rw [List.mem_singleton.mp hr] at hanswer
      cases hanswer
  · exact sound_of_answers h (.inl hnotice) hversion.ge (by rw [hrequests])
      fun i r version hr hanswer => .inr ⟨r, hrequests ▸ hr, hanswer⟩

theorem sound_apply (h : st.Sound) (op : RunViewOp) : (st.apply op).Sound := by
  have hkeep : ∀ (i : ℕ) (r : RunRequest) version, st.requests[i]? = some r →
      r.answer = some version →
        st.version ≤ version ∨ ∃ r', st.requests[i]? = some r' ∧ r'.answer = some version :=
    fun _ r _ hr hanswer => .inr ⟨r, hr, hanswer⟩
  cases op with
  | change => exact sound_of_answers h (.inl rfl) (Nat.le_succ _) le_rfl hkeep
  | frame f => exact sound_frame h f
  | connect => exact sound_connect h
  | opened => exact sound_of_answers h (.inl rfl) le_rfl le_rfl hkeep
  | connectEnded => exact sound_of_answers h (.inl rfl) le_rfl le_rfl hkeep
  | answer i =>
      rw [apply]
      split
      next bySync hi =>
        refine sound_of_answers h (.inl rfl) le_rfl (List.length_set ..).ge
          (answers_set hi fun version hnew => .inl (Option.some.inj hnew).symm)
      · exact h
  | deliver i terminal =>
      rw [apply]
      split
      next bySync version hi =>
        cases terminal with
        | false => exact sound_settle h st (.inl rfl) rfl rfl hi false
        | true =>
            rw [if_pos rfl]
            exact sound_settle h st.stop (.inr rfl) rfl rfl hi false
      · exact h
  | fail i =>
      rw [apply]
      split
      next bySync answer hi => exact sound_settle h st (.inl rfl) rfl rfl hi true
      · exact h
  | start =>
      have hopen : Sound { st with closed := false } := h
      exact sound_connect hopen
  | stop => exact sound_of_answers h (.inr rfl) le_rfl le_rfl hkeep
  | gone => exact sound_of_answers h (.inr rfl) le_rfl le_rfl hkeep

/-! ### Missed notifications -/

theorem missed_congr (hnotice : st'.notice = st.notice)
    (hlength : st'.requests.length = st.requests.length) : st'.Missed ↔ st.Missed := by
  rw [Missed, Missed, hnotice, hlength]

theorem not_missed_of_none (hnotice : st.notice = none) : ¬ st.Missed := by
  rintro ⟨k, v, hkv, -⟩
  rw [hnotice] at hkv
  cases hkv

theorem missed_connect (h : st.Sound) : st.connect.Missed ↔ st.connects = false ∧ st.Missed := by
  obtain ⟨-, hnotice, hrequests⟩ := connect_cases st
  cases hconnects : st.connects with
  | false =>
      rw [hconnects, if_neg Bool.false_ne_true] at hrequests
      exact (missed_congr hnotice (by rw [hrequests])).trans (and_iff_right rfl).symm
  | true =>
      rw [hconnects, if_pos rfl] at hrequests
      refine iff_of_false ?_ fun hand => by cases hand.1
      rintro ⟨k, v, hkv, hle⟩
      rw [hnotice] at hkv
      rw [hrequests, request, List.length_append, List.length_singleton] at hle
      have hk := (h k v hkv).1
      omega

theorem missed_frame (st : RunView) (f : WorkflowRunFrame) : (st.applyFrame f).Missed ↔
    (st.notifies f = true ∧ st.syncing = true) ∨ st.notifies f = false ∧ st.Missed := by
  obtain ⟨-, ⟨hnotifies, hnotice, hrequests⟩ | ⟨hnotifies, hnotice, hrequests⟩⟩ :=
    applyFrame_cases st f
  · rw [hnotifies]
    simp only [true_and, Bool.true_eq_false, false_and, or_false]
    constructor
    · rintro ⟨k, v, hkv, hle⟩
      obtain ⟨rfl, rfl⟩ := Prod.mk.inj (Option.some.inj (hnotice.symm.trans hkv))
      by_contra hsyncing
      rw [hrequests, if_neg hsyncing, request, List.length_append, List.length_singleton] at hle
      omega
    · intro hsyncing
      rw [if_pos hsyncing] at hrequests
      exact ⟨_, _, hnotice, by rw [hrequests]⟩
  · rw [hnotifies]
    simp only [Bool.false_eq_true, false_and, true_and, false_or]
    exact missed_congr hnotice (by rw [hrequests])

/-- **One step.** An operation leaves a notification missed exactly if it is one that finds a
re-sync outstanding, or it is quiet and one was missed before. -/
theorem missed_apply (h : st.Sound) (op : RunViewOp) :
    (st.apply op).Missed ↔ st.Drops op ∨ st.Quiet op ∧ st.Missed := by
  have hquiet : ∀ {p : Prop}, (p ↔ st.Missed) → (p ↔ False ∨ True ∧ st.Missed) := fun hp =>
    hp.trans ((or_iff_right not_false).trans (and_iff_right trivial)).symm
  have hstops : ∀ {p : Prop}, ¬ p → (p ↔ False ∨ False ∧ st.Missed) := fun hp =>
    iff_of_false hp (by simp)
  cases op with
  | change => exact hquiet (missed_congr rfl rfl)
  | frame f => exact missed_frame st f
  | connect => exact (missed_connect h).trans (or_iff_right not_false).symm
  | opened => exact hquiet (missed_congr rfl rfl)
  | connectEnded => exact hquiet (missed_congr rfl rfl)
  | answer i =>
      refine hquiet ?_
      rw [apply]
      split
      · exact missed_congr rfl (List.length_set ..)
      · rfl
  | deliver i terminal =>
      cases terminal with
      | false =>
          refine hquiet ?_
          rw [apply]
          split
          next bySync version hi =>
            obtain ⟨-, hnotice, hrequests⟩ := settle_fields st i ⟨bySync, some version, false⟩ false
            exact missed_congr hnotice ((congrArg List.length hrequests).trans (List.length_set ..))
          · rfl
      | true =>
          refine Iff.trans ?_ (or_iff_right not_false).symm
          rw [apply]
          split
          next bySync version hi =>
            obtain ⟨-, hnotice, -⟩ := settle_fields st.stop i ⟨bySync, some version, false⟩ false
            refine iff_of_false (not_missed_of_none hnotice) fun hand => ?_
            rcases hand.1 _ hi with hnone | hsettled
            · cases hnone
            · cases hsettled
          next hnone =>
            refine (and_iff_right ?_).symm
            rintro ⟨bySync, answer, settled⟩ hi
            cases answer with
            | none => exact .inl rfl
            | some version =>
                cases settled with
                | false => exact absurd hi (hnone bySync version)
                | true => exact .inr rfl
  | fail i =>
      refine hquiet ?_
      rw [apply]
      split
      next bySync answer hi =>
        obtain ⟨-, hnotice, hrequests⟩ := settle_fields st i ⟨bySync, answer, false⟩ true
        exact missed_congr hnotice (by rw [hrequests, List.length_set])
      · rfl
  | start =>
      have hopen : Sound { st with closed := false } := h
      refine (missed_connect hopen).trans (Iff.trans ?_ (or_iff_right not_false).symm)
      refine and_congr ?_ (missed_congr rfl rfl)
      show (!false && !st.connecting) = false ↔ st.connecting = true
      cases st.connecting <;> decide
  | stop => exact hstops (not_missed_of_none rfl)
  | gone => exact hstops (not_missed_of_none rfl)

/-- When a notification is missed: one was accepted while a re-sync was outstanding, and all that
came after it was quiet. -/
theorem missed_iff (ops : List RunViewOp) : (run apply init ops).Missed ↔
    ∃ pre op post, ops = pre ++ op :: post ∧ (run apply init pre).Drops op ∧
      Meets apply Quiet ((run apply init pre).apply op) post :=
  run_last_iff (P := Sound) (fun _ op h => sound_apply h op) (fun _ op h => missed_apply h op)
    sound_init (not_missed_of_none rfl) ops

theorem notified_iff_not_missed (h : st.Sound) : st.Notified ↔ ¬ st.Missed := by
  constructor
  · rintro hnotified ⟨k, v, hkv, hle⟩
    exact absurd (hnotified k v hkv).1 (Nat.not_lt.mpr hle)
  · intro hmissed k v hkv
    exact ⟨Nat.lt_of_not_le fun hle => hmissed ⟨k, v, hkv, hle⟩, (h k v hkv).2.2⟩

/-- **Run notifications.** After the last accepted `run` frame of a view that was not stopped a
request has been started, and what such requests show is at least as new, exactly if each frame that
was accepted while a re-sync was outstanding is followed by another accepted one, a connection that
begins, or a stop. -/
theorem notified_iff (ops : List RunViewOp) :
    (run apply init ops).Notified ↔
      ∀ pre op post, ops = pre ++ op :: post → (run apply init pre).Drops op →
        ¬ Meets apply Quiet ((run apply init pre).apply op) post := by
  have h : (run apply init ops).Sound :=
    run_invariant (P := Sound) (fun _ op h => sound_apply h op) sound_init ops
  rw [notified_iff_not_missed h, missed_iff]
  push Not
  rfl

/-- A view that has connected, and gets two notifications. The second one comes while the request of
the first one is outstanding, which was answered before the second change. -/
def twoNotifications : List RunViewOp :=
  [.start, .answer 0, .deliver 0 false, .opened, .change, .frame ⟨"run", some 1⟩, .answer 1,
    .change, .frame ⟨"run", some 2⟩, .deliver 1 false]

/-- The second notification is missed, and the state that is shown last is older. -/
theorem second_notification_missed :
    ¬ (run apply init twoNotifications).Notified ∧
      (run apply init twoNotifications).version = 2 ∧
      (run apply init twoNotifications).requests =
        [⟨false, some 0, true⟩, ⟨true, some 1, true⟩] := by
  refine ⟨fun h => ?_, rfl, rfl⟩
  exact absurd (h 2 2 rfl).1 (by decide)

end RunView

end LarkPlat
