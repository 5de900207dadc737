import LarkPlat.ConfigRoundTrip
import LarkPlat.Machine
import Mathlib.Algebra.BigOperators.Group.List.Basic
import Mathlib.Algebra.GroupWithZero.Nat
import Mathlib.Data.List.MinMax
import Mathlib.Data.List.Range
import Mathlib.Order.Nat

/-!
# Terminal Recordings

`terminal_service.py` and `terminal_ws.py`: what a terminal shows is recorded in chunks, which are
numbered by their offsets, and counted in `bytes_out` of the session. Each call has a database
session of its own: it loads the row of the terminal, takes the next offset and adds to `bytes_out`
under a lock, and commits after it has released the lock. The offset that is taken is seen by others
only after the commit, and `bytes_out` is written as the number that the call has computed.

## Main results

* `lossless_apply`: a commit leaves the recording complete exactly if no chunk was stored since its
  call loaded the row.
* `recording_lossless_iff`: the same along any interleaving of calls.
-/

namespace LarkPlat

open Machine

/-! ### The calls -/

/-- A row of `terminal_recording_chunk`. -/
structure RecordingChunk where
  offset : ℕ
  dataEnc : String
  deriving DecidableEq

/-- A call of `_handle_input`: it has loaded the row, with `bytesOut` and `stored` chunks in the
table at that time; `record_output` has left a chunk and a new number of bytes to be written; it has
committed; or its commit has raised. -/
inductive RecordingCall
  | loaded (stored bytesOut : ℕ)
  | recorded (stored bytesOut : ℕ) (chunk : RecordingChunk) (output : String)
  | committed (output : String)
  | raised
  deriving DecidableEq

/-- The output that a call has committed. -/
def RecordingCall.output : RecordingCall → Option String
  | .committed output => some output
  | _ => none

/-- The column `bytes_out`, the chunks in the order of their commits, and the calls. -/
structure TerminalRecording where
  bytesOut : ℕ
  chunks : List RecordingChunk
  calls : List RecordingCall
  deriving DecidableEq

/-- A call begins, records its output under the lock, and commits. `nonce` is that of the
encryption. -/
inductive RecordingOp
  | load
  | record (i : ℕ) (output : String) (nonce : ℕ)
  | commit (i : ℕ)

namespace TerminalRecording

/-- `TerminalRecordingRepository.max_offset`. -/
def maxOffset (st : TerminalRecording) : ℕ := (st.chunks.map RecordingChunk.offset).foldr max 0

/-- `record_output`, for a call that has loaded the row. An empty output is not recorded. -/
def recordOutput (vault : Vault) (st : TerminalRecording) (stored bytesOut : ℕ) (output : String)
    (nonce : ℕ) : RecordingCall :=
  if output = "" then .loaded stored bytesOut
  else .recorded stored (bytesOut + output.utf8ByteSize)
    ⟨st.maxOffset + 1, vault.encryptSecret nonce output⟩ output

/-- One step. The offsets of a terminal are unique. -/
def apply (vault : Vault) (st : TerminalRecording) : RecordingOp → TerminalRecording
  | .load => { st with calls := st.calls ++ [.loaded st.chunks.length st.bytesOut] }
  | .record i output nonce =>
      match st.calls[i]? with
      | some (.loaded stored bytesOut) =>
          { st with calls := st.calls.set i (st.recordOutput vault stored bytesOut output nonce) }
      | _ => st
  | .commit i =>
      match st.calls[i]? with
      | some (.recorded _ bytesOut chunk output) =>
          if chunk.offset ∈ st.chunks.map RecordingChunk.offset then
            { st with calls := st.calls.set i .raised }
          else ⟨bytesOut, st.chunks ++ [chunk], st.calls.set i (.committed output)⟩
      | _ => st

/-- A terminal of which nothing was recorded. -/
def start : TerminalRecording := ⟨0, [], []⟩

/-! ### Complete recordings -/

/-- The outputs that were committed, in the order of the calls. -/
def outputs (st : TerminalRecording) : List String := st.calls.filterMap RecordingCall.output

/-- The bytes of the outputs that were committed. -/
def totalBytes (st : TerminalRecording) : ℕ := (st.outputs.map String.utf8ByteSize).sum

/-- No commit has raised, the offsets are those from 1 on, each output that was committed is in one
chunk, and `bytes_out` is the number of their bytes. -/
structure Lossless (vault : Vault) (st : TerminalRecording) : Prop where
  commits : RecordingCall.raised ∉ st.calls
  offsets : st.chunks.map RecordingChunk.offset = List.range' 1 st.chunks.length
  data : (st.chunks.map fun c => vault.decryptSecret c.dataEnc).Perm (st.outputs.map some)
  bytes : st.bytesOut = st.totalBytes

/-- A commit finds no chunk that was stored since its call loaded the row. -/
def CommitsAlone (st : TerminalRecording) : RecordingOp → Prop
  | .commit i => ∀ stored bytesOut chunk output,
      st.calls[i]? = some (.recorded stored bytesOut chunk output) → stored = st.chunks.length
  | _ => True

/-- What a call has loaded: `bytes_out` as it is, if no chunk was stored since, and less than the
bytes of all outputs otherwise. -/
def Loaded (st : TerminalRecording) (stored bytesOut : ℕ) : Prop :=
  stored ≤ st.chunks.length ∧ (stored = st.chunks.length → bytesOut = st.bytesOut) ∧
    (stored < st.chunks.length → bytesOut < st.totalBytes)

/-- What a call has loaded and is about to write. -/
def CallFits (vault : Vault) (st : TerminalRecording) : RecordingCall → Prop
  | .loaded stored bytesOut => st.Loaded stored bytesOut
  | .recorded stored bytesOut chunk output =>
      output ≠ "" ∧ vault.decryptSecret chunk.dataEnc = some output ∧
        stored < chunk.offset ∧ chunk.offset ≤ st.chunks.length + 1 ∧
        ∃ loaded, bytesOut = loaded + output.utf8ByteSize ∧ st.Loaded stored loaded
  | _ => True

/-- What holds of every recording: bytes may be missing in `bytes_out`, and a chunk of a call that
raised, but nothing else. -/
structure Sound (vault : Vault) (st : TerminalRecording) : Prop where
  offsets : st.chunks.map RecordingChunk.offset = List.range' 1 st.chunks.length
  data : (st.chunks.map fun c => vault.decryptSecret c.dataEnc).Perm (st.outputs.map some)
  bytes : st.bytesOut ≤ st.totalBytes
  calls : ∀ call ∈ st.calls, CallFits vault st call

variable {vault : Vault} {st st' : TerminalRecording} {call : RecordingCall} {i stored bytesOut : ℕ}
  {chunk : RecordingChunk} {output : String}

theorem sound_start : start.Sound vault :=
  ⟨rfl, List.Perm.nil, le_rfl, fun _ h => absurd h List.not_mem_nil⟩

theorem size_pos (h : output ≠ "") : 0 < output.utf8ByteSize :=
  Nat.pos_of_ne_zero fun hzero => h (String.utf8ByteSize_eq_zero_iff.mp hzero)

theorem filterMap_set_same {old new : RecordingCall} {calls : List RecordingCall}
    (hi : calls[i]? = some old) (hsame : new.output = old.output) :
    (calls.set i new).filterMap RecordingCall.output = calls.filterMap RecordingCall.output := by
  induction calls generalizing i with
  | nil => rfl
  | cons a calls ih =>
      cases i with
      | zero =>
          obtain rfl := Option.some.inj hi
          rw [List.set_cons_zero, List.filterMap_cons, List.filterMap_cons, hsame]
      | succ i => rw [List.set_cons_succ, List.filterMap_cons, List.filterMap_cons, ih hi]

theorem filterMap_set_committed {old : RecordingCall} {calls : List RecordingCall}
    (hi : calls[i]? = some old) (hnone : old.output = none) :
    ((calls.set i (.committed output)).filterMap RecordingCall.output).Perm
      (output :: calls.filterMap RecordingCall.output) := by
  induction calls generalizing i with
  | nil => cases hi
  | cons a calls ih =>
      cases i with
      | zero =>
          obtain rfl := Option.some.inj hi
          rw [List.set_cons_zero, List.filterMap_cons, List.filterMap_cons, hnone]
          exact List.Perm.refl _
      | succ i =>
          rw [List.set_cons_succ, List.filterMap_cons, List.filterMap_cons]
          cases a.output with
          | none => exact ih hi
          | some x => exact ((ih hi).cons x).trans (List.Perm.swap output x _)

theorem maxOffset_eq (h : st.chunks.map RecordingChunk.offset = List.range' 1 st.chunks.length) :
    st.maxOffset = st.chunks.length := by
  rw [maxOffset, h]
  refine le_antisymm ?_ ?_
  · show (List.range' 1 st.chunks.length).foldr max ⊥ ≤ _
    refine List.max_le_of_forall_le _ _ fun k hk => ?_
    obtain ⟨-, hlt⟩ := List.mem_range'_1.mp hk
    omega
  · rcases Nat.eq_zero_or_pos st.chunks.length with hzero | hpos
    · rw [hzero]
      exact Nat.zero_le _
    · exact List.le_max_of_le' 0 (List.mem_range'_1.mpr ⟨hpos, by omega⟩) le_rfl

theorem CallFits.congr (h : CallFits vault st call) (htotal : st'.totalBytes = st.totalBytes)
    (hchunks : st'.chunks = st.chunks) (hbytes : st'.bytesOut = st.bytesOut) :
    CallFits vault st' call := by
  cases call with
  | loaded stored bytesOut =>
      show st'.Loaded stored bytesOut
      rw [Loaded, hchunks, hbytes, htotal]
      exact h
  | recorded stored bytesOut chunk output =>
      obtain ⟨hne, hdata, hlt, hle, loaded, hsum, hloaded⟩ := h
      refine ⟨hne, hdata, hlt, hchunks ▸ hle, loaded, hsum, ?_⟩
      rw [Loaded, hchunks, hbytes, htotal]
      exact hloaded
  | committed output => trivial
  | raised => trivial

theorem Loaded.stale (h : st.Loaded stored bytesOut) (hbytes : st.bytesOut ≤ st.totalBytes)
    (hlength : st'.chunks.length = st.chunks.length + 1) (htotal : st.totalBytes < st'.totalBytes) :
    st'.Loaded stored bytesOut := by
  obtain ⟨hle, hsame, hless⟩ := h
  refine ⟨by omega, fun heq => by omega, fun _ => ?_⟩
  rcases hle.eq_or_lt with heq | hlt
  · rw [hsame heq]
    omega
  · exact (hless hlt).trans htotal

theorem CallFits.stale (h : CallFits vault st call) (hbytes : st.bytesOut ≤ st.totalBytes)
    (hlength : st'.chunks.length = st.chunks.length + 1) (htotal : st.totalBytes < st'.totalBytes) :
    CallFits vault st' call := by
  cases call with
  | loaded stored bytesOut => exact Loaded.stale h hbytes hlength htotal
  | recorded stored bytesOut chunk output =>
      obtain ⟨hne, hdata, hlt, hle, loaded, hsum, hloaded⟩ := h
      exact ⟨hne, hdata, hlt, by omega, loaded, hsum, hloaded.stale hbytes hlength htotal⟩
  | committed output => trivial
  | raised => trivial

/-! ### One step -/

theorem sound_set (h : st.Sound vault) {old new : RecordingCall} (hi : st.calls[i]? = some old)
    (hsame : new.output = old.output) (hnew : CallFits vault st new) :
    Sound vault { st with calls := st.calls.set i new } := by
  have houtputs : outputs { st with calls := st.calls.set i new } = st.outputs :=
    filterMap_set_same hi hsame
  have htotal : totalBytes { st with calls := st.calls.set i new } = st.totalBytes := by
    rw [totalBytes, houtputs, totalBytes]
  refine ⟨h.offsets, houtputs ▸ h.data, htotal ▸ h.bytes, fun call hcall => ?_⟩
  rcases List.mem_or_eq_of_mem_set hcall with hcall | rfl
  · exact (h.calls call hcall).congr htotal rfl rfl
  · exact hnew.congr htotal rfl rfl

theorem sound_record (h : st.Sound vault)
    (hvault : ∀ n plain, vault.decryptSecret (vault.encryptSecret n plain) = some plain)
    (hi : st.calls[i]? = some (.loaded stored bytesOut)) (output : String) (nonce : ℕ) :
    Sound vault { st with
      calls := st.calls.set i (st.recordOutput vault stored bytesOut output nonce) } := by
  have hloaded : st.Loaded stored bytesOut := h.calls _ (List.mem_of_getElem? hi)
  rw [recordOutput]
  split_ifs with hempty
  · exact sound_set h hi rfl hloaded
  · refine sound_set h hi rfl ⟨hempty, hvault _ _, ?_, ?_, bytesOut, rfl, hloaded⟩
    · rw [maxOffset_eq h.offsets]
      exact Nat.lt_succ_of_le hloaded.1
    · rw [maxOffset_eq h.offsets]

theorem outputs_commit (hi : st.calls[i]? = some (.recorded stored bytesOut chunk output)) :
    (outputs ⟨bytesOut, st.chunks ++ [chunk], st.calls.set i (.committed output)⟩).Perm
        (output :: st.outputs) ∧
      totalBytes ⟨bytesOut, st.chunks ++ [chunk], st.calls.set i (.committed output)⟩ =
        st.totalBytes + output.utf8ByteSize := by
  have hperm : (outputs ⟨bytesOut, st.chunks ++ [chunk], st.calls.set i (.committed output)⟩).Perm
      (output :: st.outputs) := filterMap_set_committed hi rfl
  refine ⟨hperm, ?_⟩
  refine (hperm.map String.utf8ByteSize).sum_eq.trans ?_
  rw [List.map_cons, List.sum_cons, Nat.add_comm]
  rfl

theorem sound_commit (h : st.Sound vault)
    (hi : st.calls[i]? = some (.recorded stored bytesOut chunk output))
    (hoffset : chunk.offset = st.chunks.length + 1) :
    Sound vault ⟨bytesOut, st.chunks ++ [chunk], st.calls.set i (.committed output)⟩ := by
  obtain ⟨hne, hdata, -, -, loaded, hsum, hloaded⟩ := h.calls _ (List.mem_of_getElem? hi)
  obtain ⟨hperm, htotal⟩ := outputs_commit hi
  have hpos := size_pos hne
  have hle : loaded ≤ st.totalBytes := by
    rcases hloaded.1.eq_or_lt with heq | hlt
    · rw [hloaded.2.1 heq]
      exact h.bytes
    · exact (hloaded.2.2 hlt).le
  refine ⟨?_, ?_, ?_, fun call hcall => ?_⟩
  · rw [List.map_append, h.offsets, List.map_singleton, hoffset, List.length_append,
      List.length_singleton, List.range'_1_concat, Nat.add_comm 1]
  · rw [List.map_append, List.map_singleton, hdata]
    refine (List.perm_append_singleton _ _).trans ?_
    exact (h.data.cons _).trans (hperm.map some).symm
  · rw [htotal]
    dsimp only
    omega
  · rcases List.mem_or_eq_of_mem_set hcall with hcall | rfl
    · refine (h.calls call hcall).stale h.bytes ?_ ?_
      · rw [List.length_append, List.length_singleton]
      · rw [htotal]
        omega
    · trivial

theorem offset_mem_iff (h : st.Sound vault)
    (hi : st.calls[i]? = some (.recorded stored bytesOut chunk output)) :
    chunk.offset ∈ st.chunks.map RecordingChunk.offset ↔ chunk.offset ≠ st.chunks.length + 1 := by
  obtain ⟨-, -, hlt, hle, -⟩ := h.calls _ (List.mem_of_getElem? hi)
  rw [h.offsets, List.mem_range'_1]
  omega

theorem sound_apply (h : st.Sound vault)
    (hvault : ∀ n plain, vault.decryptSecret (vault.encryptSecret n plain) = some plain)
    (op : RecordingOp) : (st.apply vault op).Sound vault := by
  cases op with
  | load =>
      have houtputs : (st.apply vault .load).outputs = st.outputs := by
        rw [outputs, apply, List.filterMap_append]
        exact List.append_nil _
      have htotal : (st.apply vault .load).totalBytes = st.totalBytes := by
        rw [totalBytes, houtputs, totalBytes]
      refine ⟨h.offsets, houtputs ▸ h.data, htotal ▸ h.bytes, fun call hcall => ?_⟩
      rcases List.mem_append.mp hcall with hcall | hcall
      · exact (h.calls call hcall).congr htotal rfl rfl
      · rw [List.mem_singleton.mp hcall]
        exact ⟨le_rfl, fun _ => rfl, fun hlt => absurd hlt (Nat.lt_irrefl _)⟩
  | record i output nonce =>
      rw [apply]
      split
      next stored bytesOut hi => exact sound_record h hvault hi output nonce
      · exact h
  | commit i =>
      rw [apply]
      split
      next stored bytesOut chunk output hi =>
        split_ifs with hmem
        · exact sound_set h hi rfl trivial
        · exact sound_commit h hi (not_not.mp ((offset_mem_iff h hi).not.mp hmem))
      · exact h

theorem raised_mem_set {old new : RecordingCall} (hi : st.calls[i]? = some old)
    (hold : old ≠ .raised) (hnew : new ≠ .raised) :
    RecordingCall.raised ∈ st.calls.set i new ↔ RecordingCall.raised ∈ st.calls := by
  constructor
  · intro hmem
    exact (List.mem_or_eq_of_mem_set hmem).resolve_right hnew.symm
  · intro hmem
    obtain ⟨j, hj⟩ := List.mem_iff_getElem?.mp hmem
    have hne : i ≠ j := by
      rintro rfl
      exact hold (Option.some.inj (hi.symm.trans hj))
    exact List.mem_of_getElem? ((List.getElem?_set_ne hne).trans hj)

/-- **Commits.** A commit leaves the recording lossless exactly if it was so before and no chunk was
stored since its call loaded the row: an offset that another call has taken makes it raise, and what
another call has counted is overwritten. -/
theorem lossless_commit (h : st.Sound vault)
    (hi : st.calls[i]? = some (.recorded stored bytesOut chunk output)) :
    (st.apply vault (.commit i)).Lossless vault ↔
      st.Lossless vault ∧ stored = st.chunks.length := by
  obtain ⟨hne, -, hlt, hle, loaded, hsum, hloaded⟩ := h.calls _ (List.mem_of_getElem? hi)
  have hlen : i < st.calls.length := (List.getElem?_eq_some_iff.mp hi).1
  rw [apply, hi]
  dsimp only
  by_cases hoffset : chunk.offset = st.chunks.length + 1
  · rw [if_neg ((offset_mem_iff h hi).not.mpr (not_not.mpr hoffset))]
    have hsound := sound_commit h hi hoffset
    obtain ⟨-, htotal⟩ := outputs_commit hi
    have hraised : RecordingCall.raised ∈ st.calls.set i (.committed output) ↔
        RecordingCall.raised ∈ st.calls := raised_mem_set hi (by simp) (by simp)
    constructor
    · intro hlossless
      have hbytes : bytesOut = st.totalBytes + output.utf8ByteSize := hlossless.bytes.trans htotal
      have hstored : stored = st.chunks.length := by
        refine hloaded.1.eq_or_lt.resolve_right fun hless => ?_
        have := hloaded.2.2 hless
        omega
      refine ⟨⟨fun hmem => hlossless.commits (hraised.mpr hmem), h.offsets, h.data, ?_⟩, hstored⟩
      rw [← hloaded.2.1 hstored]
      omega
    · rintro ⟨hlossless, hstored⟩
      refine ⟨fun hmem => hlossless.commits (hraised.mp hmem), hsound.offsets, hsound.data, ?_⟩
      rw [htotal, ← hlossless.bytes, ← hloaded.2.1 hstored]
      exact hsum
  · rw [if_pos ((offset_mem_iff h hi).mpr hoffset)]
    refine iff_of_false (fun hlossless => ?_) fun hand => ?_
    · exact hlossless.commits (List.mem_of_getElem? (List.getElem?_set_self hlen))
    · omega

theorem lossless_congr (h : st.Sound vault) (h' : st'.Sound vault)
    (hraised : RecordingCall.raised ∈ st'.calls ↔ RecordingCall.raised ∈ st.calls)
    (hbytes : st'.bytesOut = st.bytesOut) (htotal : st'.totalBytes = st.totalBytes) :
    st'.Lossless vault ↔ st.Lossless vault := by
  constructor
  · intro hlossless
    exact ⟨hraised.not.mp hlossless.commits, h.offsets, h.data,
      hbytes.symm.trans (hlossless.bytes.trans htotal)⟩
  · intro hlossless
    exact ⟨hraised.not.mpr hlossless.commits, h'.offsets, h'.data,
      hbytes.trans (hlossless.bytes.trans htotal.symm)⟩

theorem recordOutput_cases (vault : Vault) (st : TerminalRecording) (stored bytesOut : ℕ)
    (output : String) (nonce : ℕ) :
    st.recordOutput vault stored bytesOut output nonce ≠ .raised ∧
      (st.recordOutput vault stored bytesOut output nonce).output = none := by
  rw [recordOutput]
  split_ifs
  · exact ⟨fun h => (by cases h), rfl⟩
  · exact ⟨fun h => (by cases h), rfl⟩

/-- **One step.** An operation leaves the recording lossless exactly if it was so before, and a
commit finds no chunk that was stored since its call loaded the row. -/
theorem lossless_apply (h : st.Sound vault)
    (hvault : ∀ n plain, vault.decryptSecret (vault.encryptSecret n plain) = some plain)
    (op : RecordingOp) :
    (st.apply vault op).Lossless vault ↔ st.Lossless vault ∧ st.CommitsAlone op := by
  have hsound := sound_apply h hvault op
  cases op with
  | load =>
      refine Iff.trans ?_ (and_iff_left trivial).symm
      have houtputs : (st.apply vault .load).outputs = st.outputs := by
        rw [outputs, apply, List.filterMap_append]
        exact List.append_nil _
      refine lossless_congr h hsound ?_ rfl (by rw [totalBytes, houtputs, totalBytes])
      rw [apply, List.mem_append, List.mem_singleton]
      exact or_iff_left fun h => by cases h
  | record i output nonce =>
      refine Iff.trans ?_ (and_iff_left trivial).symm
      cases hi : st.calls[i]? with
      | none => simp only [apply, hi]
      | some call =>
          cases call with
          | loaded stored bytesOut =>
              obtain ⟨hne, hnone⟩ := recordOutput_cases vault st stored bytesOut output nonce
              simp only [apply, hi] at hsound ⊢
              refine lossless_congr h hsound (raised_mem_set hi (by simp) hne) rfl ?_
              rw [totalBytes, outputs, filterMap_set_same hi hnone]
              rfl
          | recorded stored bytesOut chunk output => simp only [apply, hi]
          | committed output => simp only [apply, hi]
          | raised => simp only [apply, hi]
  | commit i =>
      cases hi : st.calls[i]? with
      | none => simp [apply, CommitsAlone, hi]
      | some call =>
          cases call with
          | recorded stored bytesOut chunk output =>
              refine (lossless_commit h hi).trans (and_congr_right fun _ => ?_)
              refine ⟨fun heq stored' bytesOut' chunk' output' hi' => ?_, fun halone =>
                halone _ _ _ _ hi⟩
              cases hi.symm.trans hi'
              exact heq
          | loaded stored bytesOut => simp [apply, CommitsAlone, hi]
          | committed output => simp [apply, CommitsAlone, hi]
          | raised => simp [apply, CommitsAlone, hi]

/-- **Lossless recordings.** Along any interleaving of calls on a terminal, all commits succeed, the
offsets are those from 1 on, each committed output is in one chunk and `bytes_out` counts their
bytes, exactly if each commit finds no chunk that was stored since its call loaded the row. -/
theorem recording_lossless_iff (vault : Vault)
    (hvault : ∀ n plain, vault.decryptSecret (vault.encryptSecret n plain) = some plain)
    (ops : List RecordingOp) :
    (run (apply vault) start ops).Lossless vault ↔
      Meets (apply vault) CommitsAlone start ops := by
  refine (run_iff_meets (P := Sound vault) (fun _ op h => sound_apply h hvault op)
    (fun _ op h => lossless_apply h hvault op) sound_start ops).trans (and_iff_right ?_)
  exact ⟨List.not_mem_nil, rfl, List.Perm.nil, rfl⟩

/-- Two calls that take the same offset, since the first one commits after it has released the lock.
Two calls of which the second one loads the row before the first one commits, and takes its offset
after it. -/
def overlapping (first second : String) : List RecordingOp :=
  [.load, .load, .record 0 first 0, .record 1 second 1, .commit 0, .commit 1]

@[inherit_doc overlapping]
def staleRow (first second : String) : List RecordingOp :=
  [.load, .load, .record 0 first 0, .commit 0, .record 1 second 1, .commit 1]

/-- The output of the second call is lost, or its bytes are all that is counted. -/
theorem output_lost :
    ¬ (run (apply clearVault) start (overlapping "ls\n" "pwd\n")).Lossless clearVault ∧
      ¬ (run (apply clearVault) start (staleRow "ls\n" "pwd\n")).Lossless clearVault := by
  constructor
  · intro hlossless
    exact hlossless.commits (by decide)
  · intro hlossless
    exact absurd hlossless.bytes (by decide)

/-- Two calls of which the second one loads the row after the first one has committed. -/
theorem outputs_kept : (run (apply clearVault) start
    [.load, .record 0 "ls\n" 0, .commit 0, .load, .record 1 "pwd\n" 1, .commit 1]).Lossless
      clearVault := by
  refine (recording_lossless_iff clearVault clearVault_inverts _).mpr
    ⟨trivial, trivial, fun _ _ _ _ h => ?_, trivial, trivial, fun _ _ _ _ h => ?_, trivial⟩
  · cases h
    rfl
  · cases h
    rfl

end TerminalRecording

end LarkPlat
