import LarkPlat.Machine

/-!
# Refresh Tokens

`auth_service.py` and `redis_helper.py`: for each user, Redis holds the number of the refresh token
that is valid. A login and a refresh store a new number and a logout deletes it, each with one
command. A refresh reads the number with one command and stores the next one with another, and looks
the user up in between, so that other calls come between the two.

The calls of one user are interleaved command by command. The writes are numbered, and a token has
the number of the write that stored it. A refresh accepts its token when it stores the next one,
provided that it returns the pair.

## Main results

* `accepted_once_iff`: each token is accepted once, and not after a later call has returned, exactly
  if each refresh that accepts its token comes before any such call since its own read.
-/

namespace LarkPlat

open Machine

/-- How far a call has come: a refresh has read that its token is valid, the call has made its
write, or it has returned after it. -/
inductive TokenPhase
  | validated
  | wrote (at_ : ℕ)
  | returned (at_ : ℕ)
  deriving DecidableEq

/-- The number of the write, of a call that has made it. -/
def TokenPhase.writtenAt : TokenPhase → Option ℕ
  | .validated => none
  | .wrote n => some n
  | .returned n => some n

/-- A call. `token` is what is presented to a refresh, `readAt` is the number of writes before its
read, and `accepted` says that it returns a pair. `overtaken` notes that, when it accepted its
token, a call had returned that wrote after the token was stored. -/
structure TokenCall where
  token : Option ℕ
  readAt : ℕ
  phase : TokenPhase
  accepted : Bool
  overtaken : Bool
  deriving DecidableEq

/-- The key `rt:` of the user, the number of writes to it, and the calls. -/
structure TokenStore where
  key : Option ℕ
  writes : ℕ
  calls : List TokenCall
  deriving DecidableEq

/-- A command, or the return of a call. A refresh presents a token and, later, rotates it; it raises
after that if reading the roles of the user raises. The key may expire. -/
inductive TokenOp
  | validate (token : ℕ)
  | rotate (i : ℕ) (returns : Bool)
  | login
  | logout
  | finish (i : ℕ)
  | expire

/-- The call of a refresh that stores the next token, with the number `n` of the write. -/
def TokenCall.rotated (n : ℕ) (returns late : Bool) (c : TokenCall) : TokenCall :=
  { c with phase := .wrote n, accepted := returns, overtaken := returns && late }

/-- A call returns, unless it has to raise. -/
def TokenCall.finished (c : TokenCall) : TokenCall :=
  match c.phase with
  | .wrote n => if c.token.isSome ∧ c.accepted = false then c else { c with phase := .returned n }
  | _ => c

namespace TokenStore

/-- `validate_refresh`. -/
def validateRefresh (st : TokenStore) (token : ℕ) : Bool := decide (st.key = some token)

/-- `store_refresh` of a new token, whose number is that of the write. -/
def storeRefresh (st : TokenStore) : TokenStore :=
  { st with key := some st.writes, writes := st.writes + 1 }

/-- `revoke_refresh`. -/
def revokeRefresh (st : TokenStore) : TokenStore :=
  { st with key := none, writes := st.writes + 1 }

/-- A call has returned that wrote after the token was stored. -/
def returnedAfter (st : TokenStore) (token : ℕ) : Bool :=
  st.calls.any fun c =>
    match c.phase with
    | .returned n => decide (token < n)
    | _ => false

/-- One step. A refresh whose token is not valid raises, and so does one that goes no further. -/
def apply (st : TokenStore) : TokenOp → TokenStore
  | .validate token =>
      if st.validateRefresh token then
        { st with calls := st.calls ++ [⟨some token, st.writes, .validated, false, false⟩] }
      else st
  | .rotate i returns =>
      match st.calls[i]? with
      | some ⟨some token, _, .validated, _, _⟩ =>
          { st.storeRefresh with
            calls := st.calls.modify i (.rotated st.writes returns (st.returnedAfter token)) }
      | _ => st
  | .login =>
      { st.storeRefresh with
        calls := st.calls ++ [⟨none, st.writes, .wrote st.writes, false, false⟩] }
  | .logout =>
      { st.revokeRefresh with
        calls := st.calls ++ [⟨none, st.writes, .wrote st.writes, false, false⟩] }
  | .finish i => { st with calls := st.calls.modify i TokenCall.finished }
  | .expire => { st with key := none }

/-- No call was made. -/
def start : TokenStore := ⟨none, 0, []⟩

/-! ### The property and its condition -/

/-- Each token was accepted by one call at most, and not after a later call had returned. -/
def AcceptedOnce (st : TokenStore) : Prop :=
  (∀ (i k : ℕ) (c d : TokenCall), st.calls[i]? = some c → st.calls[k]? = some d →
      c.accepted = true → d.accepted = true → c.token = d.token → i = k) ∧
    ∀ c ∈ st.calls, c.accepted = true → c.overtaken = false

/-- Since the call read the key, no refresh has accepted the same token, and no call that has made
its write has returned. -/
def InTime (st : TokenStore) (c : TokenCall) : Prop :=
  ∀ d ∈ st.calls, ∀ n, d.phase.writtenAt = some n → c.readAt ≤ n →
    ¬ (d.accepted = true ∧ d.token = c.token) ∧ d.phase ≠ .returned n

/-- A refresh that is about to accept its token is in time. -/
def RotatesInTime (st : TokenStore) : TokenOp → Prop
  | .rotate i true => ∀ c, st.calls[i]? = some c → c.phase = .validated → st.InTime c
  | _ => True

/-! ### What the calls have read and written -/

/-- What a call has read and written fits its token, when `writes` commands have written. -/
structure CallSound (writes : ℕ) (c : TokenCall) : Prop where
  read : ∀ token, c.token = some token → c.readAt = token + 1
  past : c.readAt ≤ writes
  fresh : c.phase = .validated → c.accepted = false ∧ ∃ token, c.token = some token
  accepted : c.accepted = true → ∃ token n, c.token = some token ∧ c.phase.writtenAt = some n ∧
    c.readAt ≤ n

/-- The key holds the token of the last write, and the calls fit their tokens. -/
def Sound (st : TokenStore) : Prop :=
  (∀ token, st.key = some token → st.writes = token + 1) ∧ ∀ c ∈ st.calls, CallSound st.writes c

variable {st : TokenStore} {c d : TokenCall} {i k token n m : ℕ} {returns late : Bool}

theorem CallSound.mono (h : CallSound n c) (hle : n ≤ m) : CallSound m c :=
  ⟨h.read, h.past.trans hle, h.fresh, h.accepted⟩

theorem CallSound.finished (h : CallSound n c) : CallSound n c.finished := by
  rw [TokenCall.finished]
  split
  next at_ hphase =>
    split_ifs
    · exact h
    · refine ⟨h.read, h.past, fun hphase => (by cases hphase), fun haccepted => ?_⟩
      obtain ⟨token, m, htoken, hwritten, hle⟩ := h.accepted haccepted
      rw [hphase] at hwritten
      exact ⟨token, m, htoken, hwritten, hle⟩
  · exact h

theorem CallSound.rotated (h : CallSound n c) (htoken : c.token = some token) :
    CallSound (n + 1) (c.rotated n returns late) :=
  ⟨h.read, h.past.trans (Nat.le_succ n), fun hphase => (by cases hphase),
    fun _ => ⟨token, n, htoken, rfl, h.past⟩⟩

theorem callSound_wrote (n : ℕ) : CallSound (n + 1) ⟨none, n, .wrote n, false, false⟩ :=
  ⟨fun _ h => (by cases h), Nat.le_succ n, fun h => (by cases h), fun h => (by cases h)⟩

theorem mem_modify_cases {f : TokenCall → TokenCall} (h : d ∈ st.calls.modify i f) :
    d ∈ st.calls ∨ ∃ c, st.calls[i]? = some c ∧ d = f c := by
  obtain ⟨k, hk⟩ := List.mem_iff_getElem?.mp h
  rw [List.getElem?_modify] at hk
  obtain ⟨c, hc, rfl⟩ := Option.map_eq_some_iff.mp hk
  split_ifs with hik
  · exact .inr ⟨c, hik ▸ hc, rfl⟩
  · exact .inl (List.mem_of_getElem? hc)

theorem sound_start : start.Sound :=
  ⟨fun _ h => (by cases h), fun _ h => absurd h List.not_mem_nil⟩

theorem sound_apply (h : st.Sound) (op : TokenOp) : (st.apply op).Sound := by
  obtain ⟨hkey, hcalls⟩ := h
  cases op with
  | validate token =>
      rw [apply]
      split_ifs with hvalid
      · refine ⟨hkey, fun c hc => ?_⟩
        rcases List.mem_append.mp hc with hc | hc
        · exact hcalls c hc
        · rw [List.mem_singleton.mp hc]
          refine ⟨fun t ht => ?_, le_rfl, fun _ => ⟨rfl, token, rfl⟩, fun h => (by cases h)⟩
          obtain rfl := Option.some.inj ht
          exact hkey token (of_decide_eq_true hvalid)
      · exact ⟨hkey, hcalls⟩
  | rotate i returns =>
      rw [apply]
      split
      next token readAt accepted overtaken hi =>
        refine ⟨fun t ht => ?_, fun d hd => ?_⟩
        · rw [← Option.some.inj ht]
          rfl
        · rcases mem_modify_cases hd with hd | ⟨c, hc, rfl⟩
          · exact (hcalls d hd).mono (Nat.le_succ _)
          · obtain rfl := Option.some.inj (hi.symm.trans hc)
            exact (hcalls _ (List.mem_of_getElem? hi)).rotated rfl
      · exact ⟨hkey, hcalls⟩
  | login =>
      refine ⟨fun t ht => ?_, fun c hc => ?_⟩
      · rw [← Option.some.inj ht]
        rfl
      · rcases List.mem_append.mp hc with hc | hc
        · exact (hcalls c hc).mono (Nat.le_succ _)
        · rw [List.mem_singleton.mp hc]
          exact callSound_wrote _
  | logout =>
      refine ⟨fun t ht => (by cases ht), fun c hc => ?_⟩
      rcases List.mem_append.mp hc with hc | hc
      · exact (hcalls c hc).mono (Nat.le_succ _)
      · rw [List.mem_singleton.mp hc]
        exact callSound_wrote _
  | finish i =>
      refine ⟨hkey, fun d hd => ?_⟩
      rcases mem_modify_cases hd with hd | ⟨c, hc, rfl⟩
      · exact hcalls d hd
      · exact (hcalls c (List.mem_of_getElem? hc)).finished
  | expire => exact ⟨fun t ht => (by cases ht), hcalls⟩

/-! ### What an operation leaves of the property -/

theorem acceptedOnce_append (key : Option ℕ) (writes : ℕ) (hc : c.accepted = false) :
    AcceptedOnce ⟨key, writes, st.calls ++ [c]⟩ ↔ st.AcceptedOnce := by
  have hget : ∀ (i : ℕ) d, d.accepted = true →
      ((st.calls ++ [c])[i]? = some d ↔ st.calls[i]? = some d) := by
    intro i d hd
    rw [List.getElem?_append]
    split_ifs with hlt
    · rfl
    · refine iff_of_false (fun h => ?_) (fun h => ?_)
      · obtain rfl := List.mem_singleton.mp (List.mem_of_getElem? h)
        rw [hc] at hd
        cases hd
      · exact hlt (List.getElem?_eq_some_iff.mp h).1
  constructor
  · rintro ⟨honce, hlate⟩
    exact ⟨fun i k a b ha hb haa hbb => honce i k a b ((hget i a haa).mpr ha)
      ((hget k b hbb).mpr hb) haa hbb, fun a ha => hlate a (List.mem_append_left _ ha)⟩
  · rintro ⟨honce, hlate⟩
    refine ⟨fun i k a b ha hb haa hbb => honce i k a b ((hget i a haa).mp ha)
      ((hget k b hbb).mp hb) haa hbb, fun a ha haa => ?_⟩
    obtain ⟨i, hi⟩ := List.mem_iff_getElem?.mp ha
    exact hlate a (List.mem_of_getElem? ((hget i a haa).mp hi)) haa

theorem getElem?_modify_iff {f : TokenCall → TokenCall} (hi : st.calls[i]? = some c) :
    (st.calls.modify i f)[k]? = some d ↔ k = i ∧ d = f c ∨ k ≠ i ∧ st.calls[k]? = some d := by
  rw [List.getElem?_modify]
  by_cases hk : i = k
  · subst hk
    simp [hi, eq_comm]
  · simp [hk, Ne.symm hk]

/-- A call that had accepted nothing changes: what it accepts now must be new, and in time. -/
theorem acceptedOnce_modify (key : Option ℕ) (writes : ℕ) {f : TokenCall → TokenCall}
    (hi : st.calls[i]? = some c) (hc : c.accepted = false) :
    AcceptedOnce ⟨key, writes, st.calls.modify i f⟩ ↔ st.AcceptedOnce ∧
      ((f c).accepted = true →
        (∀ d ∈ st.calls, d.accepted = true → d.token ≠ (f c).token) ∧ (f c).overtaken = false) := by
  have hne : ∀ {k : ℕ} {d}, st.calls[k]? = some d → d.accepted = true → k ≠ i := by
    rintro k d hd hacc rfl
    rw [Option.some.inj (hi.symm.trans hd), hacc] at hc
    cases hc
  have hself : (st.calls.modify i f)[i]? = some (f c) :=
    (getElem?_modify_iff hi).mpr (.inl ⟨rfl, rfl⟩)
  have hother : ∀ {k : ℕ} {d}, st.calls[k]? = some d → d.accepted = true →
      (st.calls.modify i f)[k]? = some d := fun hd hacc =>
    (getElem?_modify_iff hi).mpr (.inr ⟨hne hd hacc, hd⟩)
  constructor
  · rintro ⟨honce, hlate⟩
    refine ⟨⟨fun i k a b ha hb haa hbb => honce i k a b (hother ha haa) (hother hb hbb) haa hbb,
      fun d hd hacc => ?_⟩, fun hf => ⟨fun d hd hacc heq => ?_, ?_⟩⟩
    · obtain ⟨k, hk⟩ := List.mem_iff_getElem?.mp hd
      exact hlate d (List.mem_of_getElem? (hother hk hacc)) hacc
    · obtain ⟨k, hk⟩ := List.mem_iff_getElem?.mp hd
      exact hne hk hacc (honce k i d (f c) (hother hk hacc) hself hacc hf heq)
    · exact hlate _ (List.mem_of_getElem? hself) hf
  · rintro ⟨⟨honce, hlate⟩, hnew⟩
    refine ⟨fun j k a b ha hb haa hbb heq => ?_, fun d hd hacc => ?_⟩
    · rcases (getElem?_modify_iff hi).mp ha with ⟨rfl, rfl⟩ | ⟨-, ha'⟩
      · rcases (getElem?_modify_iff hi).mp hb with ⟨rfl, -⟩ | ⟨-, hb'⟩
        · rfl
        · exact absurd heq.symm ((hnew haa).1 b (List.mem_of_getElem? hb') hbb)
      · rcases (getElem?_modify_iff hi).mp hb with ⟨rfl, rfl⟩ | ⟨-, hb'⟩
        · exact absurd heq ((hnew hbb).1 a (List.mem_of_getElem? ha') haa)
        · exact honce j k a b ha' hb' haa hbb heq
    · rcases mem_modify_cases hd with hd | ⟨c', hc', rfl⟩
      · exact hlate d hd hacc
      · obtain rfl := Option.some.inj (hi.symm.trans hc')
        exact (hnew hacc).2

theorem acceptedOnce_finish : (st.apply (.finish i)).AcceptedOnce ↔ st.AcceptedOnce := by
  have hfinished : ∀ c : TokenCall, c.finished.token = c.token ∧
      c.finished.accepted = c.accepted ∧ c.finished.overtaken = c.overtaken := by
    intro c
    rw [TokenCall.finished]
    split
    · split_ifs <;> exact ⟨rfl, rfl, rfl⟩
    · exact ⟨rfl, rfl, rfl⟩
  have hfields : ∀ (k : ℕ) (c : TokenCall), (if i = k then c.finished else c).token = c.token ∧
      (if i = k then c.finished else c).accepted = c.accepted ∧
        (if i = k then c.finished else c).overtaken = c.overtaken := by
    intro k c
    split_ifs
    · exact hfinished c
    · exact ⟨rfl, rfl, rfl⟩
  have hget : ∀ (k : ℕ) (d : TokenCall), (st.calls.modify i TokenCall.finished)[k]? = some d ↔
      ∃ c, st.calls[k]? = some c ∧ (if i = k then c.finished else c) = d := fun k d => by
    rw [List.getElem?_modify]
    exact Option.map_eq_some_iff
  constructor
  · rintro ⟨honce, hlate⟩
    refine ⟨fun j k a b ha hb haa hbb heq => ?_, fun c hc hacc => ?_⟩
    · refine honce j k _ _ ((hget j _).mpr ⟨a, ha, rfl⟩) ((hget k _).mpr ⟨b, hb, rfl⟩) ?_ ?_ ?_
      · exact (hfields j a).2.1.trans haa
      · exact (hfields k b).2.1.trans hbb
      · exact (hfields j a).1.trans (heq.trans (hfields k b).1.symm)
    · obtain ⟨k, hk⟩ := List.mem_iff_getElem?.mp hc
      refine (hfields k c).2.2.symm.trans (hlate _ (List.mem_of_getElem? ((hget k _).mpr
        ⟨c, hk, rfl⟩)) ((hfields k c).2.1.trans hacc))
  · rintro ⟨honce, hlate⟩
    refine ⟨fun j k a b ha hb haa hbb heq => ?_, fun d hd hacc => ?_⟩
    · obtain ⟨a', ha', rfl⟩ := (hget j a).mp ha
      obtain ⟨b', hb', rfl⟩ := (hget k b).mp hb
      refine honce j k a' b' ha' hb' ((hfields j a').2.1.symm.trans haa)
        ((hfields k b').2.1.symm.trans hbb) ?_
      exact (hfields j a').1.symm.trans (heq.trans (hfields k b').1)
    · obtain ⟨k, hk⟩ := List.mem_iff_getElem?.mp hd
      obtain ⟨c, hc, rfl⟩ := (hget k d).mp hk
      exact (hfields k c).2.2.trans (hlate c (List.mem_of_getElem? hc)
        ((hfields k c).2.1.symm.trans hacc))

/-- **In time.** A refresh that has read its token accepts it once, and not after a later call has
returned, exactly if nothing of the kind has come since its read. -/
theorem inTime_iff (h : st.Sound) (hc : c ∈ st.calls) (htoken : c.token = some token) :
    st.InTime c ↔ (∀ d ∈ st.calls, d.accepted = true → d.token ≠ some token) ∧
      st.returnedAfter token = false := by
  have hread := (h.2 c hc).read token htoken
  constructor
  · intro htime
    refine ⟨fun d hd hacc heq => ?_, ?_⟩
    · obtain ⟨t, n, ht, hwritten, hle⟩ := (h.2 d hd).accepted hacc
      have hdread := (h.2 d hd).read token heq
      refine (htime d hd n hwritten ?_).1 ⟨hacc, heq.trans htoken.symm⟩
      rw [hread, ← hdread]
      exact hle
    · rw [returnedAfter, List.any_eq_false]
      intro d hd hafter
      cases hphase : d.phase with
      | validated => simp [hphase] at hafter
      | wrote n => simp [hphase] at hafter
      | returned n =>
          simp only [hphase, decide_eq_true_eq] at hafter
          exact (htime d hd n (by rw [hphase]; rfl) (hread.trans_le hafter)).2 hphase
  · rintro ⟨honce, hlate⟩ d hd n hwritten hle
    refine ⟨fun hsame => honce d hd hsame.1 (hsame.2.trans htoken), fun hphase => ?_⟩
    rw [returnedAfter, List.any_eq_false] at hlate
    have hnot := hlate d hd
    rw [hphase] at hnot
    exact hnot (decide_eq_true (hread.symm.trans_le hle))

/-- **One step.** An operation leaves the property standing exactly if a refresh that accepts its
token by it is in time. -/
theorem acceptedOnce_apply (h : st.Sound) (op : TokenOp) :
    (st.apply op).AcceptedOnce ↔ st.AcceptedOnce ∧ st.RotatesInTime op := by
  cases op with
  | validate token =>
      refine Iff.trans ?_ (and_iff_left trivial).symm
      rw [apply]
      split_ifs
      · exact acceptedOnce_append _ _ rfl
      · rfl
  | rotate i returns =>
      rw [apply]
      split
      next token readAt accepted overtaken hi =>
        have hmem := List.mem_of_getElem? hi
        have hfresh : accepted = false := ((h.2 _ hmem).fresh rfl).1
        refine (acceptedOnce_modify _ _ hi hfresh).trans (and_congr_right fun _ => ?_)
        cases returns with
        | false => exact iff_of_true (fun hf => by cases hf) trivial
        | true =>
            refine ⟨fun hnew c hc _ => ?_, fun htime _ => ?_⟩
            · obtain rfl := Option.some.inj (hi.symm.trans hc)
              exact (inTime_iff h hmem rfl).mpr (hnew rfl)
            · exact (inTime_iff h hmem rfl).mp (htime _ hi rfl)
      next hnone =>
        refine (and_iff_left ?_).symm
        cases returns with
        | false => trivial
        | true =>
            rintro ⟨_, readAt, _, accepted, overtaken⟩ hc rfl
            obtain ⟨-, token, rfl⟩ := (h.2 _ (List.mem_of_getElem? hc)).fresh rfl
            exact absurd hc (hnone token readAt accepted overtaken)
  | login => exact (acceptedOnce_append _ _ rfl).trans (and_iff_left trivial).symm
  | logout => exact (acceptedOnce_append _ _ rfl).trans (and_iff_left trivial).symm
  | finish i => exact acceptedOnce_finish.trans (and_iff_left trivial).symm
  | expire => exact Iff.rfl.trans (and_iff_left trivial).symm

/-- **A refresh token is accepted once**, and not after a logout or a later login or refresh has
returned, exactly if each refresh that returns a pair stores the next token before any other call
that wrote since it read the key has returned or has accepted the same token. -/
theorem accepted_once_iff (ops : List TokenOp) :
    (run apply start ops).AcceptedOnce ↔ Meets apply RotatesInTime start ops := by
  refine (run_iff_meets (P := Sound) (fun _ op h => sound_apply h op)
    (fun _ op h => acceptedOnce_apply h op) sound_start ops).trans (and_iff_right ?_)
  refine ⟨fun i k c d hc => ?_, fun c hc => absurd hc List.not_mem_nil⟩
  cases hc

/-- Two clients present the same token and are both validated before either stores the next one. A
client is validated before a logout, and stores the next token after the logout has returned. -/
theorem token_accepted_twice :
    ¬ (run apply start [.login, .finish 0, .validate 0, .validate 0, .rotate 1 true,
        .rotate 2 true]).AcceptedOnce ∧
      ¬ (run apply start [.login, .finish 0, .validate 0, .logout, .finish 2,
        .rotate 1 true]).AcceptedOnce := by
  constructor
  · rintro ⟨honce, -⟩
    cases honce 1 2 _ _ rfl rfl rfl rfl rfl
  · rintro ⟨-, hlate⟩
    cases hlate _ (List.mem_cons_of_mem _ List.mem_cons_self) rfl

end TokenStore

end LarkPlat
