import LarkPlat.Accounts
import LarkPlat.ExpiringKeys
import LarkPlat.Machine

/-!
# Access Tokens

`security.py`, `auth_service.py` and `deps.py`: a login signs an access token and a refresh token,
and each request of the API presents an access token. A token has its times in seconds, and it is
valid through the second in which it expires. A logout puts the number of the token on a list in
Redis, which keeps it in milliseconds, and forgets the refresh token of the user. The sockets take
tokens of their own, which the API hands out and which are signed with the same key.

## Conventions

* A token stands for its claims, and it verifies if the platform has signed them.
* Redis is available. The clock counts milliseconds.
* The calls that hand out tokens of sockets check beforehand that the caller may see the row.

## Main results

* `logout_final_iff`: a token that is logged out is refused for ever exactly if the second in which
  it was signed is over, but for its last millisecond.
* `socket_opens_iff`: the tokens that open a socket are those that were handed out, in the last five
  minutes, for a socket with its token type and its number.
-/

namespace LarkPlat

open Machine

/-- The claims of a token. -/
structure Claims where
  sub : ℕ
  type : String
  jti : ℕ
  iat : ℕ
  exp : ℕ
  deriving DecidableEq

/-- `CurrentUser`. -/
structure CurrentUser where
  id : ℕ
  username : String
  isAdmin : Bool
  permissions : List String
  visibleGroupIds : List ℕ
  deriving DecidableEq

/-- `UserBrief`. -/
structure UserBrief where
  id : ℕ
  username : String
  realName : String
  roles : List (ℕ × String × String)
  deriving DecidableEq

/-- What a login and a refresh answer. -/
structure TokenPair where
  accessToken : Claims
  refreshToken : Claims
  user : UserBrief
  deriving DecidableEq

/-- The sockets, and the callback of a workflow. -/
inductive Socket
  | exec
  | transfer
  | workflowRun
  | monitor
  | terminal
  | workflowCallback
  deriving DecidableEq

/-- The type of the tokens of a socket. -/
def Socket.tokenType : Socket → String
  | .exec | .transfer | .workflowRun | .monitor => "ws"
  | .terminal => "ws_terminal"
  | .workflowCallback => "wf_callback"

theorem Socket.tokenType_ne (socket : Socket) :
    socket.tokenType ≠ "access" ∧ socket.tokenType ≠ "refresh" := by
  cases socket <;> decide

/-- How long a token of a socket is valid, in seconds: `_CALLBACK_TTL_HOURS` for a callback. -/
def Socket.seconds : Socket → ℕ
  | .workflowCallback => 24 * 3600
  | _ => 300

/-- The settings, and what the accounts build on. -/
structure SessionEnv where
  account : AccountEnv
  accessTokenExpireMinutes : ℕ
  refreshTokenExpireDays : ℕ

/-- The accounts, the clock, the tokens that were signed, and the keys `rt:` and `bl:` of Redis. -/
structure SessionState where
  accounts : AccountDb
  clock : ℕ
  signed : List Claims
  refreshKeys : List (ExpiringKeys.Entry ℕ ℕ ℕ)
  blacklist : List (ExpiringKeys.Entry ℕ Unit ℕ)

namespace SessionState

variable (env : SessionEnv) (st : SessionState)

/-! ### Tokens -/

/-- The claims of `create_token`; the number of a token is new. -/
def createToken (sub : ℕ) (type : String) (seconds : ℕ) : Claims :=
  ⟨sub, type, st.signed.length, st.clock / 1000, (st.clock + seconds * 1000) / 1000⟩

/-- A token expires in the second in which it was signed, so many seconds later. -/
theorem createToken_exp (sub : ℕ) (type : String) (seconds : ℕ) :
    (st.createToken sub type seconds).exp = st.clock / 1000 + seconds := by
  simp only [createToken]
  omega

/-- The state with a signed token. -/
def sign (c : Claims) : SessionState := { st with signed := st.signed ++ [c] }

/-- `decode_token`, with the text of the exception. -/
def decodeToken (c : Claims) (expectedType : String) : Except String Claims :=
  if c ∉ st.signed then .error "invalid token: Signature verification failed."
  else if c.exp < st.clock / 1000 then .error "invalid token: Signature has expired."
  else if c.type ≠ expectedType then .error "unexpected token type"
  else .ok c

/-- The user, if it may use the platform. -/
def activeUser (userId : ℕ) : Option SysUser :=
  (st.accounts.getUser userId).filter fun u => decide (u.status = 1 ∧ u.deleted = 0)

/-- `get_current_user`. -/
def currentUser (token : Claims) : Except PyErr CurrentUser :=
  match st.decodeToken token "access" with
  | .error msg => .error (.unauthorized msg)
  | .ok c =>
      if (ExpiringKeys.get st.blacklist c.jti st.clock).isSome then
        .error (.unauthorized "token revoked")
      else
        match st.activeUser c.sub with
        | none => .error (.unauthorized "user disabled or missing")
        | some u =>
            let roleIds := st.accounts.roleIds u.id
            .ok ⟨u.id, u.username, decide (u.isAdmin ≠ 0),
              if roleIds = [] then [] else st.accounts.codesByUser u.id,
              st.accounts.visibleGroupIds roleIds⟩

/-! ### Logins -/

/-- `_build_user_brief`. -/
def userBrief (user : SysUser) : UserBrief where
  id := user.id
  username := user.username
  realName := user.realName
  roles := ((st.accounts.roleIds user.id).filterMap st.accounts.getRole).map
    fun r => (r.id, r.code, r.name)

/-- `store_refresh`. -/
def storeRefresh (userId jti : ℕ) : SessionState :=
  let expiresAt := st.clock + env.refreshTokenExpireDays * 86400 * 1000
  { st with refreshKeys := ExpiringKeys.setex st.refreshKeys userId jti expiresAt }

/-- `blacklist_access`. -/
def blacklistAccess (jti : ℕ) : SessionState :=
  let expiresAt := st.clock + env.accessTokenExpireMinutes * 60 * 1000
  { st with blacklist := ExpiringKeys.setex st.blacklist jti () expiresAt }

/-- `revoke_refresh`. -/
def revokeRefresh (userId : ℕ) : SessionState :=
  { st with refreshKeys := ExpiringKeys.delete st.refreshKeys userId }

/-- `issue_tokens`: both tokens are signed, and the number of the refresh token is stored. -/
def issueTokens (user : SysUser) : TokenPair × SessionState :=
  let access := st.createToken user.id "access" (env.accessTokenExpireMinutes * 60)
  let st₁ := st.sign access
  let refresh := st₁.createToken user.id "refresh" (env.refreshTokenExpireDays * 86400)
  let st₂ := st₁.sign refresh
  (⟨access, refresh, st.userBrief user⟩, st₂.storeRefresh env user.id refresh.jti)

/-- `login`, without the counters of failures. -/
def login (username password : String) : Except PyErr (TokenPair × SessionState) :=
  match st.accounts.byUsername username with
  | none => .error (.unauthorized "invalid username or password")
  | some user =>
      if user.deleted ≠ 0 ∨ user.status ≠ 1 then
        .error (.unauthorized "invalid username or password")
      else if env.account.verifyPassword password user.passwordHash = false then
        .error (.unauthorized "invalid username or password")
      else
        let r := st.issueTokens env user
        .ok (r.1, { r.2 with accounts := st.accounts.loggedIn user.id ((st.clock : ℚ) / 1000) })

/-- `refresh_tokens`. -/
def refresh (token : Claims) : Except PyErr (TokenPair × SessionState) :=
  match st.decodeToken token "refresh" with
  | .error msg => .error (.unauthorized msg)
  | .ok c =>
      if ExpiringKeys.get st.refreshKeys c.sub st.clock ≠ some c.jti then
        .error (.unauthorized "refresh token expired or reused")
      else
        match st.activeUser c.sub with
        | none => .error (.unauthorized "user disabled or missing")
        | some user => .ok (st.issueTokens env user)

/-- `logout`. -/
def logout (token : Claims) : Except PyErr SessionState :=
  match st.decodeToken token "access" with
  | .error _ => .error (.unauthorized "invalid token")
  | .ok c => .ok ((st.blacklistAccess env c.jti).revokeRefresh c.sub)

/-- `change_password`, for the user of a token. -/
def changePassword (token : Claims) (oldPassword newPassword : String) :
    Except PyErr AccountDb := do
  let user ← st.currentUser token
  match st.accounts.getUser user.id with
  | none => throw (.unauthorized "user not found")
  | some u =>
      if env.account.verifyPassword oldPassword u.passwordHash then
        st.accounts.resetPassword env.account user.id newPassword
      else throw (.badRequest "old password incorrect")

/-! ### Sockets -/

/-- `_verify_ws_token` of a socket, for a number: that of the row, or of the user for the socket of
the monitor. -/
def verifyWsToken (socket : Socket) (number : ℕ) (token : Claims) : Bool :=
  match st.decodeToken token socket.tokenType with
  | .error _ => false
  | .ok c => decide (c.sub = number)

/-! ### Histories -/

/-- The calls, and the time that passes between them. -/
inductive Op where
  | wait (ms : ℕ)
  | login (username password : String)
  | external (userId : ℕ)
  | refresh (token : Claims)
  | logout (token : Claims)
  | changePassword (token : Claims) (oldPassword newPassword : String)
  | account (call : AccountDb.Call)
  | socketToken (socket : Socket) (number : ℕ)

/-- The state after a call that returns or raises. -/
def settled (result : Except PyErr SessionState) : SessionState :=
  match result with
  | .ok st' => st'
  | .error _ => st

/-- The state after a call. A login through a provider issues tokens for the account that it answers
with, which is active. -/
def apply (env : SessionEnv) (st : SessionState) : Op → SessionState
  | .wait ms => { st with clock := st.clock + ms }
  | .login username password => st.settled ((st.login env username password).map Prod.snd)
  | .external userId =>
      match st.activeUser userId with
      | none => st
      | some user => (st.issueTokens env user).2
  | .refresh token => st.settled ((st.refresh env token).map Prod.snd)
  | .logout token => st.settled (st.logout env token)
  | .changePassword token oldPassword newPassword =>
      st.settled ((st.changePassword env token oldPassword newPassword).map
        fun accounts => { st with accounts := accounts })
  | .account call => { st with accounts := st.accounts.apply env.account call }
  | .socketToken socket number =>
      st.sign (st.createToken number socket.tokenType socket.seconds)

/-! ### What a call signs and forgets -/

variable {env : SessionEnv} {st st' : SessionState} {op : Op} {c : Claims}

/-- A token that a call signs: one of a login, or that of a socket. -/
structure SignedBy (env : SessionEnv) (st : SessionState) (op : Op) (c : Claims) : Prop where
  iat : c.iat = st.clock / 1000
  exp : c.type = "access" → c.exp = c.iat + env.accessTokenExpireMinutes * 60
  origin : (c.type = "access" ∨ c.type = "refresh") ∨ ∃ socket number,
    op = .socketToken socket number ∧ c = st.createToken number socket.tokenType socket.seconds

/-- What a call may do to the clock, the tokens and the list. -/
structure Steps (env : SessionEnv) (st : SessionState) (op : Op) (st' : SessionState) : Prop where
  clock : st.clock ≤ st'.clock
  blacklist : st'.blacklist = st.blacklist ∨ ∃ jti, st'.blacklist =
    ExpiringKeys.setex st.blacklist jti () (st.clock + env.accessTokenExpireMinutes * 60 * 1000)
  signed : ∃ new, st'.signed = st.signed ++ new ∧ ∀ c ∈ new, SignedBy env st op c

theorem Steps.of_same (hclock : st.clock ≤ st'.clock) (hblacklist : st'.blacklist = st.blacklist)
    (hsigned : st'.signed = st.signed) : Steps env st op st' :=
  ⟨hclock, .inl hblacklist, [], by rw [hsigned, List.append_nil], fun c h => by cases h⟩

theorem steps_issueTokens {user : SysUser} (h : st'.clock = st.clock ∧
    st'.blacklist = st.blacklist ∧ st'.signed = (st.issueTokens env user).2.signed) :
    Steps env st op st' := by
  obtain ⟨hclock, hblacklist, hsigned⟩ := h
  refine ⟨hclock.ge, .inl hblacklist, [_, _], hsigned.trans (List.append_assoc _ [_] [_]), ?_⟩
  intro c hc
  rcases List.mem_cons.mp hc with rfl | hc
  · exact ⟨rfl, fun _ => st.createToken_exp _ _ _, .inl (.inl rfl)⟩
  · obtain rfl := List.mem_singleton.mp hc
    exact ⟨rfl, fun h => absurd h (show "refresh" ≠ "access" by decide), .inl (.inr rfl)⟩

theorem steps_settled {result : Except PyErr SessionState}
    (h : ∀ st', result = .ok st' → Steps env st op st') : Steps env st op (st.settled result) := by
  cases result with
  | error e => exact .of_same le_rfl rfl rfl
  | ok st' => exact h st' rfl

theorem steps_settled_map {α : Type} {result : Except PyErr α} {f : α → SessionState}
    (h : ∀ a, result = .ok a → Steps env st op (f a)) :
    Steps env st op (st.settled (result.map f)) := by
  cases result with
  | error e => exact .of_same le_rfl rfl rfl
  | ok a => exact h a rfl

theorem steps_apply (env : SessionEnv) (st : SessionState) (op : Op) :
    Steps env st op (st.apply env op) := by
  cases op with
  | wait ms => exact .of_same (Nat.le_add_right _ _) rfl rfl
  | login username password =>
      refine steps_settled_map fun r h => ?_
      rw [login] at h
      split at h
      · cases h
      · split_ifs at h
        rw [← Except.ok.inj h]
        exact steps_issueTokens ⟨rfl, rfl, rfl⟩
  | external userId =>
      rw [apply]
      split
      · exact .of_same le_rfl rfl rfl
      · exact steps_issueTokens ⟨rfl, rfl, rfl⟩
  | refresh token =>
      refine steps_settled_map fun r h => ?_
      rw [refresh] at h
      split at h
      · cases h
      · split_ifs at h
        split at h
        · cases h
        · rw [← Except.ok.inj h]
          exact steps_issueTokens ⟨rfl, rfl, rfl⟩
  | logout token =>
      refine steps_settled fun st' h => ?_
      rw [logout] at h
      split at h
      · cases h
      next c hc =>
        obtain rfl := Except.ok.inj h
        exact ⟨le_rfl, .inr ⟨c.jti, rfl⟩, [], (List.append_nil _).symm, fun c h => by cases h⟩
  | changePassword token oldPassword newPassword =>
      exact steps_settled_map fun accounts _ => .of_same le_rfl rfl rfl
  | account call => exact .of_same le_rfl rfl rfl
  | socketToken socket number =>
      refine ⟨le_rfl, .inl rfl, [_], rfl, fun c hc => ?_⟩
      obtain rfl := List.mem_singleton.mp hc
      exact ⟨rfl, fun h => absurd h socket.tokenType_ne.1, .inr ⟨socket, number, rfl, rfl⟩⟩

/-! ### Valid tokens -/

theorem decodeToken_ok_iff {type : String} : st.decodeToken c type = .ok c ↔
    c ∈ st.signed ∧ st.clock / 1000 ≤ c.exp ∧ c.type = type := by
  rw [decodeToken]
  split_ifs with hsigned hexp htype
  · exact iff_of_false nofun fun h => absurd h.2.1 (Nat.not_le.mpr hexp)
  · exact iff_of_false nofun fun h => htype h.2.2
  · exact iff_of_true rfl ⟨hsigned, Nat.not_lt.mp hexp, not_not.mp htype⟩
  · exact iff_of_false nofun fun h => hsigned h.1

theorem eq_of_decodeToken {type : String} {d : Claims} (h : st.decodeToken c type = .ok d) :
    d = c := by
  rw [decodeToken] at h
  split_ifs at h
  exact (Except.ok.inj h).symm

/-- The token authenticates its user. -/
def Authenticates (st : SessionState) (c : Claims) : Prop := ∃ u, st.currentUser c = .ok u

theorem authenticates_iff : st.Authenticates c ↔
    (c ∈ st.signed ∧ st.clock / 1000 ≤ c.exp ∧ c.type = "access") ∧
      ExpiringKeys.get st.blacklist c.jti st.clock = none ∧ (st.activeUser c.sub).isSome := by
  rw [← decodeToken_ok_iff, Authenticates, currentUser]
  cases hdecode : st.decodeToken c "access" with
  | error msg => simp
  | ok d =>
      obtain rfl := eq_of_decodeToken hdecode
      dsimp only
      split_ifs with hrevoked
      · exact iff_of_false nofun fun h => by simp [h.2.1] at hrevoked
      · rw [Option.not_isSome_iff_eq_none] at hrevoked
        cases hactive : st.activeUser d.sub with
        | none => exact iff_of_false nofun fun h => by simp at h
        | some u => exact iff_of_true ⟨_, rfl⟩ ⟨rfl, hrevoked, rfl⟩

/-- Access tokens expire after the time of the settings. -/
def AccessTimed (env : SessionEnv) (st : SessionState) : Prop :=
  ∀ c ∈ st.signed, c.iat ≤ st.clock / 1000 ∧
    (c.type = "access" → c.exp = c.iat + env.accessTokenExpireMinutes * 60)

theorem accessTimed_apply (h : AccessTimed env st) (op : Op) :
    AccessTimed env (st.apply env op) := by
  obtain ⟨hclock, -, new, hsigned, hnew⟩ := steps_apply env st op
  intro c hc
  rw [hsigned] at hc
  rcases List.mem_append.mp hc with hc | hc
  · exact ⟨(h c hc).1.trans (Nat.div_le_div_right hclock), (h c hc).2⟩
  · obtain ⟨hiat, hexp, -⟩ := hnew c hc
    exact ⟨hiat.le.trans (Nat.div_le_div_right hclock), hexp⟩

/-- Up to a time, the number of a token is on the list. -/
def ListedUntil (lastTime jti : ℕ) (st : SessionState) : Prop :=
  ∀ now ≤ lastTime, (ExpiringKeys.get st.blacklist jti now).isSome = true

theorem listedUntil_apply {start jti : ℕ} (hstart : start ≤ st.clock)
    (h : st.ListedUntil (start + env.accessTokenExpireMinutes * 60 * 1000) jti) (op : Op) :
    (st.apply env op).ListedUntil (start + env.accessTokenExpireMinutes * 60 * 1000) jti := by
  obtain ⟨-, hblacklist, -⟩ := steps_apply env st op
  rcases hblacklist with hsame | ⟨jti', hsetex⟩
  · rw [ListedUntil, hsame]
    exact h
  · intro now hnow
    rw [hsetex]
    by_cases hjti : jti' = jti
    · rw [hjti, ExpiringKeys.get_setex_self, if_pos (by omega)]
      rfl
    · rw [ExpiringKeys.get_setex_ne hjti]
      exact h now hnow

/-- A token was logged out at a time, and its number is kept since. -/
structure LoggedOut (env : SessionEnv) (start jti : ℕ) (st : SessionState) : Prop where
  timed : AccessTimed env st
  clock : start ≤ st.clock
  listed : st.ListedUntil (start + env.accessTokenExpireMinutes * 60 * 1000) jti

theorem LoggedOut.run {start jti : ℕ} (h : LoggedOut env start jti st) (ops : List Op) :
    LoggedOut env start jti (run (apply env) st ops) :=
  run_invariant (P := LoggedOut env start jti)
    (fun st op h => ⟨accessTimed_apply h.timed op, h.clock.trans (steps_apply env st op).clock,
      listedUntil_apply h.clock h.listed op⟩) h ops

/-- The number of a token that was logged out when its first second was over is kept until the token
has expired. -/
theorem LoggedOut.refused {start : ℕ} (h : LoggedOut env start c.jti st)
    (hlate : (c.iat + 1) * 1000 ≤ start + 1) : ¬ st.Authenticates c := by
  rw [authenticates_iff]
  rintro ⟨⟨hsigned, hexp, htype⟩, hget, -⟩
  have hvalid := (h.timed c hsigned).2 htype
  -- Either the key is kept, or the last second of the token is over.
  by_cases hkept : st.clock ≤ start + env.accessTokenExpireMinutes * 60 * 1000
  · have hsome := h.listed st.clock hkept
    rw [hget] at hsome
    cases hsome
  · omega

/-- **Logouts are final.** In every history, a token that authenticates is refused for ever after
its logout exactly if the logout comes when the second in which the token was signed is over, but
for its last millisecond. -/
theorem logout_final_iff (env : SessionEnv) {start : SessionState} (hstart : start.signed = [])
    (ops : List Op) {c : Claims} (hvalid : (run (apply env) start ops).Authenticates c) :
    (∀ later, ¬ (run (apply env) start (ops ++ .logout c :: later)).Authenticates c) ↔
      (c.iat + 1) * 1000 ≤ (run (apply env) start ops).clock + 1 := by
  have htimed : AccessTimed env (run (apply env) start ops) :=
    run_invariant (P := AccessTimed env) (fun _ op h => accessTimed_apply h op)
      (by simp [AccessTimed, hstart]) ops
  simp only [run_append, run_cons]
  generalize run (apply env) start ops = st at hvalid htimed ⊢
  obtain ⟨⟨hsigned, hexp, htype⟩, -, hactive⟩ := authenticates_iff.mp hvalid
  have hlogout : st.apply env (.logout c) = (st.blacklistAccess env c.jti).revokeRefresh c.sub := by
    rw [apply, logout, decodeToken_ok_iff.mpr ⟨hsigned, hexp, htype⟩]
    rfl
  constructor
  · intro hfinal
    by_contra hearly
    have hwait := hfinal [.wait (env.accessTokenExpireMinutes * 60 * 1000 + 1)]
    refine hwait (authenticates_iff.mpr ?_)
    rw [hlogout, run_cons, run_nil, apply]
    refine ⟨⟨hsigned, ?_, htype⟩, ?_, hactive⟩
    · have hvalid := (htimed c hsigned).2 htype
      show (st.clock + (env.accessTokenExpireMinutes * 60 * 1000 + 1)) / 1000 ≤ c.exp
      omega
    · refine ExpiringKeys.get_setex_self.trans (if_neg ?_)
      show ¬ st.clock + (env.accessTokenExpireMinutes * 60 * 1000 + 1) ≤ _
      omega
  · intro hlate later
    refine (LoggedOut.run ⟨accessTimed_apply htimed _, (steps_apply env st _).clock, ?_⟩
      later).refused hlate
    intro now hnow
    rw [hlogout]
    show (ExpiringKeys.get (ExpiringKeys.setex st.blacklist c.jti () _) c.jti now).isSome = true
    rw [ExpiringKeys.get_setex_self, if_pos hnow]
    rfl

/-! ### Tokens of sockets -/

theorem verifyWsToken_iff {socket : Socket} {number : ℕ} :
    st.verifyWsToken socket number c = true ↔
      (c ∈ st.signed ∧ st.clock / 1000 ≤ c.exp ∧ c.type = socket.tokenType) ∧ c.sub = number := by
  rw [← decodeToken_ok_iff, verifyWsToken]
  cases hdecode : st.decodeToken c socket.tokenType with
  | error msg => simp
  | ok d =>
      obtain rfl := eq_of_decodeToken hdecode
      simp

/-- A call signs a token. -/
def Signs (env : SessionEnv) (c : Claims) (st : SessionState) (op : Op) : Prop :=
  c ∈ (st.apply env op).signed ∧ SignedBy env st op c

/-- The tokens that were signed in a history are those that its calls have signed. -/
theorem mem_signed_iff {start : SessionState} (hstart : start.signed = []) (ops : List Op) :
    c ∈ (run (apply env) start ops).signed ↔ ∃ pre op post, ops = pre ++ op :: post ∧
      Signs env c (run (apply env) start pre) op := by
  have hstep : ∀ st op, True → (c ∈ (apply env st op).signed ↔
      Signs env c st op ∨ True ∧ c ∈ st.signed) := by
    intro st op _
    obtain ⟨-, -, new, hsigned, hnew⟩ := steps_apply env st op
    rw [Signs, hsigned, List.mem_append, true_and]
    constructor
    · rintro (hc | hc)
      · exact .inr hc
      · exact .inl ⟨.inr hc, hnew c hc⟩
    · rintro (⟨hc, -⟩ | hc)
      · exact hc
      · exact .inl hc
  refine (run_last_iff (P := fun _ => True) (Q := fun st : SessionState => c ∈ st.signed)
    (fun _ _ h => h) hstep trivial (by simp [hstart]) ops).trans ?_
  constructor
  · rintro ⟨pre, op, post, rfl, hsigns, -⟩
    exact ⟨pre, op, post, rfl, hsigns⟩
  · rintro ⟨pre, op, post, rfl, hsigns⟩
    exact ⟨pre, op, post, rfl, hsigns, meets_of_forall fun _ _ => trivial⟩

/-- **Tokens of sockets.** In every history, a token opens a socket for a number exactly if it was
handed out for that number and for a socket with the same token type, and has not expired. So tokens
for executions, transfers, workflow runs and the monitor open each other's sockets. -/
theorem socket_opens_iff (env : SessionEnv) {start : SessionState} (hstart : start.signed = [])
    (ops : List Op) (socket : Socket) (number : ℕ) (c : Claims) :
    (run (apply env) start ops).verifyWsToken socket number c = true ↔
      ∃ pre socket' post, ops = pre ++ .socketToken socket' number :: post ∧
        socket'.tokenType = socket.tokenType ∧
        c = (run (apply env) start pre).createToken number socket'.tokenType socket'.seconds ∧
        (run (apply env) start ops).clock / 1000 ≤
          (run (apply env) start pre).clock / 1000 + socket'.seconds := by
  rw [verifyWsToken_iff, mem_signed_iff hstart]
  constructor
  · rintro ⟨⟨⟨pre, op, post, rfl, -, hsigned⟩, hvalid, htype⟩, hnumber⟩
    rcases hsigned.origin with (haccess | hrefresh) | ⟨socket', number', rfl, rfl⟩
    · exact absurd (htype.symm.trans haccess) socket.tokenType_ne.1
    · exact absurd (htype.symm.trans hrefresh) socket.tokenType_ne.2
    · obtain rfl : number' = number := hnumber
      rw [createToken_exp] at hvalid
      exact ⟨pre, socket', post, rfl, htype, rfl, hvalid⟩
  · rintro ⟨pre, socket', post, rfl, htype, rfl, hlive⟩
    refine ⟨⟨⟨pre, _, post, rfl, List.mem_append_right _ List.mem_cons_self, ?_⟩, ?_, htype⟩, rfl⟩
    · exact ⟨rfl, fun h => absurd h socket'.tokenType_ne.1, .inr ⟨socket', number, rfl, rfl⟩⟩
    · rw [createToken_exp]
      exact hlive

/-! ### Example -/

/-- Passwords are their own hashes. -/
def plainSessions : SessionEnv where
  account :=
    { hashPassword := fun _ password => password
      verifyPassword := fun password hash => decide (password = hash)
      userFits := fun u => decide (u.username.length ≤ 64)
      roleFits := fun _ => true }
  accessTokenExpireMinutes := 120
  refreshTokenExpireDays := 7

/-- One user, and no tokens. -/
def oneUser : SessionState where
  accounts := ⟨[⟨1, "ann", "pw", "Ann", "", "ann@corp", 1, none, 0, "local", none, none, 0⟩], [],
    [], [], [], [], [], 2, 1, 1, 0⟩
  clock := 5000
  signed := []
  refreshKeys := []
  blacklist := []

/-- The access token of the first login. -/
def firstToken : Claims := ⟨1, "access", 0, 5, 7205⟩

theorem firstToken_logout_final :
    (∀ later, ¬ (run (apply plainSessions) oneUser
      ([.login "ann" "pw", .wait 2000] ++ .logout firstToken :: later)).Authenticates firstToken) ↔
      (5 + 1) * 1000 ≤ 7000 + 1 :=
  logout_final_iff plainSessions rfl [.login "ann" "pw", .wait 2000] ⟨_, rfl⟩

theorem execToken_opens_monitor :
    (run (apply plainSessions) oneUser [.socketToken .exec 7]).verifyWsToken .monitor 7
      (oneUser.createToken 7 "ws" 300) = true :=
  (socket_opens_iff plainSessions rfl [.socketToken .exec 7] .monitor 7 _).mpr
    ⟨[], .exec, [], rfl, rfl, rfl, by decide⟩

end SessionState

end LarkPlat
