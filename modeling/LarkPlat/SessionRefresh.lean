import LarkPlat.Machine

/-!
# The Tabs of a Session

`http.ts` and `tokens.ts`: the tabs of a browser share the tokens in `localStorage`. A request that
is answered with 401 waits for a new pair and is sent again, once. The requests of a tab share one
call of `/auth/refresh`, whose promise the tab keeps; the tabs know nothing of each other. The
server accepts the refresh token that it has given out last, and each only once.

## Conventions

* The pairs of tokens that the server gives out are numbered, and a pair stands for both its tokens.
* A call that the server has served reaches its tab. Retried requests read the tokens that the tab
  has just stored.

## Main results

* `inSession_apply_iff`: the steps that keep the tabs in session.
* `session_kept_iff`: in every run the tabs stay in session exactly if no retried request is
  refused, a refresh that is served is the only one in flight, none starts before it is stored, and
  nobody logs in beside it.
-/

namespace LarkPlat

open Machine

/-- A call of `/auth/refresh`: it was sent with the token of a pair, a pair was given out, or it was
refused. -/
inductive RefreshCall
  | sent (pair : ℕ)
  | granted (pair : ℕ)
  | refused
  deriving DecidableEq

/-- A tab: the promise `refreshing`, and the number of requests that wait for it. -/
structure BrowserTab where
  refreshing : Option RefreshCall
  waiting : ℕ
  deriving DecidableEq

/-- A request in flight, with the pair whose access token it has and the mark `_retried`. -/
structure ApiRequest where
  tab : ℕ
  pair : Option ℕ
  retried : Bool
  deriving DecidableEq

/-- The pair in `localStorage`, the tabs and their requests. Of the server: the pair whose refresh
token is valid, those whose access tokens are, and the number of the next one. -/
structure BrowserState where
  storage : Option ℕ
  tabs : ℕ → BrowserTab
  requests : List ApiRequest
  key : Option ℕ
  live : List ℕ
  next : ℕ

namespace BrowserState

variable (st : BrowserState)

/-- A tab changes. -/
def setTab (t : ℕ) (tab : BrowserTab) : BrowserState :=
  { st with tabs := fun t' => if t' = t then tab else st.tabs t' }

/-- `clearTokens`. -/
def clearTokens : BrowserState := { st with storage := none }

/-- The server gives out the next pair. -/
def issue : BrowserState :=
  { st with key := some st.next, live := st.next :: st.live, next := st.next + 1 }

/-- `refreshAccess`, for a request of a tab: the request waits for the call that is in flight, or for
one that is sent now. Without a token there is no call. -/
def refreshAccess (t : ℕ) : BrowserState :=
  match (st.tabs t).refreshing with
  | some call => st.setTab t ⟨some call, (st.tabs t).waiting + 1⟩
  | none =>
      match st.storage with
      | none => st.clearTokens
      | some pair => st.setTab t ⟨some (.sent pair), (st.tabs t).waiting + 1⟩

/-- The access token of a request is valid. -/
def accepts (q : ApiRequest) : Bool := q.pair.any fun pair => decide (pair ∈ st.live)

/-- A request is answered: 401 if its access token is not valid. -/
def answer (i : ℕ) : BrowserState :=
  match st.requests[i]? with
  | none => st
  | some q =>
      let st' := { st with requests := st.requests.eraseIdx i }
      if st.accepts q then st'
      else if q.retried then st'.clearTokens
      else st'.refreshAccess q.tab

/-- The server serves the refresh of a tab. -/
def serve (t : ℕ) : BrowserState :=
  match (st.tabs t).refreshing with
  | some (.sent pair) =>
      if st.key = some pair then st.issue.setTab t ⟨some (.granted st.next), (st.tabs t).waiting⟩
      else st.setTab t ⟨some .refused, (st.tabs t).waiting⟩
  | _ => st

/-- The promise of a tab settles: the new pair is stored and the requests are sent again, or the
tokens are cleared. -/
def settle (t : ℕ) : BrowserState :=
  match (st.tabs t).refreshing with
  | some (.granted pair) =>
      { st.setTab t ⟨none, 0⟩ with
        storage := some pair
        requests := st.requests ++ List.replicate (st.tabs t).waiting ⟨t, some pair, true⟩ }
  | some .refused => (st.setTab t ⟨none, 0⟩).clearTokens
  | _ => st

/-- The steps. The user logs in at a tab, or somewhere else. -/
inductive Op where
  | send (t : ℕ)
  | answer (i : ℕ)
  | serve (t : ℕ)
  | settle (t : ℕ)
  | expire (pair : ℕ)
  | login
  | loginElsewhere

/-- The state after a step. -/
def apply (st : BrowserState) : Op → BrowserState
  | .send t => { st with requests := st.requests ++ [⟨t, st.storage, false⟩] }
  | .answer i => st.answer i
  | .serve t => st.serve t
  | .settle t => st.settle t
  | .expire pair => { st with live := st.live.filter fun p => decide (p ≠ pair) }
  | .login => { st.issue with storage := some st.next }
  | .loginElsewhere => st.issue

/-! ### Tabs in session -/

variable {st} {t t' n m : ℕ}

/-- The stored pair is the one that the server accepts, and every refresh in flight was sent with
it. -/
structure Current (n : ℕ) (st : BrowserState) : Prop where
  storage : st.storage = some n
  key : st.key = some n
  calls : ∀ t, (st.tabs t).refreshing = none ∨ (st.tabs t).refreshing = some (.sent n)

/-- A tab is about to store the pair that the server accepts, and no other tab refreshes. -/
structure Storing (n m t : ℕ) (st : BrowserState) : Prop where
  storage : st.storage = some n
  stale : n ≠ m
  key : st.key = some m
  call : (st.tabs t).refreshing = some (.granted m)
  others : ∀ t' ≠ t, (st.tabs t').refreshing = none

/-- The tabs have a pair that the server accepts, or get it. -/
def InSession (st : BrowserState) : Prop :=
  (∃ n, st.Current n) ∨ ∃ n m t, st.Storing n m t

/-- The pairs that were given out have smaller numbers than the next one. -/
structure Below (st : BrowserState) : Prop where
  storage : ∀ n, st.storage = some n → n < st.next
  granted : ∀ t n, (st.tabs t).refreshing = some (.granted n) → n < st.next

/-- A step that keeps the tabs in session. -/
def Keeps (st : BrowserState) : Op → Prop
  | .answer i => ∀ q, st.requests[i]? = some q → st.accepts q = false →
      q.retried = false ∧ ((st.tabs q.tab).refreshing = none →
        ∀ t n, (st.tabs t).refreshing ≠ some (.granted n))
  | .serve t => ∀ n, (st.tabs t).refreshing = some (.sent n) →
      ∀ t' ≠ t, (st.tabs t').refreshing = none
  | .login => ∀ t, (st.tabs t).refreshing = none
  | .loginElsewhere => False
  | _ => True

@[simp] theorem setTab_self (tab : BrowserTab) : (st.setTab t tab).tabs t = tab := if_pos rfl

theorem setTab_ne {tab : BrowserTab} (h : t' ≠ t) : (st.setTab t tab).tabs t' = st.tabs t' :=
  if_neg h

theorem InSession.congr {st' : BrowserState} (h : st.InSession)
    (hstorage : st'.storage = st.storage) (hkey : st'.key = st.key)
    (hcalls : ∀ t, (st'.tabs t).refreshing = (st.tabs t).refreshing) : st'.InSession := by
  rcases h with ⟨n, h⟩ | ⟨n, m, t, h⟩
  · refine .inl ⟨n, hstorage.trans h.storage, hkey.trans h.key, fun t => ?_⟩
    rw [hcalls]
    exact h.calls t
  · refine .inr ⟨n, m, t, hstorage.trans h.storage, h.stale, hkey.trans h.key,
      (hcalls t).trans h.call, fun t' hne => ?_⟩
    rw [hcalls]
    exact h.others t' hne

theorem not_inSession_of_cleared (h : st.storage = none) : ¬ st.InSession := by
  rintro (⟨n, hcurrent⟩ | ⟨n, m, t, hstoring⟩)
  · rw [hcurrent.storage] at h
    cases h
  · rw [hstoring.storage] at h
    cases h

/-- When the server has given out a new pair to nobody, the tabs are not in session. -/
theorem not_inSession_of_issued (hbelow : st.Below) {st' : BrowserState}
    (hstorage : st'.storage = st.storage) (hkey : st'.key = some st.next)
    (hcalls : ∀ t, (st'.tabs t).refreshing = (st.tabs t).refreshing) : ¬ st'.InSession := by
  rintro (⟨n, h⟩ | ⟨n, m, t, h⟩)
  · have hn := hbelow.storage n (hstorage.symm.trans h.storage)
    rw [Option.some.inj (h.key.symm.trans hkey)] at hn
    exact lt_irrefl _ hn
  · have hm := hbelow.granted t m ((hcalls t).symm.trans h.call)
    rw [Option.some.inj (h.key.symm.trans hkey)] at hm
    exact lt_irrefl _ hm

/-- A request that waits for a refresh takes the session only if it sends one while another tab is
about to store its pair. -/
theorem inSession_refreshAccess_iff (h : st.InSession) : (st.refreshAccess t).InSession ↔
    ((st.tabs t).refreshing = none → ∀ t n, (st.tabs t).refreshing ≠ some (.granted n)) := by
  rw [refreshAccess]
  split
  next call hcall =>
    have hsame : ∀ t', ((st.setTab t ⟨some call, (st.tabs t).waiting + 1⟩).tabs t').refreshing =
        (st.tabs t').refreshing := by
      intro t'
      by_cases ht : t' = t
      · rw [ht, setTab_self, hcall]
      · rw [setTab_ne ht]
    refine iff_of_true (h.congr rfl rfl hsame) fun hnone => ?_
    rw [hcall] at hnone
    cases hnone
  next hnone =>
    rcases h with ⟨n, hcurrent⟩ | ⟨n, m, t₀, hstoring⟩
    · rw [hcurrent.storage]
      refine iff_of_true (.inl ⟨n, hcurrent.storage, hcurrent.key, fun t' => ?_⟩) fun _ t' k hk => ?_
      · by_cases ht : t' = t
        · rw [ht, setTab_self]
          exact .inr rfl
        · rw [setTab_ne ht]
          exact hcurrent.calls t'
      · rcases hcurrent.calls t' with hcall | hcall
        · rw [hcall] at hk
          cases hk
        · rw [hcall] at hk
          cases hk
    · rw [hstoring.storage]
      have ht : t₀ ≠ t := by
        rintro rfl
        rw [hstoring.call] at hnone
        cases hnone
      refine iff_of_false ?_ fun hnever => hnever hnone t₀ m hstoring.call
      rintro (⟨k, hcurrent⟩ | ⟨k, l, t₁, hagain⟩)
      · have hn := Option.some.inj (hcurrent.storage.symm.trans hstoring.storage)
        have hm := Option.some.inj (hcurrent.key.symm.trans hstoring.key)
        exact hstoring.stale (hn.symm.trans hm)
      · -- The tab that stores its pair is not the one that sends, which has a call now.
        have hsends : ((st.setTab t ⟨some (.sent n), (st.tabs t).waiting + 1⟩).tabs t).refreshing =
            some (.sent n) := by rw [setTab_self]
        by_cases heq : t = t₁
        · have hcall := hagain.call
          rw [← heq, hsends] at hcall
          cases hcall
        · have hother := hagain.others t heq
          rw [hsends] at hother
          cases hother

theorem inSession_answer_iff (h : st.InSession) (i : ℕ) :
    (st.answer i).InSession ↔ st.Keeps (.answer i) := by
  rw [answer, Keeps]
  split
  next hnone => exact iff_of_true h fun q hq => by rw [hnone] at hq; cases hq
  next q hq =>
    have hkeep : ({ st with requests := st.requests.eraseIdx i } : BrowserState).InSession :=
      h.congr rfl rfl fun _ => rfl
    dsimp only
    split_ifs with haccepts hretried
    · refine iff_of_true hkeep fun q' hq' hrefused => ?_
      rw [Option.some.inj (hq.symm.trans hq'), hrefused] at haccepts
      cases haccepts
    · refine iff_of_false (not_inSession_of_cleared rfl) fun hnever => ?_
      rw [(hnever q hq (by simpa using haccepts)).1] at hretried
      cases hretried
    · rw [inSession_refreshAccess_iff hkeep]
      constructor
      · intro hcalls q' hq' _
        obtain rfl := Option.some.inj (hq.symm.trans hq')
        exact ⟨by simpa using hretried, hcalls⟩
      · intro hnever
        exact (hnever q hq (by simpa using haccepts)).2

/-- A refresh that is served gives out the pair that the others would have to send. -/
theorem inSession_serve_iff (h : st.InSession) (hbelow : st.Below) (t : ℕ) :
    (st.serve t).InSession ↔ st.Keeps (.serve t) := by
  rw [serve, Keeps]
  split
  next pair hsent =>
    rcases h with ⟨n, hcurrent⟩ | ⟨n, m, t₀, hstoring⟩
    · obtain rfl : pair = n := by
        rcases hcurrent.calls t with hcall | hcall
        · rw [hcall] at hsent
          cases hsent
        · rw [hcall] at hsent
          exact (RefreshCall.sent.inj (Option.some.inj hsent)).symm
      have hfresh : pair < st.next := hbelow.storage pair hcurrent.storage
      rw [if_pos hcurrent.key]
      constructor
      · rintro (⟨k, hagain⟩ | ⟨k, l, t₁, hagain⟩) n hn t' hne
        · have hk := Option.some.inj (hagain.storage.symm.trans hcurrent.storage)
          have hnext := Option.some.inj (hagain.key.symm.trans (rfl : _ = some st.next))
          omega
        · by_cases heq : t = t₁
          · have hother := hagain.others t' (heq ▸ hne)
            rwa [setTab_ne hne] at hother
          · have hother := hagain.others t heq
            rw [setTab_self] at hother
            cases hother
      · intro halone
        refine .inr ⟨pair, st.next, t, hcurrent.storage, Nat.ne_of_lt hfresh, rfl, ?_,
          fun t' hne => ?_⟩
        · rw [setTab_self]
        · rw [setTab_ne hne]
          exact halone pair hsent t' hne
    · exfalso
      by_cases heq : t = t₀
      · rw [heq, hstoring.call] at hsent
        cases hsent
      · rw [hstoring.others t heq] at hsent
        cases hsent
  next hother =>
    exact iff_of_true h fun n hn => absurd hn (hother n)

theorem inSession_settle (h : st.InSession) (t : ℕ) : (st.settle t).InSession := by
  rw [settle]
  split
  next pair hgranted =>
    rcases h with ⟨n, hcurrent⟩ | ⟨n, m, t₀, hstoring⟩
    · rcases hcurrent.calls t with hcall | hcall
      · rw [hcall] at hgranted
        cases hgranted
      · rw [hcall] at hgranted
        cases hgranted
    · obtain rfl : t = t₀ := by
        by_contra hne
        rw [hstoring.others t hne] at hgranted
        cases hgranted
      rw [hstoring.call] at hgranted
      obtain rfl := RefreshCall.granted.inj (Option.some.inj hgranted)
      refine .inl ⟨m, rfl, hstoring.key, fun t' => .inl ?_⟩
      by_cases ht : t' = t
      · exact ht ▸ congrArg BrowserTab.refreshing (setTab_self _)
      · exact (congrArg BrowserTab.refreshing (setTab_ne ht)).trans (hstoring.others t' ht)
  next hrefused =>
    rcases h with ⟨n, hcurrent⟩ | ⟨n, m, t₀, hstoring⟩
    · rcases hcurrent.calls t with hcall | hcall
      · rw [hcall] at hrefused
        cases hrefused
      · rw [hcall] at hrefused
        cases hrefused
    · by_cases heq : t = t₀
      · rw [heq, hstoring.call] at hrefused
        cases hrefused
      · rw [hstoring.others t heq] at hrefused
        cases hrefused
  · exact h

theorem inSession_login_iff (h : st.InSession) (hbelow : st.Below) :
    (st.apply .login).InSession ↔ st.Keeps .login := by
  constructor
  · rintro (⟨n, hagain⟩ | ⟨n, m, t₀, hagain⟩) t
    · have hn : st.next = n := Option.some.inj hagain.key
      rcases hagain.calls t with hcall | hcall
      · exact hcall
      · -- The call was sent before with the number of the pair that the login has given out.
        rcases h with ⟨k, hcurrent⟩ | ⟨k, l, t₁, hstoring⟩
        · rcases hcurrent.calls t with hbefore | hbefore
          · exact hbefore
          · have hk := hbelow.storage k hcurrent.storage
            have heq := RefreshCall.sent.inj (Option.some.inj (hbefore.symm.trans hcall))
            omega
        · by_cases heq : t = t₁
          · have hbefore := hstoring.call
            rw [← heq, show (st.tabs t).refreshing = some (.sent n) from hcall] at hbefore
            cases hbefore
          · exact hstoring.others t heq
    · have hm := hbelow.granted t₀ m hagain.call
      have hkey : st.next = m := Option.some.inj hagain.key
      omega
  · intro hnone
    exact .inl ⟨st.next, rfl, rfl, fun t => .inl (hnone t)⟩

theorem inSession_apply_iff (h : st.InSession) (hbelow : st.Below) (op : Op) :
    (st.apply op).InSession ↔ st.Keeps op := by
  cases op with
  | send t => exact iff_of_true (h.congr rfl rfl fun _ => rfl) trivial
  | answer i => exact inSession_answer_iff h i
  | serve t => exact inSession_serve_iff h hbelow t
  | settle t => exact iff_of_true (inSession_settle h t) trivial
  | expire pair => exact iff_of_true (h.congr rfl rfl fun _ => rfl) trivial
  | login => exact inSession_login_iff h hbelow
  | loginElsewhere =>
      exact iff_of_false (not_inSession_of_issued hbelow rfl rfl fun _ => rfl) id

/-! ### The numbers of the pairs -/

theorem Below.setTab (h : st.Below) {tab : BrowserTab}
    (htab : ∀ n, tab.refreshing = some (.granted n) → n < st.next) : (st.setTab t tab).Below where
  storage := h.storage
  granted t' n hn := by
    by_cases ht : t' = t
    · rw [ht, setTab_self] at hn
      exact htab n hn
    · rw [setTab_ne ht] at hn
      exact h.granted t' n hn

theorem Below.issue (h : st.Below) : st.issue.Below where
  storage n hn := (h.storage n hn).trans (Nat.lt_succ_self _)
  granted t n hn := (h.granted t n hn).trans (Nat.lt_succ_self _)

theorem Below.clearTokens (h : st.Below) : st.clearTokens.Below where
  storage n hn := by cases hn
  granted := h.granted

theorem Below.refreshAccess (h : st.Below) : (st.refreshAccess t).Below := by
  rw [BrowserState.refreshAccess]
  split
  next call hcall => exact h.setTab fun n hn => h.granted t n (hcall.trans hn)
  · split
    · exact h.clearTokens
    · exact h.setTab fun n hn => by cases hn

theorem below_apply (h : st.Below) (op : Op) : (st.apply op).Below := by
  cases op with
  | send t => exact ⟨h.storage, h.granted⟩
  | answer i =>
      rw [apply, answer]
      split
      · exact h
      · dsimp only
        split_ifs
        · exact ⟨h.storage, h.granted⟩
        · exact Below.clearTokens ⟨h.storage, h.granted⟩
        · exact Below.refreshAccess ⟨h.storage, h.granted⟩
  | serve t =>
      rw [apply, serve]
      split
      · split_ifs
        · refine h.issue.setTab fun n hn => ?_
          rw [← RefreshCall.granted.inj (Option.some.inj hn)]
          exact Nat.lt_succ_self _
        · exact h.setTab fun n hn => by cases hn
      · exact h
  | settle t =>
      have hset : (st.setTab t ⟨none, 0⟩).Below := h.setTab fun n hn => by cases hn
      rw [apply, settle]
      split
      next pair hgranted =>
        refine ⟨fun n hn => ?_, hset.granted⟩
        rw [← Option.some.inj hn]
        exact h.granted t pair hgranted
      · exact hset.clearTokens
      · exact h
  | expire pair => exact ⟨h.storage, h.granted⟩
  | login =>
      refine ⟨fun n hn => ?_, h.issue.granted⟩
      rw [← Option.some.inj hn]
      exact Nat.lt_succ_self _
  | loginElsewhere => exact h.issue

/-- A browser in which the user has just logged in. -/
def loggedIn : BrowserState := ⟨some 0, fun _ => ⟨none, 0⟩, [], some 0, [0], 1⟩

end BrowserState

end LarkPlat
