import LarkPlat.ExternalLogin
import LarkPlat.Machine

/-!
# One-Time States of OAuth2 Logins

A redirect to a provider stores a state in Redis for five minutes. The callback of the login
consumes it: it reads and deletes the key, and refuses if nothing was there or if the state is that
of another provider.

## Main results

* `oauthCallback_of_refused`: a callback whose state is not accepted answers 400, and consumes it.
* `state_accepted_iff`: after a history a callback is accepted exactly if the last use of its state
  was a redirect to its provider, at most five minutes before.
-/

namespace LarkPlat.IdentityDb

open Json Machine

variable {env : SsoEnv} {db : IdentityDb} {provider : ProviderRow}
  {code state state' : String} {now : ℚ}

/-- The callback of a provider accepts a state. -/
def StateAccepted (code state : String) (now : ℚ) (db : IdentityDb) : Prop :=
  ∃ cached, db.findState state now = some cached ∧ cached.code = code

/-- A call that stores a state for a provider, which does not expire before a time. -/
def StoresState (code state : String) (now : ℚ) (db : IdentityDb) (op : Op) : Prop :=
  ∃ platformUri t p, op = .authorize code platformUri state t ∧
    db.enabledByCode code = .ok p ∧ now ≤ t + oauthStateTtl

/-- A call that neither stores nor consumes a state. -/
def LeavesState (state : String) (db : IdentityDb) : Op → Prop
  | .authorize code _ state' _ => state' = state → ∀ p, db.enabledByCode code ≠ .ok p
  | .oauthCallback code _ state' _ => state' = state → ∀ p, db.callbackProvider code ≠ .ok p
  | _ => True

/-! ### The stored states -/

theorem findState_storeState_self {payload : OauthState} {t : ℚ} :
    (db.storeState state payload t).findState state now = if now ≤ t then some payload else none :=
  ExpiringKeys.get_setex_self

theorem findState_storeState_ne {payload : OauthState} {t : ℚ} (h : state' ≠ state) :
    (db.storeState state' payload t).findState state now = db.findState state now :=
  ExpiringKeys.get_setex_ne h

theorem findState_dropState_self : (db.dropState state).findState state now = none :=
  ExpiringKeys.get_delete_self

theorem findState_dropState_ne (h : state' ≠ state) :
    (db.dropState state').findState state now = db.findState state now :=
  ExpiringKeys.get_delete_ne h

/-- A callback whose state is not accepted answers 400. -/
theorem oauthCallback_of_refused {authCode : String}
    (hprovider : db.callbackProvider code = .ok provider)
    (h : ¬ StateAccepted code state now db) :
    db.oauthCallback env code authCode state now =
      (.error (.badRequest "invalid or expired state"), db.dropState state) := by
  rw [oauthCallback, hprovider]
  dsimp only
  split
  · rfl
  next cached hcached => rw [if_pos fun hcode => h ⟨cached, hcached, hcode⟩]

/-! ### What a call does to them -/

theorem stateAccepted_congr {db' : IdentityDb} (h : db'.oauthStates = db.oauthStates) :
    StateAccepted code state now db' ↔ StateAccepted code state now db := by
  rw [StateAccepted, StateAccepted, findState, findState, h]

theorem oauthStates_loggedIn {result : Except PyErr (ℕ × IdentityDb)} {t : ℚ}
    (h : ∀ r, result = .ok r → LoginThrough env db t r) :
    (db.loggedIn result).oauthStates = db.oauthStates := by
  cases result with
  | error e => rfl
  | ok r => rw [loggedIn, (h r rfl).eq_accounts]

/-- The calls that are neither redirects nor callbacks leave the stored states. -/
theorem oauthStates_apply {op : Op} (hauthorize : ∀ c uri s t, op ≠ .authorize c uri s t)
    (hcallback : ∀ c a s t, op ≠ .oauthCallback c a s t) :
    (db.apply env op).oauthStates = db.oauthStates := by
  cases op with
  | account call => rfl
  | createProvider user id now data =>
      rw [apply]
      split
      · rfl
      · rfl
  | updateProvider user providerId data => rfl
  | deleteProvider providerId =>
      rw [apply, deleteProvider]
      split_ifs
      · rfl
      · rfl
  | setProviderStatus providerId enabled =>
      rw [apply, setProviderStatus]
      split_ifs
      · rfl
      · rfl
  | setRule key value => rfl
  | ldapLogin username password t => exact oauthStates_loggedIn fun r => ldapLogin_through
  | authorize c uri s t => exact absurd rfl (hauthorize c uri s t)
  | oauthCallback c a s t => exact absurd rfl (hcallback c a s t)

theorem stateAccepted_authorize {c uri s : String} {t : ℚ} :
    StateAccepted code state now (db.apply env (.authorize c uri s t)) ↔
      StoresState code state now db (.authorize c uri s t) ∨
        LeavesState state db (.authorize c uri s t) ∧ StateAccepted code state now db := by
  rw [apply, authorize]
  split
  next e hc =>
    -- The provider is not found, and nothing is stored.
    refine ⟨fun h => .inr ⟨fun _ p hp => ?_, h⟩, ?_⟩
    · rw [hc] at hp
      cases hp
    · rintro (⟨uri', t', p, hop, hp, -⟩ | ⟨-, h⟩)
      · cases hop
        rw [hc] at hp
        cases hp
      · exact h
  next p hc =>
    by_cases hs : s = state
    · subst hs
      rw [StateAccepted, findState_storeState_self]
      constructor
      · rintro ⟨cached, hcached, rfl⟩
        split_ifs at hcached with hlive
        obtain rfl := Option.some.inj hcached
        exact .inl ⟨uri, t, p, rfl, hc, hlive⟩
      · rintro (⟨uri', t', p', hop, hp, hlive⟩ | ⟨hleaves, -⟩)
        · cases hop
          exact ⟨_, if_pos hlive, rfl⟩
        · exact absurd hc (hleaves rfl p)
    · rw [StateAccepted, findState_storeState_ne hs]
      refine ⟨fun h => .inr ⟨fun heq => absurd heq hs, h⟩, ?_⟩
      rintro (⟨uri', t', p', hop, -⟩ | ⟨-, h⟩)
      · cases hop
        exact absurd rfl hs
      · exact h

theorem stateAccepted_oauthCallback {c a s : String} {t : ℚ} :
    StateAccepted code state now (db.apply env (.oauthCallback c a s t)) ↔
      LeavesState state db (.oauthCallback c a s t) ∧ StateAccepted code state now db := by
  rcases oauthCallback_cases env db c a s t with ⟨e, hc, hraise⟩ | ⟨p, hc, hdrop, hlogin⟩
  · rw [apply, hraise]
    refine ⟨fun h => ⟨fun _ p hp => ?_, h⟩, fun h => h.2⟩
    rw [hc] at hp
    cases hp
  · rw [apply, hdrop, stateAccepted_congr (oauthStates_loggedIn hlogin)]
    by_cases hs : s = state
    · subst hs
      rw [StateAccepted, findState_dropState_self]
      refine ⟨?_, fun h => absurd hc (h.1 rfl p)⟩
      rintro ⟨cached, hcached, -⟩
      cases hcached
    · rw [StateAccepted, findState_dropState_ne hs]
      exact ⟨fun h => ⟨fun heq => absurd heq hs, h⟩, fun h => h.2⟩

/-- A state is accepted after a call if the call stores it, or leaves it as it was. -/
theorem stateAccepted_apply (env : SsoEnv) (db : IdentityDb) (op : Op) :
    StateAccepted code state now (db.apply env op) ↔ StoresState code state now db op ∨
      LeavesState state db op ∧ StateAccepted code state now db := by
  cases op with
  | authorize c uri s t => exact stateAccepted_authorize
  | oauthCallback c a s t =>
      rw [stateAccepted_oauthCallback, or_iff_right]
      rintro ⟨uri, t', p, hop, -⟩
      cases hop
  | _ =>
      rw [stateAccepted_congr (oauthStates_apply (fun _ _ _ _ h => by cases h)
        fun _ _ _ _ h => by cases h)]
      refine ⟨fun h => .inr ⟨trivial, h⟩, ?_⟩
      rintro (⟨uri, t', p, hop, -⟩ | ⟨-, h⟩)
      · cases hop
      · exact h

/-- **States are used once.** After a history, the callback of a provider accepts a state exactly if
the last call that used the state was a redirect to the provider, at most five minutes before. -/
theorem state_accepted_iff (env : SsoEnv) {db : IdentityDb} (hstart : db.oauthStates = [])
    (ops : List Op) : StateAccepted code state now (run (apply env) db ops) ↔
      ∃ pre platformUri t p post, ops = pre ++ .authorize code platformUri state t :: post ∧
        (run (apply env) db pre).enabledByCode code = .ok p ∧ now ≤ t + oauthStateTtl ∧
        Meets (apply env) (LeavesState state)
          (run (apply env) db (pre ++ [.authorize code platformUri state t])) post := by
  have hnone : ¬ StateAccepted code state now db := by
    rintro ⟨cached, hcached, -⟩
    rw [findState, hstart] at hcached
    cases hcached
  rw [run_last_iff (P := fun _ => True) (fun _ _ h => h)
    (fun db op _ => stateAccepted_apply env db op) trivial hnone]
  constructor
  · rintro ⟨pre, _, post, rfl, ⟨uri, t, p, rfl, hp, hlive⟩, hmeets⟩
    refine ⟨pre, uri, t, p, post, rfl, hp, hlive, ?_⟩
    rw [run_append]
    exact hmeets
  · rintro ⟨pre, uri, t, p, post, rfl, hp, hlive, hmeets⟩
    rw [run_append] at hmeets
    exact ⟨pre, _, post, rfl, ⟨uri, t, p, rfl, hp, hlive⟩, hmeets⟩

theorem corpHistory_accepted :
    StateAccepted "corp" "s" 300 (run (apply corpEnv) corpDb corpHistory) := by
  obtain ⟨p, hp⟩ : ∃ p, (run (apply corpEnv) corpDb [corpCreated]).enabledByCode "corp" = .ok p :=
    ⟨_, rfl⟩
  exact (state_accepted_iff corpEnv rfl corpHistory).mpr ⟨[corpCreated], "https://lark/callback", 0,
    p, [], rfl, hp, by decide +kernel, trivial⟩

end LarkPlat.IdentityDb
