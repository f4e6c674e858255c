import Rmcp.Auth.Manager

/-!
# Access to the tokens and the locks

The methods of the manager that a client calls for a token, each as one task that nobody
else disturbs. `get_access_token` calls `refresh_token` while it still holds the guard that
it has read `expires_at` through; `refresh_token` writes `expires_at` when the reply carries
an expiry, and then the task waits for itself.

Results:
1. `waits_refreshToken_iff`: when `refresh_token` waits, under any guards of its caller.
2. `token_access_waits_iff`: when a method waits for a guard of its own.
-/

namespace Rmcp.Auth

open LockProg

variable {C : Crates}

namespace AuthorizationManager

/-- The access token has expired when it is looked at. -/
def Expired (m : AuthorizationManager C) (env : Env C) : Prop :=
  ∃ expiresAt, m.expiresAt = some expiresAt ∧ expiresAt < env (.now .expiryChecked)

/-- The manager has all that a refresh needs, and the reply to it carries an expiry, at an
instant that can be represented. -/
def RefreshExpires (m : AuthorizationManager C) (env : Env C) : Prop :=
  ∃ client creds refreshToken token expiresIn,
    m.oauthClient = some client ∧ m.credentials = some creds ∧
    creds.refreshToken = some refreshToken ∧
    env (.exchangeRefreshToken client m.httpClient refreshToken) = .ok token ∧
    token.expiresIn = some expiresIn ∧
    env (.now .tokenRefreshed) + expiresIn ≤ C.instantMax

/-! ## The parts of the methods -/

theorem run_storeExpiry (env : Env C) (read : ClockRead) (expiresIn : Option Nat)
    (held : Held (locks C)) (memory : Memory (locks C)) :
    run env (storeExpiry (C := C) read expiresIn) held memory =
      match expiresIn with
      | none => .returned () held memory
      | some d =>
        if C.instantMax < env (.now read) + d then .panicked
        else if conflict held .expiresAt .write then .waits .expiresAt
        else .returned () held
          (Function.update memory .expiresAt (some (env (.now read) + d))) := by
  cases expiresIn with
  | none => rfl
  | some d =>
    by_cases hfits : env (.now read) + d ≤ C.instantMax
    · simp [storeExpiry, addDuration, hfits, Nat.not_lt.mpr hfits]
    · simp [storeExpiry, addDuration, hfits, Nat.lt_of_not_ge hfits]

/-- `storeExpiry` waits under a guard of `expires_at`, when there is something to store. -/
theorem waits_storeExpiry_iff (env : Env C) (read : ClockRead) (expiresIn : Option Nat)
    (held : Held (locks C)) (memory : Memory (locks C)) :
    (∃ l, run env (storeExpiry (C := C) read expiresIn) held memory = .waits l) ↔
      conflict held .expiresAt .write = true ∧
        ∃ d, expiresIn = some d ∧ env (.now read) + d ≤ C.instantMax := by
  rw [run_storeExpiry]
  cases expiresIn with
  | none => simp
  | some d =>
    by_cases hfits : env (.now read) + d ≤ C.instantMax
    · cases conflict held Lock.expiresAt .write <;> simp [hfits, Nat.not_lt.mpr hfits]
    · simp [hfits, Nat.lt_of_not_ge hfits]

/-- `refresh_token` waits under a guard of `expires_at`, when it gets that far. -/
theorem waits_refreshToken_iff (m : AuthorizationManager C) (env : Env C)
    (held : Held (locks C)) (hread : conflict held .credentials .read = false)
    (hwrite : conflict held .credentials .write = false) :
    (∃ l, run env m.refreshToken held m.memory = .waits l) ↔
      conflict held .expiresAt .write = true ∧ m.RefreshExpires env := by
  cases hclient : m.oauthClient with
  | none => simp [refreshToken, RefreshExpires, hclient]
  | some client =>
    cases hcreds : m.credentials with
    | none => simp [refreshToken, RefreshExpires, hclient, hcreds, hread, memory]
    | some creds =>
      cases htoken : creds.refreshToken with
      | none => simp [refreshToken, RefreshExpires, hclient, hcreds, hread, htoken, memory]
      | some token =>
        cases hreply : env (.exchangeRefreshToken client m.httpClient token) with
        | error e =>
          simp [refreshToken, RefreshExpires, hclient, hcreds, hread, htoken, hreply, memory]
        | ok token =>
          have hstore := waits_storeExpiry_iff env .tokenRefreshed token.expiresIn held
            (Function.update m.memory Lock.credentials (some token))
          simpa [refreshToken, RefreshExpires, hclient, hcreds, hread, hwrite, htoken, hreply,
            memory, Outcome.andThen_eq_waits] using hstore

/-- `get_access_token` waits when the token has expired and is refreshed. -/
theorem waits_getAccessToken_iff (m : AuthorizationManager C) (env : Env C) :
    (∃ l, run env m.getAccessToken [] m.memory = .waits l) ↔ m.Expired env ∧ m.RefreshExpires env := by
  -- the guard that is held while the token is refreshed
  have hrefresh := m.waits_refreshToken_iff env [(.expiresAt, .read)] rfl rfl
  have hwrite : conflict (S := locks C) [(Lock.expiresAt, .read)] .expiresAt .write = true := rfl
  cases hcreds : m.credentials with
  | none => simp [getAccessToken, RefreshExpires, hcreds, memory, conflict]
  | some creds =>
    cases hexpires : m.expiresAt with
    | none => simp [getAccessToken, Expired, hcreds, hexpires, memory, conflict]
    | some expiresAt =>
      by_cases hlt : expiresAt < env (.now .expiryChecked)
      · simp [getAccessToken, Expired, hcreds, hexpires, hlt, memory, conflict,
          Outcome.andThen_eq_waits]
        exact hrefresh.trans (and_iff_right hwrite)
      · simp [getAccessToken, Expired, hcreds, hexpires, hlt, memory, conflict]

/-- `exchange_code_for_token` holds no guard for longer than a statement, and stores the
token at the very end. -/
theorem run_exchangeCodeForToken (m : AuthorizationManager C) (env : Env C) (code : String) :
    (∃ e memory, run env (m.exchangeCodeForToken code) [] m.memory = .returned (.error e) [] memory ∧
      memory .credentials = m.credentials) ∨
    (∃ token memory, run env (m.exchangeCodeForToken code) [] m.memory =
      .returned (.ok token) [] memory) ∨
    run env (m.exchangeCodeForToken code) [] m.memory = .panicked := by
  -- what is stored once the verifier has been taken
  let taken : Memory (locks C) := Function.update m.memory Lock.pkceVerifier none
  cases hclient : m.oauthClient with
  | none => exact .inl ⟨clientNotConfigured, m.memory, by simp [exchangeCodeForToken, hclient], rfl⟩
  | some client =>
    cases hverifier : m.pkceVerifier with
    | none =>
      refine .inl ⟨.internalError "PKCE verifier not found", taken, ?_, rfl⟩
      simp [exchangeCodeForToken, hclient, hverifier, memory, conflict, taken]
    | some verifier =>
      cases hbuilt : env .exchangeClient with
      | error e =>
        refine .inl ⟨.internalError e, taken, ?_, rfl⟩
        simp [exchangeCodeForToken, hclient, hverifier, hbuilt, memory, conflict, taken]
      | ok http =>
        cases hreply : env (.exchangeCode client http code ("client_id", client.clientId)
            verifier) with
        | error e =>
          refine .inl ⟨.tokenExchangeFailed e, taken, ?_, rfl⟩
          simp [exchangeCodeForToken, hclient, hverifier, hbuilt, hreply, memory, conflict, taken]
        | ok token =>
          refine .inr ?_
          cases hexpires : token.expiresIn with
          | none =>
            refine .inl ⟨token, Function.update taken Lock.credentials (some token), ?_⟩
            simp [exchangeCodeForToken, hclient, hverifier, hbuilt, hreply, hexpires, memory,
              conflict, taken, run_storeExpiry]
          | some d =>
            by_cases hfits : C.instantMax < env (.now .tokenExchanged) + d
            · refine .inr ?_
              simp [exchangeCodeForToken, hclient, hverifier, hbuilt, hreply, hexpires, hfits,
                memory, conflict, run_storeExpiry]
            · refine .inl ⟨token, Function.update (Function.update taken Lock.expiresAt
                (some (env (.now .tokenExchanged) + d))) Lock.credentials (some token), ?_⟩
              simp [exchangeCodeForToken, hclient, hverifier, hbuilt, hreply, hexpires, hfits,
                memory, conflict, taken, run_storeExpiry]

/-- `exchange_code_for_token` calls nothing under a guard. -/
theorem not_waits_exchangeCodeForToken (m : AuthorizationManager C) (env : Env C) (code : String)
    (l : Lock) : run env (m.exchangeCodeForToken code) [] m.memory ≠ .waits l := by
  rcases m.run_exchangeCodeForToken env code with ⟨e, memory, hrun, -⟩ | ⟨token, memory, hrun⟩ | hrun
  all_goals
    rw [hrun]
    simp

end AuthorizationManager

/-! ## The methods -/

/-- The methods that give out a token. -/
inductive TokenAccess
  | getAccessToken
  | refreshToken
  | exchangeCodeForToken (code : String)

namespace TokenAccess

abbrev Result : TokenAccess → Type
  | .getAccessToken => Except AuthError String
  | .refreshToken | .exchangeCodeForToken _ => Except AuthError OAuthTokenResponse

def prog (m : AuthorizationManager C) : (access : TokenAccess) → AuthProg C access.Result
  | .getAccessToken => m.getAccessToken
  | .refreshToken => m.refreshToken
  | .exchangeCodeForToken code => m.exchangeCodeForToken code

end TokenAccess

/-- A task never waits for a guard of its own, unless it gets the access token, this has
expired, and the reply to the refresh says when the new one expires. -/
theorem token_access_waits_iff (m : AuthorizationManager C) (env : Env C) (access : TokenAccess) :
    (∀ c, Transition.Reachable (step env) (.start (access.prog m) m.memory) c →
      ¬ c.WaitsOnItself) ↔
    (access = .getAccessToken → ¬ (m.Expired env ∧ m.RefreshExpires env)) := by
  have hwaits : (∃ c, Transition.Reachable (step env) (.start (access.prog m) m.memory) c ∧
      c.WaitsOnItself) ↔
      access = .getAccessToken ∧ m.Expired env ∧ m.RefreshExpires env := by
    rw [waits_iff]
    cases access with
    | getAccessToken => exact (m.waits_getAccessToken_iff env).trans (by simp)
    | refreshToken =>
      have hfree : conflict (S := locks C) [] .expiresAt .write ≠ true := Bool.false_ne_true
      exact (m.waits_refreshToken_iff env [] rfl rfl).trans (by simp [hfree])
    | exchangeCodeForToken code =>
      have hnever := not_exists.mpr (m.not_waits_exchangeCodeForToken env code)
      exact (iff_false_intro hnever).trans (by simp)
  rw [← not_iff_not]
  simpa using hwaits

/-- The expired token is refreshed, and the task hangs at the new expiry. -/
theorem get_access_token_waits : ∃ c, Transition.Reachable (step bareEnv)
    (.start (TokenAccess.getAccessToken.prog expiredManager) expiredManager.memory) c ∧
    c.WaitsOnItself :=
  have hrun : run bareEnv expiredManager.getAccessToken [] expiredManager.memory =
    .waits Lock.expiresAt := rfl
  waits_of_run hrun

end Rmcp.Auth
