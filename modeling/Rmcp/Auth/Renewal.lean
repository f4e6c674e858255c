import Rmcp.Auth.Atomicity

/-!
# What is stored with a token

A token that arrives is stored as it is, and its expiry is written only when it has one. So
what the manager has stored is put together from different replies: an expiry that no later
reply has replaced, and no refresh token as soon as one reply has left it out.

Results:
1. `exec_exchangeCodeForToken`, `exec_refreshToken`: what a successful call stores.
2. `refresh_token_kept_iff`: when the refresh token outlives all refreshes.
3. `expiry_described_iff`: when the stored expiry is that of the stored token.
-/

namespace Rmcp.Auth

open LockProg

variable {C : Crates}

/-- Surroundings in which the token endpoint answers with one token. -/
structure Issuance (C : Crates) where
  env : Env C
  token : OAuthTokenResponse
  exchanged : ∀ client http code extraParam verifier,
    env (.exchangeCode client http code extraParam verifier) = .ok token
  refreshed : ∀ client http refreshToken,
    env (.exchangeRefreshToken client http refreshToken) = .ok token

namespace AuthorizationManager

/-- The refresh token that is stored. -/
def storedRefreshToken (m : AuthorizationManager C) : Option String :=
  m.credentials.bind (·.refreshToken)

/-- The lifetime that the stored credentials carry. -/
def storedExpiresIn (m : AuthorizationManager C) : Option Nat :=
  m.credentials.bind (·.expiresIn)

/-- The manager after a token has been stored that has arrived at the instant `now`. -/
def storing (m : AuthorizationManager C) (token : OAuthTokenResponse) (now : Nat) :
    AuthorizationManager C :=
  { m with
    credentials := some token
    expiresAt := (token.expiresIn.map (now + ·)).or m.expiresAt }

@[simp] theorem storing_storedRefreshToken (m : AuthorizationManager C) (token : OAuthTokenResponse)
    (now : Nat) : (m.storing token now).storedRefreshToken = token.refreshToken := rfl

@[simp] theorem storing_storedExpiresIn (m : AuthorizationManager C) (token : OAuthTokenResponse)
    (now : Nat) : (m.storing token now).storedExpiresIn = token.expiresIn := rfl

@[simp] theorem storing_oauthClient (m : AuthorizationManager C) (token : OAuthTokenResponse)
    (now : Nat) : (m.storing token now).oauthClient = m.oauthClient := rfl

/-! ## The calls -/

/-- A call of `exchange_code_for_token` that succeeds has used the verifier up and stores the
token. -/
theorem exec_exchangeCodeForToken {m m' : AuthorizationManager C} (i : Issuance C) {code : String}
    {result : OAuthTokenResponse}
    (h : m.exec i.env (m.exchangeCodeForToken code) = some (.ok result, m')) :
    result = i.token ∧ m.oauthClient.isSome ∧
      m' = { m with pkceVerifier := none }.storing i.token (i.env (.now .tokenExchanged)) := by
  cases hclient : m.oauthClient with
  | none => simp [exec, exchangeCodeForToken, hclient] at h
  | some client =>
    cases hverifier : m.pkceVerifier with
    | none => simp [exec, exchangeCodeForToken, hclient, hverifier, memory, conflict] at h
    | some verifier =>
      cases hbuilt : i.env .exchangeClient with
      | error e =>
        simp [exec, exchangeCodeForToken, hclient, hverifier, hbuilt, memory, conflict] at h
      | ok http =>
        cases hexpires : i.token.expiresIn with
        | none =>
          simp [exec, exchangeCodeForToken, hclient, hverifier, hbuilt, i.exchanged, hexpires,
            memory, conflict, run_storeExpiry] at h
          obtain ⟨rfl, rfl⟩ := h
          simp [storing, withMemory, hexpires, hclient, memory]
        | some d =>
          by_cases hfits : C.instantMax < i.env (.now .tokenExchanged) + d
          · simp [exec, exchangeCodeForToken, hclient, hverifier, hbuilt, i.exchanged, hexpires,
              memory, conflict, run_storeExpiry, hfits] at h
          · simp [exec, exchangeCodeForToken, hclient, hverifier, hbuilt, i.exchanged, hexpires,
              memory, conflict, run_storeExpiry, hfits] at h
            obtain ⟨rfl, rfl⟩ := h
            simp [storing, withMemory, hexpires, hclient]

/-- What a call of `refresh_token` comes to when its request is answered with a token. -/
theorem exec_refreshToken (m : AuthorizationManager C) (i : Issuance C) {client : OAuthClient}
    {creds : OAuthTokenResponse} (hclient : m.oauthClient = some client)
    (hcreds : m.credentials = some creds) :
    m.exec i.env m.refreshToken =
      match creds.refreshToken with
      | none => some (.error (.tokenRefreshFailed "No refresh token available"), m)
      | some _ =>
        if ∃ d ∈ i.token.expiresIn, C.instantMax < i.env (.now .tokenRefreshed) + d then none
        else some (.ok i.token, m.storing i.token (i.env (.now .tokenRefreshed))) := by
  cases htoken : creds.refreshToken with
  | none =>
    simp [exec, refreshToken, hclient, hcreds, htoken, memory, conflict, withMemory]
    rw [← hclient, ← hcreds]
  | some token =>
    cases hexpires : i.token.expiresIn with
    | none =>
      simp [exec, refreshToken, hclient, hcreds, htoken, i.refreshed, hexpires, memory, conflict,
        run_storeExpiry, withMemory, storing]
    | some d =>
      by_cases hfits : C.instantMax < i.env (.now .tokenRefreshed) + d
      · simp [exec, refreshToken, hclient, hcreds, htoken, i.refreshed, hexpires, memory, conflict,
          run_storeExpiry, hfits]
      · simp [exec, refreshToken, hclient, hcreds, htoken, i.refreshed, hexpires, memory, conflict,
          run_storeExpiry, hfits, withMemory, storing]

/-- A call of `refresh_token` that succeeds stores the token. -/
theorem exec_refreshToken_ok {m m' : AuthorizationManager C} (i : Issuance C)
    {result : OAuthTokenResponse} (h : m.exec i.env m.refreshToken = some (.ok result, m')) :
    m' = m.storing i.token (i.env (.now .tokenRefreshed)) := by
  cases hclient : m.oauthClient with
  | none => simp [exec, refreshToken, hclient] at h
  | some client =>
    cases hcreds : m.credentials with
    | none => simp [exec, refreshToken, hclient, hcreds, memory, conflict] at h
    | some creds =>
      rw [m.exec_refreshToken i hclient hcreds] at h
      split at h
      · cases h
      · split at h
        · cases h
        · cases h
          rfl

end AuthorizationManager

/-! ## The refresh token -/

open AuthorizationManager

/-- A call of `refresh_token` that returns, whose request, if it makes one, succeeds. -/
def refresh (m : AuthorizationManager C) (i : Issuance C) : Option (AuthorizationManager C) :=
  (m.exec i.env m.refreshToken).map (·.2)

/-- After the call the refresh token is the one that was issued with it, or else the one there
was before, and the call has not failed for want of one. -/
def KeepsRefreshToken (m : AuthorizationManager C) (i : Issuance C) : Prop :=
  ∀ result m', m.exec i.env m.refreshToken = some (result, m') →
    m'.storedRefreshToken.isSome ∧
    m'.storedRefreshToken = i.token.refreshToken.or m.storedRefreshToken ∧
    result ≠ .error (.tokenRefreshFailed "No refresh token available")

/-- A manager that can refresh its token. -/
structure AuthorizationManager.CanRefresh (m : AuthorizationManager C) : Prop where
  client : m.oauthClient.isSome
  token : m.storedRefreshToken.isSome

theorem refresh_eq {m m' : AuthorizationManager C} {i : Issuance C} (hm : m.CanRefresh)
    (h : refresh m i = some m') :
    m.exec i.env m.refreshToken = some (.ok i.token, m') ∧
      m' = m.storing i.token (i.env (.now .tokenRefreshed)) := by
  obtain ⟨client, hclient⟩ := Option.isSome_iff_exists.mp hm.client
  obtain ⟨refreshToken, hstored⟩ := Option.isSome_iff_exists.mp hm.token
  obtain ⟨creds, hcreds, htoken⟩ := Option.bind_eq_some_iff.mp hstored
  obtain ⟨⟨result, m''⟩, hexec, rfl⟩ := Option.map_eq_some_iff.mp h
  have hspec := m.exec_refreshToken i hclient hcreds
  simp only [htoken] at hspec
  rw [hexec] at hspec
  split at hspec
  · cases hspec
  · cases hspec
    exact ⟨hexec, rfl⟩

/-- One call keeps the refresh token iff a new one is issued with the token. -/
theorem keepsRefreshToken_iff {m m' : AuthorizationManager C} {i : Issuance C}
    (hm : m.CanRefresh) (h : refresh m i = some m') :
    KeepsRefreshToken m i ↔ i.token.refreshToken.isSome := by
  obtain ⟨hexec, rfl⟩ := refresh_eq hm h
  constructor
  · intro hkeeps
    exact (hkeeps _ _ hexec).1
  · intro hissued result m' hexec'
    cases hexec.symm.trans hexec'
    obtain ⟨issued, hissued⟩ := Option.isSome_iff_exists.mp hissued
    simp [hissued]

/-- After an exchange that has yielded a refresh token, every refresh keeps one iff every token
that is issued comes with one. -/
theorem refresh_token_kept_iff {m₀ m m' : AuthorizationManager C} {i₀ : Issuance C} {code : String}
    {token : OAuthTokenResponse} {issued : List (Issuance C)}
    (hexchange : m₀.exec i₀.env (m₀.exchangeCodeForToken code) = some (.ok token, m))
    (hyields : token.refreshToken.isSome) (hrun : Transition.Run refresh m issued m') :
    Transition.Always refresh KeepsRefreshToken m issued ↔
      ∀ i ∈ issued, i.token.refreshToken.isSome := by
  obtain ⟨rfl, hclient, hstored⟩ := exec_exchangeCodeForToken i₀ hexchange
  have hcan : m.CanRefresh := by
    rw [hstored]
    exact ⟨hclient, hyields⟩
  rw [← hrun.always_const]
  refine hrun.always_iff (P := fun _ m => m.CanRefresh) hcan ?_
  intro _ m m' i _ hm hs
  refine ⟨keepsRefreshToken_iff hm hs, fun hissued => ?_⟩
  obtain ⟨-, rfl⟩ := refresh_eq hm hs
  exact ⟨hm.client, hissued⟩

/-- `bareEnv` with a clock that stands still and a token endpoint that issues one token. -/
def envIssuing (now : Nat) (token : OAuthTokenResponse) : Env bareCrates
  | .exchangeCode .. | .exchangeRefreshToken .. => .ok token
  | .httpClient secs => bareEnv (.httpClient secs)
  | .exchangeClient => bareEnv .exchangeClient
  | .metadata client url header => bareEnv (.metadata client url header)
  | .registration client url request => bareEnv (.registration client url request)
  | .authorizeUrl client scopes => bareEnv (.authorizeUrl client scopes)
  | .now _ => now

abbrev issuing (token : OAuthTokenResponse) : Issuance bareCrates :=
  ⟨envIssuing 100 token, token, fun _ _ _ _ _ => rfl, fun _ _ _ => rfl⟩

/-- A manager that waits for the code. -/
abbrev codeManager : AuthorizationManager bareCrates :=
  { expiredManager with credentials := none, pkceVerifier := some "verifier", expiresAt := none }

/-- `codeManager` once it has been given a token, at the instant 100. -/
abbrev tokenManager (token : OAuthTokenResponse) : AuthorizationManager bareCrates :=
  { codeManager with pkceVerifier := none }.storing token 100

theorem refresh_token_kept_iff_rotated :
    Transition.Always refresh KeepsRefreshToken (tokenManager ⟨"first", some "r1", some 3600⟩)
        [issuing ⟨"second", some "r2", some 3600⟩, issuing ⟨"third", some "r3", some 60⟩] ↔
      ∀ i ∈ [issuing ⟨"second", some "r2", some 3600⟩, issuing ⟨"third", some "r3", some 60⟩],
        i.token.refreshToken.isSome :=
  have hexchange : codeManager.exec (issuing ⟨"first", some "r1", some 3600⟩).env
      (codeManager.exchangeCodeForToken "code") =
    some (.ok ⟨"first", some "r1", some 3600⟩, tokenManager ⟨"first", some "r1", some 3600⟩) := rfl
  have hrun : Transition.Run refresh (tokenManager ⟨"first", some "r1", some 3600⟩)
      [issuing ⟨"second", some "r2", some 3600⟩, issuing ⟨"third", some "r3", some 60⟩]
      (tokenManager ⟨"third", some "r3", some 60⟩) := Transition.run_of_exec rfl
  refresh_token_kept_iff hexchange rfl hrun

/-- A refresh is answered without a refresh token. The old one is gone, and the next call of
`refresh_token` fails. -/
theorem refresh_token_lost : ∃ m m',
    codeManager.exec bareEnv (codeManager.exchangeCodeForToken "code") =
      some (.ok ⟨"new", some "refresh", some 3600⟩, m) ∧
    Transition.Run refresh m [issuing ⟨"second", none, some 3600⟩] m' ∧
    ¬ Transition.Always refresh KeepsRefreshToken m [issuing ⟨"second", none, some 3600⟩] ∧
    m'.exec bareEnv m'.refreshToken =
      some (.error (.tokenRefreshFailed "No refresh token available"), m') := by
  refine ⟨tokenManager ⟨"new", some "refresh", some 3600⟩,
    tokenManager ⟨"second", none, some 3600⟩, rfl, Transition.run_of_exec rfl, ?_, rfl⟩
  rintro ⟨hkeeps, -⟩
  obtain ⟨hstored, -⟩ := hkeeps (.ok ⟨"second", none, some 3600⟩) _ rfl
  cases hstored

/-! ## The expiry -/

def OAuthState.withManager (s : OAuthState C) (manager : AuthorizationManager C) : OAuthState C :=
  match s with
  | .unauthorized _ => .unauthorized manager
  | .session opened => .session { opened with authManager := manager }
  | .authorized _ => .authorized manager
  | .authorizedHttpClient client => .authorizedHttpClient { client with authManager := manager }

@[simp] theorem OAuthState.withManager_manager (s : OAuthState C)
    (manager : AuthorizationManager C) : (s.withManager manager).manager = manager := by
  cases s <;> rfl

/-- The state, and when the credentials were obtained that are stored in it. -/
structure Holding (C : Crates) where
  state : OAuthState C
  obtained : Nat

def Holding.manager (h : Holding C) : AuthorizationManager C := h.state.manager

/-- A step that gives the manager credentials, or a new verifier to obtain some with. -/
inductive TokenStep (C : Crates)
  | getAuthorizationUrl (env : Env C) (scopes : List String)
  | exchangeCodeForToken (issued : Issuance C) (code : String)
  | refreshToken (issued : Issuance C)
  | setCredentials (env : Env C) (clientId : String) (credentials : OAuthTokenResponse)
      (obtained : Nat)

namespace Holding

/-- A method of the manager, when it succeeds. -/
def call {ρ : Type} (h : Holding C) (env : Env C) (p : AuthProg C (Except AuthError ρ))
    (obtained : Nat) : Option (Holding C) :=
  match h.manager.exec env p with
  | some (.ok _, manager) => some ⟨h.state.withManager manager, obtained⟩
  | some (.error _, _) | none => none

/-- The steps that succeed. -/
def step (h : Holding C) : TokenStep C → Option (Holding C)
  | .getAuthorizationUrl env scopes =>
    h.call env (h.manager.getAuthorizationUrl scopes) h.obtained
  | .exchangeCodeForToken issued code =>
    h.call issued.env (h.manager.exchangeCodeForToken code) (issued.env (.now .tokenExchanged))
  | .refreshToken issued =>
    h.call issued.env h.manager.refreshToken (issued.env (.now .tokenRefreshed))
  | .setCredentials env clientId credentials obtained =>
    match h.state.setCredentials env clientId credentials with
    | some (.ok (), state) => some ⟨state, obtained⟩
    | some (.error _, _) | none => none

/-- When the stored credentials expire. -/
def expiry (h : Holding C) : Option Nat := h.manager.storedExpiresIn.map (h.obtained + ·)

/-- `get_access_token` makes a refresh request. -/
def Refreshes (h : Holding C) (env : Env C) : Prop :=
  ∃ client http refreshToken,
    .exchangeRefreshToken client http refreshToken ∈ asked env h.manager.getAccessToken [] h.manager.memory

/-- What is stored as the expiry is that of the stored credentials, and it is by theirs that
`get_access_token` goes. -/
structure Described (h : Holding C) : Prop where
  expiresAt : h.manager.expiresAt = h.expiry
  refreshes : ∀ env, h.manager.CanRefresh →
    (h.Refreshes env ↔ ∃ t ∈ h.expiry, t < env (.now .expiryChecked))

theorem refreshes_iff {h : Holding C} (hcan : h.manager.CanRefresh) (env : Env C) :
    h.Refreshes env ↔ ∃ t ∈ h.manager.expiresAt, t < env (.now .expiryChecked) := by
  obtain ⟨client, hclient⟩ := Option.isSome_iff_exists.mp hcan.client
  obtain ⟨refreshToken, hstored⟩ := Option.isSome_iff_exists.mp hcan.token
  obtain ⟨creds, hcreds, htoken⟩ := Option.bind_eq_some_iff.mp hstored
  cases hexpires : h.manager.expiresAt with
  | none => simp [Refreshes, getAccessToken, hcreds, hexpires, memory, conflict]
  | some t =>
    by_cases hlt : t < env (.now .expiryChecked)
    · refine iff_of_true ⟨client, h.manager.httpClient, refreshToken, ?_⟩ ⟨t, rfl, hlt⟩
      simp [getAccessToken, AuthorizationManager.refreshToken, hclient, hcreds, htoken, hexpires,
        hlt, memory, conflict]
    · simp [Refreshes, getAccessToken, hcreds, hexpires, hlt, memory, conflict]

theorem described_iff (h : Holding C) : h.Described ↔ h.manager.expiresAt = h.expiry := by
  constructor
  · exact Described.expiresAt
  · intro hexpires
    refine ⟨hexpires, fun env hcan => ?_⟩
    rw [refreshes_iff hcan, hexpires]

/-- The expiry that a step leaves behind is that of the credentials that it stores: a token that
arrives without one does not come after credentials with one, and credentials that are set
expire when the ones before them did. -/
def Describes (h : Holding C) : TokenStep C → Prop
  | .getAuthorizationUrl _ _ => True
  | .exchangeCodeForToken issued _ | .refreshToken issued =>
    issued.token.expiresIn = none → h.manager.storedExpiresIn = none
  | .setCredentials _ _ credentials obtained =>
    credentials.expiresIn.map (obtained + ·) = h.expiry

/-! ### The steps -/

theorem call_eq {ρ : Type} {h h' : Holding C} {env : Env C} {p : AuthProg C (Except AuthError ρ)}
    {obtained : Nat} (hcall : h.call env p obtained = some h') :
    ∃ result, h.manager.exec env p = some (.ok result, h'.manager) ∧ h'.obtained = obtained := by
  unfold call at hcall
  split at hcall
  · next result manager hexec =>
    cases hcall
    refine ⟨result, hexec.trans ?_, rfl⟩
    rw [Holding.manager, OAuthState.withManager_manager]
  all_goals cases hcall

theorem getAuthorizationUrl_eq {h h' : Holding C} {env : Env C} {scopes : List String}
    (hs : h.step (.getAuthorizationUrl env scopes) = some h') :
    h'.obtained = h.obtained ∧ h'.manager.credentials = h.manager.credentials ∧
      h'.manager.expiresAt = h.manager.expiresAt := by
  obtain ⟨url, hexec, hobtained⟩ := call_eq hs
  cases hclient : h.manager.oauthClient with
  | none => simp [exec, getAuthorizationUrl, hclient] at hexec
  | some client =>
    simp [exec, getAuthorizationUrl, hclient, conflict] at hexec
    obtain ⟨-, hmanager⟩ := hexec
    rw [← hmanager]
    exact ⟨hobtained, rfl, rfl⟩

/-- A token that arrives. -/
theorem issued_eq {h h' : Holding C} {issued : Issuance C}
    (hs : (∃ code, h.step (.exchangeCodeForToken issued code) = some h') ∨
      h.step (.refreshToken issued) = some h') :
    h'.manager.credentials = some issued.token ∧
      h'.manager.expiresAt =
        (issued.token.expiresIn.map (h'.obtained + ·)).or h.manager.expiresAt := by
  rcases hs with ⟨code, hs⟩ | hs
  · obtain ⟨token, hexec, hobtained⟩ := call_eq hs
    obtain ⟨-, -, hmanager⟩ := exec_exchangeCodeForToken issued hexec
    rw [hmanager, hobtained]
    exact ⟨rfl, rfl⟩
  · obtain ⟨token, hexec, hobtained⟩ := call_eq hs
    rw [exec_refreshToken_ok issued hexec, hobtained]
    exact ⟨rfl, rfl⟩

/-- `set_credentials`, when it succeeds. -/
theorem setCredentials_ok {env : Env C} {s s' : OAuthState C} {clientId : String}
    {credentials : OAuthTokenResponse}
    (h : s.setCredentials env clientId credentials = some (.ok (), s')) :
    ∃ metadata client, s' = .authorized
      { s.manager with
        credentials := some credentials, metadata := some metadata, oauthClient := some client } := by
  cases s with
  | unauthorized m =>
    have hwritten : m.exec env (Lock.credentials.writeOnce (some credentials)) =
        some ((), { m with credentials := some credentials }) := rfl
    simp only [OAuthState.setCredentials, hwritten, Option.bind_some] at h
    cases hnew : AuthorizationManager.new env "http://localhost" with
    | error e => simp [hnew] at h
    | ok placeholder =>
      cases hmetadata : ({ m with credentials := some credentials } :
          AuthorizationManager C).discoverMetadata env with
      | error e => simp [hnew, hmetadata] at h
      | ok metadata =>
        rcases AuthorizationManager.configureClient_cases
          { m with credentials := some credentials, metadata := some metadata } rfl
          ⟨clientId, none, [], C.display m.baseUrl⟩ with ⟨-, client, heq⟩ | ⟨-, e, heq⟩
        · simp [hnew, hmetadata, AuthorizationManager.configureClientId, heq] at h
          exact ⟨metadata, client, h.symm⟩
        · simp [hnew, hmetadata, AuthorizationManager.configureClientId, heq] at h
  | _ => cases h

theorem setCredentials_eq {h h' : Holding C} {env : Env C} {clientId : String}
    {credentials : OAuthTokenResponse} {obtained : Nat}
    (hs : h.step (.setCredentials env clientId credentials obtained) = some h') :
    h'.obtained = obtained ∧ h'.manager.credentials = some credentials ∧
      h'.manager.expiresAt = h.manager.expiresAt := by
  simp only [step] at hs
  split at hs
  · next state hset =>
    cases hs
    obtain ⟨metadata, client, rfl⟩ := setCredentials_ok hset
    exact ⟨rfl, rfl, rfl⟩
  all_goals cases hs

/-! ### The runs -/

/-- What a step has stored can be described iff the step can. -/
theorem step_described_iff {h h' : Holding C} {a : TokenStep C} (hh : h.Described)
    (hs : h.step a = some h') : h'.Described ↔ h.Describes a := by
  have hbefore := h.described_iff.mp hh
  rw [described_iff]
  cases a with
  | getAuthorizationUrl env scopes =>
    obtain ⟨hobtained, hcreds, hexpires⟩ := getAuthorizationUrl_eq hs
    refine iff_of_true ?_ trivial
    rw [hexpires, hbefore, expiry, expiry, storedExpiresIn, storedExpiresIn, hcreds, hobtained]
  | exchangeCodeForToken issued code =>
    obtain ⟨hcreds, hexpires⟩ := issued_eq (.inl ⟨code, hs⟩)
    cases hd : issued.token.expiresIn <;>
      simp [Describes, expiry, storedExpiresIn, hcreds, hexpires, hbefore, hd]
  | refreshToken issued =>
    obtain ⟨hcreds, hexpires⟩ := issued_eq (.inr hs)
    cases hd : issued.token.expiresIn <;>
      simp [Describes, expiry, storedExpiresIn, hcreds, hexpires, hbefore, hd]
  | setCredentials env clientId credentials obtained =>
    obtain ⟨hobtained, hcreds, hexpires⟩ := setCredentials_eq hs
    have hafter : h'.expiry = credentials.expiresIn.map (obtained + ·) := by
      rw [expiry, storedExpiresIn, hcreds, hobtained]
      rfl
    rw [hexpires, hbefore, hafter]
    exact eq_comm

/-- From a manager that holds nothing: the expiry that is stored always describes the stored
credentials iff every step leaves one that does. -/
theorem expiry_described_iff {h h' : Holding C} {steps : List (TokenStep C)}
    (hcreds : h.manager.credentials = none) (hexpires : h.manager.expiresAt = none)
    (hrun : Transition.Run step h steps h') :
    Transition.Always step (fun h a => ∀ h', h.step a = some h' → h'.Described) h steps ↔
      Transition.Always step Describes h steps := by
  have hstart : h.Described := by
    rw [described_iff, hexpires, expiry, storedExpiresIn, hcreds]
    rfl
  refine hrun.always_iff (P := fun _ h => h.Described) hstart ?_
  intro _ h h' a _ hh hs
  have hiff := step_described_iff hh hs
  simp only [hs, Option.some.injEq, forall_eq']
  exact ⟨hiff, hiff.mpr⟩

end Holding

/-- A session that waits for the code. -/
abbrev codeHolding : Holding bareCrates :=
  ⟨.session ⟨codeManager, "https://example.com/authorize", "https://example.com/mcp"⟩, 0⟩

/-- `codeHolding` once it has been given a token, at the instant 100. -/
abbrev tokenHolding (token : OAuthTokenResponse) : Holding bareCrates :=
  ⟨codeHolding.state.withManager (tokenManager token), 100⟩

theorem expiry_described_iff_renewed :
    Transition.Always Holding.step (fun h a => ∀ h', h.step a = some h' → h'.Described) codeHolding
        [.exchangeCodeForToken (issuing ⟨"first", some "r1", some 3600⟩) "code",
          .refreshToken (issuing ⟨"second", some "r2", some 60⟩)] ↔
      Transition.Always Holding.step Holding.Describes codeHolding
        [.exchangeCodeForToken (issuing ⟨"first", some "r1", some 3600⟩) "code",
          .refreshToken (issuing ⟨"second", some "r2", some 60⟩)] :=
  have hrun : Transition.Run Holding.step codeHolding
      [.exchangeCodeForToken (issuing ⟨"first", some "r1", some 3600⟩) "code",
        .refreshToken (issuing ⟨"second", some "r2", some 60⟩)]
      (tokenHolding ⟨"second", some "r2", some 60⟩) := Transition.run_of_exec rfl
  Holding.expiry_described_iff rfl rfl hrun

/-- The second token never expires, and is refreshed once the first one would have. -/
theorem expiry_outlives_token : ∃ h,
    Transition.Run Holding.step codeHolding
      [.exchangeCodeForToken (issuing ⟨"first", some "r1", some 3600⟩) "code",
        .refreshToken (issuing ⟨"second", some "r2", none⟩)] h ∧
    h.manager.credentials = some ⟨"second", some "r2", none⟩ ∧ h.manager.expiresAt = some 3700 ∧
    h.Refreshes (envIssuing 3701 ⟨"third", some "r3", none⟩) ∧ ¬ h.Described := by
  let stale : AuthorizationManager bareCrates :=
    { tokenManager ⟨"second", some "r2", none⟩ with expiresAt := some 3700 }
  refine ⟨⟨codeHolding.state.withManager stale, 100⟩, Transition.run_of_exec rfl, rfl, rfl, ?_, ?_⟩
  · exact (Holding.refreshes_iff ⟨rfl, rfl⟩ _).mpr ⟨3700, rfl, by decide⟩
  · intro hdescribed
    cases hdescribed.expiresAt

end Rmcp.Auth
