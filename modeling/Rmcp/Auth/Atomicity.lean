import Rmcp.Auth.State
import Rmcp.Auth.TokenAccess

/-!
# What an operation leaves behind when it fails

Every operation but `handle_callback` swaps a placeholder in before it knows that it will
succeed, and none swaps the old value back. A failed operation leaves the state as it was
only where it never got that far, or where nobody can tell the placeholder from the manager
that was there.

Results:
1. `configureClient_ok_iff`, `AuthorizationSession.new_ok_iff`: when a client is configured.
2. `atomic_on_error_iff`: the operations and states that are atomic on error.
-/

namespace Rmcp.Auth

open LockProg

variable {C : Crates}

/-! ## The same state -/

/-- The same base URL, configured client and stored credentials. -/
structure AuthorizationManager.SameAs (m m' : AuthorizationManager C) : Prop where
  baseUrl : m.baseUrl = m'.baseUrl
  oauthClient : m.oauthClient = m'.oauthClient
  credentials : m.credentials = m'.credentials

inductive OAuthState.Variant
  | unauthorized
  | session
  | authorized
  | authorizedHttpClient
deriving DecidableEq

def OAuthState.variant : OAuthState C → OAuthState.Variant
  | .unauthorized _ => .unauthorized
  | .session _ => .session
  | .authorized _ => .authorized
  | .authorizedHttpClient _ => .authorizedHttpClient

def OAuthState.manager : OAuthState C → AuthorizationManager C
  | .unauthorized manager => manager
  | .session s => s.authManager
  | .authorized manager => manager
  | .authorizedHttpClient client => client.authManager

structure OAuthState.SameAs (s s' : OAuthState C) : Prop where
  variant : s.variant = s'.variant
  manager : s.manager.SameAs s'.manager

theorem OAuthState.SameAs.refl (s : OAuthState C) : s.SameAs s := ⟨rfl, rfl, rfl, rfl⟩

/-- If the operation fails, the state is what it was. -/
def AtomicOnError (env : Env C) (s : OAuthState C) (op : Operation) : Prop :=
  ∀ e s', s.apply env op = some (.error e, s') → s.SameAs s'

theorem atomicOnError_of_error {env : Env C} {s s' : OAuthState C} {op : Operation}
    {e : AuthError} (h : s.apply env op = some (.error e, s')) :
    AtomicOnError env s op ↔ s.SameAs s' := by
  constructor
  · intro hatomic
    exact hatomic e s' h
  · intro hsame e' s'' h'
    cases h.symm.trans h'
    exact hsame

theorem atomicOnError_of_ok {env : Env C} {s s' : OAuthState C} {op : Operation}
    (h : s.apply env op = some (.ok (), s')) : AtomicOnError env s op := by
  intro e s'' h'
  cases h.symm.trans h'

/-! ## Configuring a client -/

def Crates.Parses (C : Crates) (url : String) : Prop := ∃ u, C.parse url = .ok u

/-- The URLs that a client is configured with can be parsed. -/
structure AuthorizationMetadata.Usable (C : Crates) (metadata : AuthorizationMetadata)
    (redirectUri : String) : Prop where
  authorization : C.Parses metadata.authorizationEndpoint
  token : C.Parses metadata.tokenEndpoint
  redirect : C.Parses redirectUri

namespace AuthorizationManager

theorem checkUrl_cases (C : Crates) (url message : String) :
    (C.Parses url ∧ checkUrl C url message = .ok url) ∨
      (¬ C.Parses url ∧ ∃ e, checkUrl C url message = .error e) := by
  unfold checkUrl
  cases h : C.parse url with
  | ok u => exact .inl ⟨⟨u, h⟩, rfl⟩
  | error e => exact .inr ⟨by simp [Crates.Parses, h], _, rfl⟩

/-- A manager that knows its metadata can be configured if the URLs can be parsed, and then
has a client and is otherwise what it was. -/
theorem configureClient_cases (m : AuthorizationManager C) {metadata : AuthorizationMetadata}
    (h : m.metadata = some metadata) (config : OAuthClientConfig) :
    (metadata.Usable C config.redirectUri ∧
      ∃ client, m.configureClient config = .ok { m with oauthClient := some client }) ∨
    (¬ metadata.Usable C config.redirectUri ∧ ∃ e, m.configureClient config = .error e) := by
  simp only [configureClient, h]
  rcases checkUrl_cases C metadata.authorizationEndpoint "Invalid authorization URL: " with
    ⟨hauth, heq⟩ | ⟨hauth, e, heq⟩
  · rw [heq]
    rcases checkUrl_cases C metadata.tokenEndpoint "Invalid token URL: " with
      ⟨htoken, heq⟩ | ⟨htoken, e, heq⟩
    · rcases checkUrl_cases C config.redirectUri "Invalid re URL: " with
        ⟨hredirect, heq'⟩ | ⟨hredirect, e, heq'⟩
      · exact .inl ⟨⟨hauth, htoken, hredirect⟩, _, by rw [heq, heq']; rfl⟩
      · exact .inr ⟨fun husable => hredirect husable.redirect, e, by rw [heq, heq']; rfl⟩
    · exact .inr ⟨fun husable => htoken husable.token, e, by rw [heq]; rfl⟩
  · exact .inr ⟨fun husable => hauth husable.authorization, e, by rw [heq]; rfl⟩

/-- What a successful registration has configured. -/
theorem registerClient_ok {m m' : AuthorizationManager C} {env : Env C} {name redirectUri : String}
    {config : OAuthClientConfig}
    (h : m.registerClient env name redirectUri = .ok (config, m')) :
    config.redirectUri = redirectUri ∧ m'.metadata = m.metadata := by
  unfold registerClient at h
  split at h
  · cases h
  · next metadata hmetadata =>
    dsimp only at h
    split at h
    · cases h
    · split at h
      · split at h
        · cases h
        · next registered _ =>
          rcases m.configureClient_cases hmetadata
            ⟨registered.clientId, registered.clientSecret, [], redirectUri⟩ with
            ⟨-, client, heq⟩ | ⟨-, e, heq⟩
          · rw [heq] at h
            cases h
            exact ⟨rfl, rfl⟩
          · rw [heq] at h
            cases h
      · cases h

/-- The URL of a configured client. -/
theorem exec_getAuthorizationUrl {m : AuthorizationManager C} {client : OAuthClient}
    (h : m.oauthClient = some client) (env : Env C) (scopes : List String) :
    ∃ authUrl m', m.exec env (m.getAuthorizationUrl scopes) = some (.ok authUrl, m') := by
  simp [exec, getAuthorizationUrl, h, conflict]

/-- The server is discovered, and the URLs that a client needs can be parsed. -/
def Configurable (m : AuthorizationManager C) (env : Env C) (redirectUri : String) : Prop :=
  ∃ metadata, m.discoverMetadata env = .ok metadata ∧ metadata.Usable C redirectUri

end AuthorizationManager

theorem AuthorizationSession.openWith_cases {m : AuthorizationManager C} (env : Env C)
    {metadata : AuthorizationMetadata} (h : m.metadata = some metadata)
    (config : OAuthClientConfig) (scopes : List String) :
    (metadata.Usable C config.redirectUri ∧
      ∃ opened, AuthorizationSession.openWith env m config scopes = some (.ok opened)) ∨
    (¬ metadata.Usable C config.redirectUri ∧
      ∃ e, AuthorizationSession.openWith env m config scopes = some (.error e)) := by
  unfold AuthorizationSession.openWith
  rcases m.configureClient_cases h config with ⟨husable, client, heq⟩ | ⟨husable, e, heq⟩
  · obtain ⟨authUrl, m', hurl⟩ := AuthorizationManager.exec_getAuthorizationUrl
      (m := { m with oauthClient := some client }) rfl env scopes
    exact .inl ⟨husable, ⟨m', authUrl, config.redirectUri⟩, by simp [heq, hurl, Except.map]⟩
  · exact .inr ⟨husable, e, by rw [heq]⟩

/-- A session opens if a client can be configured, registered or not. -/
theorem AuthorizationSession.new_cases {m : AuthorizationManager C} (env : Env C)
    {metadata : AuthorizationMetadata} (h : m.metadata = some metadata) (scopes : List String)
    (redirectUri : String) :
    (metadata.Usable C redirectUri ∧
      ∃ opened, AuthorizationSession.new env m scopes redirectUri = some (.ok opened)) ∨
    (¬ metadata.Usable C redirectUri ∧
      ∃ e, AuthorizationSession.new env m scopes redirectUri = some (.error e)) := by
  unfold AuthorizationSession.new
  cases hregister : m.registerClient env "MCP Client" redirectUri with
  | error e => exact openWith_cases env h ⟨"mcp-client", none, scopes, redirectUri⟩ scopes
  | ok registered =>
    obtain ⟨config, m'⟩ := registered
    obtain ⟨rfl, hmetadata⟩ := AuthorizationManager.registerClient_ok hregister
    exact openWith_cases env (hmetadata.trans h) config scopes

/-! ## The operations -/

section

variable {env : Env C} {placeholder : AuthorizationManager C}
  (hnew : AuthorizationManager.new env "http://localhost" = .ok placeholder)
include hnew

theorem setCredentials_cases (m : AuthorizationManager C) (clientId : String)
    (credentials : OAuthTokenResponse) :
    (m.Configurable env (C.display m.baseUrl) ∧ ∃ s', (OAuthState.unauthorized m).apply env
      (.setCredentials clientId credentials) = some (.ok (), s')) ∨
    (¬ m.Configurable env (C.display m.baseUrl) ∧ ∃ e, (OAuthState.unauthorized m).apply env
      (.setCredentials clientId credentials) = some (.error e, .unauthorized placeholder)) := by
  have hwritten : m.exec env (Lock.credentials.writeOnce (some credentials)) =
      some ((), { m with credentials := some credentials }) := rfl
  have hdiscover : ({ m with credentials := some credentials } :
      AuthorizationManager C).discoverMetadata env = m.discoverMetadata env := rfl
  simp only [OAuthState.apply, OAuthState.setCredentials, hnew, hwritten, Option.bind_some,
    hdiscover]
  cases hmetadata : m.discoverMetadata env with
  | error e => exact .inr ⟨by simp [AuthorizationManager.Configurable, hmetadata], e, rfl⟩
  | ok metadata =>
    have hconfigurable : m.Configurable env (C.display m.baseUrl) ↔
        metadata.Usable C (C.display m.baseUrl) := by
      simp [AuthorizationManager.Configurable, hmetadata]
    rcases AuthorizationManager.configureClient_cases
      { m with credentials := some credentials, metadata := some metadata } rfl
      ⟨clientId, none, [], C.display m.baseUrl⟩ with
      ⟨husable, client, heq⟩ | ⟨husable, e, heq⟩
    · let configured : AuthorizationManager C :=
        { m with
          credentials := some credentials, metadata := some metadata, oauthClient := some client }
      refine .inl ⟨hconfigurable.mpr husable, .authorized configured, ?_⟩
      simp only [AuthorizationManager.configureClientId, heq, configured]
    · refine .inr ⟨fun h => husable (hconfigurable.mp h), e, ?_⟩
      simp only [AuthorizationManager.configureClientId, heq]

theorem startAuthorization_cases (m : AuthorizationManager C) (scopes : List String)
    (redirectUri : String) :
    (m.Configurable env redirectUri ∧ ∃ s', (OAuthState.unauthorized m).apply env
      (.startAuthorization scopes redirectUri) = some (.ok (), s')) ∨
    (¬ m.Configurable env redirectUri ∧ ∃ e, (OAuthState.unauthorized m).apply env
      (.startAuthorization scopes redirectUri) = some (.error e, .unauthorized placeholder)) := by
  simp only [OAuthState.apply, OAuthState.startAuthorization, hnew]
  cases hmetadata : m.discoverMetadata env with
  | error e => exact .inr ⟨by simp [AuthorizationManager.Configurable, hmetadata], e, rfl⟩
  | ok metadata =>
    have hconfigurable : m.Configurable env redirectUri ↔ metadata.Usable C redirectUri := by
      simp [AuthorizationManager.Configurable, hmetadata]
    rcases AuthorizationSession.new_cases (m := { m with metadata := some metadata }) env rfl scopes
      redirectUri with ⟨husable, opened, heq⟩ | ⟨husable, e, heq⟩
    · exact .inl ⟨hconfigurable.mpr husable, .session opened, by simp only [heq, Option.map_some]⟩
    · exact .inr ⟨fun h => husable (hconfigurable.mp h), e, by simp only [heq, Option.map_some]⟩

/-- The operations that swap the placeholder in before they look at the variant. -/
theorem startAuthorization_wrong {s : OAuthState C} (hs : s.variant ≠ .unauthorized)
    (scopes : List String) (redirectUri : String) :
    s.apply env (.startAuthorization scopes redirectUri) =
      some (.error (.internalError "Already in session state"), .unauthorized placeholder) := by
  cases s with
  | unauthorized m => exact absurd rfl hs
  | _ => simp only [OAuthState.apply, OAuthState.startAuthorization, hnew]

theorem completeAuthorization_wrong {s : OAuthState C} (hs : s.variant ≠ .session) :
    s.apply env .completeAuthorization =
      some (.error (.internalError "Not in session state"), .unauthorized placeholder) := by
  cases s with
  | session opened => exact absurd rfl hs
  | _ => simp only [OAuthState.apply, OAuthState.completeAuthorization, hnew]

theorem toAuthorizedHttpClient_wrong {s : OAuthState C} (hs : s.variant ≠ .authorized) :
    s.apply env .toAuthorizedHttpClient =
      some (.error (.internalError "Not in authorized state"), .authorized placeholder) := by
  cases s with
  | authorized m => exact absurd rfl hs
  | _ => simp only [OAuthState.apply, OAuthState.toAuthorizedHttpClient, hnew]

/-- `handle_callback` only borrows the session until the code has been exchanged. -/
theorem handleCallback_atomic (s : OAuthState C) (code : String) :
    AtomicOnError env s (.handleCallback code) := by
  cases s with
  | session opened =>
    intro e s' h
    simp only [OAuthState.apply, OAuthState.handleCallback, AuthorizationSession.handleCallback,
      AuthorizationManager.exec] at h
    rcases opened.authManager.run_exchangeCodeForToken env code with
      ⟨e', memory, hrun, hcredentials⟩ | ⟨token, memory, hrun⟩ | hrun
    · rw [hrun] at h
      cases h
      exact ⟨rfl, rfl, rfl, hcredentials.symm⟩
    · simp [hrun, OAuthState.completeAuthorization, hnew] at h
    · simp [hrun] at h
  | unauthorized m => exact (atomicOnError_of_error rfl).mpr (.refl _)
  | authorized m => exact (atomicOnError_of_error rfl).mpr (.refl _)
  | authorizedHttpClient client => exact (atomicOnError_of_error rfl).mpr (.refl _)

end

/-! ## Which operations are atomic -/

/-- The condition on an operation and the state that it meets. -/
def KeepsOnError (env : Env C) (placeholder : AuthorizationManager C) :
    OAuthState C → Operation → Prop
  -- it succeeds, or the placeholder cannot be told from the manager that was there
  | .unauthorized m, .setCredentials _ _ =>
    m.Configurable env (C.display m.baseUrl) ∨ m.SameAs placeholder
  | .unauthorized m, .startAuthorization _ redirectUri =>
    m.Configurable env redirectUri ∨ m.SameAs placeholder
  | .unauthorized m, .completeAuthorization => m.SameAs placeholder
  -- it always succeeds
  | .session _, .completeAuthorization => True
  | .authorized _, .toAuthorizedHttpClient => True
  -- it looks at the variant first
  | _, .setCredentials _ _ => True
  | _, .handleCallback _ => True
  -- it fails, and leaves another variant behind
  | _, .startAuthorization _ _ => False
  | _, .completeAuthorization => False
  | _, .toAuthorizedHttpClient => False

theorem sameAs_unauthorized {m placeholder : AuthorizationManager C} :
    (OAuthState.unauthorized m).SameAs (.unauthorized placeholder) ↔ m.SameAs placeholder :=
  ⟨fun h => h.manager, fun h => ⟨rfl, h⟩⟩

theorem not_atomicOnError {env : Env C} {s s' : OAuthState C} {op : Operation} {e : AuthError}
    (h : s.apply env op = some (.error e, s')) (hvariant : s.variant ≠ s'.variant) :
    ¬ AtomicOnError env s op :=
  fun hatomic => hvariant ((atomicOnError_of_error h).mp hatomic).variant

/-- Given that the placeholder can be made: the exact operations and states that are atomic on
error. -/
theorem atomic_on_error_iff {env : Env C} {placeholder : AuthorizationManager C}
    (hnew : AuthorizationManager.new env "http://localhost" = .ok placeholder)
    (s : OAuthState C) (op : Operation) :
    AtomicOnError env s op ↔ KeepsOnError env placeholder s op := by
  cases op with
  | setCredentials clientId credentials =>
    cases s with
    | unauthorized m =>
      rcases setCredentials_cases hnew m clientId credentials with ⟨hok, s', h⟩ | ⟨hok, e, h⟩
      · exact iff_of_true (atomicOnError_of_ok h) (.inl hok)
      · rw [atomicOnError_of_error h, sameAs_unauthorized]
        exact (or_iff_right hok).symm
    | _ => exact iff_of_true ((atomicOnError_of_error rfl).mpr (.refl _)) trivial
  | startAuthorization scopes redirectUri =>
    have hwrong := fun s hs => startAuthorization_wrong (s := s) hnew hs scopes redirectUri
    cases s with
    | unauthorized m =>
      rcases startAuthorization_cases hnew m scopes redirectUri with ⟨hok, s', h⟩ | ⟨hok, e, h⟩
      · exact iff_of_true (atomicOnError_of_ok h) (.inl hok)
      · rw [atomicOnError_of_error h, sameAs_unauthorized]
        exact (or_iff_right hok).symm
    | _ => exact iff_of_false (not_atomicOnError (hwrong _ nofun) nofun) id
  | completeAuthorization =>
    have hwrong := fun s hs => completeAuthorization_wrong (s := s) hnew hs
    cases s with
    | unauthorized m =>
      rw [atomicOnError_of_error (hwrong (.unauthorized m) nofun)]
      exact sameAs_unauthorized
    | session opened =>
      have hok : (OAuthState.session opened).apply env .completeAuthorization =
          some (.ok (), .authorized opened.authManager) := by
        simp only [OAuthState.apply, OAuthState.completeAuthorization, hnew]
      exact iff_of_true (atomicOnError_of_ok hok) trivial
    | _ => exact iff_of_false (not_atomicOnError (hwrong _ nofun) nofun) id
  | toAuthorizedHttpClient =>
    have hwrong := fun s hs => toAuthorizedHttpClient_wrong (s := s) hnew hs
    cases s with
    | authorized m =>
      have hok : (OAuthState.authorized m).apply env .toAuthorizedHttpClient =
          some (.ok (), .authorizedHttpClient (.new m none)) := by
        simp only [OAuthState.apply, OAuthState.toAuthorizedHttpClient, hnew]
      exact iff_of_true (atomicOnError_of_ok hok) trivial
    | _ => exact iff_of_false (not_atomicOnError (hwrong _ nofun) nofun) id
  | handleCallback code =>
    have hatomic := handleCallback_atomic hnew s code
    cases s <;> exact iff_of_true hatomic trivial

/-- A state with stored credentials. -/
def authorizedState : OAuthState bareCrates := .authorized expiredManager

/-- Of two operations on it that are only for other states, one is atomic. -/
theorem atomic_on_error_iff_authorizedState :
    ∃ placeholder, AuthorizationManager.new bareEnv "http://localhost" = .ok placeholder ∧
      (AtomicOnError bareEnv authorizedState (.handleCallback "code") ↔ True) ∧
      (AtomicOnError bareEnv authorizedState .completeAuthorization ↔ False) := by
  have hnew : ∃ placeholder, AuthorizationManager.new bareEnv "http://localhost" =
      .ok placeholder := ⟨_, rfl⟩
  obtain ⟨placeholder, hnew⟩ := hnew
  exact ⟨placeholder, hnew, atomic_on_error_iff hnew authorizedState (.handleCallback "code"),
    atomic_on_error_iff hnew authorizedState .completeAuthorization⟩

/-- Completing an authorization in the wrong state discards the stored credentials, and
asking an unauthorized state for a client moves it to `Authorized`. -/
theorem not_atomic_on_error :
    (∃ placeholder, AuthorizationManager.new bareEnv "http://localhost" = .ok placeholder) ∧
    ¬ AtomicOnError bareEnv authorizedState .completeAuthorization ∧
    (∃ e s', authorizedState.apply bareEnv .completeAuthorization = some (.error e, s') ∧
      authorizedState.manager.credentials.isSome ∧ s'.manager.credentials = none) ∧
    ∃ e s', (OAuthState.unauthorized expiredManager).apply bareEnv .toAuthorizedHttpClient =
      some (.error e, s') ∧ s'.variant = .authorized := by
  refine ⟨⟨_, rfl⟩, fun hatomic => ?_, ⟨_, _, rfl, rfl, rfl⟩, _, _, rfl, rfl⟩
  have hvariant : OAuthState.Variant.authorized = .unauthorized := (hatomic _ _ rfl).variant
  cases hvariant

end Rmcp.Auth
