import Rmcp.Model.Json
import Rmcp.Support.LockProg
import Mathlib.Algebra.Group.Nat.Defs

/-!
# The authorization manager

`AuthorizationManager`, the OAuth2 client state behind the HTTP transports. Three of its
fields are behind read-write locks of their own; the methods that use them are programs over
these locks, with every guard taken and dropped where its scope begins and ends. A guard that
is a temporary of a statement lives to the end of that statement.

What the network answers, what the clock reads and what is drawn at random is asked of an
environment. Instants and durations are numbers of one unit.
-/

namespace Rmcp.Auth

open LockProg

/-- What is used of the `url` and `reqwest` crates and of the clock. -/
structure Crates where
  Url : Type
  HttpClient : Type
  intoUrl : String → Except String Url
  /-- `Url::parse`, which `AuthUrl::new`, `TokenUrl::new` and `RedirectUrl::new` check with. -/
  parse : String → Except String Url
  setPath : Url → String → Url
  display : Url → String
  displayStatus : Nat → String
  defaultClient : HttpClient
  /-- The latest instant that an `Instant` can represent. -/
  instantMax : Nat

inductive AuthError
  | authorizationRequired
  | tokenExchangeFailed (reason : String)
  | tokenRefreshFailed (reason : String)
  | httpError (error : String)
  | oauthError (reason : String)
  | metadataError (reason : String)
  | noAuthorizationSupport
  | internalError (reason : String)
  | registrationFailed (reason : String)

structure AuthorizationMetadata where
  authorizationEndpoint : String
  tokenEndpoint : String
  registrationEndpoint : String
  issuer : Option String
  jwksUri : Option String
  scopesSupported : Option (List String)
  additionalFields : JsonObject

structure OAuthClientConfig where
  clientId : String
  clientSecret : Option String
  scopes : List String
  redirectUri : String

/-- A `BasicClient` with its three URLs set. -/
structure OAuthClient where
  clientId : String
  clientSecret : Option String
  authUri : String
  tokenUri : String
  redirectUri : String

structure OAuthTokenResponse where
  accessToken : String
  refreshToken : Option String
  expiresIn : Option Nat

structure ClientRegistrationRequest where
  clientName : String
  redirectUris : List String
  grantTypes : List String
  tokenEndpointAuthMethod : String
  responseTypes : List String

structure ClientRegistrationResponse where
  clientId : String
  clientSecret : Option String

/-- A response: its status, and its body as a text and as a value. -/
structure HttpResponse (β : Type) where
  status : Nat
  text : Except String String
  json : Except String β

/-- `StatusCode::is_success`. -/
def HttpResponse.isSuccess {β : Type} (response : HttpResponse β) : Bool :=
  200 ≤ response.status && response.status < 300

structure AuthorizationManager (C : Crates) where
  httpClient : C.HttpClient
  metadata : Option AuthorizationMetadata
  oauthClient : Option OAuthClient
  /-- `RwLock`. -/
  credentials : Option OAuthTokenResponse
  /-- `RwLock`. -/
  pkceVerifier : Option String
  /-- `RwLock`. -/
  expiresAt : Option Nat
  baseUrl : C.Url

/-! ## The locks and the environment -/

inductive Lock
  | credentials
  | pkceVerifier
  | expiresAt
deriving DecidableEq

/-- What a lock protects. -/
abbrev Lock.Data : Lock → Type
  | .credentials => Option OAuthTokenResponse
  | .pkceVerifier => Option String
  | .expiresAt => Option Nat

/-- Where `Instant::now()` is called. -/
inductive ClockRead
  | tokenExchanged
  | expiryChecked
  | tokenRefreshed

inductive Question (C : Crates)
  | httpClient (timeoutSecs : Nat)
  | metadata (client : C.HttpClient) (url : C.Url) (header : String × String)
  | registration (client : C.HttpClient) (url : String) (request : ClientRegistrationRequest)
  | authorizeUrl (client : OAuthClient) (scopes : List String)
  | exchangeClient
  | exchangeCode (client : OAuthClient) (http : C.HttpClient) (code : String)
      (extraParam : String × String) (pkceVerifier : String)
  | exchangeRefreshToken (client : OAuthClient) (http : C.HttpClient) (refreshToken : String)
  | now (read : ClockRead)

abbrev Question.Answer {C : Crates} : Question C → Type
  | .httpClient _ => Except String C.HttpClient
  | .metadata .. => Except String (HttpResponse AuthorizationMetadata)
  | .registration .. => Except String (HttpResponse ClientRegistrationResponse)
  -- the URL, and the new verifier that its challenge was made from
  | .authorizeUrl .. => String × String
  | .exchangeClient => Except String C.HttpClient
  | .exchangeCode .. => Except String OAuthTokenResponse
  | .exchangeRefreshToken .. => Except String OAuthTokenResponse
  | .now _ => Nat

abbrev Env (C : Crates) := (q : Question C) → q.Answer

abbrev locks (C : Crates) : Signature where
  Lock := Lock
  Data := Lock.Data
  Question := Question C
  Answer := Question.Answer

abbrev AuthProg (C : Crates) := Prog (locks C)

variable {C : Crates}

namespace Lock

abbrev acquire (l : Lock) (m : Mode) : AuthProg C Unit := LockProg.acquire (S := locks C) l m

abbrev release (l : Lock) (m : Mode) : AuthProg C Unit := LockProg.release (S := locks C) l m

abbrev load (l : Lock) : AuthProg C l.Data := LockProg.load (S := locks C) l

abbrev readOnce (l : Lock) : AuthProg C l.Data := LockProg.readOnce (S := locks C) l

abbrev writeOnce (l : Lock) (v : l.Data) : AuthProg C Unit :=
  LockProg.writeOnce (S := locks C) l v

abbrev replaceOnce (l : Lock) (v : l.Data) : AuthProg C l.Data :=
  LockProg.replaceOnce (S := locks C) l v

end Lock

abbrev Question.ask (q : Question C) : AuthProg C q.Answer := LockProg.ask (S := locks C) q

namespace AuthorizationManager

/-- What the locks protect. -/
def memory (m : AuthorizationManager C) : Memory (locks C)
  | .credentials => m.credentials
  | .pkceVerifier => m.pkceVerifier
  | .expiresAt => m.expiresAt

/-- The manager after what the locks protect has changed. -/
def withMemory (m : AuthorizationManager C) (memory : Memory (locks C)) :
    AuthorizationManager C :=
  { m with
    credentials := memory .credentials
    pkceVerifier := memory .pkceVerifier
    expiresAt := memory .expiresAt }

/-- Run a method of a manager that nobody else uses, unless it panics or waits forever. -/
def exec {ρ : Type} (m : AuthorizationManager C) (env : Env C) (p : AuthProg C ρ) :
    Option (ρ × AuthorizationManager C) :=
  match run env p [] m.memory with
  | .returned result _ memory => some (result, m.withMemory memory)
  | .panicked | .waits _ => none

/-! ## Configuration -/

def new (env : Env C) (baseUrl : String) : Except AuthError (AuthorizationManager C) :=
  match C.intoUrl baseUrl with
  | .error e => .error (.httpError e)
  | .ok baseUrl =>
    match env (.httpClient 30) with
    | .error e => .error (.internalError e)
    | .ok httpClient =>
      .ok
        { httpClient
          metadata := none
          oauthClient := none
          credentials := none
          pkceVerifier := none
          expiresAt := none
          baseUrl }

def discoverMetadata (m : AuthorizationManager C) (env : Env C) :
    Except AuthError AuthorizationMetadata :=
  let discoveryUrl := C.setPath m.baseUrl "/.well-known/oauth-authorization-server"
  let reply : Except String (HttpResponse AuthorizationMetadata) :=
    env (.metadata m.httpClient discoveryUrl ("MCP-Protocol-Version", "2024-11-05"))
  match reply with
  | .error e => .error (.httpError e)
  | .ok response =>
    if response.status = 200 then
      match response.json with
      | .ok metadata => .ok metadata
      | .error e => .error (.metadataError ("Failed to parse metadata: " ++ e))
    else
      -- fallback to default endpoints
      let authBase := C.display (C.setPath m.baseUrl "")
      .ok
        { authorizationEndpoint := authBase ++ "/authorize"
          tokenEndpoint := authBase ++ "/token"
          registrationEndpoint := authBase ++ "/register"
          issuer := none
          jwksUri := none
          scopesSupported := none
          additionalFields := [] }

/-- `AuthUrl::new` and its siblings, with the error of `configure_client`. -/
def checkUrl (C : Crates) (url message : String) : Except AuthError String :=
  match C.parse url with
  | .ok _ => .ok url
  | .error e => .error (.oauthError (message ++ e))

def configureClient (m : AuthorizationManager C) (config : OAuthClientConfig) :
    Except AuthError (AuthorizationManager C) :=
  match m.metadata with
  | none => .error .noAuthorizationSupport
  | some metadata => do
    let authUri ← checkUrl C metadata.authorizationEndpoint "Invalid authorization URL: "
    let tokenUri ← checkUrl C metadata.tokenEndpoint "Invalid token URL: "
    let redirectUri ← checkUrl C config.redirectUri "Invalid re URL: "
    let client : OAuthClient :=
      { clientId := config.clientId
        clientSecret := config.clientSecret
        authUri
        tokenUri
        redirectUri }
    return { m with oauthClient := some client }

/-- The manager is only changed when the registration succeeds. -/
def registerClient (m : AuthorizationManager C) (env : Env C) (name redirectUri : String) :
    Except AuthError (OAuthClientConfig × AuthorizationManager C) :=
  match m.metadata with
  | none => .error .noAuthorizationSupport
  | some metadata =>
    let request : ClientRegistrationRequest :=
      { clientName := name
        redirectUris := [redirectUri]
        grantTypes := ["authorization_code", "refresh_token"]
        tokenEndpointAuthMethod := "none"
        responseTypes := ["code"] }
    let reply : Except String (HttpResponse ClientRegistrationResponse) :=
      env (.registration m.httpClient metadata.registrationEndpoint request)
    match reply with
    | .error e => .error (.registrationFailed ("HTTP request error: " ++ e))
    | .ok response =>
      if response.isSuccess then
        match response.json with
        | .error e => .error (.registrationFailed ("analyze response error: " ++ e))
        | .ok registered =>
          let config : OAuthClientConfig :=
            { clientId := registered.clientId
              clientSecret := registered.clientSecret
              scopes := []
              redirectUri }
          (m.configureClient config).map (config, ·)
      else
        let errorText :=
          match response.text with
          | .ok text => text
          | .error _ => "cannot get error details"
        .error (.registrationFailed
          ("HTTP " ++ C.displayStatus response.status ++ ": " ++ errorText))

def configureClientId (m : AuthorizationManager C) (clientId : String) :
    Except AuthError (AuthorizationManager C) :=
  m.configureClient
    { clientId
      clientSecret := none
      scopes := []
      redirectUri := C.display m.baseUrl }

/-! ## The methods that use the locks -/

def clientNotConfigured : AuthError := .internalError "OAuth client not configured"

/-- `Instant + Duration`, which panics when the instant cannot be represented. -/
def addDuration (C : Crates) (instant duration : Nat) : AuthProg C Nat :=
  if instant + duration ≤ C.instantMax then pure (instant + duration) else .panicked

/-- Store when a token expires that has just arrived. -/
def storeExpiry (read : ClockRead) (expiresIn : Option Nat) : AuthProg C Unit :=
  match expiresIn with
  | some expiresIn => do
    let now ← (Question.now read).ask
    let expiresAt ← addDuration C now expiresIn
    Lock.expiresAt.writeOnce (some expiresAt)
  | none => pure ()

def getAuthorizationUrl (m : AuthorizationManager C) (scopes : List String) :
    AuthProg C (Except AuthError String) :=
  match m.oauthClient with
  | none => return .error clientNotConfigured
  | some client => do
    let (authUrl, verifier) ← (Question.authorizeUrl client scopes).ask
    Lock.pkceVerifier.writeOnce (some verifier)
    -- the `debug!` after it reads the verifier back
    let _ ← Lock.pkceVerifier.readOnce
    return .ok authUrl

def exchangeCodeForToken (m : AuthorizationManager C) (code : String) :
    AuthProg C (Except AuthError OAuthTokenResponse) :=
  match m.oauthClient with
  | none => return .error clientNotConfigured
  | some client => do
    let taken : Option String ← Lock.pkceVerifier.replaceOnce none
    match taken with
    | none => return .error (.internalError "PKCE verifier not found")
    | some verifier =>
      let built : Except String C.HttpClient ← Question.exchangeClient.ask
      match built with
      | .error e => return .error (.internalError e)
      | .ok http =>
        let reply : Except String OAuthTokenResponse ←
          (Question.exchangeCode client http code ("client_id", client.clientId) verifier).ask
        match reply with
        | .error e => return .error (.tokenExchangeFailed e)
        | .ok token =>
          storeExpiry .tokenExchanged token.expiresIn
          Lock.credentials.writeOnce (some token)
          return .ok token

def refreshToken (m : AuthorizationManager C) :
    AuthProg C (Except AuthError OAuthTokenResponse) :=
  match m.oauthClient with
  | none => return .error clientNotConfigured
  | some client => do
    let current : Option OAuthTokenResponse ← Lock.credentials.readOnce
    match current with
    | none => return .error .authorizationRequired
    | some current =>
      match current.refreshToken with
      | none => return .error (.tokenRefreshFailed "No refresh token available")
      | some refreshToken =>
        let reply : Except String OAuthTokenResponse ←
          (Question.exchangeRefreshToken client m.httpClient refreshToken).ask
        match reply with
        | .error e => return .error (.tokenRefreshFailed e)
        | .ok token =>
          Lock.credentials.writeOnce (some token)
          storeExpiry .tokenRefreshed token.expiresIn
          return .ok token

/-- The guard of `credentials` is a variable, that of `expires_at` a temporary of the
condition of an `if let`: it lives as long as the `if let`, its body included. -/
def getAccessToken (m : AuthorizationManager C) : AuthProg C (Except AuthError String) := do
  Lock.credentials.acquire .read
  let credentials : Option OAuthTokenResponse ← Lock.credentials.load
  match credentials with
  | none =>
    Lock.credentials.release .read
    return .error .authorizationRequired
  | some creds =>
    Lock.expiresAt.acquire .read
    let expiresAt : Option Nat ← Lock.expiresAt.load
    match expiresAt with
    | none =>
      Lock.expiresAt.release .read
      Lock.credentials.release .read
      return .ok creds.accessToken
    | some expiresAt =>
      let now ← (Question.now .expiryChecked).ask
      if expiresAt < now then
        Lock.credentials.release .read
        let refreshed ← m.refreshToken
        Lock.expiresAt.release .read
        return refreshed.map (·.accessToken)
      else
        Lock.expiresAt.release .read
        Lock.credentials.release .read
        return .ok creds.accessToken

end AuthorizationManager

/-! ## Concrete surroundings -/

/-- Four URLs, each an origin and a path. -/
def parseBareUrl : String → Except String (String × String)
  | "http://localhost" => .ok ("http://localhost", "/")
  | "https://example.com/mcp" => .ok ("https://example.com", "/mcp")
  | "https://example.com/authorize" => .ok ("https://example.com", "/authorize")
  | "https://example.com/token" => .ok ("https://example.com", "/token")
  | _ => .error "relative URL without a base"

def bareCrates : Crates where
  Url := String × String
  HttpClient := Unit
  intoUrl := parseBareUrl
  parse := parseBareUrl
  setPath := fun url path => (url.1, if path = "" then "/" else path)
  display := fun url => url.1 ++ url.2
  displayStatus := toString
  defaultClient := ()
  instantMax := 2 ^ 63 - 1

/-- No server but the token endpoint answers, and the tokens live for an hour. -/
def bareEnv : Env bareCrates
  | .httpClient _ | .exchangeClient => .ok ()
  | .metadata .. | .registration .. => .error "error sending request"
  | .authorizeUrl .. => ("https://example.com/authorize", "verifier")
  | .exchangeCode .. | .exchangeRefreshToken .. => .ok ⟨"new", some "refresh", some 3600⟩
  | .now _ => 100

/-- A manager whose access token has expired at the instant 50. -/
def expiredManager : AuthorizationManager bareCrates where
  httpClient := ()
  metadata := some
    ⟨"https://example.com/authorize", "https://example.com/token", "https://example.com/register",
      none, none, none, []⟩
  oauthClient := some
    ⟨"mcp-client", none, "https://example.com/authorize", "https://example.com/token",
      "https://example.com/mcp"⟩
  credentials := some ⟨"old", some "refresh", some 3600⟩
  pkceVerifier := none
  expiresAt := some 50
  baseUrl := ("https://example.com", "/mcp")

end Rmcp.Auth
