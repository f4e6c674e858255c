import Rmcp.Auth.Manager

/-!
# The OAuth state machine

`OAuthState` and the operations that move it. An operation that needs the value in `self`
swaps a placeholder in with `mem::replace`, a manager for `http://localhost` that it makes
first, and only then looks at the variant and talks to the network. It returns a result and
the state it leaves behind, or does not return.
-/

namespace Rmcp.Auth

variable {C : Crates}

structure AuthorizationSession (C : Crates) where
  authManager : AuthorizationManager C
  authUrl : String
  redirectUri : String

structure AuthorizedHttpClient (C : Crates) where
  authManager : AuthorizationManager C
  innerClient : C.HttpClient

inductive OAuthState (C : Crates)
  | unauthorized (manager : AuthorizationManager C)
  | session (session : AuthorizationSession C)
  | authorized (manager : AuthorizationManager C)
  | authorizedHttpClient (client : AuthorizedHttpClient C)

namespace AuthorizationSession

/-- The client is configured, and the user gets a URL to visit. -/
def openWith (env : Env C) (authManager : AuthorizationManager C) (config : OAuthClientConfig)
    (scopes : List String) : Option (Except AuthError (AuthorizationSession C)) :=
  match authManager.configureClient config with
  | .error e => some (.error e)
  | .ok authManager =>
    (authManager.exec env (authManager.getAuthorizationUrl scopes)).map fun (result, authManager) =>
      result.map fun authUrl => { authManager, authUrl, redirectUri := config.redirectUri }

/-- The client is registered if the server allows it; the configuration has the redirect URI
that it was asked for in both cases. -/
def new (env : Env C) (authManager : AuthorizationManager C) (scopes : List String)
    (redirectUri : String) : Option (Except AuthError (AuthorizationSession C)) :=
  let config : OAuthClientConfig :=
    { clientId := "mcp-client"
      clientSecret := none
      scopes
      redirectUri }
  match authManager.registerClient env "MCP Client" redirectUri with
  | .ok (config, authManager) => openWith env authManager config scopes
  | .error _ => openWith env authManager config scopes

/-- What the manager's locks protect may change in a session that is only borrowed. -/
def handleCallback (env : Env C) (session : AuthorizationSession C) (code : String) :
    Option (Except AuthError OAuthTokenResponse × AuthorizationSession C) :=
  (session.authManager.exec env (session.authManager.exchangeCodeForToken code)).map
    fun (result, authManager) => (result, { session with authManager })

end AuthorizationSession

/-- `AuthorizedHttpClient::new`. -/
def AuthorizedHttpClient.new (authManager : AuthorizationManager C)
    (client : Option C.HttpClient) : AuthorizedHttpClient C :=
  ⟨authManager, client.getD C.defaultClient⟩

namespace OAuthState

/-- What an operation comes to: its result, and the state that it leaves behind. -/
abbrev Completion (C : Crates) := Option (Except AuthError Unit × OAuthState C)

def setCredentials (env : Env C) (clientId : String) (credentials : OAuthTokenResponse)
    (self : OAuthState C) : Completion C :=
  match self with
  | .unauthorized manager =>
    match AuthorizationManager.new env "http://localhost" with
    | .error e => some (.error e, self)
    | .ok placeholder =>
      -- from here on `self` holds the placeholder
      let self : OAuthState C := .unauthorized placeholder
      let written := manager.exec env (Lock.credentials.writeOnce (some credentials))
      written.bind fun (_, manager) =>
        match manager.discoverMetadata env with
        | .error e => some (.error e, self)
        | .ok metadata =>
          let manager := { manager with metadata := some metadata }
          match manager.configureClientId clientId with
          | .error e => some (.error e, self)
          | .ok manager => some (.ok (), .authorized manager)
  | self => some (.error (.internalError "Cannot set credentials in this state"), self)

def startAuthorization (env : Env C) (scopes : List String) (redirectUri : String)
    (self : OAuthState C) : Completion C :=
  match AuthorizationManager.new env "http://localhost" with
  | .error e => some (.error e, self)
  | .ok placeholder =>
    let old := self
    let self : OAuthState C := .unauthorized placeholder
    match old with
    | .unauthorized manager =>
      match manager.discoverMetadata env with
      | .error e => some (.error e, self)
      | .ok metadata =>
        let manager := { manager with metadata := some metadata }
        (AuthorizationSession.new env manager scopes redirectUri).map fun
          | .error e => (.error e, self)
          | .ok opened => (.ok (), .session opened)
    | _ => some (.error (.internalError "Already in session state"), self)

def completeAuthorization (env : Env C) (self : OAuthState C) : Completion C :=
  match AuthorizationManager.new env "http://localhost" with
  | .error e => some (.error e, self)
  | .ok placeholder =>
    let old := self
    let self : OAuthState C := .unauthorized placeholder
    match old with
    | .session opened => some (.ok (), .authorized opened.authManager)
    | _ => some (.error (.internalError "Not in session state"), self)

def toAuthorizedHttpClient (env : Env C) (self : OAuthState C) : Completion C :=
  match AuthorizationManager.new env "http://localhost" with
  | .error e => some (.error e, self)
  | .ok placeholder =>
    let old := self
    let self : OAuthState C := .authorized placeholder
    match old with
    | .authorized manager =>
      some (.ok (), .authorizedHttpClient (AuthorizedHttpClient.new manager none))
    | _ => some (.error (.internalError "Not in authorized state"), self)

def handleCallback (env : Env C) (code : String) (self : OAuthState C) : Completion C :=
  match self with
  | .session opened =>
    (opened.handleCallback env code).bind fun
      | (.error e, opened) => some (.error e, .session opened)
      | (.ok _, opened) => completeAuthorization env (.session opened)
  | .unauthorized _ => some (.error (.internalError "Not in session state"), self)
  | .authorized _ => some (.error (.internalError "Already authorized"), self)
  | .authorizedHttpClient _ => some (.error (.internalError "Already authorized"), self)

end OAuthState

/-- An operation on the state, with its arguments. -/
inductive Operation
  | setCredentials (clientId : String) (credentials : OAuthTokenResponse)
  | startAuthorization (scopes : List String) (redirectUri : String)
  | completeAuthorization
  | toAuthorizedHttpClient
  | handleCallback (code : String)

def OAuthState.apply (env : Env C) (self : OAuthState C) : Operation → OAuthState.Completion C
  | .setCredentials clientId credentials => self.setCredentials env clientId credentials
  | .startAuthorization scopes redirectUri => self.startAuthorization env scopes redirectUri
  | .completeAuthorization => self.completeAuthorization env
  | .toAuthorizedHttpClient => self.toAuthorizedHttpClient env
  | .handleCallback code => self.handleCallback env code

end Rmcp.Auth
