import Rmcp.Service.Established
import Rmcp.Service.Listing

/-!
# Methods of a peer and methods of a handler

`method!` makes a method of a peer for each request: it sends the request with its params, and
takes the one variant of the results that it expects. On the other side, `handle_request` gives
the params to the method of the handler that the request is for, and puts what it returns in a
variant.

A method of a handler may do anything before it returns, so what it returns depends on a value
that it shares with nothing else here.

Results:
1. `ServerHandler.Serves.spec`, `ClientHandler.Serves.spec`: the variant that a method of a peer
   expects is the one that the method of the handler is put in, whatever the request carries
   beside its params.
2. `ServerHandler.notFound_names_method`: what a server does not provide it names as it is written.
3. `handleNotification_notify`: a notification calls the method that its peer means.
-/

namespace Rmcp

open Service

/-- `McpError::method_not_found`. -/
def methodNotFound (method : String) : ErrorData := ⟨-32601, method, none⟩

namespace Handler

/-! ## Handlers -/

/-- A method of a handler that takes params. -/
abbrev HandlerMethod (W P α : Type) := W → P → Service.RequestContext → Except ErrorData α

section Handlers

variable (L : Leaves) (W : Type)

/-- The trait, with the bodies it provides. -/
structure ServerHandler where
  getInfo : ServerInfo L
  ping : W → Service.RequestContext → Except ErrorData Unit := fun _ _ => .ok ()
  initializeServer : HandlerMethod W (InitializeRequestParam L) (InitializeResult L) :=
    fun _ _ _ => .ok getInfo
  complete : HandlerMethod W (CompleteRequestParam L) CompleteResult :=
    fun _ _ _ => .error (methodNotFound "completion/complete")
  setLevel : HandlerMethod W SetLevelRequestParam Unit :=
    fun _ _ _ => .error (methodNotFound "logging/setLevel")
  getPrompt : HandlerMethod W GetPromptRequestParam (GetPromptResult L) :=
    fun _ _ _ => .error (methodNotFound "prompts/get")
  listPrompts : HandlerMethod W (Option PaginatedRequestParam) (ListPromptsResult L) :=
    fun _ _ _ => .ok ⟨none, []⟩
  listResources : HandlerMethod W (Option PaginatedRequestParam) (ListResourcesResult L) :=
    fun _ _ _ => .ok ⟨none, []⟩
  listResourceTemplates :
      HandlerMethod W (Option PaginatedRequestParam) (ListResourceTemplatesResult L) :=
    fun _ _ _ => .ok ⟨none, []⟩
  readResource : HandlerMethod W ReadResourceRequestParam (ReadResourceResult L) :=
    fun _ _ _ => .error (methodNotFound "resources/read")
  subscribe : HandlerMethod W SubscribeRequestParam Unit :=
    fun _ _ _ => .error (methodNotFound "resources/subscribe")
  unsubscribe : HandlerMethod W UnsubscribeRequestParam Unit :=
    fun _ _ _ => .error (methodNotFound "resources/unsubscribe")
  callTool : HandlerMethod W CallToolRequestParam (CallToolResult L) :=
    fun _ _ _ => .error (methodNotFound "tools/call")
  listTools : HandlerMethod W (Option PaginatedRequestParam) (ListToolsResult L) :=
    fun _ _ _ => .ok ⟨none, []⟩

structure ClientHandler where
  ping : W → Service.RequestContext → Except ErrorData Unit := fun _ _ => .ok ()
  createMessage : HandlerMethod W (CreateMessageRequestParam L) (CreateMessageResult L) :=
    fun _ _ _ => .error (methodNotFound "sampling/createMessage")
  listRoots : W → Service.RequestContext → Except ErrorData ListRootsResult := fun _ _ => .ok ⟨[]⟩

end Handlers

variable {L : Leaves} {W E P α : Type}

/-- `ServerResult::empty`. -/
def serverEmpty (_ : Unit) : ServerResult L := .emptyResult ⟨⟩

/-- `ClientResult::empty`. -/
def clientEmpty (_ : Unit) : ClientResult L := .emptyResult ⟨⟩

def ServerHandler.handleRequest (h : ServerHandler L W) (w : W) (request : ClientRequest L)
    (context : Service.RequestContext) : Except ErrorData (ServerResult L) :=
  match request with
  | .initializeRequest r => (h.initializeServer w r.params context).map .initializeResult
  | .pingRequest _ => (h.ping w context).map serverEmpty
  | .completeRequest r => (h.complete w r.params context).map .completeResult
  | .setLevelRequest r => (h.setLevel w r.params context).map serverEmpty
  | .getPromptRequest r => (h.getPrompt w r.params context).map .getPromptResult
  | .listPromptsRequest r => (h.listPrompts w r.params context).map .listPromptsResult
  | .listResourcesRequest r => (h.listResources w r.params context).map .listResourcesResult
  | .listResourceTemplatesRequest r =>
    (h.listResourceTemplates w r.params context).map .listResourceTemplatesResult
  | .readResourceRequest r => (h.readResource w r.params context).map .readResourceResult
  | .subscribeRequest r => (h.subscribe w r.params context).map serverEmpty
  | .unsubscribeRequest r => (h.unsubscribe w r.params context).map serverEmpty
  | .callToolRequest r => (h.callTool w r.params context).map .callToolResult
  | .listToolsRequest r => (h.listTools w r.params context).map .listToolsResult

def ClientHandler.handleRequest (h : ClientHandler L W) (w : W) (request : ServerRequest L)
    (context : Service.RequestContext) : Except ErrorData (ClientResult L) :=
  match request with
  | .pingRequest _ => (h.ping w context).map clientEmpty
  | .createMessageRequest r => (h.createMessage w r.params context).map .createMessageResult
  | .listRootsRequest _ => (h.listRoots w context).map .listRootsResult

/-! ## Methods of a peer -/

/-- What `method!` is given: the request, and the variant of the results that it expects. -/
structure Method (R : ServiceRole) (P α : Type) where
  request : P → R.Req
  result : R.PeerResp → Option α

/-- What the method returns when the request has been answered. -/
def Method.receive {R : ServiceRole} (m : Method R P α) :
    Except (ServiceError E) R.PeerResp → Except (MethodError E) α
  | .error e => .error (.failed e)
  | .ok result =>
    match m.result result with
    | some a => .ok a
    | none => .error .unexpectedResponse

/-! ### Those of `Peer<RoleClient>` -/

namespace ClientPeer

/-- The method expects no result. -/
def isEmptyResult : ServerResult L → Option Unit
  | .emptyResult _ => some ()
  | _ => none

def complete : Method (roleClient L) (CompleteRequestParam L) CompleteResult where
  request params := .completeRequest ⟨params, ⟨none⟩⟩
  result
    | .completeResult r => some r
    | _ => none

def setLevel : Method (roleClient L) SetLevelRequestParam Unit where
  request params := .setLevelRequest ⟨params, ⟨none⟩⟩
  result := isEmptyResult

def getPrompt : Method (roleClient L) GetPromptRequestParam (GetPromptResult L) where
  request params := .getPromptRequest ⟨params, ⟨none⟩⟩
  result
    | .getPromptResult r => some r
    | _ => none

/-- A method that lists, here of one page. -/
def listing {α : Type} (k : Listing L α) :
    Method (roleClient L) (Option PaginatedRequestParam) (PaginatedResult α) where
  request params := k.request ⟨params, ⟨none⟩⟩
  result := k.page

def readResource : Method (roleClient L) ReadResourceRequestParam (ReadResourceResult L) where
  request params := .readResourceRequest ⟨params, ⟨none⟩⟩
  result
    | .readResourceResult r => some r
    | _ => none

def subscribe : Method (roleClient L) SubscribeRequestParam Unit where
  request params := .subscribeRequest ⟨params, ⟨none⟩⟩
  result := isEmptyResult

def unsubscribe : Method (roleClient L) UnsubscribeRequestParam Unit where
  request params := .unsubscribeRequest ⟨params, ⟨none⟩⟩
  result := isEmptyResult

def callTool : Method (roleClient L) CallToolRequestParam (CallToolResult L) where
  request params := .callToolRequest ⟨params, ⟨none⟩⟩
  result
    | .callToolResult r => some r
    | _ => none

end ClientPeer

/-! ### Those of `Peer<RoleServer>` -/

namespace ServerPeer

def createMessage :
    Method (roleServer L) (CreateMessageRequestParam L) (CreateMessageResult L) where
  request params := .createMessageRequest ⟨params, ⟨none⟩⟩
  result
    | .createMessageResult r => some r
    | _ => none

def listRoots : Method (roleServer L) Unit ListRootsResult where
  request _ := .listRootsRequest ⟨⟨none⟩⟩
  result
    | .listRootsResult r => some r
    | _ => none

end ServerPeer

/-! ## Which serves which -/

/-- The method of the peer is served by the method of the handler. -/
inductive ServerHandler.Serves (h : ServerHandler L W) : {P α : Type} →
    Method (roleClient L) P α → HandlerMethod W P α → Prop
  | complete : Serves h ClientPeer.complete h.complete
  | setLevel : Serves h ClientPeer.setLevel h.setLevel
  | getPrompt : Serves h ClientPeer.getPrompt h.getPrompt
  | listPrompts : Serves h (ClientPeer.listing Service.listPrompts) h.listPrompts
  | listResources : Serves h (ClientPeer.listing Service.listResources) h.listResources
  | listResourceTemplates :
    Serves h (ClientPeer.listing Service.listResourceTemplates) h.listResourceTemplates
  | readResource : Serves h ClientPeer.readResource h.readResource
  | subscribe : Serves h ClientPeer.subscribe h.subscribe
  | unsubscribe : Serves h ClientPeer.unsubscribe h.unsubscribe
  | callTool : Serves h ClientPeer.callTool h.callTool
  | listTools : Serves h (ClientPeer.listing Service.listTools) h.listTools

inductive ClientHandler.Serves (h : ClientHandler L W) : {P α : Type} →
    Method (roleServer L) P α → HandlerMethod W P α → Prop
  | createMessage : Serves h ServerPeer.createMessage h.createMessage
  | listRoots : Serves h ServerPeer.listRoots fun w _ => h.listRoots w

/-- A method of a peer and a method of a handler fit: what the latter returns for the params is
what the former takes out of the answer. -/
structure Fits {R : ServiceRole}
    (serve : W → R.Req → Service.RequestContext → Except ErrorData R.PeerResp)
    (m : Method R P α) (f : HandlerMethod W P α) : Prop where
  served : ∃ wrap : α → R.PeerResp, (∀ a, m.result (wrap a) = some a) ∧
    ∀ entries w params context,
      serve w (R.setMeta entries (m.request params)) context = (f w params context).map wrap

theorem ServerHandler.Serves.spec {h : ServerHandler L W} {m : Method (roleClient L) P α}
    {f : HandlerMethod W P α} (hm : h.Serves m f) :
    Fits h.handleRequest m f := by
  cases hm with
  | setLevel | subscribe | unsubscribe =>
    exact ⟨serverEmpty, fun _ => rfl, fun _ _ _ _ => rfl⟩
  | complete => exact ⟨.completeResult, fun _ => rfl, fun _ _ _ _ => rfl⟩
  | getPrompt => exact ⟨.getPromptResult, fun _ => rfl, fun _ _ _ _ => rfl⟩
  | listPrompts => exact ⟨.listPromptsResult, fun _ => rfl, fun _ _ _ _ => rfl⟩
  | listResources => exact ⟨.listResourcesResult, fun _ => rfl, fun _ _ _ _ => rfl⟩
  | listResourceTemplates => exact ⟨.listResourceTemplatesResult, fun _ => rfl, fun _ _ _ _ => rfl⟩
  | readResource => exact ⟨.readResourceResult, fun _ => rfl, fun _ _ _ _ => rfl⟩
  | callTool => exact ⟨.callToolResult, fun _ => rfl, fun _ _ _ _ => rfl⟩
  | listTools => exact ⟨.listToolsResult, fun _ => rfl, fun _ _ _ _ => rfl⟩

theorem ClientHandler.Serves.spec {h : ClientHandler L W} {m : Method (roleServer L) P α}
    {f : HandlerMethod W P α} (hm : h.Serves m f) :
    Fits h.handleRequest m f := by
  cases hm with
  | createMessage => exact ⟨.createMessageResult, fun _ => rfl, fun _ _ _ _ => rfl⟩
  | listRoots => exact ⟨.listRootsResult, fun _ => rfl, fun _ _ _ _ => rfl⟩

/-! ## What is not provided -/

/-- Where nothing but the info is provided, an error says that the method is not found which the
request is written with. -/
theorem ServerHandler.notFound_names_method {info : ServerInfo L} {w : W}
    {request : ClientRequest L} {context : Service.RequestContext} {e : ErrorData}
    (h : ServerHandler.handleRequest { getInfo := info } w request context = .error e) :
    e = methodNotFound e.message ∧
      Serde.member "method" (request.serialize L) = some (some (.string e.message)) := by
  cases request with
  | pingRequest | initializeRequest | listPromptsRequest | listResourcesRequest
  | listResourceTemplatesRequest | listToolsRequest => cases h
  | _ =>
    cases h
    exact ⟨rfl, Request.isMethod.tagged.writes _⟩

theorem ClientHandler.notFound_names_method {w : W} {request : ServerRequest L}
    {context : Service.RequestContext} {e : ErrorData}
    (h : ClientHandler.handleRequest {} w request context = .error e) :
    e = methodNotFound e.message ∧
      Serde.member "method" (request.serialize L) = some (some (.string e.message)) := by
  cases request with
  | pingRequest | listRootsRequest => cases h
  | createMessageRequest r =>
    cases h
    exact ⟨rfl, Request.isMethod.tagged.writes _⟩

/-! ## Notifications -/

/-- The calls that `handle_notification` of a server makes. It returns `Ok` after each. -/
inductive ServerCallback
  | onCancelled (params : CancelledNotificationParam)
  | onProgress (params : ProgressNotificationParam)
  | onInitialized
  | onRootsListChanged

inductive ClientCallback
  | onCancelled (params : CancelledNotificationParam)
  | onProgress (params : ProgressNotificationParam)
  | onLoggingMessage (params : LoggingMessageNotificationParam)
  | onResourceUpdated (params : ResourceUpdatedNotificationParam)
  | onResourceListChanged
  | onToolListChanged
  | onPromptListChanged

def ServerHandler.handleNotification : ClientNotification → ServerCallback
  | .cancelledNotification n => .onCancelled n.params
  | .progressNotification n => .onProgress n.params
  | .initializedNotification _ => .onInitialized
  | .rootsListChangedNotification _ => .onRootsListChanged

def ClientHandler.handleNotification : ServerNotification → ClientCallback
  | .cancelledNotification n => .onCancelled n.params
  | .progressNotification n => .onProgress n.params
  | .loggingMessageNotification n => .onLoggingMessage n.params
  | .resourceUpdatedNotification n => .onResourceUpdated n.params
  | .resourceListChangedNotification _ => .onResourceListChanged
  | .toolListChangedNotification _ => .onToolListChanged
  | .promptListChangedNotification _ => .onPromptListChanged

/-- The notification methods of `Peer<RoleClient>`, each named by the call that it means:
`notify_cancelled`, `notify_progress`, `notify_initialized` and `notify_roots_list_changed`. -/
def ClientPeer.notify : ServerCallback → ClientNotification
  | .onCancelled params => .cancelledNotification ⟨params, ⟨none⟩⟩
  | .onProgress params => .progressNotification ⟨params, ⟨none⟩⟩
  | .onInitialized => .initializedNotification ⟨⟨none⟩⟩
  | .onRootsListChanged => .rootsListChangedNotification ⟨⟨none⟩⟩

/-- Those of `Peer<RoleServer>`. -/
def ServerPeer.notify : ClientCallback → ServerNotification
  | .onCancelled params => .cancelledNotification ⟨params, ⟨none⟩⟩
  | .onProgress params => .progressNotification ⟨params, ⟨none⟩⟩
  | .onLoggingMessage params => .loggingMessageNotification ⟨params, ⟨none⟩⟩
  | .onResourceUpdated params => .resourceUpdatedNotification ⟨params, ⟨none⟩⟩
  | .onResourceListChanged => .resourceListChangedNotification ⟨⟨none⟩⟩
  | .onToolListChanged => .toolListChangedNotification ⟨⟨none⟩⟩
  | .onPromptListChanged => .promptListChangedNotification ⟨⟨none⟩⟩

theorem ServerHandler.handleNotification_notify (callback : ServerCallback) :
    handleNotification (ClientPeer.notify callback) = callback := by
  cases callback <;> rfl

theorem ClientHandler.handleNotification_notify (callback : ClientCallback) :
    handleNotification (ServerPeer.notify callback) = callback := by
  cases callback <;> rfl

end Handler

end Rmcp
