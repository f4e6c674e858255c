import Rmcp.Service.ProgressToken
import Mathlib.Data.String.Basic

/-!
# The handshake

`serve_client` and `serve_server` up to the loops that they start. Each is a sequence of phases:
it hands a message to the transport, waits until that has sent it, waits for a message of the
peer, or waits for its service.

Results:
1. `negotiate_eq`: the protocol version that the server answers with.
2. `Peer.info_setPeerInfo`: the information about a peer is set once.
-/

namespace Rmcp.Service

variable (L : Leaves) (E : Type)

/-- What the client sends. -/
abbrev ClientMessage := TxJsonRpcMessage (roleClient L)

/-- What the server sends. -/
abbrev ServerMessage := TxJsonRpcMessage (roleServer L)

abbrev ClientInfo := InitializeRequestParam L

abbrev ServerInfo := InitializeResult L

/-! ## Peers -/

/-- A peer, of which the channel and the providers belong to the loop. The information is in a
`OnceCell`. -/
structure Peer (PeerInfo : Type) where
  info : Option PeerInfo

def Peer.setPeerInfo {PeerInfo : Type} (peer : Peer PeerInfo) (info : PeerInfo) : Peer PeerInfo :=
  match peer.info with
  | some _ => peer
  | none => ⟨some info⟩

theorem Peer.info_setPeerInfo {PeerInfo : Type} {peer : Peer PeerInfo} {info : PeerInfo}
    (h : peer.info = some info) (info' : PeerInfo) : (peer.setPeerInfo info').info = some info := by
  simp [Peer.setPeerInfo, h]

/-- `next_request_id`: the id, and the counter moved on. -/
def nextRequestId (provider : UInt32) : RequestId × UInt32 := (.number provider, provider + 1)

/-! ## The client -/

inductive ClientInitializeError
  | expectedInitResponse (message : Option (ServerMessage L))
  | expectedInitResult (result : Option (ServerResult L))
  | conflictInitResponseId (expected got : RequestId)
  | connectionClosed (context : String)
  | transportError (error : E) (context : String)

/-- Where `serve_client` is. -/
inductive ClientPhase
  | start
  /-- The transport has the initialize request. -/
  | sendingRequest (id : RequestId) (idProvider : UInt32)
  | awaitResponse (id : RequestId) (idProvider : UInt32)
  | initialized (result : InitializeResult L) (idProvider : UInt32)
  /-- The transport has the initialized notification. -/
  | sendingNotification (result : InitializeResult L) (idProvider : UInt32)
  | running (peer : Peer (ServerInfo L)) (loop : Serve (roleClient L) E)
  | failed (error : ClientInitializeError L E)

variable {L E}

def initializeRequest (info : ClientInfo L) (id : RequestId) : ClientMessage L :=
  .request ⟨id, .initializeRequest ⟨info, ⟨none⟩⟩⟩

def initializedNotification : ClientMessage L := .notification ⟨.initializedNotification ⟨⟨none⟩⟩⟩

namespace ClientPhase

/-- A message is handed to the transport. -/
def handsOver (getInfo : ClientInfo L) : ClientPhase L E → Option (ClientMessage L × ClientPhase L E)
  | .start =>
    let (id, idProvider) := nextRequestId 0
    some (initializeRequest getInfo id, .sendingRequest id idProvider)
  | .initialized result idProvider =>
    some (initializedNotification, .sendingNotification result idProvider)
  | _ => none

/-- `transport.send` returns. -/
def sent (result : Except E Unit) : ClientPhase L E → Option (ClientPhase L E)
  | .sendingRequest id idProvider =>
    match result with
    | .error error => some (.failed (.transportError error "send initialize request"))
    | .ok () => some (.awaitResponse id idProvider)
  | .sendingNotification initializeResult idProvider =>
    match result with
    | .error error => some (.failed (.transportError error "send initialized notification"))
    | .ok () => some (.running ⟨some initializeResult⟩ (Serve.start idProvider 0))
  | _ => none

def expectNextMessage (received : Option (ServerMessage L)) (context : String) :
    Except (ClientInitializeError L E) (ServerMessage L) :=
  match received with
  | some message => .ok message
  | none => .error (.connectionClosed context)

def expectResponse (received : Option (ServerMessage L)) (context : String) :
    Except (ClientInitializeError L E) (ServerResult L × RequestId) := do
  match ← expectNextMessage received context with
  | .response response => .ok (response.result, response.id)
  | message => .error (.expectedInitResponse (some message))

/-- `transport.receive` returns, in the handshake. -/
def received (message : Option (ServerMessage L)) : ClientPhase L E → Option (ClientPhase L E)
  | .awaitResponse id idProvider =>
    match expectResponse message "initialize response" with
    | .error error => some (.failed error)
    | .ok (response, responseId) =>
      if id ≠ responseId then some (.failed (.conflictInitResponseId id responseId))
      else
        match response with
        | .initializeResult initializeResult => some (.initialized initializeResult idProvider)
        | response => some (.failed (.expectedInitResult (some response)))
  | _ => none

end ClientPhase

/-! ## The server -/

variable (L E)

inductive ServerInitializeError
  | expectedInitializeRequest (message : Option (ClientMessage L))
  | expectedInitializedNotification (message : Option (ClientMessage L))
  | connectionClosed (context : String)
  | unexpectedInitializeResponse (result : ServerResult L)
  | initializeFailed (error : ErrorData)
  | unsupportedProtocolVersion (version : ProtocolVersion)
  | transportError (error : E) (context : String)

/-- Where `serve_server` is. -/
inductive ServerPhase
  | awaitRequest
  /-- The service handles the initialize request. -/
  | handling (request : InitializeRequest L) (id : RequestId) (peer : Peer (ClientInfo L))
  | initialized (result : InitializeResult L) (id : RequestId) (peer : Peer (ClientInfo L))
  /-- The transport has the initialize response. -/
  | sendingResponse (peer : Peer (ClientInfo L))
  | refused (error : ErrorData) (id : RequestId)
  /-- The transport has the error. -/
  | sendingError (error : ErrorData)
  | awaitNotification (peer : Peer (ClientInfo L))
  /-- The service handles the initialized notification. -/
  | notified (peer : Peer (ClientInfo L))
  | running (peer : Peer (ClientInfo L)) (loop : Serve (roleServer L) E)
  | failed (error : ServerInitializeError L E)

variable {L E}

/-- `partial_cmp` of protocol versions: that of their strings. -/
def ProtocolVersion.partialCmp (v v' : ProtocolVersion) : Option Ordering :=
  some (compareOfLessAndEq v.version v'.version)

/-- The version that the server answers with. -/
def negotiate (peerProtocolVersion protocolVersion : ProtocolVersion) : Option ProtocolVersion :=
  match ProtocolVersion.partialCmp peerProtocolVersion protocolVersion with
  | none => none
  | some .lt => some peerProtocolVersion
  | some _ => some protocolVersion

namespace ServerPhase

def expectNextMessage (received : Option (ClientMessage L)) (context : String) :
    Except (ServerInitializeError L E) (ClientMessage L) :=
  match received with
  | some message => .ok message
  | none => .error (.connectionClosed context)

def expectRequest (received : Option (ClientMessage L)) (context : String) :
    Except (ServerInitializeError L E) (ClientRequest L × RequestId) := do
  match ← expectNextMessage received context with
  | .request request => .ok (request.request, request.id)
  | message => .error (.expectedInitializeRequest (some message))

def expectNotification (received : Option (ClientMessage L)) (context : String) :
    Except (ServerInitializeError L E) ClientNotification := do
  match ← expectNextMessage received context with
  | .notification notification => .ok notification.notification
  | message => .error (.expectedInitializedNotification (some message))

/-- `transport.receive` returns, in the handshake. -/
def received (message : Option (ClientMessage L)) : ServerPhase L E → Option (ServerPhase L E)
  | .awaitRequest =>
    match expectRequest message "initialized request" with
    | .error error => some (.failed error)
    | .ok (.initializeRequest request, id) => some (.handling request id ⟨some request.params⟩)
    | .ok (request, id) =>
      some (.failed (.expectedInitializeRequest (some (.request ⟨id, request⟩))))
  | .awaitNotification peer =>
    match expectNotification message "initialize notification" with
    | .error error => some (.failed error)
    | .ok (.initializedNotification _) => some (.notified peer)
    | .ok notification =>
      some (.failed (.expectedInitializedNotification (some (.notification ⟨notification⟩))))
  | _ => none

/-- `service.handle_request` returns. -/
def handled (result : Except ErrorData (ServerResult L)) :
    ServerPhase L E → Option (ServerPhase L E)
  | .handling request id peer =>
    match result with
    | .ok (.initializeResult initResponse) =>
      match negotiate request.params.protocolVersion initResponse.protocolVersion with
      | none => some (.failed (.unsupportedProtocolVersion request.params.protocolVersion))
      | some protocolVersion => some (.initialized { initResponse with protocolVersion } id peer)
    | .ok result => some (.failed (.unexpectedInitializeResponse result))
    | .error error => some (.refused error id)
  | _ => none

/-- A message is handed to the transport. -/
def handsOver : ServerPhase L E → Option (ServerMessage L × ServerPhase L E)
  | .initialized initResponse id peer =>
    some (.response ⟨id, .initializeResult initResponse⟩, .sendingResponse peer)
  | .refused error id => some (.error ⟨id, error⟩, .sendingError error)
  | _ => none

/-- `transport.send` returns. -/
def sent (result : Except E Unit) : ServerPhase L E → Option (ServerPhase L E)
  | .sendingResponse peer =>
    match result with
    | .error error => some (.failed (.transportError error "sending initialize response"))
    | .ok () => some (.awaitNotification peer)
  | .sendingError initializeError =>
    match result with
    | .error error => some (.failed (.transportError error "sending error response"))
    | .ok () => some (.failed (.initializeFailed initializeError))
  | _ => none

/-- `service.handle_notification` returns. -/
def notificationHandled : ServerPhase L E → Option (ServerPhase L E)
  | .notified peer => some (.running peer (Serve.start 0 0))
  | _ => none

theorem expectRequest_eq_ok {received : Option (ClientMessage L)} {context : String}
    {request : ClientRequest L} {id : RequestId}
    (h : expectRequest (E := E) received context = .ok (request, id)) :
    received = some (.request ⟨id, request⟩) := by
  cases received with
  | none => cases h
  | some message =>
    cases message with
    | request r =>
      obtain ⟨id', request'⟩ := r
      cases h
      rfl
    | _ => cases h

end ServerPhase

/-- `handle_request` of a `ServerHandler`, given its method `initialize`. -/
def handleRequest (handler : ClientInfo L → Except ErrorData (ServerInfo L))
    (request : InitializeRequest L) : Except ErrorData (ServerResult L) :=
  (handler request.params).map .initializeResult

theorem negotiate_eq (v v' : ProtocolVersion) : negotiate v v' = some ⟨min v.version v'.version⟩ := by
  unfold negotiate ProtocolVersion.partialCmp compareOfLessAndEq
  by_cases hlt : v.version < v'.version
  · simp [hlt, min_eq_left hlt.le]
  · have hmin : min v.version v'.version = v'.version := min_eq_right (not_lt.mp hlt)
    by_cases heq : v.version = v'.version <;> simp [hlt, heq, hmin]

end Rmcp.Service
