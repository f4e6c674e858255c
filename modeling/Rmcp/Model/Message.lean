import Rmcp.Model.Json

/-!
# Ids, metadata and JSON-RPC messages

The message types of the model, generic in the requests, results and notifications they
carry, with the two identifiers that travel on the wire: the request id and the progress
token. Both are a `NumberOrString`. The `jsonrpc` and `method` members are constants and
are not stored.
-/

namespace Rmcp

/-! ## Numbers or strings -/

/-- A request id or a progress token: a 32-bit number or a string. -/
inductive NumberOrString
  | number (n : UInt32)
  | string (s : String)
deriving DecidableEq

abbrev RequestId := NumberOrString

/-- `ProgressToken(pub NumberOrString)`, serialized transparently. -/
structure ProgressToken where
  value : NumberOrString
deriving DecidableEq

namespace NumberOrString

def serialize : NumberOrString → Value
  | .number n => .number (.posInt n.toUInt64)
  | .string s => .string s

/-- Any non-negative integer is taken, and cast with `as u32`. -/
def deserialize : Value → Except String NumberOrString
  | .number n =>
    match n.asU64 with
    | some n => .ok (.number n.toUInt32)
    | none => .error "Expect an integer"
  | .string s => .ok (.string s)
  | _ => .error "Expect number or string"

end NumberOrString

def ProgressToken.serialize (token : ProgressToken) : Value := token.value.serialize

/-! ## Metadata -/

/-- The `_meta` object of a request or notification. -/
structure Meta where
  members : JsonObject

namespace Meta

/-- `PROGRESS_TOKEN_FIELD`. -/
def progressTokenField : String := "progressToken"

/-- `Meta::static_empty`. -/
def staticEmpty : Meta := ⟨[]⟩

def getProgressToken (m : Meta) : Option ProgressToken :=
  match JsonObject.get progressTokenField m.members with
  | some (.string s) => some ⟨.string s⟩
  | some (.number n) => n.asU64.map fun n => ⟨.number n.toUInt32⟩
  | _ => none

def setProgressToken (m : Meta) (token : ProgressToken) : Meta :=
  match token.value with
  | .string s => ⟨JsonObject.insert progressTokenField (.string s) m.members⟩
  | .number n =>
    ⟨JsonObject.insert progressTokenField (.number (.posInt n.toUInt64)) m.members⟩

/-- Every entry of `other` is inserted in turn. -/
def extend (m other : Meta) : Meta :=
  ⟨other.members.foldl (fun members entry => JsonObject.insert entry.1 entry.2 members) m.members⟩

/-- The token set on a metadata object is the one read back from it. -/
@[simp] theorem getProgressToken_setProgressToken (m : Meta) (token : ProgressToken) :
    (m.setProgressToken token).getProgressToken = some token := by
  obtain ⟨n | s⟩ := token
  · simp [setProgressToken, getProgressToken, Number.asU64]
  · simp [setProgressToken, getProgressToken]

end Meta

/-- The type map carried by every request and notification. Its only entry that the SDK
itself reads is the metadata. -/
structure Extensions where
  metaEntry : Option Meta

/-- `extensions().get::<Meta>().unwrap_or(Meta::static_empty())`. -/
def Extensions.getMeta (e : Extensions) : Meta := e.metaEntry.getD Meta.staticEmpty

/-! ## Notifications -/

structure Notification (P : Type) where
  params : P
  extensions : Extensions

structure NotificationNoParam where
  extensions : Extensions

structure CancelledNotificationParam where
  requestId : RequestId
  reason : Option String
deriving DecidableEq

structure ProgressNotificationParam where
  progressToken : ProgressToken
  progress : UInt32
  total : Option UInt32
  message : Option String
deriving DecidableEq

inductive LoggingLevel
  | debug
  | info
  | notice
  | warning
  | error
  | critical
  | alert
  | emergency
deriving DecidableEq

structure LoggingMessageNotificationParam where
  level : LoggingLevel
  logger : Option String
  data : Value

structure ResourceUpdatedNotificationParam where
  uri : String
deriving DecidableEq

abbrev CancelledNotification := Notification CancelledNotificationParam

abbrev ProgressNotification := Notification ProgressNotificationParam

inductive ClientNotification
  | cancelledNotification (n : CancelledNotification)
  | progressNotification (n : ProgressNotification)
  | initializedNotification (n : NotificationNoParam)
  | rootsListChangedNotification (n : NotificationNoParam)

inductive ServerNotification
  | cancelledNotification (n : CancelledNotification)
  | progressNotification (n : ProgressNotification)
  | loggingMessageNotification (n : Notification LoggingMessageNotificationParam)
  | resourceUpdatedNotification (n : Notification ResourceUpdatedNotificationParam)
  | resourceListChangedNotification (n : NotificationNoParam)
  | toolListChangedNotification (n : NotificationNoParam)
  | promptListChangedNotification (n : NotificationNoParam)

/-- `TryInto<CancelledNotification>`. -/
def ClientNotification.tryIntoCancelled :
    ClientNotification → Except ClientNotification CancelledNotification
  | .cancelledNotification n => .ok n
  | n => .error n

/-- `TryInto<CancelledNotification>`. -/
def ServerNotification.tryIntoCancelled :
    ServerNotification → Except ServerNotification CancelledNotification
  | .cancelledNotification n => .ok n
  | n => .error n

/-! ## Messages -/

structure JsonRpcRequest (Req : Type) where
  id : RequestId
  request : Req

structure JsonRpcResponse (Resp : Type) where
  id : RequestId
  result : Resp

structure ErrorData where
  code : Int32
  message : String
  data : Option Value

structure JsonRpcError where
  id : RequestId
  error : ErrorData

structure JsonRpcNotification (Not : Type) where
  notification : Not

inductive JsonRpcBatchRequestItem (Req Not : Type)
  | request (r : JsonRpcRequest Req)
  | notification (n : JsonRpcNotification Not)

inductive JsonRpcBatchResponseItem (Resp : Type)
  | response (r : JsonRpcResponse Resp)
  | error (e : JsonRpcError)

inductive JsonRpcMessage (Req Resp Not : Type)
  | request (r : JsonRpcRequest Req)
  | response (r : JsonRpcResponse Resp)
  | notification (n : JsonRpcNotification Not)
  | batchRequest (items : List (JsonRpcBatchRequestItem Req Not))
  | batchResponse (items : List (JsonRpcBatchResponseItem Resp))
  | error (e : JsonRpcError)

variable {Req Resp Not : Type}

def JsonRpcBatchResponseItem.id : JsonRpcBatchResponseItem Resp → RequestId
  | .response r => r.id
  | .error e => e.id

/-- The request that a response or an error answers. -/
def JsonRpcMessage.answeredId : JsonRpcMessage Req Resp Not → Option RequestId
  | .response r => some r.id
  | .error e => some e.id
  | .request _ | .notification _ | .batchRequest _ | .batchResponse _ => none

def JsonRpcBatchRequestItem.intoNonBatchMessage :
    JsonRpcBatchRequestItem Req Not → JsonRpcMessage Req Resp Not
  | .request r => .request r
  | .notification n => .notification n

def JsonRpcBatchResponseItem.intoNonBatchMessage :
    JsonRpcBatchResponseItem Resp → JsonRpcMessage Req Resp Not
  | .response r => .response r
  | .error e => .error e

/-- The wire form of a response, given that of its result. -/
def JsonRpcResponse.serialize (serializeResult : Resp → Value) (r : JsonRpcResponse Resp) :
    JsonObject :=
  [("jsonrpc", .string "2.0"), ("id", r.id.serialize), ("result", serializeResult r.result)]

/-! ## The messages of the two roles -/

/-- The payload types of a connection. -/
structure Payloads where
  ClientRequest : Type
  ClientResult : Type
  ServerRequest : Type
  ServerResult : Type
  getMeta : ClientRequest → Meta

abbrev ClientJsonRpcMessage (P : Payloads) :=
  JsonRpcMessage P.ClientRequest P.ClientResult ClientNotification

abbrev ServerJsonRpcMessage (P : Payloads) :=
  JsonRpcMessage P.ServerRequest P.ServerResult ServerNotification

end Rmcp
