import Rmcp.Model.Message
import Rmcp.Support.HashMap
import Rmcp.Support.Mpsc
import Mathlib.Data.Finset.Basic

/-!
# The session worker

The state of `SessionWorker` and its operations. Every HTTP request has a channel of its
own, and a session has one common channel besides; each sits in a `CachedTx`, which numbers
the messages it sends and keeps the last ones for replay. `resource_router` says which
channel a server message with a given request id or progress token belongs to.

A sender is the number of its channel. The payloads of requests and results are parameters:
of a client request only the metadata is read, and of the others nothing.
-/

namespace Rmcp

namespace Session

abbrev HttpRequestId := UInt64

structure EventId where
  httpRequestId : Option HttpRequestId
  index : UInt64
deriving DecidableEq

structure ServerSessionMessage (P : Payloads) where
  eventId : EventId
  message : ServerJsonRpcMessage P

inductive SessionError
  | channelClosed (id : Option HttpRequestId)
  | invalidEventId
deriving DecidableEq

/-- The channels of a session. -/
abbrev Channels (P : Payloads) := Mpsc (ServerSessionMessage P)

/-! ## Cached senders -/

structure CachedTx (P : Payloads) where
  tx : Nat
  cache : List (ServerSessionMessage P)
  httpRequestId : Option HttpRequestId
  capacity : Nat

namespace CachedTx

variable {P : Payloads}

def new (channels : Channels P) (tx : Nat) (httpRequestId : Option HttpRequestId) : CachedTx P where
  tx := tx
  cache := []
  httpRequestId := httpRequestId
  capacity := (channels.chan tx).available

def newCommon (channels : Channels P) (tx : Nat) : CachedTx P := new channels tx none

/-- The number of the next message; the addition wraps as in a release build. -/
def nextIndex (c : CachedTx P) : UInt64 :=
  match c.cache.getLast? with
  | some m => m.eventId.index + 1
  | none => 0

/-- The message as it goes out. -/
def stamp (c : CachedTx P) (message : ServerJsonRpcMessage P) : ServerSessionMessage P :=
  ⟨⟨c.httpRequestId, c.nextIndex⟩, message⟩

/-- The cache with one more message; the oldest one leaves a full cache. -/
def remember (c : CachedTx P) (m : ServerSessionMessage P) : CachedTx P :=
  { c with cache := if c.capacity ≤ c.cache.length then c.cache.tail ++ [m] else c.cache ++ [m] }

/-- A refused send is only logged. -/
def send (c : CachedTx P) (channels : Channels P) (message : ServerJsonRpcMessage P) :
    Exec (CachedTx P × Channels P) := do
  let m := c.stamp message
  let (_, channels) ← channels.send c.tx m
  return (c.remember m, channels)

/-- Send the cache again, from the message with number `index` on. -/
def sync (c : CachedTx P) (channels : Channels P) (index : UInt64) :
    Exec (Except SessionError Unit × Channels P) :=
  match c.cache.head? with
  | none => .ok (.ok (), channels)
  | some front =>
    let syncIndex := index.toNat - front.eventId.index.toNat
    if c.cache.length < syncIndex then .ok (.error .invalidEventId, channels)
    else do
      let (result, channels) ← channels.sendAll c.tx (c.cache.drop syncIndex)
      match result with
      | .ok () => return (.ok (), channels)
      | .error m => return (.error (.channelClosed m.eventId.httpRequestId), channels)

end CachedTx

/-! ## The worker -/

inductive ResourceKey
  | mcpRequestId (id : RequestId)
  | progressToken (token : ProgressToken)
deriving DecidableEq

structure HttpRequestWise (P : Payloads) where
  resources : Finset ResourceKey
  tx : CachedTx P

/-- `channel` panics on a capacity of zero. -/
structure SessionConfig where
  channelCapacity : Nat
  channelCapacity_pos : 0 < channelCapacity

/-- `SessionConfig::DEFAULT_CHANNEL_CAPACITY`. -/
def SessionConfig.default : SessionConfig := ⟨16, by decide⟩

structure SessionWorker (P : Payloads) where
  nextHttpRequestId : HttpRequestId
  txRouter : HashMap HttpRequestId (HttpRequestWise P)
  resourceRouter : HashMap ResourceKey HttpRequestId
  common : CachedTx P
  sessionConfig : SessionConfig

inductive OutboundChannel
  | requestWise (id : HttpRequestId) (close : Bool)
  | common
deriving DecidableEq

structure StreamableHttpMessageReceiver where
  httpRequestId : Option HttpRequestId
  inner : Nat
deriving DecidableEq

namespace SessionWorker

variable {P : Payloads}

def unregisterResource (w : SessionWorker P) (resource : ResourceKey) : SessionWorker P :=
  match w.resourceRouter.get resource with
  | none => w
  | some httpRequestId =>
    let w := { w with resourceRouter := w.resourceRouter.remove resource }
    match w.txRouter.get httpRequestId with
    | none => w
    | some channel =>
      let resources := channel.resources.erase resource
      if resources = ∅ then { w with txRouter := w.txRouter.remove httpRequestId }
      else { w with txRouter := w.txRouter.insert httpRequestId { channel with resources } }

def registerResource (w : SessionWorker P) (resource : ResourceKey)
    (httpRequestId : HttpRequestId) : SessionWorker P :=
  match w.txRouter.get httpRequestId with
  | none => w
  | some channel =>
    { w with
      txRouter := w.txRouter.insert httpRequestId
        { channel with resources := insert resource channel.resources }
      resourceRouter := w.resourceRouter.insert resource httpRequestId }

def registerRequest (w : SessionWorker P) (request : JsonRpcRequest P.ClientRequest)
    (httpRequestId : HttpRequestId) : SessionWorker P :=
  let w := w.registerResource (.mcpRequestId request.id) httpRequestId
  match (P.getMeta request.request).getProgressToken with
  | some token => w.registerResource (.progressToken token) httpRequestId
  | none => w

def catchCancellationNotification (w : SessionWorker P)
    (notification : JsonRpcNotification ClientNotification) : SessionWorker P :=
  match notification.notification with
  | .cancelledNotification n => w.unregisterResource (.mcpRequestId n.params.requestId)
  | _ => w

/-- `next_http_request_id`: the id of the next channel, and the counter moved on. -/
def takeNextHttpRequestId (w : SessionWorker P) : HttpRequestId × SessionWorker P :=
  (w.nextHttpRequestId, { w with nextHttpRequestId := w.nextHttpRequestId + 1 })

def establishRequestWiseChannel (w : SessionWorker P) (channels : Channels P) :
    StreamableHttpMessageReceiver × SessionWorker P × Channels P :=
  let (httpRequestId, w) := w.takeNextHttpRequestId
  let (tx, channels) := channels.channel w.sessionConfig.channelCapacity
  let channel : HttpRequestWise P := ⟨∅, .new channels tx (some httpRequestId)⟩
  (⟨some httpRequestId, tx⟩, { w with txRouter := w.txRouter.insert httpRequestId channel },
    channels)

/-- The channel of a resource, or the common one. -/
def outboundOf (w : SessionWorker P) (resource : ResourceKey) : OutboundChannel :=
  match w.resourceRouter.get resource with
  | some id => .requestWise id false
  | none => .common

/-- The batch arms are `unreachable!`. -/
def resolveOutboundChannel (w : SessionWorker P) : ServerJsonRpcMessage P → Exec OutboundChannel
  | .request _ => .ok .common
  | .notification n =>
    match n.notification with
    | .progressNotification n => .ok (w.outboundOf (.progressToken n.params.progressToken))
    | .cancelledNotification n => .ok (w.outboundOf (.mcpRequestId n.params.requestId))
    | _ => .ok .common
  | .response r => .ok (w.outboundOf (.mcpRequestId r.id))
  | .error e => .ok (w.outboundOf (.mcpRequestId e.id))
  | .batchRequest _ | .batchResponse _ => .error .panics

def handleServerMessage (w : SessionWorker P) (channels : Channels P)
    (message : ServerJsonRpcMessage P) :
    Exec (Except SessionError Unit × SessionWorker P × Channels P) := do
  match ← w.resolveOutboundChannel message with
  | .requestWise id close =>
    match w.txRouter.get id with
    | some requestWise =>
      let (tx, channels) ← requestWise.tx.send channels message
      let txRouter := w.txRouter.insert id { requestWise with tx }
      return (.ok (), { w with txRouter := if close then txRouter.remove id else txRouter },
        channels)
    | none => return (.error (.channelClosed (some id)), w, channels)
  | .common =>
    let (common, channels) ← w.common.send channels message
    return (.ok (), { w with common }, channels)

/-- Put a new channel under a cached sender and replay into it. When the replay fails the
new receiver is dropped, and the new sender stays. -/
def resumeOn (c : CachedTx P) (capacity : Nat) (channels : Channels P) (index : UInt64) :
    Exec (Except SessionError Nat × CachedTx P × Channels P) := do
  let (tx, channels) := channels.channel capacity
  let c := { c with tx }
  let (result, channels) ← c.sync channels index
  match result with
  | .ok () => return (.ok tx, c, channels)
  | .error e => return (.error e, c, channels.close tx)

def resume (w : SessionWorker P) (channels : Channels P) (lastEventId : EventId) :
    Exec (Except SessionError StreamableHttpMessageReceiver × SessionWorker P × Channels P) :=
  let capacity := w.sessionConfig.channelCapacity
  match lastEventId.httpRequestId with
  | some httpRequestId =>
    match w.txRouter.get httpRequestId with
    | none => .ok (.error (.channelClosed (some httpRequestId)), w, channels)
    | some requestWise => do
      let (result, tx, channels) ← resumeOn requestWise.tx capacity channels lastEventId.index
      let txRouter := w.txRouter.insert httpRequestId { requestWise with tx }
      return (result.map (⟨some httpRequestId, ·⟩), { w with txRouter }, channels)
  | none => do
    let (result, common, channels) ← resumeOn w.common capacity channels lastEventId.index
    return (result.map (⟨none, ·⟩), { w with common }, channels)

end SessionWorker

/-- `create_session`: the receiver of the common channel is dropped at once. -/
def createSession (P : Payloads) (config : SessionConfig) : SessionWorker P × Channels P :=
  let (commonTx, channels) := (Mpsc.empty : Channels P).channel config.channelCapacity
  let channels := channels.close commonTx
  ({ nextHttpRequestId := 0
     txRouter := .empty
     resourceRouter := .empty
     common := .newCommon channels commonTx
     sessionConfig := config }, channels)

end Session

end Rmcp
