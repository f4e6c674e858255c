import Rmcp.Model.Message
import Rmcp.Support.HashMap
import Rmcp.Support.Transition
import Mathlib.Data.Finset.Basic

/-!
# The service loop

`serve_inner` as a transition system. The actions are the events of the loop, and the moves
of everything that runs beside it: callers of `send_request` and `send_notification`, spawned
handlers, spawned transport sends, and the transport.

A oneshot responder is a number: that of the call that made it. A cancellation token is a
number too; the tokens of the pool are children of the token of the loop. The fields after
`inbound` say what happened: they are written and never read.
-/

namespace Rmcp

/-- The message types of one side and of its peer. -/
structure ServiceRole where
  Req : Type
  Resp : Type
  Not : Type
  PeerReq : Type
  PeerResp : Type
  PeerNot : Type
  getMeta : Req → Meta
  setMeta : Meta → Req → Req
  peerMeta : PeerReq → Meta
  peerExtensions : PeerReq → Extensions
  tryIntoCancelled : Not → Except Not CancelledNotification
  ofCancelled : CancelledNotification → Not
  peerTryIntoCancelled : PeerNot → Except PeerNot CancelledNotification
  peerOfCancelled : CancelledNotification → PeerNot

abbrev TxJsonRpcMessage (R : ServiceRole) := JsonRpcMessage R.Req R.Resp R.Not

abbrev RxJsonRpcMessage (R : ServiceRole) := JsonRpcMessage R.PeerReq R.PeerResp R.PeerNot

namespace Service

inductive ServiceError (E : Type)
  | mcpError (error : ErrorData)
  | transportSend (error : E)
  | cancelled (reason : Option String)

structure PeerRequestOptions where
  metaEntry : Option Meta

inductive PeerSinkMessage (R : ServiceRole)
  | request (request : R.Req) (id : RequestId) (responder : Nat)
  | notification (notification : R.Not) (responder : Nat)

inductive SendTaskResult (E : Type)
  | request (id : RequestId) (result : Except E Unit)
  | notification (responder : Nat) (cancellationParam : Option CancelledNotificationParam)
      (result : Except E Unit)

inductive Event (R : ServiceRole) (E : Type)
  | proxyMessage (message : PeerSinkMessage R)
  | peerMessage (message : RxJsonRpcMessage R)
  | toSink (message : TxJsonRpcMessage R)
  | sendTaskResult (result : SendTaskResult E)

inductive QuitReason
  | cancelled
  | closed
  | joinError
deriving DecidableEq

structure RequestContext where
  ct : Nat
  id : RequestId
  metaEntry : Meta
  extensions : Extensions

/-- A running `handle_request`. -/
structure Handler (R : ServiceRole) where
  request : R.PeerReq
  context : RequestContext

/-- How far a transport send has come: not polled yet, taken by the transport, or done. -/
inductive SendProgress (E : Type)
  | spawned
  | accepted
  | finished (result : Except E Unit)

/-- What the task of a send does with its result. -/
inductive SendJob
  | request (id : RequestId)
  | notification (responder : Nat) (cancellationParam : Option CancelledNotificationParam)

/-- What the task returns when it is joined. -/
def SendJob.done {E : Type} (job : SendJob) (result : Except E Unit) : SendTaskResult E :=
  match job with
  | .request id => .request id result
  | .notification responder cancellationParam => .notification responder cancellationParam result

structure SendTask (R : ServiceRole) (E : Type) where
  message : TxJsonRpcMessage R
  job : SendJob
  progress : SendProgress E

/-- `Peer::CLIENT_CHANNEL_BUFFER_SIZE`. -/
def clientChannelBufferSize : Nat := 1024

/-- `SINK_PROXY_BUFFER_SIZE`. -/
def sinkProxyBufferSize : Nat := 64

structure Serve (R : ServiceRole) (E : Type) where
  -- the callers
  nextRequestId : UInt32
  nextProgressToken : UInt32
  requestCalls : Nat
  notificationCalls : Nat
  /-- Calls that have an id and wait for room in the channel. -/
  callers : List (PeerSinkMessage R)
  peerRx : List (PeerSinkMessage R)
  -- the loop
  batchMessages : List (RxJsonRpcMessage R)
  localResponderPool : HashMap RequestId Nat
  localCtPool : HashMap RequestId Nat
  sendTaskSet : List (SendTask R E)
  sinkProxyRx : List (TxJsonRpcMessage R)
  quit : Option QuitReason
  -- the tasks it has spawned
  handlers : List (Handler R)
  /-- Answers of handlers that wait for room in the sink channel. -/
  responding : List (TxJsonRpcMessage R)
  /-- The notifications that tasks were spawned for, each to call its handler, in the order of the
  spawns. -/
  spawnedNotifications : List R.PeerNot
  responseSends : List (TxJsonRpcMessage R × SendProgress E)
  -- the cancellation tokens
  nextToken : Nat
  cancelledTokens : Finset Nat
  loopCancelled : Bool
  -- what happened
  inbound : List (RxJsonRpcMessage R)
  history : List (Event R E)
  returned : List (RequestId × Except ErrorData R.Resp)
  sent : List (TxJsonRpcMessage R)
  accepted : List (TxJsonRpcMessage R)
  completions : List (Nat × Except (ServiceError E) R.PeerResp)
  acknowledgements : List (Nat × Except (ServiceError E) Unit)

namespace Serve

variable {R : ServiceRole} {E : Type}

/-- A loop that has just started; the providers may have given ids out before. -/
def start (nextRequestId nextProgressToken : UInt32) : Serve R E where
  nextRequestId := nextRequestId
  nextProgressToken := nextProgressToken
  requestCalls := 0
  notificationCalls := 0
  callers := []
  peerRx := []
  batchMessages := []
  localResponderPool := .empty
  localCtPool := .empty
  sendTaskSet := []
  sinkProxyRx := []
  quit := none
  handlers := []
  responding := []
  spawnedNotifications := []
  responseSends := []
  nextToken := 0
  cancelledTokens := ∅
  loopCancelled := false
  inbound := []
  history := []
  returned := []
  sent := []
  accepted := []
  completions := []
  acknowledgements := []

/-! ## The events of the loop -/

/-- Remove the responder of `id` from the pool and complete it, if it is there. -/
def complete (s : Serve R E) (id : RequestId) (outcome : Except (ServiceError E) R.PeerResp) :
    Serve R E :=
  match s.localResponderPool.get id with
  | some responder =>
    { s with
      localResponderPool := s.localResponderPool.remove id
      completions := s.completions ++ [(responder, outcome)] }
  | none => s

/-- Remove the token of `id` from the pool and cancel it, if it is there. -/
def cancelToken (s : Serve R E) (id : RequestId) : Serve R E :=
  match s.localCtPool.get id with
  | some ct =>
    { s with
      localCtPool := s.localCtPool.remove id
      cancelledTokens := insert ct s.cancelledTokens }
  | none => s

/-- `transport.send(message)`, spawned into the task set. -/
def spawnSend (s : Serve R E) (message : TxJsonRpcMessage R) (job : SendJob) : Serve R E :=
  { s with
    sendTaskSet := s.sendTaskSet ++ [⟨message, job, .spawned⟩]
    sent := s.sent ++ [message] }

/-- `transport.send(message)`, spawned on its own. -/
def spawnResponse (s : Serve R E) (message : TxJsonRpcMessage R) : Serve R E :=
  { s with
    responseSends := s.responseSends ++ [(message, .spawned)]
    sent := s.sent ++ [message] }

/-- A request of the peer: a new token, and a task for the handler. -/
def spawnHandler (s : Serve R E) (r : JsonRpcRequest R.PeerReq) : Serve R E :=
  let context : RequestContext :=
    ⟨s.nextToken, r.id, R.peerMeta r.request, R.peerExtensions r.request⟩
  { s with
    nextToken := s.nextToken + 1
    localCtPool := s.localCtPool.insert r.id s.nextToken
    handlers := s.handlers ++ [⟨r.request, context⟩] }

def handlePeerMessage (s : Serve R E) : RxJsonRpcMessage R → Serve R E
  | .request r => s.spawnHandler r
  | .notification n =>
    match R.peerTryIntoCancelled n.notification with
    | .ok cancelled =>
      let s := s.cancelToken cancelled.params.requestId
      { s with spawnedNotifications := s.spawnedNotifications ++ [R.peerOfCancelled cancelled] }
    | .error notification =>
      { s with spawnedNotifications := s.spawnedNotifications ++ [notification] }
  | .response r => s.complete r.id (.ok r.result)
  | .error e => s.complete e.id (.error (.mcpError e.error))
  | .batchRequest items =>
    { s with batchMessages := s.batchMessages ++ items.map (·.intoNonBatchMessage) }
  | .batchResponse items =>
    { s with batchMessages := s.batchMessages ++ items.map (·.intoNonBatchMessage) }

def handleProxyMessage (s : Serve R E) : PeerSinkMessage R → Serve R E
  | .request request id responder =>
    let s := { s with localResponderPool := s.localResponderPool.insert id responder }
    s.spawnSend (.request ⟨id, request⟩) (.request id)
  | .notification notification responder =>
    match R.tryIntoCancelled notification with
    | .ok cancelled =>
      s.spawnSend (.notification ⟨R.ofCancelled cancelled⟩)
        (.notification responder (some cancelled.params))
    | .error notification =>
      s.spawnSend (.notification ⟨notification⟩) (.notification responder none)

def handleSendTaskResult (s : Serve R E) : SendTaskResult E → Serve R E
  | .request id result =>
    match result with
    | .error e => s.complete id (.error (.transportSend e))
    | .ok () => s
  | .notification responder cancellationParam result =>
    let response := result.mapError .transportSend
    let s := { s with acknowledgements := s.acknowledgements ++ [(responder, response)] }
    match cancellationParam with
    | some param => s.complete param.requestId (.error (.cancelled param.reason))
    | none => s

/-- Only responses and errors come out of the sink channel. -/
def handleToSink (s : Serve R E) (message : TxJsonRpcMessage R) : Serve R E :=
  match message.answeredId with
  | some id => (s.cancelToken id).spawnResponse message
  | none => s

/-- The body of the loop. -/
def handle (s : Serve R E) : Event R E → Serve R E
  | .sendTaskResult result => s.handleSendTaskResult result
  | .toSink message => s.handleToSink message
  | .proxyMessage message => s.handleProxyMessage message
  | .peerMessage message => s.handlePeerMessage message

/-- One turn of the loop with the event `e`. -/
def turn (s : Serve R E) (e : Event R E) : Serve R E :=
  { s.handle e with history := s.history ++ [e] }

/-! ## The callers and the tasks -/

/-- `send_request_with_option` up to its send: the id is drawn, and the token is set. -/
def drawRequestId (s : Serve R E) (request : R.Req) (options : PeerRequestOptions) : Serve R E :=
  let id : RequestId := .number s.nextRequestId
  let progressToken : ProgressToken := ⟨.number s.nextProgressToken⟩
  let withToken := (R.getMeta request).setProgressToken progressToken
  let requestMeta :=
    match options.metaEntry with
    | some entries => withToken.extend entries
    | none => withToken
  { s with
    nextRequestId := s.nextRequestId + 1
    nextProgressToken := s.nextProgressToken + 1
    requestCalls := s.requestCalls + 1
    callers := s.callers ++ [.request (R.setMeta requestMeta request) id s.requestCalls] }

/-- The answer of a handler. -/
def answerOf (id : RequestId) : Except ErrorData R.Resp → TxJsonRpcMessage R
  | .ok result => .response ⟨id, result⟩
  | .error error => .error ⟨id, error⟩

end Serve

/-- A turn of the loop, or a move of something beside it. -/
inductive Action (R : ServiceRole) (E : Type)
  | requestCalled (request : R.Req) (options : PeerRequestOptions)
  | requestQueued (caller : Nat)
  | requestAbandoned (caller : Nat)
  | notificationCalled (notification : R.Not)
  | handlerReturns (handler : Nat) (result : Except ErrorData R.Resp)
  | handlerAborts (handler : Nat)
  | responseQueued (answer : Nat)
  | sendAccepted (task : Nat)
  | sendFinished (task : Nat) (result : Except E Unit)
  | responseAccepted (task : Nat)
  | responseFinished (task : Nat) (result : Except E Unit)
  | loopCancelled
  -- the events that the loop waits for
  | batchMessage
  | toSink
  | received (message : RxJsonRpcMessage R)
  | inputClosed
  | proxied
  | sendJoined (task : Nat)
  | joinFailed
  | cancelled

namespace Serve

variable {R : ServiceRole} {E : Type}

/-- The moves beside the loop. -/
def background (s : Serve R E) : Action R E → Option (Serve R E)
  | .requestCalled request options => some (s.drawRequestId request options)
  | .requestQueued caller =>
    s.callers[caller]?.bind fun message =>
      if s.quit = none ∧ s.peerRx.length < clientChannelBufferSize then
        some { s with callers := s.callers.eraseIdx caller, peerRx := s.peerRx ++ [message] }
      else none
  | .requestAbandoned caller =>
    if caller < s.callers.length then some { s with callers := s.callers.eraseIdx caller } else none
  | .notificationCalled notification =>
    if s.quit = none ∧ s.peerRx.length < clientChannelBufferSize then
      some
        { s with
          notificationCalls := s.notificationCalls + 1
          peerRx := s.peerRx ++ [.notification notification s.notificationCalls] }
    else none
  | .handlerReturns handler result =>
    s.handlers[handler]?.map fun h =>
      { s with
        handlers := s.handlers.eraseIdx handler
        responding := s.responding ++ [answerOf h.context.id result]
        returned := s.returned ++ [(h.context.id, result)] }
  | .handlerAborts handler =>
    if handler < s.handlers.length then some { s with handlers := s.handlers.eraseIdx handler }
    else none
  | .responseQueued answer =>
    s.responding[answer]?.bind fun message =>
      if s.quit = none ∧ s.sinkProxyRx.length < sinkProxyBufferSize then
        some
          { s with
            responding := s.responding.eraseIdx answer
            sinkProxyRx := s.sinkProxyRx ++ [message] }
      else none
  | .sendAccepted task =>
    s.sendTaskSet[task]?.bind fun t =>
      match t.progress with
      | .spawned =>
        some
          { s with
            sendTaskSet := s.sendTaskSet.set task { t with progress := .accepted }
            accepted := s.accepted ++ [t.message] }
      | _ => none
  | .sendFinished task result =>
    s.sendTaskSet[task]?.bind fun t =>
      match t.progress with
      | .accepted =>
        some { s with sendTaskSet := s.sendTaskSet.set task { t with progress := .finished result } }
      | _ => none
  | .responseAccepted task =>
    s.responseSends[task]?.bind fun t =>
      match t.2 with
      | .spawned =>
        some
          { s with
            responseSends := s.responseSends.set task (t.1, .accepted)
            accepted := s.accepted ++ [t.1] }
      | _ => none
  | .responseFinished task _ =>
    s.responseSends[task]?.bind fun t =>
      match t.2 with
      | .accepted => some { s with responseSends := s.responseSends.eraseIdx task }
      | _ => none
  | .loopCancelled => some { s with loopCancelled := true }
  | _ => none

/-- The turns of the loop. A message of a batch goes before everything else. -/
def loop (s : Serve R E) : Action R E → Option (Serve R E)
  | .batchMessage =>
    match s.batchMessages with
    | [] => none
    | m :: batchMessages => some ({ s with batchMessages }.turn (.peerMessage m))
  | .toSink =>
    match s.batchMessages, s.sinkProxyRx with
    | [], m :: sinkProxyRx => some ({ s with sinkProxyRx }.turn (.toSink m))
    | _, _ => none
  | .received m =>
    match s.batchMessages with
    | [] => some ({ s with inbound := s.inbound ++ [m] }.turn (.peerMessage m))
    | _ => none
  | .proxied =>
    match s.batchMessages, s.peerRx with
    | [], m :: peerRx => some ({ s with peerRx }.turn (.proxyMessage m))
    | _, _ => none
  | .sendJoined task =>
    match s.batchMessages, s.sendTaskSet[task]? with
    | [], some ⟨_, job, .finished result⟩ =>
      some ({ s with sendTaskSet := s.sendTaskSet.eraseIdx task }.turn
        (.sendTaskResult (job.done result)))
    | _, _ => none
  | .inputClosed => if s.batchMessages = [] then some { s with quit := some .closed } else none
  | .joinFailed =>
    if s.batchMessages = [] ∧ s.sendTaskSet ≠ [] then some { s with quit := some .joinError }
    else none
  | .cancelled =>
    if s.batchMessages = [] ∧ s.loopCancelled = true then some { s with quit := some .cancelled }
    else none
  | _ => none

end Serve

/-- A move beside the loop is possible at any time, a turn of the loop until it quits. -/
def step {R : ServiceRole} {E : Type} (s : Serve R E) (a : Action R E) : Option (Serve R E) :=
  match s.background a with
  | some s' => some s'
  | none => if s.quit = none then s.loop a else none

/-- The actions `as` lead from a new loop to `s`. -/
def Runs {R : ServiceRole} {E : Type} (nextRequestId nextProgressToken : UInt32)
    (as : List (Action R E)) (s : Serve R E) : Prop :=
  Transition.Run step (Serve.start nextRequestId nextProgressToken) as s

/-! ## Concrete loops -/

/-- A client whose requests are their metadata. -/
def bareClient : ServiceRole where
  Req := Meta
  Resp := Unit
  Not := ClientNotification
  PeerReq := Meta
  PeerResp := Unit
  PeerNot := ServerNotification
  getMeta := id
  setMeta := fun m _ => m
  peerMeta := id
  peerExtensions := fun m => ⟨some m⟩
  tryIntoCancelled := ClientNotification.tryIntoCancelled
  ofCancelled := .cancelledNotification
  peerTryIntoCancelled := ServerNotification.tryIntoCancelled
  peerOfCancelled := .cancelledNotification

end Service

end Rmcp
