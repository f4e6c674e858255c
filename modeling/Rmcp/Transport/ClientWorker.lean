import Rmcp.Model.Message
import Rmcp.Support.Transition
import Rmcp.Transport.ClientSse

/-!
# The worker of the streamable HTTP client

`StreamableHttpClientWorker::run`: it posts the initialize request and the initialized
notification, opens the common stream, and then serves the handler and the streams until it
quits. The tasks that it spawns take their steps between its own: one for each event stream,
which reads the stream into a channel to the worker, and one that deletes the session.

A client is what a call of it passes on and returns. The worker runs over the client `C` that
a run is given the answers of, or over `AuthClient<C>`.

The sources are what the worker is given to read: the event streams, and the replies to POSTs
that are one message. They are numbered in the order in which it gets them, and a message
that it hands on carries the number of its source. The codec, the streams and the retry policy
are parameters; all calls are made to the one `config.uri`, which is left out.
-/

namespace Rmcp.ClientWorker

/-! ## The client -/

/-- The errors of other crates are kept as their texts. -/
inductive StreamableHttpError (E : Type)
  | sse (e : String)
  | io (e : String)
  | client (e : E)
  | unexpectedEndOfStream
  | unexpectedServerResponse (response : String)
  | unexpectedContentType (contentType : Option String)
  | severDoesNotSupportSse
  | severDoesNotSupportDeleteSession
  | tokioJoinError (e : String)
  | deserialize (e : String)
  | transportChannelClosed
  | auth (e : String)
deriving DecidableEq

/-- What the worker is made of. The debug texts occur in one error. -/
structure Setup where
  P : Payloads
  Stream : Type
  fromStr : String → Except String (ServerJsonRpcMessage P)
  debugMessage : ServerJsonRpcMessage P → String
  debugSessionId : Option String → String
  retryConfig : SseRetryPolicy
  channelBufferCapacity : Nat
  /-- `mpsc::channel` panics on zero. -/
  channelBufferCapacity_pos : 0 < channelBufferCapacity

inductive StreamableHttpPostResponse (S : Setup)
  | accepted
  | json (message : ServerJsonRpcMessage S.P) (sessionId : Option String)
  | sse (stream : S.Stream) (sessionId : Option String)

namespace StreamableHttpPostResponse

variable {S : Setup} {E : Type}

def debug : StreamableHttpPostResponse S → String
  | .accepted => "Accepted"
  | .json message sessionId =>
    "Json(" ++ S.debugMessage message ++ ", " ++ S.debugSessionId sessionId ++ ")"
  | .sse _ sessionId => "Sse(" ++ S.debugSessionId sessionId ++ ")"

def expectAccepted : StreamableHttpPostResponse S → Except (StreamableHttpError E) Unit
  | .accepted => .ok ()
  | got => .error (.unexpectedServerResponse ("expect accepted, got " ++ got.debug))

end StreamableHttpPostResponse

/-- The answer to a call: what the client returns, and what `get_access_token` returns to it
where it is asked. -/
structure Answer (E R : Type) where
  token : Except String String
  outcome : Except (StreamableHttpError E) R

/-- What comes of a call: the authorization that the client is called with, if it is called,
and what the worker gets. -/
structure Called (E R : Type) where
  authHeader : Option (Option String)
  result : Except (StreamableHttpError E) R

/-- A client with errors `E'` over one with errors `E`. -/
structure StreamableHttpClient (S : Setup) (E E' : Type) where
  postMessage (authHeader : Option String) (answer : Answer E (StreamableHttpPostResponse S)) :
    Called E' (StreamableHttpPostResponse S)
  deleteSession (authHeader : Option String) (answer : Answer E Unit) : Called E' Unit
  getStream (authHeader : Option String) (answer : Answer E S.Stream) : Called E' S.Stream

/-- A client that is called directly. -/
def direct (S : Setup) (E : Type) : StreamableHttpClient S E E where
  postMessage authHeader answer := ⟨some authHeader, answer.outcome⟩
  deleteSession authHeader answer := ⟨some authHeader, answer.outcome⟩
  getStream authHeader answer := ⟨some authHeader, answer.outcome⟩

/-- The three methods of `AuthClient` differ in the method that they pass the call on to. -/
def AuthClient.call {E R : Type} (authToken : Option String) (answer : Answer E R) :
    Called (StreamableHttpError E) R :=
  match authToken, answer.token with
  | some token, _ => ⟨some (some token), answer.outcome.mapError .client⟩
  | none, .ok token => ⟨some (some token), answer.outcome.mapError .client⟩
  | none, .error e => ⟨none, .error (.auth e)⟩

def AuthClient (S : Setup) (E : Type) : StreamableHttpClient S E (StreamableHttpError E) where
  postMessage := AuthClient.call
  deleteSession := AuthClient.call
  getStream := AuthClient.call

/-! ## The state -/

/-- A request to the client that the worker runs over. -/
inductive Request (P : Payloads)
  | postMessage (message : ClientJsonRpcMessage P) (sessionId : Option String)
  | deleteSession (sessionId : Option String)
  | getStream (sessionId lastEventId : Option String)

structure Call (P : Payloads) where
  request : Request P
  authHeader : Option String

/-- A fatal error is kept as it is, where the source keeps its text. -/
inductive WorkerQuitReason (E : Type)
  | fatal (error : StreamableHttpError E ⊕ String) (context : String)
  | cancelled
  | handlerTerminated
deriving DecidableEq

/-- What the worker does after it has sent a message to the handler. -/
inductive Resume
  | awaitInitialized
  | respond (responder : Nat)
  | select
deriving DecidableEq

/-- Where `run` is. -/
inductive Phase (S : Setup) (E : Type)
  | awaitInitialize
  | postInitialize (message : ClientJsonRpcMessage S.P)
  /-- It waits for the first event of the stream that answers the initialize request. -/
  | expectInitialized (source : Nat) (sessionId : Option String)
  | sendToHandler (source : Nat) (message : ServerJsonRpcMessage S.P) (resume : Resume)
  | awaitInitialized
  | postInitialized (message : ClientJsonRpcMessage S.P) (responder : Nat)
  | getCommon
  | select
  | post (message : ClientJsonRpcMessage S.P) (responder : Nat)
  | quit (reason : WorkerQuitReason E)

/-- `execute_sse_stream`. -/
inductive Task (S : Setup) (E : Type)
  | reading (stream : SseAutoReconnectStream S.Stream)
  | sending (stream : SseAutoReconnectStream S.Stream) (message : ServerJsonRpcMessage S.P)
  | finished (result : Except (StreamableHttpError E) Unit)

structure Source (S : Setup) (E : Type) where
  /-- The messages read from it. -/
  messages : List (ServerJsonRpcMessage S.P)
  /-- It has come to its end, or failed for good. -/
  ended : Bool
  /-- The task that reads it, while that is in the `JoinSet`. -/
  task : Option (Task S E)

/-- The task that deletes the session. -/
inductive Deletion
  | notSpawned
  | waiting
  | deleting
  | finished
deriving DecidableEq

structure State (S : Setup) (E : Type) where
  phase : Phase S E
  sessionId : Option String
  /-- The requests on their way to the worker, each with its responder. -/
  fromHandler : List (ClientJsonRpcMessage S.P × Nat)
  /-- The requests sent so far. -/
  sent : Nat
  responses : List (Nat × Except (StreamableHttpError E) Unit)
  /-- The handler has dropped the transport, and with it the receiver of messages. -/
  transportDropped : Bool
  /-- All senders of requests are dropped. -/
  sendersDropped : Bool
  cancelled : Bool
  /-- The messages handed to the handler. -/
  forwarded : List (Nat × ServerJsonRpcMessage S.P)
  /-- How many of them it has read. -/
  read : Nat
  /-- The channel from the stream tasks to the worker. -/
  sseWorker : List (Nat × ServerJsonRpcMessage S.P)
  sources : List (Source S E)
  deletion : Deletion
  calls : List (Call S.P)

def init (S : Setup) (E : Type) : State S E where
  phase := .awaitInitialize
  sessionId := none
  fromHandler := []
  sent := 0
  responses := []
  transportDropped := false
  sendersDropped := false
  cancelled := false
  forwarded := []
  read := 0
  sseWorker := []
  sources := []
  deletion := .notSpawned
  calls := []

/-- What the stream of a task waited for. -/
inductive Event (S : Setup) (E : Type)
  | item (sse : Option (Except String Sse))
  | retried (answer : Answer E S.Stream)
  | slept
  | nothing

inductive Action (S : Setup) (E : Type)
  | handlerSends (message : ClientJsonRpcMessage S.P)
  | handlerReads
  | dropTransport
  | dropSenders
  | cancel
  /-- `recv_from_handler` returns. -/
  | recv
  | posted (answer : Answer E (StreamableHttpPostResponse S))
  | firstEvent (event : Option (Except String Sse))
  | gotStream (answer : Answer E S.Stream)
  /-- `send_to_handler` returns. -/
  | sendToHandler
  | observeCancel
  | recvServerMessage
  /-- The task of a source is joined. -/
  | joined (source : Nat)
  | turn (source : Nat) (event : Event S E)
  | taskSends (source : Nat)
  | taskCancelled (source : Nat)
  | deleteStarts
  | deleted (answer : Answer E Unit)

/-! ## The step -/

section Step

variable {S : Setup} {E E' : Type}

def Phase.hasQuit : Phase S E → Bool
  | .quit _ => true
  | _ => false

def Phase.receives : Phase S E → Bool
  | .awaitInitialize | .awaitInitialized | .select => true
  | _ => false

namespace State

/-- `run` returns: it drops its ends of the channels, its drop guard cancels the token, and the
`JoinSet` aborts the tasks in it. -/
def quit (s : State S E) (reason : WorkerQuitReason E) : State S E :=
  { s with
    phase := .quit reason
    cancelled := true
    fromHandler := []
    sseWorker := []
    sources := s.sources.map fun source => { source with task := none } }

def goto (s : State S E) (phase : Phase S E) : State S E := { s with phase }

def called {R : Type} (s : State S E) (request : Request S.P) (c : Called E R) : State S E :=
  { s with calls := s.calls ++ c.authHeader.toList.map fun header => ⟨request, header⟩ }

def respond (s : State S E) (responder : Nat) (result : Except (StreamableHttpError E) Unit) :
    State S E :=
  { s with responses := s.responses ++ [(responder, result)] }

def give (s : State S E) (source : Source S E) : State S E :=
  { s with sources := s.sources ++ [source] }

def setSource (s : State S E) (k : Nat) (source : Source S E) : State S E :=
  { s with sources := s.sources.set k source }

/-- `streams.spawn(Self::execute_sse_stream(..))`. -/
def spawn (s : State S E) (stream : S.Stream) : State S E :=
  s.give ⟨[], false, some (.reading (.new stream))⟩

def recv (s : State S E) : Option (State S E) :=
  match s.fromHandler with
  | (message, responder) :: fromHandler =>
    match s.phase with
    | .awaitInitialize =>
      some (({ s with fromHandler }.respond responder (.ok ())).goto (.postInitialize message))
    | .awaitInitialized =>
      some ({ s with fromHandler }.goto (.postInitialized message responder))
    | .select => some ({ s with fromHandler }.goto (.post message responder))
    | _ => none
  | [] => if s.sendersDropped && s.phase.receives then some (s.quit .handlerTerminated) else none

/-- The initialize response has been read. -/
def initialized (s : State S E) (source : Nat) (message : ServerJsonRpcMessage S.P)
    (sessionId : Option String) : State S E :=
  match sessionId with
  | none =>
    s.quit (.fatal (.inr "missing session id in initialize response") "process initialize response")
  | some sessionId =>
    { s with sessionId := some sessionId, deletion := .waiting }.goto
      (.sendToHandler source message .awaitInitialized)

/-- `expect_initialized`, as far as it gets without an event. -/
def expectInitialized (s : State S E) : StreamableHttpPostResponse S → State S E
  | .json message sessionId =>
    (s.give ⟨[message], true, none⟩).initialized s.sources.length message sessionId
  | .sse _ sessionId =>
    (s.give ⟨[], false, none⟩).goto (.expectInitialized s.sources.length sessionId)
  | .accepted =>
    s.quit (.fatal (.inl (.unexpectedServerResponse "expect initialized, accepted"))
      "process initialize response")

/-- `expect_initialized` reads the first event of the stream, and drops the stream. -/
def firstEvent (s : State S E) (event : Option (Except String Sse)) : Option (State S E) :=
  match s.phase with
  | .expectInitialized k sessionId =>
    match event with
    | none =>
      some (s.quit (.fatal (.inl (.unexpectedServerResponse "empty sse stream"))
        "process initialize response"))
    | some (.error e) => some (s.quit (.fatal (.inl (.sse e)) "process initialize response"))
    | some (.ok event) =>
      match S.fromStr (event.data.getD "") with
      | .error e => some (s.quit (.fatal (.inl (.deserialize e)) "process initialize response"))
      | .ok message => some ((s.setSource k ⟨[message], false, none⟩).initialized k message sessionId)
  | _ => none

def posted (client : StreamableHttpClient S E E') (s : State S E')
    (answer : Answer E (StreamableHttpPostResponse S)) : Option (State S E') :=
  let c := client.postMessage none answer
  match s.phase with
  | .postInitialize message =>
    let s := s.called (.postMessage message none) c
    match c.result with
    | .error e => some (s.quit (.fatal (.inl e) "send initialize request"))
    | .ok response => some (s.expectInitialized response)
  | .postInitialized message responder =>
    let s := s.called (.postMessage message s.sessionId) c
    match c.result with
    | .error e => some (s.quit (.fatal (.inl e) "send initialized notification"))
    | .ok response =>
      match response.expectAccepted with
      | .error e => some (s.quit (.fatal (.inl e) "process initialized notification response"))
      | .ok () => some ((s.respond responder (.ok ())).goto .getCommon)
  | .post message responder =>
    let s := s.called (.postMessage message s.sessionId) c
    match c.result with
    | .error e => some ((s.respond responder (.error e)).goto .select)
    | .ok .accepted => some ((s.respond responder (.ok ())).goto .select)
    | .ok (.json message _) =>
      some ((s.give ⟨[message], true, none⟩).goto
        (.sendToHandler s.sources.length message (.respond responder)))
    | .ok (.sse stream _) =>
      some (((s.spawn stream).respond responder (.ok ())).goto .select)
  | _ => none

def gotStream (client : StreamableHttpClient S E E') (s : State S E') (answer : Answer E S.Stream) :
    Option (State S E') :=
  match s.phase with
  | .getCommon =>
    let c := client.getStream none answer
    let s := s.called (.getStream s.sessionId none) c
    match c.result with
    | .ok stream => some ((s.spawn stream).goto .select)
    | .error .severDoesNotSupportSse => some (s.goto .select)
    | .error _ =>
      some (s.quit (.fatal (.inr "fail to get general purpose event stream")
        "get general purpose event stream"))
  | _ => none

def sendToHandler (s : State S E) : Option (State S E) :=
  match s.phase with
  | .sendToHandler source message resume =>
    if s.transportDropped then some (s.quit .handlerTerminated)
    else if s.forwarded.length - s.read < S.channelBufferCapacity then
      let s := { s with forwarded := s.forwarded ++ [(source, message)] }
      match resume with
      | .awaitInitialized => some (s.goto .awaitInitialized)
      | .respond responder => some ((s.respond responder (.ok ())).goto .select)
      | .select => some (s.goto .select)
    else none
  | _ => none

/-- The worker has a sender of the channel itself, so that it is never closed. -/
def recvServerMessage (s : State S E) : Option (State S E) :=
  match s.phase, s.sseWorker with
  | .select, (source, message) :: sseWorker =>
    some ({ s with sseWorker }.goto (.sendToHandler source message .select))
  | _, _ => none

def joined (s : State S E) (k : Nat) : Option (State S E) :=
  match s.phase, s.sources[k]? with
  | .select, some ⟨messages, ended, some (.finished _)⟩ =>
    some (s.setSource k ⟨messages, ended, none⟩)
  | _, _ => none

/-- `execute_sse_stream` goes on with what its stream returns. -/
def polled (s : State S E) (k : Nat) (source : Source S E)
    (stream : SseAutoReconnectStream S.Stream) :
    Polled (ServerJsonRpcMessage S.P) (StreamableHttpError E) → State S E
  | .again | .retryConnection _ => s.setSource k { source with task := some (.reading stream) }
  | .ready (some (.ok message)) =>
    s.setSource k { source with
      messages := source.messages ++ [message]
      task := some (.sending stream message) }
  | .ready (some (.error e)) =>
    s.setSource k { source with ended := true, task := some (.finished (.error e)) }
  | .ready none => s.setSource k { source with ended := true, task := some (.finished (.ok ())) }

/-- What the stream waits for; an attempt to connect calls `get_stream`. -/
def awaited (client : StreamableHttpClient S E E') (s : State S E')
    (stream : SseAutoReconnectStream S.Stream) :
    Event S E → State S E' × Awaited S.Stream (StreamableHttpError E')
  | .item sse => (s, .item (sse.map (Except.mapError .sse)))
  | .retried answer =>
    let c := client.getStream none answer
    (s.called (.getStream s.sessionId stream.lastEventId) c, .retried c.result)
  | .slept => (s, .slept)
  | .nothing => (s, .nothing)

def turn (client : StreamableHttpClient S E E') (s : State S E') (k : Nat) (event : Event S E) :
    Option (State S E') :=
  match s.sources[k]? with
  | some ⟨messages, ended, some (.reading stream)⟩ =>
    let (s, awaited) := s.awaited client stream event
    (stream.pollNext S.retryConfig (fun data => (S.fromStr data).toOption) awaited).map
      fun (stream, polled) => s.polled k ⟨messages, ended, none⟩ stream polled
  | _ => none

def taskSends (s : State S E) (k : Nat) : Option (State S E) :=
  match s.sources[k]? with
  | some ⟨messages, ended, some (.sending stream message)⟩ =>
    if s.sseWorker.length < S.channelBufferCapacity then
      some { s.setSource k ⟨messages, ended, some (.reading stream)⟩ with
        sseWorker := s.sseWorker ++ [(k, message)] }
    else none
  | _ => none

def taskCancelled (s : State S E) (k : Nat) : Option (State S E) :=
  match s.sources[k]? with
  | some ⟨messages, ended, some (.reading _)⟩ =>
    if s.cancelled then some (s.setSource k ⟨messages, ended, some (.finished (.ok ()))⟩) else none
  | _ => none

end State

def step (client : StreamableHttpClient S E E') (s : State S E') :
    Action S E → Option (State S E')
  | .handlerSends message =>
    if !s.phase.hasQuit && !s.sendersDropped && s.fromHandler.length < S.channelBufferCapacity then
      some { s with fromHandler := s.fromHandler ++ [(message, s.sent)], sent := s.sent + 1 }
    else none
  | .handlerReads =>
    if !s.transportDropped && s.read < s.forwarded.length then some { s with read := s.read + 1 }
    else none
  | .dropTransport => some { s with transportDropped := true, cancelled := true }
  | .dropSenders => if s.transportDropped then some { s with sendersDropped := true } else none
  | .cancel => some { s with cancelled := true }
  | .recv => s.recv
  | .posted answer => s.posted client answer
  | .firstEvent event => s.firstEvent event
  | .gotStream answer => s.gotStream client answer
  | .sendToHandler => s.sendToHandler
  | .observeCancel =>
    match s.phase with
    | .select => if s.cancelled then some (s.quit .cancelled) else none
    | _ => none
  | .recvServerMessage => s.recvServerMessage
  | .joined k => s.joined k
  | .turn k event => s.turn client k event
  | .taskSends k => s.taskSends k
  | .taskCancelled k => s.taskCancelled k
  | .deleteStarts =>
    if s.deletion = .waiting && s.cancelled then some { s with deletion := .deleting } else none
  | .deleted answer =>
    match s.deletion with
    | .deleting =>
      let c := client.deleteSession none answer
      some { s.called (.deleteSession s.sessionId) c with deletion := .finished }
    | _ => none

end Step

/-! ## The concrete runs -/

/-- The response to the initialize request, as it is on the wire. -/
def initializeText : String := "\x7b\"jsonrpc\":\"2.0\",\"id\":0,\"result\":\x7b\x7d\x7d"

/-- The setup of the concrete runs: the payloads carry nothing, and a stream is a number. -/
abbrev plainSetup : Setup where
  P := ⟨Unit, Unit, Unit, Unit, fun _ => Meta.staticEmpty⟩
  Stream := Nat
  fromStr data :=
    if data = initializeText then .ok (.response ⟨.number 0, ()⟩) else .error "expected value"
  debugMessage _ := ""
  debugSessionId _ := ""
  retryConfig := FixedInterval.default.retry
  channelBufferCapacity := 16
  channelBufferCapacity_pos := Nat.succ_pos _

/-- The handler sends the initialize request, and the worker posts it. -/
def initializeRun (response : StreamableHttpPostResponse plainSetup) :
    List (Action plainSetup Unit) :=
  [.handlerSends (.request ⟨.number 0, ()⟩), .recv, .posted ⟨.ok "token", .ok response⟩]

/-- The response goes to the handler, and the initialized notification is posted. -/
def initializedRun : List (Action plainSetup Unit) :=
  [.sendToHandler, .handlerReads, .handlerSends (.notification ⟨.initializedNotification ⟨⟨none⟩⟩⟩),
    .recv, .posted ⟨.ok "token", .ok .accepted⟩]

/-- The runs up to the GET of the common stream, with an initialize response that is JSON. -/
def handshakeRun : List (Action plainSetup Unit) :=
  initializeRun (.json (.response ⟨.number 0, ()⟩) (some "session")) ++ initializedRun

end Rmcp.ClientWorker
