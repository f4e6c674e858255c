import Rmcp.Session.Attachment
import Rmcp.Session.EventIdFormat
import Rmcp.Transport.ClientSse

/-!
# Streamable HTTP

`StreamableHttpClientWorker` against a session behind `get_handler` and `post_handler`. Every
request is posted, and its answers come on a stream of its own; one GET opens the common
stream. A stream that fails is opened again with a GET, which carries the id of the last
event received on it, if there is one.

The session takes its steps between those of the client: an action is a step of the session,
a request that a handler passes on to it, or something that a stream of the client waited
for. The codec of messages is a parameter. A connection is the receiver in the session that
feeds it. The way of a message from a stream to the handler of the client is left out.
-/

namespace Rmcp

open Session

inductive StreamableHttpError
  | sse
  | client
deriving DecidableEq

namespace StreamableHttp

/-- What the client and the server are made of. -/
structure Setup where
  P : Payloads
  sessionConfig : SessionConfig
  retryConfig : SseRetryPolicy
  toJson : ServerJsonRpcMessage P → Option String
  fromStr : String → Option (ServerJsonRpcMessage P)

/-! ## The handlers -/

/-- `get_handler`: the event id that the session resumes at. Without the header the common
channel is established, which is to resume it at its beginning. -/
def getHandler (lastEventId : Option String) : Except EventIdParseError EventId :=
  match lastEventId with
  | some lastEventId => EventId.fromStr lastEventId
  | none => .ok ⟨none, 0⟩

/-- `receiver_as_stream`: one event for each message, unless it does not encode. -/
def Setup.event (S : Setup) (m : ServerSessionMessage S.P) : Option Sse :=
  (S.toJson m.message).map fun data => ⟨some "message", some data, some m.eventId.display, none⟩

/-! ## The client -/

/-- A stream of the client. -/
structure ClientStream where
  /-- The channel of the request that it was opened with; `none` for the common stream. -/
  httpRequestId : Option HttpRequestId
  stream : SseAutoReconnectStream Nat
  /-- The events read from the current connection. -/
  read : Nat
  /-- The events received on the stream, over all its connections. -/
  received : Nat
deriving DecidableEq

def ClientStream.opened (httpRequestId : Option HttpRequestId) (rx : Nat) : ClientStream :=
  ⟨httpRequestId, .new rx, 0, 0⟩

/-- The stream after a turn. -/
def ClientStream.next (st : ClientStream) (stream : SseAutoReconnectStream Nat) :
    Awaited Nat StreamableHttpError → ClientStream
  | .item (some (.ok _)) => { st with stream, read := st.read + 1, received := st.received + 1 }
  | _ => { st with stream, read := 0 }

theorem ClientStream.next_waited {st : ClientStream} {stream : SseAutoReconnectStream Nat}
    {awaited : Awaited Nat StreamableHttpError} (h : ∀ sse, awaited ≠ .item (some (.ok sse))) :
    st.next stream awaited = { st with stream, read := 0 } := by
  unfold ClientStream.next
  split
  · next sse => exact absurd rfl (h sse)
  · rfl

inductive Client
  | starting
  | running
  | quit
deriving DecidableEq

structure State (S : Setup) where
  session : Session.State S.P
  client : Client
  streams : List ClientStream
  /-- The streams that answer POSTs, on their way to the client. -/
  answers : List StreamableHttpMessageReceiver
  /-- The messages that `post_handler` pushes, and the session has not taken yet. -/
  pushes : List (ClientJsonRpcMessage S.P × Option HttpRequestId)

inductive Action (S : Setup)
  | session (a : Session.Action S.P)
  /-- The GET of the common stream is answered. -/
  | openCommon
  /-- The server does not support the common stream. -/
  | skipCommon
  | post (message : ClientJsonRpcMessage S.P)
  | push (i : Nat)
  | answered (i : Nat)
  | answerLost (i : Nat)
  /-- The GET of a stream reaches the session, and the answer reaches the client or not. -/
  | get (i : Nat) (arrives : Bool)
  | getFails (i : Nat)
  | reads (i : Nat)
  | fails (i : Nat)
  | ends (i : Nat)
  | slept (i : Nat)
  | quits

variable {S : Setup}

/-- `execute_sse_stream` ends with its stream, and when that gives up. -/
def finished {M : Type} : Polled M StreamableHttpError → Bool
  | .ready none | .ready (some (.error _)) => true
  | _ => false

/-- A stream of the client takes a turn. -/
def State.turn (s : State S) (i : Nat) (awaited : Awaited Nat StreamableHttpError) :
    Option (State S) := do
  let st ← s.streams[i]?
  let (stream, polled) ← st.stream.pollNext S.retryConfig S.fromStr awaited
  if finished polled then some { s with streams := s.streams.eraseIdx i }
  else some { s with streams := s.streams.set i (st.next stream awaited) }

/-- A running session handles an event that it replies to. -/
def State.handle (s : State S) (event : SessionEvent S.P) : Option (Reply × State S) :=
  match s.session with
  | .running v =>
    match v.fromHttpService event with
    | .ok (.ok (reply, v)) => some (reply, { s with session := .running v })
    | _ => none
  | _ => none

/-- What the client makes of the answer to a GET. -/
def connectionOf (reply : Reply) (arrives : Bool) : Except StreamableHttpError Nat :=
  match reply with
  | .receiver (.ok receiver) => if arrives then .ok receiver.inner else .error .client
  | _ => .error .client

def step (s : State S) : Action S → Option (State S)
  | .session a => (Session.step s.session a).map fun session => { s with session }
  | .openCommon =>
    if s.client = .starting then do
      let (reply, s) ← s.handle (.resume ⟨none, 0⟩)
      match reply with
      | .receiver (.ok receiver) =>
        some { s with client := .running, streams := [.opened none receiver.inner] }
      | _ => some { s with client := .quit }
    else none
  | .skipCommon => if s.client = .starting then some { s with client := .running } else none
  | .post message =>
    if s.client = .running then
      match message with
      | .request _ | .batchRequest _ => do
        let (reply, s) ← s.handle .establishRequestWiseChannel
        match reply with
        | .receiver (.ok receiver) =>
          some { s with
            answers := s.answers ++ [receiver]
            pushes := s.pushes ++ [(message, receiver.httpRequestId)] }
        | _ => some s
      | _ => some { s with pushes := s.pushes ++ [(message, none)] }
    else none
  | .push i => do
    let (message, httpRequestId) ← s.pushes[i]?
    let session ← Session.step s.session (.httpService (.clientMessage message httpRequestId))
    some { s with session, pushes := s.pushes.eraseIdx i }
  | .answered i => do
    let receiver ← s.answers[i]?
    some { s with
      streams := s.streams ++ [.opened receiver.httpRequestId receiver.inner]
      answers := s.answers.eraseIdx i }
  | .answerLost i => some { s with answers := s.answers.eraseIdx i }
  | .get i arrives => do
    let st ← s.streams[i]?
    match getHandler st.stream.lastEventId with
    | .ok lastEventId => do
      let (reply, s) ← s.handle (.resume lastEventId)
      s.turn i (.retried (connectionOf reply arrives))
    | .error _ => s.turn i (.retried (.error .client))
  | .getFails i => s.turn i (.retried (.error .client))
  | .reads i => do
    let st ← s.streams[i]?
    let rx ← st.stream.connection
    let v ← s.session.vars?
    let c := v.channels.chan rx
    let m ← (c.accepted.take c.taken)[st.read]?
    match S.event m with
    | some sse => s.turn i (.item (some (.ok sse)))
    | none => s.turn i (.item (some (.error .sse)))
  | .fails i => s.turn i (.item (some (.error .sse)))
  | .ends i => s.turn i (.item none)
  | .slept i => s.turn i .slept
  | .quits => some { s with client := .quit, streams := [] }

def init (S : Setup) : State S :=
  ⟨.awaitInitialize (start S.P S.sessionConfig), .starting, [], [], []⟩

abbrev Run (S : Setup) (as : List (Action S)) (s : State S) : Prop :=
  Transition.Run step (init S) as s

/-! ## Reconnects of request streams -/

/-- A GET for the stream of the channel `httpRequestId` that has reached the session, after
`received` events on that stream. -/
structure Reconnect (P : Payloads) where
  httpRequestId : HttpRequestId
  received : Nat
  before : Vars P
  reply : Except SessionError StreamableHttpMessageReceiver
  after : Vars P

def State.reconnect (s : State S) (i : Nat) : Option (Reconnect S.P) :=
  match s.streams[i]?, s.session with
  | some st, .running v =>
    match st.httpRequestId, getHandler st.stream.lastEventId with
    | some httpRequestId, .ok lastEventId =>
      match v.fromHttpService (.resume lastEventId) with
      | .ok (.ok (.receiver reply, v')) => some ⟨httpRequestId, st.received, v, reply, v'⟩
      | _ => none
    | _, _ => none
  | _, _ => none

def State.reconnects (s : State S) : Action S → List (Reconnect S.P)
  | .get i _ => (s.reconnect i).toList
  | _ => []

/-- The reconnects of a run. -/
def reconnects (as : List (Action S)) : List (Reconnect S.P) :=
  Transition.observe step State.reconnects (init S) as

/-- The new stream is attached to the channel of the request or refused, is given no message
of another channel, and the common channel keeps its sender. -/
def Reconnect.Undisturbed {P : Payloads} (r : Reconnect P) : Prop :=
  (∀ receiver, r.reply = .ok receiver → receiver.httpRequestId = some r.httpRequestId ∧
    ∀ m ∈ r.after.channels.offered receiver.inner,
      m.eventId.httpRequestId = some r.httpRequestId) ∧
  r.after.worker.common = r.before.worker.common

end StreamableHttp

end Rmcp
