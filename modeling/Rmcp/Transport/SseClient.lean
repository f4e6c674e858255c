import Rmcp.Support.Transition
import Rmcp.Transport.SseServer

/-!
# The client of event streams

`SseClientTransport` against `SseServer`. The client learns from the `endpoint` event of its
first connection where to post, and keeps that address for good: the reconnecting stream
drops the `endpoint` events of the later connections, as they are no messages.

`http::Uri`, the codec of messages and the query of a URI are parameters. An action is a move
of the server, something that the client waited for, a message that it is given to send, or
a POST that arrives. A stream can fail or end at any time.

`HttpUri.Laws` says what the code relies on of a URI.
-/

namespace Rmcp

/-! ## URIs -/

/-- `http::uri::Parts`. -/
structure UriParts (Scheme Authority PathAndQuery : Type) where
  scheme : Option Scheme
  authority : Option Authority
  pathAndQuery : Option PathAndQuery
deriving DecidableEq

/-- `http::Uri`: `parse`, `into_parts`, `from_parts`, and `PathAndQuery::as_str`. -/
structure HttpUri where
  Uri : Type
  Scheme : Type
  Authority : Type
  PathAndQuery : Type
  parse : String → Option Uri
  intoParts : Uri → UriParts Scheme Authority PathAndQuery
  fromParts : UriParts Scheme Authority PathAndQuery → Option Uri
  asStr : PathAndQuery → String

/-- A path with a query, in the characters that need no escape, and no longer than a URI may
be. -/
def pathWithQuery (s : String) : Bool :=
  match s.toList with
  | '/' :: rest =>
    rest.contains '?' && s.utf8ByteSize < 65535 &&
      rest.all fun c => c.isAlphanum || "-._~!$&'()*+,;=:@/?%".toList.contains c
  | _ => false

/-- What the documentation of `http` says of a path with a query: it is a URI, it is kept as it
is written, and a URI that is made of parts has the path and query of these parts. -/
structure HttpUri.Laws (H : HttpUri) : Prop where
  parse_path : ∀ s, pathWithQuery s → ∃ u q, H.parse s = some u ∧
    (H.intoParts u).pathAndQuery = some q ∧ H.asStr q = s
  asStr_inj : ∀ q q', pathWithQuery (H.asStr q) → H.asStr q = H.asStr q' → q = q'
  fromParts_iff : ∀ parts u q, H.fromParts parts = some u → pathWithQuery (H.asStr q) →
    ((H.intoParts u).pathAndQuery = some q ↔ parts.pathAndQuery = some q)

/-- The path and query of a text. -/
def HttpUri.pathOf (H : HttpUri) (text : String) : Option String :=
  ((H.parse text).bind fun u => (H.intoParts u).pathAndQuery).map H.asStr

/-! ## The client -/

inductive SseTransportError
  | sse
  | client
  | unexpectedEndOfStream
  | invalidUri
  | invalidUriParts
deriving DecidableEq

structure SseClientConfig where
  sseEndpoint : String
  retryPolicy : SseRetryPolicy
  useMessageEndpoint : Option String

/-- What the client and the server are made of. -/
structure SseSetup where
  http : HttpUri
  config : SseClientConfig
  postPath : String
  ClientMessage : Type
  ServerMessage : Type
  toJson : ServerMessage → Option String
  fromStr : String → Option ServerMessage
  /-- `Query(PostEventQuery)`: the session id in the query of a URI. -/
  sessionOf : http.Uri → Option SessionId

/-- The transport once it is started. Its stream reconnects with a GET of the same URI. -/
structure SseClientTransport (U : Type) where
  messageEndpoint : U
  stream : Option (SseAutoReconnectStream Nat)
deriving DecidableEq

/-- The connection that the transport reads from. -/
def SseClientTransport.connection {U : Type} (t : SseClientTransport U) : Option Nat :=
  t.stream.bind (·.connection)

/-- `start_with_client` up to its next `await`, or the transport that it returns. -/
inductive SseClientState (U : Type)
  | connecting (sseEndpoint : U)
  | awaitingEndpoint (sseEndpoint : U) (stream : Nat)
  | running (transport : SseClientTransport U)
  | failed (error : SseTransportError)
deriving DecidableEq

namespace SseSetup

variable (P : SseSetup)

/-- `<authority><sse_pq>` becomes `<authority><message_pq>`. -/
def messageUri (sseEndpoint messageEndpoint : P.http.Uri) : Option P.http.Uri :=
  P.http.fromParts
    { P.http.intoParts sseEndpoint with
      pathAndQuery := (P.http.intoParts messageEndpoint).pathAndQuery }

def start : SseClientState P.http.Uri :=
  match P.http.parse P.config.sseEndpoint with
  | some sseEndpoint => .connecting sseEndpoint
  | none => .failed .invalidUri

/-- The end of `start_with_client`, from the text of the message endpoint on. -/
def finish (sseEndpoint : P.http.Uri) (stream : Nat) (text : String) :
    SseClientState P.http.Uri :=
  match P.http.parse text with
  | none => .failed .invalidUri
  | some messageEndpoint =>
    match P.messageUri sseEndpoint messageEndpoint with
    | none => .failed .invalidUriParts
    | some messageEndpoint => .running ⟨messageEndpoint, some (.new stream)⟩

/-- The first stream is there. -/
def established (sseEndpoint : P.http.Uri) (stream : Nat) : SseClientState P.http.Uri :=
  match P.config.useMessageEndpoint with
  | some endpoint => P.finish sseEndpoint stream endpoint
  | none => .awaitingEndpoint sseEndpoint stream

/-- An event of the first stream, before the message endpoint is known. -/
def waitEndpoint (sseEndpoint : P.http.Uri) (stream : Nat) (sse : Sse) :
    SseClientState P.http.Uri :=
  if sse.event = some "endpoint" then P.finish sseEndpoint stream (sse.data.getD "")
  else .awaitingEndpoint sseEndpoint stream

variable {P}

/-- The stream of the transport takes a turn. -/
def advance (P : SseSetup) (t : SseClientTransport P.http.Uri)
    (awaited : Awaited Nat SseTransportError) : Option (SseClientTransport P.http.Uri) := do
  let stream ← t.stream
  let (stream, _) ← stream.pollNext P.config.retryPolicy P.fromStr awaited
  some { t with stream := some stream }

/-- `send`: the POST that the returned future makes. -/
def send (t : SseClientTransport P.http.Uri) (item : P.ClientMessage) :
    P.http.Uri × P.ClientMessage :=
  (t.messageEndpoint, item)

end SseSetup

/-! ## The client and the server -/

namespace SsePair

structure State (P : SseSetup) where
  server : App P.ClientMessage
  client : SseClientState P.http.Uri
  /-- The POSTs that are under way. -/
  posts : List (P.http.Uri × P.ClientMessage)

inductive Action (P : SseSetup)
  | server (move : App.Move P.ServerMessage)
  /-- The GET of the client is answered; the server draws the id for its session. -/
  | getAnswered (session : SessionId)
  | getFails
  | reads
  | streamFails
  | streamEnds
  | slept
  | sends (item : P.ClientMessage)
  | closes
  | postArrives (i : Nat)
  | postFails (i : Nat)

variable {P : SseSetup}

/-- A running client gets what its stream waited for. -/
def State.awaited (s : State P) (server : App P.ClientMessage)
    (awaited : Awaited Nat SseTransportError) : Option (State P) :=
  match s.client with
  | .running t => (P.advance t awaited).map fun t => { s with server, client := .running t }
  | _ => none

def step (s : State P) : Action P → Option (State P)
  | .server move => (s.server.move P.toJson move).map fun server => { s with server }
  | .getAnswered session =>
    let (stream, server) := s.server.sseHandler session
    match s.client, stream with
    | .connecting sseEndpoint, some n =>
      some { s with server, client := P.established sseEndpoint n }
    | .connecting _, none => some { s with server, client := .failed .client }
    | _, some n => s.awaited server (.retried (.ok n))
    | _, none => s.awaited server (.retried (.error .client))
  | .getFails =>
    match s.client with
    | .connecting _ => some { s with client := .failed .client }
    | _ => s.awaited s.server (.retried (.error .client))
  | .reads =>
    match s.client with
    | .awaitingEndpoint sseEndpoint n => do
      let (sse, server) ← s.server.read n
      some { s with server, client := P.waitEndpoint sseEndpoint n sse }
    | .running t => do
      let n ← t.connection
      let (sse, server) ← s.server.read n
      s.awaited server (.item (some (.ok sse)))
    | _ => none
  | .streamFails =>
    match s.client with
    | .awaitingEndpoint _ _ => some { s with client := .failed .sse }
    | _ => s.awaited s.server (.item (some (.error .sse)))
  | .streamEnds =>
    match s.client with
    | .awaitingEndpoint _ _ => some { s with client := .failed .unexpectedEndOfStream }
    | _ => s.awaited s.server (.item none)
  | .slept => s.awaited s.server .slept
  | .sends item =>
    match s.client with
    | .running t => some { s with posts := s.posts ++ [SseSetup.send t item] }
    | _ => none
  | .closes =>
    match s.client with
    | .running t => some { s with client := .running { t with stream := none } }
    | _ => none
  | .postArrives i => do
    let (uri, message) ← s.posts[i]?
    let session ← P.sessionOf uri
    some { s with
      server := (s.server.postEventHandler session message).2
      posts := s.posts.eraseIdx i }
  | .postFails i => some { s with posts := s.posts.eraseIdx i }

def init (P : SseSetup) : State P := ⟨.new P.postPath, P.start, []⟩

abbrev Run (P : SseSetup) (as : List (Action P)) (s : State P) : Prop :=
  Transition.Run step (init P) as s

/-- The connections that the stream of a running client got by reconnecting. -/
def State.reconnects (s : State P) : Action P → List Nat
  | .getAnswered session =>
    match s.client with
    | .running _ => (s.server.sseHandler session).1.toList
    | _ => []
  | _ => []

/-- The reconnects of a run. -/
def reconnects (as : List (Action P)) : List Nat :=
  Transition.observe step State.reconnects (init P) as

/-- The endpoint that the `endpoint` event of the current connection tells. -/
def State.announced (s : State P) : Option String :=
  match s.client with
  | .running t => do
    let n ← t.connection
    let session ← s.server.sessions[n]?
    some (announcedEndpoint s.server.postPath session)
  | _ => none

/-- The URI for messages when `text` is the message endpoint. -/
def resolve (P : SseSetup) (text : String) : Option P.http.Uri := do
  let sseEndpoint ← P.http.parse P.config.sseEndpoint
  let messageEndpoint ← P.http.parse text
  P.messageUri sseEndpoint messageEndpoint

end SsePair

end Rmcp
