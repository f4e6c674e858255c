import Rmcp.Session.EventIdFormat
import Rmcp.Session.Run

/-!
# The streamable HTTP server

The handlers of the router, `post_handler`, `get_handler` and `delete_handler`, over all sessions
of a server. Any number of calls of them run at the same time, each at one of its awaits: before
an event is in the channel of a session, before the worker replies to it, or before the lock of
the sessions is free. Between two awaits of a handler nothing else happens.

Each session has its own worker, whose loop is that of the session. It replies to the call that
has sent the event. A client that hangs up drops its call, at any await; what it has sent stays in
the channel.

The extensions of a message, where the handlers put the parts of the HTTP request, are left out;
so are the headers, the keep-alive and the encoding of an answer.
-/

namespace Rmcp

/-- The bytes of a header. -/
structure HeaderValue where
  bytes : List UInt8

/-- `to_str`: only visible ASCII characters and tabs are a text. -/
def HeaderValue.toStr (value : HeaderValue) : Option String :=
  if value.bytes.all fun b => (32 ≤ b && b < 127) || b == 9 then
    some (String.ofList (value.bytes.map fun b => Char.ofNat b.toNat))
  else none

namespace HttpServer

open Session

variable {P : Payloads}

abbrev SessionId := String

inductive HttpRequest (P : Payloads)
  | post (sessionId : Option HeaderValue) (message : ClientJsonRpcMessage P)
  | get (sessionId lastEventId : Option HeaderValue)
  | delete (sessionId : Option HeaderValue)

inductive StatusCode
  | accepted
  | badRequest
  | notFound
  | gone
  | internalServerError
deriving DecidableEq

inductive Response (P : Payloads)
  | status (code : StatusCode) (body : String)
  /-- A bad request, with the error in its text. -/
  | invalidEventId (error : EventIdParseError)
  /-- The stream of a receiver of the session. -/
  | sse (session : Nat) (receiver : StreamableHttpMessageReceiver)
  | json (body : ServerJsonRpcMessage P) (sessionId : SessionId)

/-- `Display` of a `SessionError`. -/
def displayError : SessionError → String
  | .channelClosed none => "Channel closed: None"
  | .channelClosed (some id) => s!"Channel closed: Some({id})"
  | .invalidEventId => "Invalid event id"

/-- The error of a session whose worker is gone. -/
def serviceTerminated (context : String) : Response P :=
  .status .internalServerError (context ++ "Session service terminated")

def establishContext : String := "fail to to establish request channel: "

def pushContext : String := "fail to push message: "

def initializeContext : String := "fail to initialize: "

def resumeContext : String := "resume error "

def commonContext : String := "establish common channel error "

def closeContext (sessionId : SessionId) : String :=
  s!"fail to cancel session {sessionId}: tokio join error: "

/-! ## Calls -/

/-- Where a handler is; the sessions are numbered. -/
inductive Phase (P : Payloads)
  | establishing (session : Nat) (message : ClientJsonRpcMessage P)
  | awaitsChannel (session : Nat) (message : ClientJsonRpcMessage P)
  | pushing (session : Nat) (message : ClientJsonRpcMessage P)
      (receiver : Option StreamableHttpMessageReceiver)
  | initializing (session : Nat) (message : ClientJsonRpcMessage P)
  | awaitsInitialize (session : Nat)
  | registering (session : Nat) (body : ServerJsonRpcMessage P)
  | resuming (session : Nat) (lastEventId : EventId) (context : String)
  | awaitsResume (session : Nat) (context : String)
  | closing (session : Nat) (sessionId : SessionId)
  | done (response : Response P)
  /-- The client has hung up. -/
  | dropped

/-- An event that a handler sends: the session, what the handler does when it is in the channel,
and what it answers when the channel is closed. -/
structure Sending (P : Payloads) where
  session : Nat
  event : SessionEvent P
  accepted : Phase P
  refused : Response P

namespace Phase

def sends? : Phase P → Option (Sending P)
  | establishing session message =>
    some ⟨session, .establishRequestWiseChannel, .awaitsChannel session message,
      serviceTerminated establishContext⟩
  | pushing session message (some receiver) =>
    some ⟨session, .clientMessage message receiver.httpRequestId, .done (.sse session receiver),
      serviceTerminated pushContext⟩
  | pushing session message none =>
    some ⟨session, .clientMessage message none, .done (.status .accepted ""),
      .status .gone "session terminated"⟩
  | initializing session message =>
    some ⟨session, .initializeRequest message, .awaitsInitialize session,
      serviceTerminated initializeContext⟩
  | resuming session lastEventId context =>
    some ⟨session, .resume lastEventId, .awaitsResume session context, serviceTerminated context⟩
  | closing session sessionId =>
    some ⟨session, .close, .done (.status .accepted ""),
      serviceTerminated (closeContext sessionId)⟩
  | _ => none

/-- The session whose worker the handler waits for, and what it answers when the worker drops the
event. -/
def awaits? : Phase P → Option (Nat × Response P)
  | awaitsChannel session _ => some (session, serviceTerminated establishContext)
  | awaitsInitialize session => some (session, serviceTerminated initializeContext)
  | awaitsResume session context => some (session, serviceTerminated context)
  | _ => none

/-- The handler waits for the reply to `event`, which it has sent to the session `i`. It sends one
event of each kind at most. -/
def waitsFor (i : Nat) : Phase P → SessionEvent P → Bool
  | awaitsChannel session _, .establishRequestWiseChannel => session == i
  | awaitsInitialize session, .initializeRequest _ => session == i
  | awaitsResume session _, .resume _ => session == i
  | _, _ => false

/-- The worker has replied. The loop ignores an initialize request, and drops its responder. -/
def replied : Phase P → Reply → Phase P
  | awaitsChannel session message, .receiver (.ok receiver) =>
    .pushing session message (some receiver)
  | awaitsChannel _ _, .receiver (.error error) =>
    .done (.status .internalServerError (establishContext ++ displayError error))
  | awaitsResume session _, .receiver (.ok receiver) => .done (.sse session receiver)
  | awaitsResume _ context, .receiver (.error error) =>
    .done (.status .internalServerError (context ++ displayError error))
  | awaitsInitialize _, _ => .done (serviceTerminated initializeContext)
  | phase, _ => phase

def awaitsInitializeOf (i : Nat) : Phase P → Bool
  | awaitsInitialize session => session == i
  | _ => false

/-- The session that the handler has a handle of. -/
def session? : Phase P → Option Nat
  | establishing session _ | awaitsChannel session _ | pushing session _ _
  | initializing session _ | awaitsInitialize session | registering session _
  | resuming session _ _ | awaitsResume session _ | closing session _ => some session
  | done _ | dropped => none

end Phase

structure Call (P : Payloads) where
  request : HttpRequest P
  phase : Phase P

/-! ## Sessions -/

/-- An event in the channel of a session, and the call that waits for the reply. -/
structure Queued (P : Payloads) where
  event : SessionEvent P
  call : Nat

inductive Worker (P : Payloads)
  /-- In the channel of the transports, or taken out of it. -/
  | offered
  | running (session : Session.State P)
  | dropped

/-- A session that a call of `post_handler` has created. The last field says what the loop has
done: it is written and never read. -/
structure Slot (P : Payloads) where
  id : SessionId
  creator : Nat
  worker : Worker P
  events : Chan (Queued P)
  actions : List (Session.Action P)

namespace Slot

/-- `create_session`. -/
def create (id : SessionId) (creator : Nat) : Slot P :=
  ⟨id, creator, .offered, .new SessionConfig.default.channelCapacity, []⟩

/-- A step of the loop. A loop that ends drops the channel of the events. -/
def act (slot : Slot P) (a : Session.Action P) : Option (Slot P) :=
  match slot.worker with
  | .running session =>
    (Session.step session a).map fun session =>
      { slot with
        worker := .running session
        events := if session.vars?.isSome then slot.events else slot.events.close
        actions := slot.actions ++ [a] }
  | _ => none

/-- What the loop replies to an event. -/
def reply? (slot : Slot P) (event : SessionEvent P) : Option Reply :=
  match slot.worker with
  | .running (.running s) =>
    match s.fromHttpService event with
    | .ok (.ok (reply, _)) => some reply
    | _ => none
  | _ => none

end Slot

/-! ## The server -/

structure State (P : Payloads) where
  sessions : List (Slot P)
  sessionManager : HashMap SessionId Nat
  calls : List (Call P)
  /-- Somebody takes the transports. -/
  serving : Bool

def State.start : State P := ⟨[], .empty, [], true⟩

inductive Action (P : Payloads)
  /-- A request comes in; `drawn` is what `session_id` gives for it. -/
  | arrives (request : HttpRequest P) (drawn : SessionId)
  | sends (call : Nat)
  | unanswered (call : Nat)
  | registers (call : Nat)
  | hangsUp (call : Nat)
  -- the workers
  | serves (session : Nat)
  | discards (session : Nat)
  | takes (session : Nat)
  | relays (session : Nat) (message : ServerJsonRpcMessage P) (handlerWaits : Bool)
  | abandoned (session : Nat)
  | acts (session : Nat) (a : Session.Action P)
  | stopsServing

/-- A step of a loop that no handler takes part in. -/
def isOfLoop : Session.Action P → Bool
  | .handler _ | .handlerGone | .cancelled | .environment _ => true
  | .httpService _ | .httpServiceGone | .initializeResponse .. => false

/-- The message has requests, so its answers get a stream of their own. -/
def hasRequests : ClientJsonRpcMessage P → Bool
  | .request _ | .batchRequest _ => true
  | _ => false

namespace State

def set (s : State P) (i : Nat) (slot : Slot P) : State P :=
  { s with sessions := s.sessions.set i slot }

def setPhase (s : State P) (c : Nat) (phase : Phase P) : State P :=
  { s with calls := s.calls.modify c fun call => { call with phase } }

def badHeader : Phase P := .done (.status .badRequest "failed to convert header to a str")

def missingSessionId : Phase P := .done (.status .badRequest "missing session id")

/-- `post_handler` up to its first await. -/
def postHandler (s : State P) (drawn : SessionId) (sessionId : Option HeaderValue)
    (message : ClientJsonRpcMessage P) : Phase P × State P :=
  match sessionId with
  | some value =>
    match value.toStr with
    | none => (badHeader, s)
    | some id =>
      match s.sessionManager.get id with
      | none => (.done (.status .notFound "session not found"), s)
      | some session =>
        if hasRequests message then (.establishing session message, s)
        else (.pushing session message none, s)
  | none =>
    if s.serving then
      let slot : Slot P := .create drawn s.calls.length
      (.initializing s.sessions.length message, { s with sessions := s.sessions ++ [slot] })
    else (.done (.status .gone "session terminated"), s)

/-- `get_handler` up to its first await. -/
def getHandler (s : State P) (sessionId lastEventId : Option HeaderValue) : Phase P :=
  match sessionId.bind (·.toStr) with
  | none => missingSessionId
  | some id =>
    match s.sessionManager.get id with
    | none => .done (.status .notFound s!"session {id} not found")
    | some session =>
      match lastEventId.bind (·.toStr) with
      | some text =>
        match EventId.fromStr text with
        | .ok lastEventId => .resuming session lastEventId resumeContext
        | .error error => .done (.invalidEventId error)
      | none => .resuming session ⟨none, 0⟩ commonContext

/-- `delete_handler` up to its first await. -/
def deleteHandler (s : State P) (sessionId : Option HeaderValue) : Phase P × State P :=
  match sessionId with
  | none => (missingSessionId, s)
  | some value =>
    match value.toStr with
    | none => (badHeader, s)
    | some id =>
      match s.sessionManager.get id with
      | none => (.done (.status .notFound "session not found"), s)
      | some session =>
        (.closing session id, { s with sessionManager := s.sessionManager.remove id })

def handler (s : State P) (drawn : SessionId) : HttpRequest P → Phase P × State P
  | .post sessionId message => s.postHandler drawn sessionId message
  | .get sessionId lastEventId => (s.getHandler sessionId lastEventId, s)
  | .delete sessionId => s.deleteHandler sessionId

/-- Nobody has a handle of the session. -/
def isAbandoned (s : State P) (i : Nat) (slot : Slot P) : Bool :=
  s.calls.all (fun call => call.phase.session? != some i) &&
    s.sessionManager.get slot.id != some i

end State

def step (s : State P) : Action P → Option (State P)
  | .arrives request drawn =>
    let (phase, s) := s.handler drawn request
    some { s with calls := s.calls ++ [⟨request, phase⟩] }
  | .sends c => do
    let call ← s.calls[c]?
    let sending ← call.phase.sends?
    let slot ← s.sessions[sending.session]?
    match slot.events.send ⟨sending.event, c⟩ with
    | .ok (ok, events) =>
      some ((s.set sending.session { slot with events }).setPhase c
        (if ok then sending.accepted else .done sending.refused))
    | .error _ => none
  | .unanswered c => do
    let call ← s.calls[c]?
    let (i, response) ← call.phase.awaits?
    let slot ← s.sessions[i]?
    if slot.events.closedAt.isSome then some (s.setPhase c (.done response)) else none
  | .registers c => do
    let call ← s.calls[c]?
    match call.phase with
    | .registering i body =>
      let slot ← s.sessions[i]?
      let s := { s with sessionManager := s.sessionManager.insert slot.id i }
      some (s.setPhase c (.done (.json body slot.id)))
    | _ => none
  | .hangsUp c => do
    let call ← s.calls[c]?
    match call.phase with
    | .done _ => none
    | _ => some (s.setPhase c .dropped)
  | .serves i => do
    let slot ← s.sessions[i]?
    match slot.worker with
    | .offered =>
      some (s.set i { slot with worker := .running (.awaitInitialize (start P .default)) })
    | _ => none
  | .discards i => do
    let slot ← s.sessions[i]?
    match slot.worker with
    | .offered => some (s.set i { slot with worker := .dropped, events := slot.events.close })
    | _ => none
  | .takes i => do
    let slot ← s.sessions[i]?
    let queued ← slot.events.backlog.head?
    let slot' ← { slot with events := slot.events.receive }.act (.httpService queued.event)
    match slot.reply? queued.event, s.calls[queued.call]? with
    | some reply, some call =>
      if call.phase.waitsFor i queued.event then
        some ((s.set i slot').setPhase queued.call (call.phase.replied reply))
      else some (s.set i slot')
    | _, _ => some (s.set i slot')
  | .relays i message handlerWaits => do
    let slot ← s.sessions[i]?
    let waits := s.calls[slot.creator]?.any (·.phase.awaitsInitializeOf i)
    let slot' ← slot.act (.initializeResponse message waits handlerWaits)
    if waits then some ((s.set i slot').setPhase slot.creator (.registering i message))
    else some (s.set i slot')
  | .abandoned i => do
    let slot ← s.sessions[i]?
    if s.isAbandoned i slot && slot.events.backlog.isEmpty then
      let slot' ← slot.act .httpServiceGone
      some (s.set i slot')
    else none
  | .acts i a => do
    let slot ← s.sessions[i]?
    if isOfLoop a then
      let slot' ← slot.act a
      some (s.set i slot')
    else none
  | .stopsServing => some { s with serving := false }

/-! ## What a step does -/

section Spec

variable {s s' : State P}

/-- Everything that a step can do, with the guard under which it does it. -/
inductive Stepped (s : State P) : Action P → State P → Prop
  | arrives {request : HttpRequest P} {drawn : SessionId} {phase : Phase P} {s₁ : State P} :
      s.handler drawn request = (phase, s₁) →
      Stepped s (.arrives request drawn) { s₁ with calls := s₁.calls ++ [⟨request, phase⟩] }
  | sends {c : Nat} {call : Call P} {sending : Sending P} {slot : Slot P}
      {events : Chan (Queued P)} : s.calls[c]? = some call → call.phase.sends? = some sending →
      s.sessions[sending.session]? = some slot →
      slot.events.send ⟨sending.event, c⟩ = .ok (true, events) →
      Stepped s (.sends c)
        ((s.set sending.session { slot with events }).setPhase c sending.accepted)
  /-- The channel is closed. -/
  | refused {c : Nat} {call : Call P} {sending : Sending P} {slot : Slot P}
      {events : Chan (Queued P)} : s.calls[c]? = some call → call.phase.sends? = some sending →
      s.sessions[sending.session]? = some slot →
      slot.events.send ⟨sending.event, c⟩ = .ok (false, events) →
      Stepped s (.sends c)
        ((s.set sending.session { slot with events }).setPhase c (.done sending.refused))
  | unanswered {c i : Nat} {call : Call P} {response : Response P} {slot : Slot P} :
      s.calls[c]? = some call → call.phase.awaits? = some (i, response) →
      s.sessions[i]? = some slot → slot.events.closedAt.isSome = true →
      Stepped s (.unanswered c) (s.setPhase c (.done response))
  | registers {c i : Nat} {call : Call P} {body : ServerJsonRpcMessage P} {slot : Slot P} :
      s.calls[c]? = some call → call.phase = .registering i body → s.sessions[i]? = some slot →
      Stepped s (.registers c)
        (State.setPhase { s with sessionManager := s.sessionManager.insert slot.id i } c
          (.done (.json body slot.id)))
  | hangsUp {c : Nat} {call : Call P} : s.calls[c]? = some call →
      (∀ response, call.phase ≠ .done response) → Stepped s (.hangsUp c) (s.setPhase c .dropped)
  | serves {i : Nat} {slot : Slot P} : s.sessions[i]? = some slot → slot.worker = .offered →
      Stepped s (.serves i)
        (s.set i { slot with worker := .running (.awaitInitialize (start P .default)) })
  | discards {i : Nat} {slot : Slot P} : s.sessions[i]? = some slot → slot.worker = .offered →
      Stepped s (.discards i)
        (s.set i { slot with worker := .dropped, events := slot.events.close })
  /-- Nobody waits for the reply, or there is none. -/
  | takes {i : Nat} {slot slot' : Slot P} {queued : Queued P} : s.sessions[i]? = some slot →
      slot.events.backlog.head? = some queued →
      { slot with events := slot.events.receive }.act (.httpService queued.event) = some slot' →
      Stepped s (.takes i) (s.set i slot')
  | replies {i : Nat} {slot slot' : Slot P} {queued : Queued P} {reply : Reply} {call : Call P} :
      s.sessions[i]? = some slot → slot.events.backlog.head? = some queued →
      { slot with events := slot.events.receive }.act (.httpService queued.event) = some slot' →
      slot.reply? queued.event = some reply → s.calls[queued.call]? = some call →
      call.phase.waitsFor i queued.event = true →
      Stepped s (.takes i) ((s.set i slot').setPhase queued.call (call.phase.replied reply))
  /-- The call that has created the session is dropped, or has its answer. -/
  | relays {i : Nat} {slot slot' : Slot P} {message : ServerJsonRpcMessage P}
      {handlerWaits : Bool} : s.sessions[i]? = some slot →
      slot.act (.initializeResponse message false handlerWaits) = some slot' →
      s.calls[slot.creator]?.any (·.phase.awaitsInitializeOf i) = false →
      Stepped s (.relays i message handlerWaits) (s.set i slot')
  | answers {i : Nat} {slot slot' : Slot P} {message : ServerJsonRpcMessage P}
      {handlerWaits : Bool} : s.sessions[i]? = some slot →
      slot.act (.initializeResponse message true handlerWaits) = some slot' →
      s.calls[slot.creator]?.any (·.phase.awaitsInitializeOf i) = true →
      Stepped s (.relays i message handlerWaits)
        ((s.set i slot').setPhase slot.creator (.registering i message))
  | abandoned {i : Nat} {slot slot' : Slot P} : s.sessions[i]? = some slot →
      (s.isAbandoned i slot && slot.events.backlog.isEmpty) = true →
      slot.act .httpServiceGone = some slot' → Stepped s (.abandoned i) (s.set i slot')
  | acts {i : Nat} {slot slot' : Slot P} {a : Session.Action P} : s.sessions[i]? = some slot →
      isOfLoop a = true → slot.act a = some slot' → Stepped s (.acts i a) (s.set i slot')
  | stopsServing : Stepped s .stopsServing { s with serving := false }

theorem step_spec {a : Action P} (hs : step s a = some s') : Stepped s a s' := by
  cases a with
  | arrives request drawn =>
    cases hs
    exact .arrives rfl
  | sends c =>
    simp only [step, Option.bind_eq_bind, Option.bind_eq_some_iff] at hs
    obtain ⟨call, hc, sending, hsends, slot, hslot, hs⟩ := hs
    split at hs <;> cases hs
    next ok events hsend =>
    cases ok with
    | false => exact .refused hc hsends hslot hsend
    | true => exact .sends hc hsends hslot hsend
  | unanswered c =>
    simp only [step, Option.bind_eq_bind, Option.bind_eq_some_iff,
      Option.ite_none_right_eq_some] at hs
    obtain ⟨call, hc, ⟨i, response⟩, hawaits, slot, hslot, hclosed, hs⟩ := hs
    cases hs
    exact .unanswered hc hawaits hslot hclosed
  | registers c =>
    simp only [step, Option.bind_eq_bind, Option.bind_eq_some_iff] at hs
    obtain ⟨call, hc, hs⟩ := hs
    split at hs
    · next i body hphase =>
      obtain ⟨slot, hslot, hs⟩ := Option.bind_eq_some_iff.mp hs
      cases hs
      exact .registers hc hphase hslot
    · cases hs
  | hangsUp c =>
    simp only [step, Option.bind_eq_bind, Option.bind_eq_some_iff] at hs
    obtain ⟨call, hc, hs⟩ := hs
    split at hs <;> cases hs
    next hphase => exact .hangsUp hc hphase
  | serves i =>
    simp only [step, Option.bind_eq_bind, Option.bind_eq_some_iff] at hs
    obtain ⟨slot, hslot, hs⟩ := hs
    split at hs <;> cases hs
    next hworker => exact .serves hslot hworker
  | discards i =>
    simp only [step, Option.bind_eq_bind, Option.bind_eq_some_iff] at hs
    obtain ⟨slot, hslot, hs⟩ := hs
    split at hs <;> cases hs
    next hworker => exact .discards hslot hworker
  | takes i =>
    simp only [step, Option.bind_eq_bind, Option.bind_eq_some_iff] at hs
    obtain ⟨slot, hslot, queued, hhead, slot', hact, hs⟩ := hs
    split at hs
    · next reply call hreply hc =>
      split at hs <;> cases hs
      · next hwaits => exact .replies hslot hhead hact hreply hc hwaits
      · exact .takes hslot hhead hact
    · cases hs
      exact .takes hslot hhead hact
  | relays i message handlerWaits =>
    simp only [step, Option.bind_eq_bind, Option.bind_eq_some_iff] at hs
    obtain ⟨slot, hslot, slot', hact, hs⟩ := hs
    split at hs <;> cases hs
    · next hwaits => exact .answers hslot (hwaits ▸ hact) hwaits
    · next hwaits =>
      rw [Bool.not_eq_true] at hwaits
      exact .relays hslot (hwaits ▸ hact) hwaits
  | abandoned i =>
    simp only [step, Option.bind_eq_bind, Option.bind_eq_some_iff,
      Option.ite_none_right_eq_some] at hs
    obtain ⟨slot, hslot, hgone, slot', hact, hs⟩ := hs
    cases hs
    exact .abandoned hslot hgone hact
  | acts i a =>
    simp only [step, Option.bind_eq_bind, Option.bind_eq_some_iff,
      Option.ite_none_right_eq_some] at hs
    obtain ⟨slot, hslot, hloop, slot', hact, hs⟩ := hs
    cases hs
    exact .acts hslot hloop hact
  | stopsServing =>
    cases hs
    exact .stopsServing

end Spec

end HttpServer

end Rmcp
