import Rmcp.Service.Handshake
import Rmcp.Session.Run

/-!
# Opening a session

A POST without a session id, from `post_handler` to the reply. The handler creates a session,
hands its worker to whoever serves transports, sends the message to the worker as an
`InitializeRequest`, and waits for the reply, which the worker takes over from the server. The
server may be dropped at any time, and so may the worker before it is served; the client may
hang up. The steps of the session after the reply are left out, but for its end.

Results:
1. `Kept.step`: what is relayed is what the server has answered, and what is registered has
   been relayed.
2. `onlyHandshakes_iff`: only successful handshakes become sessions exactly when the service
   does not refuse the message.
-/

namespace Rmcp.Registration

open Service (ClientMessage ServerMessage ServerPhase)

/-! ## The states -/

structure SessionHandle where
  id : String
deriving DecidableEq

/-- A POST without a session id: its body, the id that is drawn for it, the sessions there are,
and what the service answers an initialize request with. -/
structure Post (L : Leaves) where
  message : ClientMessage L
  sessionId : String
  sessionManager : HashMap String SessionHandle
  handleRequest : InitializeRequest L → Except ErrorData (ServerResult L)

inductive Response (L : Leaves)
  | gone (text : String)
  | internalServerError (text : String)
  /-- A JSON body, with the header `Mcp-Session-Id`. -/
  | json (body : ServerMessage L) (sessionId : String)

/-- Where `post_handler` is. -/
inductive PostPhase (L : Leaves)
  | offering
  | sendingEvent
  | awaitReply
  | registering (reply : ServerMessage L)
  | done (response : Response L)
  /-- The client has hung up, and the handler is dropped. -/
  | dropped

/-- The `SessionWorker` of the session. -/
inductive Worker (L : Leaves)
  | created
  /-- In the channel of the transports, or taken out of it. -/
  | offered
  | spawned (session : Session.State L.payloads)
  | dropped

variable {L : Leaves} {E : Type}

/-- The channel of the events is open. -/
def Worker.listens : Worker L → Bool
  | .created | .offered => true
  | .spawned session => session.vars?.isSome
  | .dropped => false

variable (L E) in
structure State where
  post : PostPhase L
  worker : Worker L
  /-- The request in the channel of the events. -/
  event : Option (ClientMessage L)
  /-- `none` before the worker is served, and when the server is dropped. -/
  server : Option (ServerPhase L E)
  /-- What the server has handed over, and the worker has not taken. -/
  fromHandler : Option (ServerMessage L)
  acknowledged : Bool
  /-- The reply that the worker has forwarded. -/
  reply : Option (ServerMessage L)
  sessionManager : HashMap String SessionHandle

namespace State

def start (P : Post L) : State L E where
  post := .offering
  worker := .created
  event := none
  server := none
  fromHandler := none
  acknowledged := false
  reply := none
  sessionManager := P.sessionManager

/-- `post_handler` waits for the reply. -/
def awaitsReply (s : State L E) : Bool :=
  match s.post with
  | .awaitReply => true
  | _ => false

/-- Nobody holds the handle of the session. -/
def handleDropped (s : State L E) : Bool :=
  match s.post with
  | .done (.json ..) => false
  | .done _ | .dropped => true
  | _ => false

/-- The server holds the transport. -/
def serverHolds (s : State L E) : Bool :=
  match s.server with
  | none | some (.failed _) => false
  | some _ => true

end State

/-! ## The steps -/

inductive Action
  | postOffers
  /-- Nobody takes transports any more. -/
  | postIsRefused
  | postSendsEvent
  | postReceives
  | postRegisters
  | postIsDropped
  | workerIsDropped
  | workerIsServed
  | workerTakesEvent
  | workerRelays
  | workerSeesHandlerGone
  | workerSeesHandleDropped
  | workerIsCancelled
  | serverReceives
  | serverHandled
  | serverHandsOver
  | serverSent
  | serverIsDropped
deriving DecidableEq

/-- `fail to initialize: {e}`, where `e` is `SessionServiceTerminated`. -/
def failToInitialize : Response L :=
  .internalServerError "fail to initialize: Session service terminated"

/-- A step of the loop of the worker. -/
def State.session (s : State L E) (a : Session.Action L.payloads) : Option (State L E) :=
  match s.worker with
  | .spawned session =>
    (Session.step session a).map fun session => { s with worker := .spawned session }
  | _ => none

def State.serves (s : State L E)
    (move : ServerPhase L E → Option (ServerPhase L E)) : Option (State L E) :=
  (s.server.bind move).map fun server => { s with server := some server }

/-- What the transport gives the server: the first message in the channel, or its end. -/
def Worker.next : Worker L → Option (Option (ClientMessage L))
  | .spawned session =>
    match session.vars? with
    | some vars => vars.toHandler.backlog.head?.map some
    | none => some none
  | _ => none

/-- The first message has been taken out of the channel. -/
def Worker.handlerReceives : Worker L → Worker L
  | .spawned session =>
    .spawned ((Session.step session (.environment .handlerReceives)).getD session)
  | worker => worker

/-- `errClosed` is the error of a transport that is closed. -/
def step (P : Post L) (errClosed : E) (s : State L E) : Action → Option (State L E)
  | .postOffers =>
    match s.post with
    | .offering => some { s with post := .sendingEvent, worker := .offered }
    | _ => none
  | .postIsRefused =>
    match s.post with
    | .offering => some { s with post := .done (.gone "session terminated"), worker := .dropped }
    | _ => none
  | .postSendsEvent =>
    match s.post with
    | .sendingEvent =>
      if s.worker.listens then some { s with post := .awaitReply, event := some P.message }
      else some { s with post := .done failToInitialize }
    | _ => none
  | .postReceives =>
    if s.awaitsReply then
      match s.reply with
      | some reply => some { s with post := .registering reply }
      | none =>
        if s.worker.listens then none else some { s with post := .done failToInitialize }
    else none
  | .postRegisters =>
    match s.post with
    | .registering reply =>
      some { s with
        post := .done (.json reply P.sessionId)
        sessionManager := s.sessionManager.insert P.sessionId ⟨P.sessionId⟩ }
    | _ => none
  | .postIsDropped =>
    match s.post with
    | .done _ => none
    | _ => some { s with post := .dropped }
  | .workerIsDropped =>
    match s.worker with
    | .offered => some { s with worker := .dropped }
    | _ => none
  | .workerIsServed =>
    match s.worker with
    | .offered =>
      some { s with
        worker := .spawned (.awaitInitialize (Session.start L.payloads .default))
        server := some .awaitRequest }
    | _ => none
  | .workerTakesEvent =>
    match s.event with
    | some request =>
      ({ s with event := none }).session (.httpService (.initializeRequest request))
    | none => none
  | .workerRelays =>
    match s.fromHandler with
    | some message =>
      (s.session (.initializeResponse message s.awaitsReply s.serverHolds)).map fun s =>
        if s.awaitsReply then
          { s with reply := some message, fromHandler := none, acknowledged := true }
        else { s with fromHandler := none }
    | none => none
  | .workerSeesHandlerGone =>
    if s.serverHolds || s.fromHandler.isSome then none else s.session .handlerGone
  | .workerSeesHandleDropped =>
    if s.handleDropped && s.event.isNone then s.session .httpServiceGone else none
  | .workerIsCancelled => if s.serverHolds then none else s.session .cancelled
  | .serverReceives =>
    match s.worker.next with
    | some message =>
      ({ s with worker := s.worker.handlerReceives }).serves (·.received message)
    | none => none
  | .serverHandled =>
    match s.server with
    | some (.handling request _ _) => s.serves (·.handled (P.handleRequest request))
    | _ => none
  | .serverHandsOver =>
    match s.server.bind (·.handsOver) with
    | some (message, server) => some { s with server := some server, fromHandler := some message }
    | none => none
  | .serverSent =>
    if s.acknowledged then s.serves (·.sent (.ok ()))
    else if s.worker.listens then none
    else s.serves (·.sent (.error errClosed))
  | .serverIsDropped => s.server.map fun _ => { s with server := none }

/-! ## What is answered, and what is registered -/

/-- The message is an initialize request, and the service answers it with an error. -/
def Post.Refused (P : Post L) : Prop :=
  ∃ id request error, P.message = .request ⟨id, .initializeRequest request⟩ ∧
    P.handleRequest request = .error error

/-- The session is registered, or its id returned, only after the worker has forwarded an
initialize result, and never when the service has refused the message. -/
structure OnlyHandshakes (P : Post L) (s : State L E) : Prop where
  successful : (s.sessionManager ≠ P.sessionManager ∨
      ∃ body sessionId, s.post = .done (.json body sessionId)) →
    ∃ id result, s.reply = some (.response ⟨id, .initializeResult result⟩)
  refused : P.Refused → s.sessionManager = P.sessionManager

/-- What the server may answer. -/
def Post.Answers (P : Post L) (message : ServerMessage L) : Prop :=
  (∃ id result, message = .response ⟨id, .initializeResult result⟩) ∨ P.Refused

def Post.Reaches (P : Post L) : ServerPhase L E → Prop
  | .handling request id _ => P.message = .request ⟨id, .initializeRequest request⟩
  | .refused .. => P.Refused
  | _ => True

/-- The worker passes on nothing but the message. -/
def Post.PassedBy (P : Post L) : Worker L → Prop
  | .spawned session =>
    ∀ vars, session.vars? = some vars → ∀ message ∈ vars.toHandler.offered, message = P.message
  | _ => True

/-- What is registered is the reply. -/
def PostPhase.Holds (reply : Option (ServerMessage L)) : PostPhase L → Prop
  | .registering message | .done (.json message _) => reply = some message
  | _ => True

structure Kept (P : Post L) (s : State L E) : Prop where
  post : s.post.Holds s.reply
  worker : P.PassedBy s.worker
  event : ∀ message, s.event = some message → message = P.message
  server : ∀ phase, s.server = some phase → P.Reaches phase
  fromHandler : ∀ message, s.fromHandler = some message → P.Answers message
  reply : ∀ message, s.reply = some message → P.Answers message
  sessionManager : s.reply = none → s.sessionManager = P.sessionManager

section Steps

variable {P : Post L} {errClosed : E} {s s' : State L E}

theorem kept_start : Kept P (State.start P : State L E) where
  post := trivial
  worker := trivial
  event _ hnone := by cases hnone
  server _ hnone := by cases hnone
  fromHandler _ hnone := by cases hnone
  reply _ hnone := by cases hnone
  sessionManager _ := rfl

theorem reaches_received {phase phase' : ServerPhase L E} {message : Option (ClientMessage L)}
    (hmessage : ∀ m, message = some m → m = P.message)
    (hs : phase.received message = some phase') : P.Reaches phase' := by
  cases phase with
  | awaitRequest =>
    simp only [ServerPhase.received] at hs
    split at hs <;> cases hs
    next => trivial
    next request id hrequest =>
      exact (hmessage _ (ServerPhase.expectRequest_eq_ok hrequest)).symm
    next => trivial
  | awaitNotification peer =>
    simp only [ServerPhase.received] at hs
    split at hs <;> cases hs <;> trivial
  | _ => cases hs

theorem reaches_handled {request : InitializeRequest L} {id : RequestId}
    {peer : Service.Peer (Service.ClientInfo L)} {phase' : ServerPhase L E}
    (h : P.Reaches (.handling request id peer : ServerPhase L E))
    (hs : (ServerPhase.handling request id peer).handled (P.handleRequest request) = some phase') :
    P.Reaches phase' := by
  simp only [ServerPhase.handled] at hs
  split at hs
  next => split at hs <;> cases hs <;> trivial
  next => cases hs; trivial
  next error herror =>
    cases hs
    exact ⟨id, request, error, h, herror⟩

theorem answers_handsOver {phase phase' : ServerPhase L E} {message : ServerMessage L}
    (h : P.Reaches phase) (hs : phase.handsOver = some (message, phase')) :
    P.Answers message ∧ P.Reaches phase' := by
  cases phase with
  | initialized result id peer =>
    cases hs
    exact ⟨.inl ⟨id, result, rfl⟩, trivial⟩
  | refused error id =>
    cases hs
    exact ⟨.inr h, trivial⟩
  | _ => cases hs

theorem reaches_sent {phase phase' : ServerPhase L E} {result : Except E Unit}
    (hs : phase.sent result = some phase') : P.Reaches phase' := by
  cases phase with
  | sendingResponse | sendingError => cases result <;> cases hs <;> trivial
  | _ => cases hs

theorem session_eq_some {a : Session.Action L.payloads} (h : s.session a = some s') :
    ∃ session session', s.worker = .spawned session ∧ Session.step session a = some session' ∧
      s' = { s with worker := .spawned session' } := by
  unfold State.session at h
  split at h
  next session hworker =>
    obtain ⟨session', hstep, rfl⟩ := Option.map_eq_some_iff.mp h
    exact ⟨session, session', hworker, hstep, rfl⟩
  next => cases h

theorem serves_eq_some {move : ServerPhase L E → Option (ServerPhase L E)}
    (h : s.serves move = some s') :
    ∃ phase phase', s.server = some phase ∧ move phase = some phase' ∧
      s' = { s with server := some phase' } := by
  obtain ⟨phase', hmove, rfl⟩ := Option.map_eq_some_iff.mp h
  obtain ⟨phase, hphase, hmove⟩ := Option.bind_eq_some_iff.mp hmove
  exact ⟨phase, phase', hphase, hmove, rfl⟩

/-- The worker offers the server nothing but what it takes out of the channel of the events. -/
theorem passedBy_takesEvent {session session' : Session.State L.payloads}
    (h : P.PassedBy (.spawned session))
    (hs : Session.step session (.httpService (.initializeRequest P.message)) = some session') :
    P.PassedBy (.spawned session') := by
  cases session with
  | awaitInitialize vars =>
    simp only [Session.step] at hs
    split at hs <;> cases hs
    next toHandler hsend =>
      rintro _ ⟨⟩ message hmem
      rw [(Chan.send_eq_ok hsend).1, List.mem_append, List.mem_singleton] at hmem
      exact hmem.elim (h vars rfl message) id
    all_goals
      rintro _ ⟨⟩
  | running vars =>
    cases hs
    exact h
  | _ => cases hs

theorem passedBy_session {session session' : Session.State L.payloads}
    {a : Session.Action L.payloads} (h : P.PassedBy (.spawned session))
    (hs : Session.step session a = some session')
    (ha : ∀ vars vars', Session.VarsStep vars a vars' →
      vars'.toHandler.offered = vars.toHandler.offered) : P.PassedBy (.spawned session') := by
  intro vars' hvars' message hmem
  obtain ⟨vars, hvars, hstep⟩ := Session.step_session hs hvars'
  rw [ha vars vars' hstep] at hmem
  exact h vars hvars message hmem

theorem passedBy_handlerReceives {worker : Worker L} (h : P.PassedBy worker) :
    P.PassedBy worker.handlerReceives := by
  cases worker with
  | spawned session =>
    show P.PassedBy (.spawned ((Session.step session (.environment .handlerReceives)).getD session))
    cases hstep : Session.step session (.environment .handlerReceives) with
    | none => exact h
    | some session' =>
      refine passedBy_session h hstep fun vars vars' hvars => ?_
      cases hvars with
      | environment hmove =>
        cases hmove
        exact Chan.offered_receive _
  | _ => trivial

theorem next_eq_message {worker : Worker L} {message : ClientMessage L} (h : P.PassedBy worker)
    (hnext : worker.next = some (some message)) : message = P.message := by
  cases worker with
  | spawned session =>
    simp only [Worker.next] at hnext
    split at hnext
    next vars hvars =>
      obtain ⟨m, hhead, hm⟩ := Option.map_eq_some_iff.mp hnext
      cases hm
      have hbacklog : message ∈ vars.toHandler.backlog := List.mem_of_mem_head? hhead
      exact h vars hvars message (Chan.accepted_subset _ (List.mem_of_mem_drop hbacklog))
    next => cases hnext
  | _ => cases hnext

theorem Kept.session {a : Session.Action L.payloads} (h : Kept P s) (hs : s.session a = some s')
    (ha : ∀ vars vars', Session.VarsStep vars a vars' →
      vars'.toHandler.offered = vars.toHandler.offered) : Kept P s' := by
  obtain ⟨session, session', hworker, hstep, rfl⟩ := session_eq_some hs
  have hpassed := h.worker
  rw [hworker] at hpassed
  exact { h with worker := passedBy_session hpassed hstep ha }

theorem Kept.serves {move : ServerPhase L E → Option (ServerPhase L E)} (h : Kept P s)
    (hs : s.serves move = some s')
    (hmove : ∀ phase phase', P.Reaches phase → move phase = some phase' → P.Reaches phase') :
    Kept P s' := by
  obtain ⟨phase, phase', hphase, hmoved, rfl⟩ := serves_eq_some hs
  refine { h with server := ?_ }
  rintro _ ⟨⟩
  exact hmove phase phase' (h.server phase hphase) hmoved

theorem Kept.postSendsEvent (h : Kept P s)
    (hs : Registration.step P errClosed s .postSendsEvent = some s') : Kept P s' := by
  simp only [Registration.step] at hs
  split at hs
  · split at hs <;> cases hs
    · refine { h with post := trivial, event := ?_ }
      rintro message ⟨⟩
      rfl
    · exact { h with post := trivial }
  · cases hs

theorem Kept.postReceives (h : Kept P s)
    (hs : Registration.step P errClosed s .postReceives = some s') : Kept P s' := by
  obtain ⟨-, hs⟩ := Option.ite_none_right_eq_some.mp hs
  split at hs
  next reply hreply =>
    cases hs
    exact { h with post := hreply }
  next =>
    obtain ⟨-, ⟨⟩⟩ := Option.ite_none_left_eq_some.mp hs
    exact { h with post := trivial }

/-- What is registered is the reply. -/
theorem Kept.postRegisters (h : Kept P s)
    (hs : Registration.step P errClosed s .postRegisters = some s') : Kept P s' := by
  simp only [Registration.step] at hs
  split at hs <;> cases hs
  next reply hpost =>
    have hreply : s.reply = some reply := by
      have hholds := h.post
      rwa [hpost] at hholds
    exact { h with
      post := hreply
      sessionManager := fun hnone => by simp [hreply] at hnone }

theorem Kept.workerTakesEvent (h : Kept P s)
    (hs : Registration.step P errClosed s .workerTakesEvent = some s') : Kept P s' := by
  simp only [Registration.step] at hs
  split at hs
  next request hevent =>
    obtain rfl := h.event request hevent
    obtain ⟨session, session', hworker, hstep, rfl⟩ := session_eq_some hs
    have hpassed := h.worker
    rw [show s.worker = .spawned session from hworker] at hpassed
    exact { h with
      worker := passedBy_takesEvent hpassed hstep
      event := fun _ hnone => by cases hnone }
  next => cases hs

/-- The reply is what the server has handed over, and nothing is registered before it. -/
theorem Kept.workerRelays (h : Kept P s)
    (hs : Registration.step P errClosed s .workerRelays = some s') : Kept P s' := by
  simp only [Registration.step] at hs
  split at hs
  next message hmessage =>
    obtain ⟨s₁, hsession, rfl⟩ := Option.map_eq_some_iff.mp hs
    have h₁ : Kept P s₁ := by
      refine h.session hsession fun vars vars' hvars => ?_
      cases hvars
      rfl
    split
    next hawaits =>
      refine { h₁ with
        post := ?_
        fromHandler := fun _ hnone => by cases hnone
        reply := ?_
        sessionManager := fun hnone => by cases hnone }
      · cases hpost : s₁.post with
        | awaitReply => trivial
        | _ => simp [State.awaitsReply, hpost] at hawaits
      · rintro _ ⟨⟩
        exact h.fromHandler message hmessage
    next => exact { h₁ with fromHandler := fun _ hnone => by cases hnone }
  next => cases hs

theorem Kept.serverReceives (h : Kept P s)
    (hs : Registration.step P errClosed s .serverReceives = some s') : Kept P s' := by
  simp only [Registration.step] at hs
  split at hs
  next message hnext =>
    have h₁ : Kept P { s with worker := s.worker.handlerReceives } :=
      { h with worker := passedBy_handlerReceives h.worker }
    refine h₁.serves hs fun phase phase' _ hreceived => reaches_received ?_ hreceived
    rintro m rfl
    exact next_eq_message h.worker hnext
  next => cases hs

/-- A server that refuses the request has been asked by the message. -/
theorem Kept.serverHandled (h : Kept P s)
    (hs : Registration.step P errClosed s .serverHandled = some s') : Kept P s' := by
  simp only [Registration.step] at hs
  split at hs
  next request id peer hserver =>
    obtain ⟨phase, phase', hphase, hhandled, rfl⟩ := serves_eq_some hs
    obtain rfl := Option.some.inj (hserver.symm.trans hphase)
    refine { h with server := ?_ }
    rintro _ ⟨⟩
    exact reaches_handled (h.server _ hserver) hhandled
  next => cases hs

theorem Kept.serverHandsOver (h : Kept P s)
    (hs : Registration.step P errClosed s .serverHandsOver = some s') : Kept P s' := by
  simp only [Registration.step] at hs
  split at hs
  next message server hover =>
    cases hs
    obtain ⟨phase, hphase, hover⟩ := Option.bind_eq_some_iff.mp hover
    obtain ⟨hanswers, hreaches⟩ := answers_handsOver (h.server phase hphase) hover
    refine { h with server := ?_, fromHandler := ?_ }
    · rintro _ ⟨⟩
      exact hreaches
    · rintro _ ⟨⟩
      exact hanswers
  next => cases hs

/-- One step, whoever takes it. -/
theorem Kept.step {a : Action} (h : Kept P s) (hs : Registration.step P errClosed s a = some s') :
    Kept P s' := by
  cases a with
  | postOffers | postIsRefused =>
    simp only [Registration.step] at hs
    split at hs <;> cases hs
    exact { h with post := trivial, worker := trivial }
  | postSendsEvent => exact h.postSendsEvent hs
  | postReceives => exact h.postReceives hs
  | postRegisters => exact h.postRegisters hs
  | postIsDropped =>
    simp only [Registration.step] at hs
    split at hs <;> cases hs
    exact { h with post := trivial }
  | workerIsDropped =>
    simp only [Registration.step] at hs
    split at hs <;> cases hs
    exact { h with worker := trivial }
  | workerIsServed =>
    simp only [Registration.step] at hs
    split at hs <;> cases hs
    refine { h with worker := ?_, server := ?_ }
    · rintro _ ⟨⟩ message hmem
      cases hmem
    · rintro _ ⟨⟩
      trivial
  | workerTakesEvent => exact h.workerTakesEvent hs
  | workerRelays => exact h.workerRelays hs
  | workerSeesHandlerGone =>
    obtain ⟨-, hs⟩ := Option.ite_none_left_eq_some.mp hs
    exact h.session hs fun _ _ hvars => by cases hvars
  | workerSeesHandleDropped =>
    obtain ⟨-, hs⟩ := Option.ite_none_right_eq_some.mp hs
    exact h.session hs fun _ _ hvars => by cases hvars
  | workerIsCancelled =>
    obtain ⟨-, hs⟩ := Option.ite_none_left_eq_some.mp hs
    exact h.session hs fun _ _ hvars => by cases hvars
  | serverReceives => exact h.serverReceives hs
  | serverHandled => exact h.serverHandled hs
  | serverHandsOver => exact h.serverHandsOver hs
  | serverSent =>
    simp only [Registration.step] at hs
    split at hs
    · exact h.serves hs fun phase phase' _ hsent => reaches_sent hsent
    · obtain ⟨-, hs⟩ := Option.ite_none_left_eq_some.mp hs
      exact h.serves hs fun phase phase' _ hsent => reaches_sent hsent
  | serverIsDropped =>
    obtain ⟨phase, hphase, rfl⟩ := Option.map_eq_some_iff.mp hs
    exact { h with server := fun _ hnone => by cases hnone }

end Steps

/-! ## Runs -/

/-- The service is to answer the initialize request. -/
def State.asked (P : Post L) (id : RequestId) (request : InitializeRequest L) : State L E where
  post := .awaitReply
  worker := .spawned (.awaitInitializeResponse { Session.start L.payloads .default with
    toHandler := ⟨16, [.request ⟨id, .initializeRequest request⟩], 1, none⟩ })
  event := none
  server := some (.handling request id ⟨some request.params⟩)
  fromHandler := none
  acknowledged := false
  reply := none
  sessionManager := P.sessionManager

variable {P : Post L} (errClosed : E)

theorem run_asked {id : RequestId} {request : InitializeRequest L}
    (hmessage : P.message = .request ⟨id, .initializeRequest request⟩) :
    Transition.Run (step P errClosed) (State.start P)
      [.postOffers, .postSendsEvent, .workerIsServed, .workerTakesEvent, .serverReceives]
      (State.asked P id request) := by
  obtain ⟨message, sessionId, sessionManager, handleRequest⟩ := P
  subst hmessage
  exact Transition.run_of_exec rfl

/-- The error of the service is the reply, and the session is registered. -/
theorem run_refused {id : RequestId} {request : InitializeRequest L} {error : ErrorData}
    (hmessage : P.message = .request ⟨id, .initializeRequest request⟩)
    (herror : P.handleRequest request = .error error) :
    ∃ as s, Transition.Run (step P errClosed) (State.start P) as s ∧
      s.post = .done (.json (.error ⟨id, error⟩) P.sessionId) ∧
      s.reply = some (.error ⟨id, error⟩) := by
  have hhandled : step P errClosed (State.asked P id request) .serverHandled =
      some { (State.asked P id request : State L E) with server := some (.refused error id) } := by
    simp [step, State.asked, State.serves, ServerPhase.handled, herror]
  have hrefused := (run_asked errClosed hmessage).snoc hhandled
  exact ⟨_ ++ [.serverHandsOver, .workerRelays, .postReceives, .postRegisters], _,
    hrefused.append (Transition.run_of_exec rfl), rfl, rfl⟩

/-- Whatever the message and the service, only successful handshakes become sessions if and only
if the message is not an initialize request that the service refuses. -/
theorem onlyHandshakes_iff (P : Post L) (errClosed : E) :
    (∀ as s, Transition.Run (step P errClosed) (State.start P) as s → OnlyHandshakes P s) ↔
      ¬ P.Refused := by
  constructor
  · rintro h ⟨id, request, error, hmessage, herror⟩
    obtain ⟨as, s, hrun, hpost, hreply⟩ := run_refused errClosed hmessage herror
    obtain ⟨id', result, hresult⟩ := (h as s hrun).successful (.inr ⟨_, _, hpost⟩)
    rw [hreply] at hresult
    cases hresult
  · intro hnot as s hrun
    have hkept : Kept P s := hrun.invariant (P := fun _ s => Kept P s) kept_start
      fun _ h hs => h.step hs
    have hsuccess : ∀ message, s.reply = some message →
        ∃ id result, s.reply = some (.response ⟨id, .initializeResult result⟩) := by
      intro message hreply
      obtain ⟨id, result, rfl⟩ := (hkept.reply message hreply).resolve_right hnot
      exact ⟨id, result, hreply⟩
    refine ⟨?_, fun hrefused => absurd hrefused hnot⟩
    rintro (hregistered | ⟨body, sessionId, hpost⟩)
    · obtain ⟨message, hreply⟩ := Option.ne_none_iff_exists'.mp (mt hkept.sessionManager hregistered)
      exact hsuccess message hreply
    · have hholds := hkept.post
      rw [hpost] at hholds
      exact hsuccess body hholds

/-- A client whose version the service does not support. -/
abbrev refusedPost : Post plainLeaves where
  message := .request ⟨.number 0, .initializeRequest
    ⟨⟨⟨"1999-12-31"⟩, .object [], ⟨"client", "1.0"⟩⟩, ⟨none⟩⟩⟩
  sessionId := "1"
  sessionManager := .empty
  handleRequest _ := .error ⟨-32602, "unsupported protocol version", none⟩

/-- The session is registered and its id returned, and nobody is behind it. -/
theorem refused_session_registered :
    ∃ as s, Transition.Run (step refusedPost ()) (State.start refusedPost) as s ∧
      s.post = .done (.json
        (.error ⟨.number 0, ⟨-32602, "unsupported protocol version", none⟩⟩) "1") ∧
      s.sessionManager.get "1" = some ⟨"1"⟩ ∧
      s.server = some (.failed
        (.initializeFailed ⟨-32602, "unsupported protocol version", none⟩)) ∧
      s.worker = .spawned (.quit .cancelled) ∧
      ¬ OnlyHandshakes refusedPost s := by
  refine ⟨[.postOffers, .postSendsEvent, .workerIsServed, .workerTakesEvent, .serverReceives,
    .serverHandled, .serverHandsOver, .workerRelays, .postReceives, .postRegisters, .serverSent,
    .workerIsCancelled], _, Transition.run_of_exec rfl, rfl, rfl, rfl, rfl, ?_⟩
  intro h
  obtain ⟨id, result, ⟨⟩⟩ := h.successful (.inr ⟨_, _, rfl⟩)

end Rmcp.Registration
