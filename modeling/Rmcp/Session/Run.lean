import Rmcp.Session.Worker
import Rmcp.Support.Transition

/-!
# The session loop

`SessionWorker::run` as a transition system. One action is one turn of the `select!`, or a
move of a party outside: an HTTP handler reads or drops a receiver, the service reads its
channel or goes away. A turn of the loop is one step: inside it the worker only awaits
sends, and nothing else changes its state meanwhile. A turn whose send waits is not enabled
until there is room.

Results:
1. `step_session`: what a step can do to the variables of the loop.
2. `run_invariant`: what `create_session` gives and every such change keeps holds in every
   reachable state.
-/

namespace Rmcp

inductive WorkerQuitReason
  | fatal (error context : String)
  | cancelled
  | transportClosed
  | handlerTerminated
deriving DecidableEq

namespace Session

inductive SessionEvent (P : Payloads)
  | clientMessage (message : ClientJsonRpcMessage P) (httpRequestId : Option HttpRequestId)
  | establishRequestWiseChannel
  | closeRequestWiseChannel (id : HttpRequestId)
  | resume (lastEventId : EventId)
  | initializeRequest (request : ClientJsonRpcMessage P)
  | close

/-- What the responder of an event is given. -/
inductive Reply
  | nothing
  | receiver (result : Except SessionError StreamableHttpMessageReceiver)
  | done (result : Except SessionError Unit)

/-- The variables of the loop: the worker, the channels it sends on, and the channel to the
service. -/
structure Vars (P : Payloads) where
  worker : SessionWorker P
  channels : Channels P
  toHandler : Chan (ClientJsonRpcMessage P)

namespace SessionWorker

variable {P : Payloads}

/-- What the loop does with a message of the handler before it sends it. -/
def catchResponse (w : SessionWorker P) : ServerJsonRpcMessage P → SessionWorker P
  | .response r => w.unregisterResource (.mcpRequestId r.id)
  | .error e => w.unregisterResource (.mcpRequestId e.id)
  | .batchResponse items =>
    items.foldl (fun w item => w.unregisterResource (.mcpRequestId item.id)) w
  | .request _ | .notification _ | .batchRequest _ => w

def registerItem (w : SessionWorker P) (httpRequestId : Option HttpRequestId) :
    JsonRpcBatchRequestItem P.ClientRequest ClientNotification → SessionWorker P
  | .request request =>
    match httpRequestId with
    | some httpRequestId => w.registerRequest request httpRequestId
    | none => w
  | .notification notification => w.catchCancellationNotification notification

/-- What the loop does with a message of the client before it passes it on. -/
def registerMessage (w : SessionWorker P) (httpRequestId : Option HttpRequestId) :
    ClientJsonRpcMessage P → SessionWorker P
  | .request request => w.registerItem httpRequestId (.request request)
  | .notification notification => w.registerItem httpRequestId (.notification notification)
  | .batchRequest items => items.foldl (fun w item => w.registerItem httpRequestId item) w
  | .response _ | .batchResponse _ | .error _ => w

end SessionWorker

namespace Vars

variable {P : Payloads}

/-- The `FromHandler` arm: the result for the handler. -/
def fromHandler (s : Vars P) (message : ServerJsonRpcMessage P) :
    Exec (Except SessionError Unit × Vars P) := do
  let worker := s.worker.catchResponse message
  let (result, worker, channels) ← worker.handleServerMessage s.channels message
  return (result, { s with worker, channels })

/-- The `FromHttpService` arms: the loop goes on with a reply, or quits. -/
def fromHttpService (s : Vars P) :
    SessionEvent P → Exec (Except WorkerQuitReason (Reply × Vars P))
  | .clientMessage message httpRequestId => do
    let worker := s.worker.registerMessage httpRequestId message
    let (ok, toHandler) ← s.toHandler.send message
    if ok then return .ok (.nothing, { s with worker, toHandler })
    else return .error .handlerTerminated
  | .establishRequestWiseChannel =>
    let (receiver, worker, channels) := s.worker.establishRequestWiseChannel s.channels
    .ok (.ok (.receiver (.ok receiver), { s with worker, channels }))
  | .closeRequestWiseChannel id =>
    let worker := { s.worker with txRouter := s.worker.txRouter.remove id }
    .ok (.ok (.done (.ok ()), { s with worker }))
  | .resume lastEventId => do
    let (result, worker, channels) ← s.worker.resume s.channels lastEventId
    return .ok (.receiver result, { s with worker, channels })
  | .initializeRequest _ => .ok (.ok (.nothing, s))
  | .close => .ok (.error .transportClosed)

end Vars

/-- A move of a party outside the loop. -/
inductive Environment
  | receive (rx : Nat)
  | dropReceiver (rx : Nat)
  | handlerReceives
  | handlerDrops
deriving DecidableEq

def Vars.environment {P : Payloads} (s : Vars P) : Environment → Option (Vars P)
  | .receive rx =>
    if rx < s.channels.next then some { s with channels := s.channels.receive rx } else none
  | .dropReceiver rx =>
    if rx < s.channels.next then some { s with channels := s.channels.close rx } else none
  | .handlerReceives => some { s with toHandler := s.toHandler.receive }
  | .handlerDrops => some { s with toHandler := s.toHandler.close }

inductive State (P : Payloads)
  | awaitInitialize (s : Vars P)
  | awaitInitializeResponse (s : Vars P)
  | running (s : Vars P)
  | quit (reason : WorkerQuitReason)
  | panicked

inductive Action (P : Payloads)
  | httpService (event : SessionEvent P)
  | httpServiceGone
  | handler (message : ServerJsonRpcMessage P)
  | handlerGone
  /-- The first message of the handler, and whether the two sides still wait for it. -/
  | initializeResponse (message : ServerJsonRpcMessage P) (httpServiceWaits handlerWaits : Bool)
  | cancelled
  | environment (move : Environment)

section Step

variable {P : Payloads}

/-- The state after a turn of the loop, if the turn does not wait. -/
def State.after (turn : Exec (Except WorkerQuitReason (Vars P))) : Option (State P) :=
  match turn with
  | .ok (.ok s) => some (.running s)
  | .ok (.error reason) => some (.quit reason)
  | .error .panics => some .panicked
  | .error .waits => none

def step : State P → Action P → Option (State P)
  | .awaitInitialize s, .httpService (.initializeRequest request) =>
    match s.toHandler.send request with
    | .ok (true, toHandler) => some (.awaitInitializeResponse { s with toHandler })
    | .ok (false, _) => some (.quit .handlerTerminated)
    | .error .panics => some .panicked
    | .error .waits => none
  | .awaitInitialize _, .httpService _ =>
    some (.quit (.fatal "unexpected message" "get initialize request"))
  | .awaitInitialize _, .httpServiceGone =>
    some (.quit (.fatal "transport terminated" "get initialize request"))
  | .awaitInitialize s, .environment move => (s.environment move).map .awaitInitialize
  | .awaitInitializeResponse s, .initializeResponse _ httpServiceWaits handlerWaits =>
    if !httpServiceWaits then
      some (.quit (.fatal "failed to send initialize response to http service"
        "send initialize response"))
    else if !handlerWaits then some (.quit .handlerTerminated)
    else some (.running s)
  | .awaitInitializeResponse _, .handlerGone => some (.quit .handlerTerminated)
  | .awaitInitializeResponse s, .environment move =>
    (s.environment move).map .awaitInitializeResponse
  | .running s, .httpService event => State.after ((s.fromHttpService event).map (·.map (·.2)))
  | .running _, .httpServiceGone =>
    some (.quit (.fatal "session dropped" "waiting next session event"))
  | .running s, .handler message => State.after ((s.fromHandler message).map (.ok ·.2))
  | .running _, .handlerGone => some (.quit .handlerTerminated)
  | .running _, .cancelled => some (.quit .cancelled)
  | .running s, .environment move => (s.environment move).map .running
  | _, _ => none

end Step

/-- The variables at the start. The channel to the service has the capacity that the worker
asks for in its `config`. -/
def start (P : Payloads) (config : SessionConfig) : Vars P :=
  let (worker, channels) := createSession P config
  { worker, channels, toHandler := .new config.channelCapacity }

/-- The actions `as` lead into the loop with the variables `s`. -/
def Runs {P : Payloads} (config : SessionConfig) (as : List (Action P)) (s : Vars P) : Prop :=
  Transition.Run step (.awaitInitialize (start P config)) as (.running s)

/-! ## What a step does -/

section Inversion

variable {P : Payloads}

/-- The variables of a state that still has them. -/
def State.vars? : State P → Option (Vars P)
  | .awaitInitialize s | .awaitInitializeResponse s | .running s => some s
  | .quit _ | .panicked => none

/-- What a step does to the variables when the session goes on. -/
inductive VarsStep (s : Vars P) : Action P → Vars P → Prop
  | environment {move : Environment} {s' : Vars P} :
      s.environment move = some s' → VarsStep s (.environment move) s'
  | initializeRequest {request : ClientJsonRpcMessage P}
      {toHandler : Chan (ClientJsonRpcMessage P)} :
      VarsStep s (.httpService (.initializeRequest request)) { s with toHandler }
  | initializeResponse {message : ServerJsonRpcMessage P} {httpServiceWaits handlerWaits : Bool} :
      VarsStep s (.initializeResponse message httpServiceWaits handlerWaits) s
  | httpService {event : SessionEvent P} {reply : Reply} {s' : Vars P} :
      s.fromHttpService event = .ok (.ok (reply, s')) → VarsStep s (.httpService event) s'
  | handler {message : ServerJsonRpcMessage P} {result : Except SessionError Unit} {s' : Vars P} :
      s.fromHandler message = .ok (result, s') → VarsStep s (.handler message) s'

theorem State.after_vars? {turn : Exec (Except WorkerQuitReason (Vars P))} {st : State P}
    {s : Vars P} (h : State.after turn = some st) (hs : st.vars? = some s) : turn = .ok (.ok s) := by
  unfold State.after at h
  split at h <;> cases h <;> cases hs
  rfl

theorem step_session {st st' : State P} {a : Action P} {s' : Vars P} (h : step st a = some st')
    (hs' : st'.vars? = some s') : ∃ s, st.vars? = some s ∧ VarsStep s a s' := by
  unfold step at h
  split at h
  case h_1 s request =>
    split at h <;> cases h <;> cases hs'
    exact ⟨s, rfl, .initializeRequest⟩
  case h_4 s move =>
    obtain ⟨t, ht, rfl⟩ := Option.map_eq_some_iff.mp h
    cases hs'
    exact ⟨s, rfl, .environment ht⟩
  case h_5 =>
    split at h
    · cases h
      cases hs'
    · split at h <;> cases h <;> cases hs'
      exact ⟨s', rfl, .initializeResponse⟩
  case h_7 s move =>
    obtain ⟨t, ht, rfl⟩ := Option.map_eq_some_iff.mp h
    cases hs'
    exact ⟨s, rfl, .environment ht⟩
  case h_8 s event =>
    have hturn := State.after_vars? h hs'
    cases hevent : s.fromHttpService event with
    | error e => simp [hevent, Except.map] at hturn
    | ok result =>
      cases result with
      | error reason => simp [hevent, Except.map] at hturn
      | ok out =>
        simp only [hevent, Except.map, Except.ok.injEq] at hturn
        subst hturn
        exact ⟨s, rfl, .httpService hevent⟩
  case h_10 s message =>
    have hturn := State.after_vars? h hs'
    cases hmessage : s.fromHandler message with
    | error e => simp [hmessage, Except.map] at hturn
    | ok out =>
      simp only [hmessage, Except.map, Except.ok.injEq] at hturn
      subst hturn
      exact ⟨s, rfl, .handler hmessage⟩
  case h_13 s move =>
    obtain ⟨t, ht, rfl⟩ := Option.map_eq_some_iff.mp h
    cases hs'
    exact ⟨s, rfl, .environment ht⟩
  all_goals cases h <;> cases hs'

theorem State.after_cases {turn : Exec (Except WorkerQuitReason (Vars P))} {st : State P}
    (h : State.after turn = some st) : (∃ s, st = .running s) ∨ st.vars? = none := by
  unfold State.after at h
  split at h <;> cases h
  · exact .inl ⟨_, rfl⟩
  · exact .inr rfl
  · exact .inr rfl

/-- The session stays at the begin of the handshake, or is still there. -/
theorem step_awaitInitialize {st : State P} {a : Action P} {s' : Vars P}
    (hs : step st a = some (.awaitInitialize s')) :
    ∃ s move, st = .awaitInitialize s ∧ a = .environment move ∧
      s.environment move = some s' := by
  unfold step at hs
  split at hs
  case h_4 s move =>
    obtain ⟨t, ht, ⟨⟩⟩ := Option.map_eq_some_iff.mp hs
    exact ⟨s, move, rfl, rfl, ht⟩
  case h_8 | h_10 =>
    rcases State.after_cases hs with ⟨s, ⟨⟩⟩ | ⟨⟨⟩⟩
  case h_7 | h_13 =>
    obtain ⟨t, -, ⟨⟩⟩ := Option.map_eq_some_iff.mp hs
  case h_1 => split at hs <;> cases hs
  case h_5 =>
    split at hs
    · cases hs
    · split at hs <;> cases hs
  all_goals cases hs

/-- The session comes to wait for the service when the service has been given the request, or
waits for it still. -/
theorem step_awaitInitializeResponse {st : State P} {a : Action P} {s' : Vars P}
    (hs : step st a = some (.awaitInitializeResponse s')) :
    (∃ s move, st = .awaitInitializeResponse s ∧ a = .environment move) ∨
      ∃ s request, st = .awaitInitialize s ∧ a = .httpService (.initializeRequest request) ∧
        s.toHandler.closedAt = none := by
  unfold step at hs
  split at hs
  case h_1 s request =>
    split at hs
    next toHandler hsend =>
      obtain ⟨-, hopen⟩ := Chan.send_eq_ok hsend
      exact .inr ⟨s, request, rfl, rfl, hopen.mp rfl⟩
    all_goals cases hs
  case h_7 s move => exact .inl ⟨s, move, rfl, rfl⟩
  case h_8 | h_10 =>
    rcases State.after_cases hs with ⟨s, ⟨⟩⟩ | ⟨⟨⟩⟩
  case h_4 | h_13 =>
    obtain ⟨t, -, ⟨⟩⟩ := Option.map_eq_some_iff.mp hs
  case h_5 =>
    split at hs
    · cases hs
    · split at hs <;> cases hs
  all_goals cases hs

/-- What holds at the start and is kept by every step holds in the loop. -/
theorem Runs.invariant {config : SessionConfig} {as : List (Action P)} {s : Vars P}
    (h : Runs config as s) {I : List (Action P) → Vars P → Prop} (h0 : I [] (start P config))
    (hstep : ∀ {as : List (Action P)} {s s' : Vars P} {a : Action P},
      I as s → VarsStep s a s' → I (as ++ [a]) s') : I as s := by
  refine Transition.Run.invariant (P := fun as st => ∀ s, st.vars? = some s → I as s) h ?_ ?_ s rfl
  · rintro s hs
    cases hs
    exact h0
  · intro as st st' a _ hI hst s' hs'
    obtain ⟨s, hs, hvars⟩ := step_session hst hs'
    exact hstep (hI s hs) hvars

/-- What is observed of the variables along the actions `as`. -/
def observed {β : Type} (obs : Vars P → Action P → List β) (config : SessionConfig)
    (as : List (Action P)) : List β :=
  Transition.observe step (fun st a => st.vars?.elim [] (obs · a))
    (.awaitInitialize (start P config)) as

/-- The invariant rule with what is observed along the run. -/
theorem Runs.observed_invariant {β : Type} (obs : Vars P → Action P → List β)
    {config : SessionConfig} {as : List (Action P)} {s : Vars P} (h : Runs config as s)
    {I : List β → Vars P → Prop} (h0 : I [] (start P config))
    (hstep : ∀ {log : List β} {s s' : Vars P} {a : Action P},
      I log s → VarsStep s a s' → I (log ++ obs s a) s') : I (observed obs config as) s := by
  refine Transition.Run.invariant
    (P := fun as st => ∀ s, st.vars? = some s → I (observed obs config as) s) h ?_ ?_ s rfl
  · rintro s hs
    cases hs
    exact h0
  · intro as st st' a hrun hI hst s' hs'
    obtain ⟨s, hs, hvars⟩ := step_session hst hs'
    rw [observed, hrun.observe_concat hst, hs]
    exact hstep (hI s hs) hvars

end Inversion

/-! ## Concrete sessions -/

/-- The payloads of the concrete runs: a client request is its metadata. -/
def bare : Payloads := ⟨Meta, Unit, Unit, Unit, id⟩

/-- The actions that lead into the loop. -/
def handshake : List (Action bare) :=
  [.httpService (.initializeRequest (.request ⟨.number 0, Meta.staticEmpty⟩)),
    .initializeResponse (.response ⟨.number 0, ()⟩) true true]

/-- A client posts the request `id` on the channel `h`. -/
def post (id : UInt32) (m : Meta) (h : HttpRequestId) : Action bare :=
  .httpService (.clientMessage (.request ⟨.number id, m⟩) (some h))

/-- The handler answers the request `id`. -/
def answer (id : UInt32) : ServerJsonRpcMessage bare := .response ⟨.number id, ()⟩

end Session

end Rmcp
