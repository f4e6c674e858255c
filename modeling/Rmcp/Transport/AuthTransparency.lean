import Rmcp.Transport.ClientWorker

/-!
# The worker over `AuthClient<C>` and over `C`

`AuthClient` wraps every error of the client below it, and the worker matches on one of them:
`SeverDoesNotSupportSse` from the GET of the common stream, which it takes for a server
without that stream. Wrapped, it is fatal.

Results:
1. `step_unwrap_iff`: a step over `AuthClient<C>` is a step over `C`, up to the bearer tokens
   and the wrapping, in all cases but that one.
2. `auth_transparent_iff`: the two workers go through the same states exactly when the GET of
   the common stream is not refused so.
3. `auth_quits_common_refused`: a run where it is.
-/

namespace Rmcp.ClientWorker

open Transition (exec Always)

variable {S : Setup} {E : Type}

/-! ## Up to the bearer tokens and the wrapping -/

/-- The error that was wrapped; an error of the worker itself is not. -/
def StreamableHttpError.unwrap :
    StreamableHttpError (StreamableHttpError E) → StreamableHttpError E
  | .client e => e
  | .sse e => .sse e
  | .io e => .io e
  | .unexpectedEndOfStream => .unexpectedEndOfStream
  | .unexpectedServerResponse response => .unexpectedServerResponse response
  | .unexpectedContentType contentType => .unexpectedContentType contentType
  | .severDoesNotSupportSse => .severDoesNotSupportSse
  | .severDoesNotSupportDeleteSession => .severDoesNotSupportDeleteSession
  | .tokioJoinError e => .tokioJoinError e
  | .deserialize e => .deserialize e
  | .transportChannelClosed => .transportChannelClosed
  | .auth e => .auth e

def WorkerQuitReason.unwrap :
    WorkerQuitReason (StreamableHttpError E) → WorkerQuitReason E
  | .fatal error context => .fatal (error.map StreamableHttpError.unwrap id) context
  | .cancelled => .cancelled
  | .handlerTerminated => .handlerTerminated

def Phase.unwrap : Phase S (StreamableHttpError E) → Phase S E
  | .awaitInitialize => .awaitInitialize
  | .postInitialize message => .postInitialize message
  | .expectInitialized source sessionId => .expectInitialized source sessionId
  | .sendToHandler source message resume => .sendToHandler source message resume
  | .awaitInitialized => .awaitInitialized
  | .postInitialized message responder => .postInitialized message responder
  | .getCommon => .getCommon
  | .select => .select
  | .post message responder => .post message responder
  | .quit reason => .quit reason.unwrap

def Task.unwrap : Task S (StreamableHttpError E) → Task S E
  | .reading stream => .reading stream
  | .sending stream message => .sending stream message
  | .finished result => .finished (result.mapError StreamableHttpError.unwrap)

def Source.unwrap (source : Source S (StreamableHttpError E)) : Source S E :=
  ⟨source.messages, source.ended, source.task.map Task.unwrap⟩

def Call.unwrap {P : Payloads} (call : Call P) : Call P := { call with authHeader := none }

def State.unwrap (s : State S (StreamableHttpError E)) : State S E :=
  { s with
    phase := s.phase.unwrap
    responses := s.responses.map fun r => (r.1, r.2.mapError StreamableHttpError.unwrap)
    sources := s.sources.map Source.unwrap
    calls := s.calls.map Call.unwrap }

/-- What `get_access_token` returns to the call that an action is the answer of. -/
def Action.token : Action S E → Option (Except String String)
  | .posted answer => some answer.token
  | .gotStream answer => some answer.token
  | .turn _ (.retried answer) => some answer.token
  | .deleted answer => some answer.token
  | _ => none

def Action.GrantsAccess (a : Action S E) : Prop := ∀ e, a.token ≠ some (.error e)

/-- The GET of the common stream is refused by a server that does not support it. -/
def RefusesCommon (s : State S E) (a : Action S E) : Prop :=
  s.phase = .getCommon ∧ ∃ token, a = .gotStream ⟨token, .error .severDoesNotSupportSse⟩

/-! ## The parts of a step -/

section Parts

variable (s : State S (StreamableHttpError E))

@[simp] theorem unwrap_phase : s.unwrap.phase = s.phase.unwrap := rfl

@[simp] theorem unwrap_sources : s.unwrap.sources = s.sources.map Source.unwrap := rfl

@[simp] theorem hasQuit_unwrap (phase : Phase S (StreamableHttpError E)) :
    phase.unwrap.hasQuit = phase.hasQuit := by cases phase <;> rfl

@[simp] theorem receives_unwrap (phase : Phase S (StreamableHttpError E)) :
    phase.unwrap.receives = phase.receives := by cases phase <;> rfl

@[simp] theorem unwrap_quit (reason : WorkerQuitReason (StreamableHttpError E)) :
    (s.quit reason).unwrap = s.unwrap.quit reason.unwrap := by
  simp [State.quit, State.unwrap, Phase.unwrap, Source.unwrap]

@[simp] theorem unwrap_respond (responder : Nat)
    (result : Except (StreamableHttpError (StreamableHttpError E)) Unit) :
    (s.respond responder result).unwrap =
      s.unwrap.respond responder (result.mapError StreamableHttpError.unwrap) := by
  simp [State.respond, State.unwrap]

@[simp] theorem unwrap_give (source : Source S (StreamableHttpError E)) :
    (s.give source).unwrap = s.unwrap.give source.unwrap := by
  simp [State.give, State.unwrap]

@[simp] theorem unwrap_setSource (k : Nat) (source : Source S (StreamableHttpError E)) :
    (s.setSource k source).unwrap = s.unwrap.setSource k source.unwrap := by
  simp [State.setSource, State.unwrap, List.map_set]

@[simp] theorem unwrap_spawn (stream : S.Stream) :
    (s.spawn stream).unwrap = s.unwrap.spawn stream := unwrap_give s _

@[simp] theorem unwrap_goto (phase : Phase S (StreamableHttpError E)) :
    (s.goto phase).unwrap = s.unwrap.goto phase.unwrap := rfl

@[simp] theorem unwrap_withSseWorker (sseWorker : List (Nat × ServerJsonRpcMessage S.P)) :
    ({ s with sseWorker } : State S (StreamableHttpError E)).unwrap =
      { s.unwrap with sseWorker } := rfl

/-- With a token the call reaches the client below, and its outcome is wrapped. -/
theorem unwrap_called {R : Type} (request : Request S.P) {answer : Answer E R} {token : String}
    (htoken : answer.token = .ok token) :
    (s.called request (AuthClient.call none answer)).unwrap =
      s.unwrap.called request (⟨some none, answer.outcome⟩ : Called E R) := by
  simp [State.called, State.unwrap, AuthClient.call, htoken, Call.unwrap]

end Parts

/-! ## The step -/

section Step

variable (s : State S (StreamableHttpError E))

theorem unwrap_recv : s.recv.map State.unwrap = s.unwrap.recv := by
  unfold State.recv
  cases hqueue : s.fromHandler with
  | nil =>
    have hqueue' : s.unwrap.fromHandler = [] := hqueue
    have hsenders : s.unwrap.sendersDropped = s.sendersDropped := rfl
    simp only [hqueue', hsenders, unwrap_phase, receives_unwrap]
    rw [apply_ite (Option.map State.unwrap), Option.map_some, unwrap_quit]
    rfl
  | cons request fromHandler =>
    have hqueue' : s.unwrap.fromHandler = request :: fromHandler := hqueue
    simp only [hqueue', unwrap_phase]
    cases s.phase with
    | awaitInitialize =>
      exact congrArg some (congrArg (State.goto · _) (unwrap_respond _ _ _))
    | _ => rfl

theorem unwrap_initialized (source : Nat) (message : ServerJsonRpcMessage S.P)
    (sessionId : Option String) :
    (s.initialized source message sessionId).unwrap =
      s.unwrap.initialized source message sessionId := by
  cases sessionId with
  | none => exact unwrap_quit s _
  | some sessionId => rfl

theorem unwrap_expectInitialized (response : StreamableHttpPostResponse S) :
    (s.expectInitialized response).unwrap = s.unwrap.expectInitialized response := by
  cases response with
  | accepted => exact unwrap_quit s _
  | json message sessionId => simp [State.expectInitialized, unwrap_initialized, Source.unwrap]
  | sse stream sessionId => simp [State.expectInitialized, Phase.unwrap, Source.unwrap]

theorem unwrap_firstEvent (event : Option (Except String Sse)) :
    (s.firstEvent event).map State.unwrap = s.unwrap.firstEvent event := by
  unfold State.firstEvent
  rw [unwrap_phase]
  cases s.phase with
  | expectInitialized k sessionId =>
    simp only [Phase.unwrap]
    obtain _ | e | event := event
    · exact congrArg some (unwrap_quit s _)
    · exact congrArg some (unwrap_quit s _)
    · simp only []
      cases S.fromStr (event.data.getD "") with
      | error e => exact congrArg some (unwrap_quit s _)
      | ok message => simp [unwrap_initialized, Source.unwrap]
  | _ => rfl

/-- What the wrapper returns, where a token is granted. -/
theorem result_call {R : Type} {answer : Answer E R} {token : String}
    (htoken : answer.token = .ok token) :
    (AuthClient.call none answer).result = answer.outcome.mapError .client := by
  simp [AuthClient.call, htoken]

theorem unwrap_posted {answer : Answer E (StreamableHttpPostResponse S)} {token : String}
    (htoken : answer.token = .ok token) :
    (s.posted (AuthClient S E) answer).map State.unwrap =
      s.unwrap.posted (direct S E) answer := by
  have hsession : s.unwrap.sessionId = s.sessionId := rfl
  unfold State.posted
  simp only [AuthClient, direct, unwrap_phase, result_call htoken, hsession]
  cases s.phase with
  | postInitialize message =>
    simp only [Phase.unwrap]
    rw [← unwrap_called s _ htoken]
    cases answer.outcome with
    | error e => exact congrArg some (unwrap_quit _ _)
    | ok response => exact congrArg some (unwrap_expectInitialized _ response)
  | postInitialized message responder =>
    simp only [Phase.unwrap]
    rw [← unwrap_called s _ htoken]
    cases answer.outcome with
    | error e => exact congrArg some (unwrap_quit _ _)
    | ok response =>
      cases response with
      | accepted => exact congrArg some (congrArg (State.goto · _) (unwrap_respond _ _ _))
      | json message sessionId => exact congrArg some (unwrap_quit _ _)
      | sse stream sessionId => exact congrArg some (unwrap_quit _ _)
  | post message responder =>
    simp only [Phase.unwrap]
    rw [← unwrap_called s _ htoken]
    cases answer.outcome with
    | error e => exact congrArg some (congrArg (State.goto · _) (unwrap_respond _ _ _))
    | ok response =>
      cases response with
      | accepted => exact congrArg some (congrArg (State.goto · _) (unwrap_respond _ _ _))
      | json message sessionId => simp [Except.mapError, Phase.unwrap, Source.unwrap]
      | sse stream sessionId => simp [Except.mapError, Phase.unwrap]
  | _ => rfl

/-- The GET of the common stream: the one outcome that the wrapping makes a difference to. -/
theorem unwrap_gotStream_iff {answer : Answer E S.Stream} {token : String}
    (htoken : answer.token = .ok token) :
    (s.gotStream (AuthClient S E) answer).map State.unwrap = s.unwrap.gotStream (direct S E) answer ↔
      ¬ RefusesCommon s.unwrap (.gotStream answer) := by
  have hsession : s.unwrap.sessionId = s.sessionId := rfl
  unfold State.gotStream RefusesCommon
  simp only [AuthClient, direct, unwrap_phase, result_call htoken, hsession]
  cases s.phase with
  | getCommon =>
    simp only [Phase.unwrap, true_and]
    rw [← unwrap_called s _ htoken]
    obtain ⟨token', outcome⟩ := answer
    cases outcome with
    | ok stream => simp [Except.mapError, Phase.unwrap]
    | error e =>
      cases e with
      | severDoesNotSupportSse =>
        refine iff_of_false (fun h => ?_) fun h => h ⟨token', rfl⟩
        have hphase := congrArg (Option.map State.phase) h
        cases hphase
      | _ =>
        refine iff_of_true (congrArg some (unwrap_quit _ _)) ?_
        rintro ⟨token, h⟩
        cases h
  | _ =>
    refine iff_of_true rfl ?_
    rintro ⟨h, _⟩
    cases h

theorem unwrap_sendToHandler : s.sendToHandler.map State.unwrap = s.unwrap.sendToHandler := by
  unfold State.sendToHandler
  rw [unwrap_phase]
  cases s.phase with
  | sendToHandler source message resume =>
    have hdropped : s.unwrap.transportDropped = s.transportDropped := rfl
    have hfill : s.unwrap.forwarded.length - s.unwrap.read = s.forwarded.length - s.read := rfl
    simp only [Phase.unwrap, hdropped, hfill]
    rw [apply_ite (Option.map State.unwrap), apply_ite (Option.map State.unwrap), Option.map_some,
      unwrap_quit]
    cases resume with
    | respond responder => 
      simp only [Option.map_some, unwrap_goto, unwrap_respond]
      rfl
    | awaitInitialized | select => rfl
  | _ => rfl

theorem unwrap_recvServerMessage :
    s.recvServerMessage.map State.unwrap = s.unwrap.recvServerMessage := by
  have hqueue : s.unwrap.sseWorker = s.sseWorker := rfl
  unfold State.recvServerMessage
  rw [unwrap_phase, hqueue]
  cases s.phase with
  | select => cases s.sseWorker <;> rfl
  | _ => rfl

theorem mapError_unwrap_client {R : Type} (outcome : Except (StreamableHttpError E) R) :
    (outcome.mapError StreamableHttpError.client).mapError StreamableHttpError.unwrap = outcome := by
  cases outcome <;> rfl

theorem unwrap_awaited (stream : SseAutoReconnectStream S.Stream) {k : Nat} {event : Event S E}
    (hgrants : Action.GrantsAccess (.turn k event)) :
    (s.awaited (AuthClient S E) stream event).1.unwrap =
        (s.unwrap.awaited (direct S E) stream event).1 ∧
      (s.awaited (AuthClient S E) stream event).2.mapError StreamableHttpError.unwrap =
        (s.unwrap.awaited (direct S E) stream event).2 := by
  cases event with
  | item sse =>
    refine ⟨rfl, ?_⟩
    obtain _ | _ | sse := sse <;> rfl
  | retried answer =>
    obtain ⟨token | token, outcome⟩ := answer
    · exact absurd rfl (hgrants token)
    · refine ⟨unwrap_called s _ rfl, ?_⟩
      exact congrArg Awaited.retried (mapError_unwrap_client outcome)
  | slept | nothing => exact ⟨rfl, rfl⟩

theorem unwrap_polled (k : Nat) (source : Source S (StreamableHttpError E))
    (stream : SseAutoReconnectStream S.Stream)
    (polled : Polled (ServerJsonRpcMessage S.P) (StreamableHttpError (StreamableHttpError E))) :
    (s.polled k source stream polled).unwrap =
      s.unwrap.polled k source.unwrap stream (polled.mapError StreamableHttpError.unwrap) := by
  obtain _ | _ | _ | _ | _ := polled <;> exact unwrap_setSource s k _

theorem unwrap_turn {k : Nat} {event : Event S E}
    (hgrants : Action.GrantsAccess (.turn k event)) :
    (s.turn (AuthClient S E) k event).map State.unwrap = s.unwrap.turn (direct S E) k event := by
  unfold State.turn
  rw [unwrap_sources, List.getElem?_map]
  obtain _ | ⟨messages, ended, _ | stream | stream | result⟩ := s.sources[k]?
  case some.some.reading =>
    obtain ⟨hstate, hawaited⟩ := unwrap_awaited s stream hgrants
    simp only [Option.map_some, Source.unwrap, Task.unwrap, ← hstate, ← hawaited]
    rw [SseAutoReconnectStream.pollNext_mapError, Option.map_map, Option.map_map]
    refine congrArg (Option.map · _) (funext fun r => ?_)
    exact unwrap_polled _ k _ r.1 r.2
  all_goals rfl

theorem unwrap_joined (k : Nat) : (s.joined k).map State.unwrap = s.unwrap.joined k := by
  unfold State.joined
  rw [unwrap_phase, unwrap_sources, List.getElem?_map]
  cases s.phase with
  | select =>
    obtain _ | ⟨messages, ended, _ | _ | _ | result⟩ := s.sources[k]?
    case some.some.finished => exact congrArg some (unwrap_setSource s k _)
    all_goals rfl
  | _ => rfl

theorem unwrap_taskSends (k : Nat) : (s.taskSends k).map State.unwrap = s.unwrap.taskSends k := by
  have hqueue : s.unwrap.sseWorker = s.sseWorker := rfl
  unfold State.taskSends
  rw [unwrap_sources, List.getElem?_map, hqueue]
  obtain _ | ⟨messages, ended, _ | _ | ⟨stream, message⟩ | _⟩ := s.sources[k]?
  case some.some.sending =>
    simp only [Option.map_some, Source.unwrap, Task.unwrap]
    rw [apply_ite (Option.map State.unwrap), Option.map_some, unwrap_withSseWorker,
      unwrap_setSource]
    rfl
  all_goals rfl

theorem unwrap_taskCancelled (k : Nat) :
    (s.taskCancelled k).map State.unwrap = s.unwrap.taskCancelled k := by
  have hcancelled : s.unwrap.cancelled = s.cancelled := rfl
  unfold State.taskCancelled
  rw [unwrap_sources, List.getElem?_map, hcancelled]
  obtain _ | ⟨messages, ended, _ | stream | _ | _⟩ := s.sources[k]?
  case some.some.reading =>
    simp only [Option.map_some, Source.unwrap, Task.unwrap]
    rw [apply_ite (Option.map State.unwrap), Option.map_some, unwrap_setSource]
    rfl
  all_goals rfl

theorem unwrap_deleted {answer : Answer E Unit} {token : String}
    (htoken : answer.token = .ok token) :
    (step (AuthClient S E) s (.deleted answer)).map State.unwrap =
      step (direct S E) s.unwrap (.deleted answer) := by
  have hdeletion : s.unwrap.deletion = s.deletion := rfl
  unfold step
  simp only [AuthClient, direct, hdeletion]
  cases s.deletion with
  | deleting =>
    have hcalled := unwrap_called s (.deleteSession s.sessionId) htoken
    exact congrArg (fun t => some { t with deletion := Deletion.finished }) hcalled
  | _ => rfl

theorem refusesCommon_gotStream {s : State S E} {a : Action S E} (h : RefusesCommon s a) :
    ∃ answer, a = .gotStream answer := by
  obtain ⟨-, token, rfl⟩ := h
  exact ⟨_, rfl⟩

theorem step_unwrap_iff {a : Action S E} (hgrants : a.GrantsAccess) :
    (step (AuthClient S E) s a).map State.unwrap = step (direct S E) s.unwrap a ↔
      ¬ RefusesCommon s.unwrap a := by
  by_cases hget : ∃ answer, a = .gotStream answer
  · obtain ⟨⟨token | token, outcome⟩, rfl⟩ := hget
    · exact absurd rfl (hgrants token)
    · exact unwrap_gotStream_iff s rfl
  refine iff_of_true ?_ fun h => hget (refusesCommon_gotStream h)
  cases a with
  | recv => exact unwrap_recv s
  | posted answer =>
    obtain ⟨token | token, outcome⟩ := answer
    · exact absurd rfl (hgrants token)
    · exact unwrap_posted s rfl
  | firstEvent event => exact unwrap_firstEvent s event
  | gotStream answer => exact absurd ⟨answer, rfl⟩ hget
  | sendToHandler => exact unwrap_sendToHandler s
  | recvServerMessage => exact unwrap_recvServerMessage s
  | joined k => exact unwrap_joined s k
  | turn k event => exact unwrap_turn s hgrants
  | taskSends k => exact unwrap_taskSends s k
  | taskCancelled k => exact unwrap_taskCancelled s k
  | deleted answer =>
    obtain ⟨token | token, outcome⟩ := answer
    · exact absurd rfl (hgrants token)
    · exact unwrap_deleted s rfl
  | observeCancel =>
    have hcancelled : s.unwrap.cancelled = s.cancelled := rfl
    unfold step
    rw [unwrap_phase, hcancelled]
    cases s.phase with
    | select => 
      simp only [Phase.unwrap]
      rw [apply_ite (Option.map State.unwrap), Option.map_some, unwrap_quit]
      rfl
    | _ => rfl
  | handlerSends message =>
    simp only [step, unwrap_phase, hasQuit_unwrap]
    exact apply_ite (Option.map State.unwrap) _ _ _
  | handlerReads | dropSenders | deleteStarts => exact apply_ite (Option.map State.unwrap) _ _ _
  | dropTransport | cancel => rfl

end Step

/-! ## The run -/

/-- The worker over `AuthClient<C>` goes through the states of the worker over `C`, up to the
bearer tokens and the wrapping, exactly when the GET of the common stream is not refused with
`SeverDoesNotSupportSse`. -/
theorem auth_transparent_iff {as : List (Action S E)} (hgrants : ∀ a ∈ as, a.GrantsAccess) :
    (∀ bs, bs <+: as → (exec (step (AuthClient S E)) (init S _) bs).map State.unwrap =
        exec (step (direct S E)) (init S E) bs) ↔
      Always (step (direct S E)) (fun s a => ¬ RefusesCommon s a) (init S E) as :=
  Transition.exec_map_iff (f := State.unwrap) (s := init S _)
    fun a ha s => step_unwrap_iff s (hgrants a ha)

/-- The common stream is opened, and ends. -/
def commonServedRun : List (Action plainSetup Unit) :=
  handshakeRun ++ [.gotStream ⟨.ok "token", .ok 1⟩, .turn 1 (.item none), .joined 1]

theorem auth_transparent_iff_commonServedRun :
    (∀ bs, bs <+: commonServedRun →
        (exec (step (AuthClient plainSetup Unit)) (init plainSetup _) bs).map State.unwrap =
          exec (step (direct plainSetup Unit)) (init plainSetup Unit) bs) ↔
      Always (step (direct plainSetup Unit)) (fun s a => ¬ RefusesCommon s a)
        (init plainSetup Unit) commonServedRun := by
  refine auth_transparent_iff ?_
  simp [commonServedRun, handshakeRun, initializeRun, initializedRun, Action.GrantsAccess,
    Action.token]

/-- The server has no common stream. -/
def commonRefusedRun : List (Action plainSetup Unit) :=
  handshakeRun ++ [.gotStream ⟨.ok "token", .error .severDoesNotSupportSse⟩]

/-- The worker over `C` goes on without the common stream, the one over `AuthClient<C>`
quits. -/
theorem auth_quits_common_refused :
    (∀ a ∈ commonRefusedRun, a.GrantsAccess) ∧
    (exec (step (direct plainSetup Unit)) (init plainSetup Unit) commonRefusedRun).map
      State.phase = some .select ∧
    (exec (step (AuthClient plainSetup Unit)) (init plainSetup _) commonRefusedRun).map
      State.phase = some (.quit (.fatal (.inr "fail to get general purpose event stream")
        "get general purpose event stream")) ∧
    ¬ ∀ bs, bs <+: commonRefusedRun →
      (exec (step (AuthClient plainSetup Unit)) (init plainSetup _) bs).map State.unwrap =
        exec (step (direct plainSetup Unit)) (init plainSetup Unit) bs := by
  refine ⟨?_, rfl, rfl, fun h => ?_⟩
  · simp [commonRefusedRun, handshakeRun, initializeRun, initializedRun, Action.GrantsAccess,
      Action.token]
  · have hphase := congrArg (Option.map State.phase) (h commonRefusedRun List.prefix_rfl)
    cases hphase

end Rmcp.ClientWorker
