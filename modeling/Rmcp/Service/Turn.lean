import Rmcp.Service.Serve
import Mathlib.Data.List.Perm.Subperm

/-!
# What a step of the service loop does

A case analysis over the events, from which everything else about runs is derived. An
event is read in several ways: what request it stores in the responder pool, which request it
decides on, which token it puts into the pool of tokens or takes out of it, which answer
it hands over to the transport, which send it spawns, and which responder it completes.

Results:
1. `turn_spec`: what one turn of the loop changes.
2. `turn_tasks`: what it adds to the tasks and to the completed responders.
3. `background_step`, `loop_step`: what an action beside the loop does, and one of the loop.
4. `step_cases`: what one step is.
5. `Moved.beside`: what the moves beside the loop leave alone.
-/

namespace Rmcp.Service

variable {R : ServiceRole} {E : Type}

/-- What the caller of a request is told. -/
abbrev Outcome (R : ServiceRole) (E : Type) := Except (ServiceError E) R.PeerResp

/-! ## Queues -/

/-- A value moves from a place of one queue to the end of another. -/
theorem move_perm {α : Type} {l m : List α} {a : α} {i : Nat} (h : l[i]? = some a) :
    (l.eraseIdx i ++ (m ++ [a])).Perm (l ++ m) := by
  obtain ⟨hi, rfl⟩ := List.getElem?_eq_some_iff.mp h
  calc l.eraseIdx i ++ (m ++ [l[i]])
      _ = l.eraseIdx i ++ m ++ [l[i]] := (List.append_assoc ..).symm
      _ |>.Perm (l[i] :: (l.eraseIdx i ++ m)) := List.perm_append_singleton ..
      _ |>.Perm (l ++ m) := (List.getElem_cons_eraseIdx_perm hi).append_right m

theorem nodup_of_subperm {α : Type} {l m : List α} (h : l.Subperm m) (hm : m.Nodup) : l.Nodup := by
  obtain ⟨l', hperm, hsub⟩ := h
  exact hperm.nodup_iff.mp (hsub.nodup hm)

theorem subperm_filterMap {α β : Type} (f : α → Option β) {l m : List α} (h : l.Subperm m) :
    (l.filterMap f).Subperm (m.filterMap f) := by
  obtain ⟨l', hperm, hsub⟩ := h
  exact ⟨l'.filterMap f, hperm.filterMap f, hsub.filterMap f⟩

theorem subperm_map {α β : Type} (f : α → β) {l m : List α} (h : l.Subperm m) :
    (l.map f).Subperm (m.map f) := by
  simpa using subperm_filterMap (fun a => some (f a)) h

/-! ## Reading an event -/

namespace PeerSinkMessage

/-- The id and the responder of a local request. -/
def issued? : PeerSinkMessage R → Option (RequestId × Nat)
  | .request _ id responder => some (id, responder)
  | .notification _ _ => none

/-- The message that the transport is given for it. -/
def message : PeerSinkMessage R → TxJsonRpcMessage R
  | .request req id _ => .request ⟨id, req⟩
  | .notification n _ =>
    match R.tryIntoCancelled n with
    | .ok cancelled => .notification ⟨R.ofCancelled cancelled⟩
    | .error n => .notification ⟨n⟩

/-- The job of the task that is spawned for it. -/
def job : PeerSinkMessage R → SendJob
  | .request _ id _ => .request id
  | .notification n responder =>
    match R.tryIntoCancelled n with
    | .ok cancelled => .notification responder (some cancelled.params)
    | .error _ => .notification responder none

end PeerSinkMessage

/-- What the task of a send completes with its result. -/
def SendTaskResult.acknowledges : SendTaskResult E → List (Nat × Except (ServiceError E) Unit)
  | .request _ _ => []
  | .notification responder _ result => [(responder, result.mapError .transportSend)]

namespace Event

/-- The request that is stored in the responder pool. -/
def stored? : Event R E → Option (RequestId × Nat)
  | .proxyMessage message => message.issued?
  | .peerMessage _ | .toSink _ | .sendTaskResult _ => none

/-- The local request that is decided, and its outcome. -/
def decides : Event R E → Option (RequestId × Outcome R E)
  | .peerMessage (.response r) => some (r.id, .ok r.result)
  | .peerMessage (.error e) => some (e.id, .error (.mcpError e.error))
  | .sendTaskResult (.request id (.error e)) => some (id, .error (.transportSend e))
  | .sendTaskResult (.notification _ (some param) _) =>
    some (param.requestId, .error (.cancelled param.reason))
  | _ => none

/-- The request of the peer that is received. -/
def receives? : Event R E → Option RequestId
  | .peerMessage (.request r) => some r.id
  | _ => none

/-- The request of the peer that the peer cancels. -/
def cancels? : Event R E → Option RequestId
  | .peerMessage (.notification n) =>
    match R.peerTryIntoCancelled n.notification with
    | .ok cancelled => some cancelled.params.requestId
    | .error _ => none
  | _ => none

/-- The answer that is taken from the sink channel. -/
def answer? : Event R E → Option (TxJsonRpcMessage R)
  | .toSink message => if message.answeredId.isSome then some message else none
  | _ => none

/-- The request of the peer whose token is taken out of the pool. -/
def ends? (e : Event R E) : Option RequestId :=
  e.cancels?.or (e.answer?.bind (·.answeredId))

/-- The send that is spawned. -/
def spawns : Event R E → List (SendTask R E)
  | .proxyMessage message => [⟨message.message, message.job, .spawned⟩]
  | .peerMessage _ | .toSink _ | .sendTaskResult _ => []

/-- The responder that a turn completes. -/
def acknowledges : Event R E → List (Nat × Except (ServiceError E) Unit)
  | .sendTaskResult result => result.acknowledges
  | _ => []

/-- The messages of a batch. -/
def batchItems : Event R E → List (RxJsonRpcMessage R)
  | .peerMessage (.batchRequest items) => items.map (·.intoNonBatchMessage)
  | .peerMessage (.batchResponse items) => items.map (·.intoNonBatchMessage)
  | _ => []

theorem decides_of_stored? {e : Event R E} {p : RequestId × Nat} (h : e.stored? = some p) :
    e.decides = none := by
  cases e with
  | proxyMessage message => rfl
  | peerMessage _ => cases h
  | toSink _ => cases h
  | sendTaskResult _ => cases h

theorem ends?_of_receives? {e : Event R E} {id : RequestId} (h : e.receives? = some id) :
    e.ends? = none := by
  cases e with
  | peerMessage message =>
    cases message with
    | request r => rfl
    | _ => cases h
  | proxyMessage _ => cases h
  | toSink _ => cases h
  | sendTaskResult _ => cases h

end Event

/-! ## One turn -/

namespace Serve

/-- The answers that were handed over to the transport. -/
def sentAnswers (s : Serve R E) : List (TxJsonRpcMessage R) :=
  s.sent.filter (·.answeredId.isSome)

theorem complete_eq (s : Serve R E) (id : RequestId) (outcome : Outcome R E) :
    s.complete id outcome =
      { s with
        localResponderPool := s.localResponderPool.remove id
        completions := s.completions ++ (s.localResponderPool.get id).toList.map (·, outcome) } := by
  unfold complete
  cases h : s.localResponderPool.get id with
  | none => simp [HashMap.remove_of_get h]
  | some responder => simp

theorem cancelToken_eq (s : Serve R E) (id : RequestId) :
    ∃ cancelledTokens, s.cancelToken id =
      { s with localCtPool := s.localCtPool.remove id, cancelledTokens } := by
  unfold cancelToken
  cases h : s.localCtPool.get id with
  | none => exact ⟨s.cancelledTokens, by simp [HashMap.remove_of_get h]⟩
  | some ct => exact ⟨_, rfl⟩

end Serve

/-- What a turn with the event `e` makes of `s`. -/
structure TurnSpec (s : Serve R E) (e : Event R E) (s' : Serve R E) : Prop where
  history_eq : s'.history = s.history ++ [e]
  pool_eq : s'.localResponderPool =
    match e.stored?, e.decides with
    | some (id, responder), _ => s.localResponderPool.insert id responder
    | none, some (id, _) => s.localResponderPool.remove id
    | none, none => s.localResponderPool
  completions_eq : s'.completions =
    match e.decides with
    | some (id, outcome) => s.completions ++ (s.localResponderPool.get id).toList.map (·, outcome)
    | none => s.completions
  ctPool_eq : s'.localCtPool =
    match e.receives?, e.ends? with
    | some id, _ => s.localCtPool.insert id s.nextToken
    | none, some id => s.localCtPool.remove id
    | none, none => s.localCtPool
  handlers_eq : s'.handlers.map (·.context.id) =
    s.handlers.map (·.context.id) ++ e.receives?.toList
  sentAnswers_eq : s'.sentAnswers = s.sentAnswers ++ e.answer?.toList
  batchMessages_eq : s'.batchMessages = s.batchMessages ++ e.batchItems
  -- the rest is left alone
  callers_eq : s'.callers = s.callers
  peerRx_eq : s'.peerRx = s.peerRx
  requestCalls_eq : s'.requestCalls = s.requestCalls
  nextRequestId_eq : s'.nextRequestId = s.nextRequestId
  responding_eq : s'.responding = s.responding
  sinkProxyRx_eq : s'.sinkProxyRx = s.sinkProxyRx
  returned_eq : s'.returned = s.returned
  inbound_eq : s'.inbound = s.inbound
  quit_eq : s'.quit = s.quit

namespace Serve

theorem turnSpec_sendTaskResult (s : Serve R E) (result : SendTaskResult E) :
    TurnSpec s (.sendTaskResult result) (s.turn (.sendTaskResult result)) := by
  rcases result with ⟨id, e | -⟩ | ⟨responder, - | param, result⟩
  all_goals
    constructor <;> simp [turn, handle, handleSendTaskResult, complete_eq, sentAnswers,
      Event.stored?, Event.decides, Event.receives?, Event.ends?, Event.cancels?, Event.answer?,
      Event.batchItems]

theorem turnSpec_toSink (s : Serve R E) (message : TxJsonRpcMessage R) :
    TurnSpec s (.toSink message) (s.turn (.toSink message)) := by
  cases hid : message.answeredId with
  | none =>
    constructor <;> simp [turn, handle, handleToSink, hid, sentAnswers, Event.stored?,
      Event.decides, Event.receives?, Event.ends?, Event.cancels?, Event.answer?, Event.batchItems]
  | some id =>
    obtain ⟨cancelledTokens, heq⟩ := s.cancelToken_eq id
    constructor <;> simp [turn, handle, handleToSink, spawnResponse, heq, hid, sentAnswers,
      Event.stored?, Event.decides, Event.receives?, Event.ends?, Event.cancels?, Event.answer?,
      Event.batchItems]

theorem turnSpec_proxyMessage (s : Serve R E) (message : PeerSinkMessage R) :
    TurnSpec s (.proxyMessage message) (s.turn (.proxyMessage message)) := by
  cases message with
  | request request id responder =>
    constructor <;> simp [turn, handle, handleProxyMessage, spawnSend, sentAnswers,
      JsonRpcMessage.answeredId, Event.stored?, PeerSinkMessage.issued?, Event.decides,
      Event.receives?, Event.ends?, Event.cancels?, Event.answer?, Event.batchItems]
  | notification notification responder =>
    cases hn : R.tryIntoCancelled notification
    all_goals
      constructor <;> simp [turn, handle, handleProxyMessage, spawnSend, hn, sentAnswers,
        JsonRpcMessage.answeredId, Event.stored?, PeerSinkMessage.issued?, Event.decides,
        Event.receives?, Event.ends?, Event.cancels?, Event.answer?, Event.batchItems]

theorem turnSpec_notification (s : Serve R E) (n : JsonRpcNotification R.PeerNot) :
    TurnSpec s (.peerMessage (.notification n)) (s.turn (.peerMessage (.notification n))) := by
  cases hn : R.peerTryIntoCancelled n.notification with
  | error notification =>
    constructor <;> simp [turn, handle, handlePeerMessage, hn, sentAnswers, Event.stored?,
      Event.decides, Event.receives?, Event.ends?, Event.cancels?, Event.answer?, Event.batchItems]
  | ok cancelled =>
    obtain ⟨cancelledTokens, heq⟩ := s.cancelToken_eq cancelled.params.requestId
    constructor <;> simp [turn, handle, handlePeerMessage, hn, heq, sentAnswers, Event.stored?,
      Event.decides, Event.receives?, Event.ends?, Event.cancels?, Event.answer?, Event.batchItems]

theorem turnSpec_peerMessage (s : Serve R E) (message : RxJsonRpcMessage R) :
    TurnSpec s (.peerMessage message) (s.turn (.peerMessage message)) := by
  cases message with
  | notification n => exact s.turnSpec_notification n
  | _ =>
    constructor <;> simp [turn, handle, handlePeerMessage, spawnHandler, complete_eq, sentAnswers,
      Event.stored?, Event.decides, Event.receives?, Event.ends?, Event.cancels?, Event.answer?,
      Event.batchItems]

theorem turn_spec (s : Serve R E) (e : Event R E) : TurnSpec s e (s.turn e) := by
  cases e with
  | proxyMessage message => exact s.turnSpec_proxyMessage message
  | peerMessage message => exact s.turnSpec_peerMessage message
  | toSink message => exact s.turnSpec_toSink message
  | sendTaskResult result => exact s.turnSpec_sendTaskResult result

end Serve

/-- The tasks and the responders that a turn with the event `e` adds to those of `s`. -/
structure TurnTasks (s : Serve R E) (e : Event R E) (s' : Serve R E) : Prop where
  sendTaskSet_eq : s'.sendTaskSet = s.sendTaskSet ++ e.spawns
  acknowledgements_eq : s'.acknowledgements = s.acknowledgements ++ e.acknowledges
  running_eq : s'.handlers.map (·.context.ct) =
    s.handlers.map (·.context.ct) ++ e.receives?.toList.map fun _ => s.nextToken
  nextToken_eq : s'.nextToken = s.nextToken + e.receives?.toList.length
  -- the loop makes no calls of its own, and leaves it to the tasks to reach the transport
  notificationCalls_eq : s'.notificationCalls = s.notificationCalls
  nextProgressToken_eq : s'.nextProgressToken = s.nextProgressToken
  accepted_eq : s'.accepted = s.accepted

namespace Serve

theorem turnTasks_proxyMessage (s : Serve R E) (message : PeerSinkMessage R) :
    TurnTasks s (.proxyMessage message) (s.turn (.proxyMessage message)) := by
  cases message with
  | request request id responder =>
    constructor <;> simp [turn, handle, handleProxyMessage, spawnSend, Event.spawns,
      Event.acknowledges, Event.receives?, PeerSinkMessage.message, PeerSinkMessage.job]
  | notification notification responder =>
    cases hn : R.tryIntoCancelled notification
    all_goals
      constructor <;> simp [turn, handle, handleProxyMessage, spawnSend, hn, Event.spawns,
        Event.acknowledges, Event.receives?, PeerSinkMessage.message, PeerSinkMessage.job]

theorem turnTasks_peerMessage (s : Serve R E) (message : RxJsonRpcMessage R) :
    TurnTasks s (.peerMessage message) (s.turn (.peerMessage message)) := by
  cases message with
  | notification n =>
    cases hn : R.peerTryIntoCancelled n.notification with
    | error notification =>
      constructor <;> simp [turn, handle, handlePeerMessage, hn, Event.spawns, Event.acknowledges,
        Event.receives?]
    | ok cancelled =>
      obtain ⟨cancelledTokens, heq⟩ := s.cancelToken_eq cancelled.params.requestId
      constructor <;> simp [turn, handle, handlePeerMessage, hn, heq, Event.spawns,
        Event.acknowledges, Event.receives?]
  | _ =>
    constructor <;> simp [turn, handle, handlePeerMessage, spawnHandler, complete_eq, Event.spawns,
      Event.acknowledges, Event.receives?]

theorem turnTasks_toSink (s : Serve R E) (message : TxJsonRpcMessage R) :
    TurnTasks s (.toSink message) (s.turn (.toSink message)) := by
  cases hid : message.answeredId with
  | none =>
    constructor <;> simp [turn, handle, handleToSink, hid, Event.spawns, Event.acknowledges,
      Event.receives?]
  | some id =>
    obtain ⟨cancelledTokens, heq⟩ := s.cancelToken_eq id
    constructor <;> simp [turn, handle, handleToSink, spawnResponse, hid, heq, Event.spawns,
      Event.acknowledges, Event.receives?]

theorem turnTasks_sendTaskResult (s : Serve R E) (result : SendTaskResult E) :
    TurnTasks s (.sendTaskResult result) (s.turn (.sendTaskResult result)) := by
  rcases result with ⟨id, e | -⟩ | ⟨responder, - | param, result⟩
  all_goals
    constructor <;> simp [turn, handle, handleSendTaskResult, complete_eq, Event.spawns,
      Event.acknowledges, SendTaskResult.acknowledges, Event.receives?]

theorem turn_tasks (s : Serve R E) (e : Event R E) : TurnTasks s e (s.turn e) := by
  cases e with
  | proxyMessage message => exact s.turnTasks_proxyMessage message
  | peerMessage message => exact s.turnTasks_peerMessage message
  | toSink message => exact s.turnTasks_toSink message
  | sendTaskResult result => exact s.turnTasks_sendTaskResult result

end Serve

/-! ## One step -/

/-- The event `e` is the next one of the loop, and taking it out of its queue leaves `s'`. -/
inductive Taken (s : Serve R E) : Event R E → Serve R E → Prop
  | batchMessage {m : RxJsonRpcMessage R} {batchMessages : List (RxJsonRpcMessage R)} :
      s.batchMessages = m :: batchMessages → Taken s (.peerMessage m) { s with batchMessages }
  | toSink {m : TxJsonRpcMessage R} {sinkProxyRx : List (TxJsonRpcMessage R)} :
      s.batchMessages = [] → s.sinkProxyRx = m :: sinkProxyRx →
      Taken s (.toSink m) { s with sinkProxyRx }
  | received {m : RxJsonRpcMessage R} :
      s.batchMessages = [] → Taken s (.peerMessage m) { s with inbound := s.inbound ++ [m] }
  | proxied {m : PeerSinkMessage R} {peerRx : List (PeerSinkMessage R)} :
      s.batchMessages = [] → s.peerRx = m :: peerRx → Taken s (.proxyMessage m) { s with peerRx }
  | sendJoined {task : Nat} {message : TxJsonRpcMessage R} {job : SendJob}
      {result : Except E Unit} :
      s.batchMessages = [] → s.sendTaskSet[task]? = some ⟨message, job, .finished result⟩ →
      Taken s (.sendTaskResult (job.done result))
        { s with sendTaskSet := s.sendTaskSet.eraseIdx task }

/-- The pools, what happened in the loop, and what it handed over are left alone. -/
structure Kept (s s' : Serve R E) : Prop where
  history_eq : s'.history = s.history
  pool_eq : s'.localResponderPool = s.localResponderPool
  ctPool_eq : s'.localCtPool = s.localCtPool
  completions_eq : s'.completions = s.completions
  sent_eq : s'.sent = s.sent

/-- Taking an event out of its queue does nothing else. -/
theorem Taken.kept {s s₀ : Serve R E} {e : Event R E} (h : Taken s e s₀) : Kept s s₀ := by
  cases h <;> constructor <;> rfl

/-- What the peer has sent is left alone as well. -/
structure Beside (s s' : Serve R E) : Prop extends Kept s s' where
  batchMessages_eq : s'.batchMessages = s.batchMessages
  inbound_eq : s'.inbound = s.inbound

theorem Beside.refl (s : Serve R E) : Beside s s := ⟨⟨rfl, rfl, rfl, rfl, rfl⟩, rfl, rfl⟩

/-- What a move beside the loop does, and when it is made. -/
inductive BackgroundStep (s : Serve R E) : Action R E → Serve R E → Prop
  | requestCalled (request : R.Req) (options : PeerRequestOptions) :
      BackgroundStep s (.requestCalled request options) (s.drawRequestId request options)
  | requestQueued {caller : Nat} {message : PeerSinkMessage R} :
      s.callers[caller]? = some message → s.quit = none →
      s.peerRx.length < clientChannelBufferSize →
      BackgroundStep s (.requestQueued caller)
        { s with callers := s.callers.eraseIdx caller, peerRx := s.peerRx ++ [message] }
  | requestAbandoned {caller : Nat} :
      caller < s.callers.length →
      BackgroundStep s (.requestAbandoned caller) { s with callers := s.callers.eraseIdx caller }
  | notificationCalled {notification : R.Not} :
      s.quit = none → s.peerRx.length < clientChannelBufferSize →
      BackgroundStep s (.notificationCalled notification)
        { s with
          notificationCalls := s.notificationCalls + 1
          peerRx := s.peerRx ++ [.notification notification s.notificationCalls] }
  | handlerReturns {i : Nat} {handler : Handler R} {result : Except ErrorData R.Resp} :
      s.handlers[i]? = some handler →
      BackgroundStep s (.handlerReturns i result)
        { s with
          handlers := s.handlers.eraseIdx i
          responding := s.responding ++ [Serve.answerOf handler.context.id result]
          returned := s.returned ++ [(handler.context.id, result)] }
  | handlerAborts {i : Nat} :
      i < s.handlers.length →
      BackgroundStep s (.handlerAborts i) { s with handlers := s.handlers.eraseIdx i }
  | responseQueued {answer : Nat} {message : TxJsonRpcMessage R} :
      s.responding[answer]? = some message → s.quit = none →
      s.sinkProxyRx.length < sinkProxyBufferSize →
      BackgroundStep s (.responseQueued answer)
        { s with
          responding := s.responding.eraseIdx answer
          sinkProxyRx := s.sinkProxyRx ++ [message] }
  | sendAccepted {i : Nat} {task : SendTask R E} :
      s.sendTaskSet[i]? = some task → task.progress = .spawned →
      BackgroundStep s (.sendAccepted i)
        { s with
          sendTaskSet := s.sendTaskSet.set i { task with progress := .accepted }
          accepted := s.accepted ++ [task.message] }
  | sendFinished {i : Nat} {task : SendTask R E} {result : Except E Unit} :
      s.sendTaskSet[i]? = some task → task.progress = .accepted →
      BackgroundStep s (.sendFinished i result)
        { s with sendTaskSet := s.sendTaskSet.set i { task with progress := .finished result } }
  | responseAccepted {i : Nat} {task : TxJsonRpcMessage R × SendProgress E} :
      s.responseSends[i]? = some task → task.2 = .spawned →
      BackgroundStep s (.responseAccepted i)
        { s with
          responseSends := s.responseSends.set i (task.1, .accepted)
          accepted := s.accepted ++ [task.1] }
  | responseFinished {i : Nat} {task : TxJsonRpcMessage R × SendProgress E}
      {result : Except E Unit} :
      s.responseSends[i]? = some task → task.2 = .accepted →
      BackgroundStep s (.responseFinished i result)
        { s with responseSends := s.responseSends.eraseIdx i }
  | loopCancelled : BackgroundStep s .loopCancelled { s with loopCancelled := true }

theorem background_step {s s' : Serve R E} {a : Action R E} (h : s.background a = some s') :
    BackgroundStep s a s' := by
  cases a <;> simp only [Serve.background, Option.bind_eq_some_iff, Option.map_eq_some_iff,
    Option.ite_none_right_eq_some, Option.some.injEq, reduceCtorEq] at h
  case requestCalled request options =>
    subst h
    exact .requestCalled request options
  case requestQueued =>
    obtain ⟨message, hcaller, ⟨hopen, hroom⟩, rfl⟩ := h
    exact .requestQueued hcaller hopen hroom
  case requestAbandoned =>
    obtain ⟨hcaller, rfl⟩ := h
    exact .requestAbandoned hcaller
  case notificationCalled =>
    obtain ⟨⟨hopen, hroom⟩, rfl⟩ := h
    exact .notificationCalled hopen hroom
  case handlerReturns =>
    obtain ⟨handler, hi, rfl⟩ := h
    exact .handlerReturns hi
  case handlerAborts =>
    obtain ⟨hi, rfl⟩ := h
    exact .handlerAborts hi
  case responseQueued =>
    obtain ⟨message, hanswer, ⟨hopen, hroom⟩, rfl⟩ := h
    exact .responseQueued hanswer hopen hroom
  case sendAccepted =>
    obtain ⟨task, htask, h⟩ := h
    split at h
    · next hspawned =>
      cases h
      exact .sendAccepted htask hspawned
    · cases h
  case sendFinished =>
    obtain ⟨task, htask, h⟩ := h
    split at h
    · next haccepted =>
      cases h
      exact .sendFinished htask haccepted
    · cases h
  case responseAccepted =>
    obtain ⟨task, htask, h⟩ := h
    split at h
    · next hspawned =>
      cases h
      exact .responseAccepted htask hspawned
    · cases h
  case responseFinished =>
    obtain ⟨task, htask, h⟩ := h
    split at h
    · next haccepted =>
      cases h
      exact .responseFinished htask haccepted
    · cases h
  case loopCancelled =>
    subst h
    exact .loopCancelled

/-- What a move beside the loop makes of `s`. -/
inductive Moved (s : Serve R E) : Serve R E → Prop
  | called (request : R.Req) (options : PeerRequestOptions) :
      Moved s (s.drawRequestId request options)
  | queued {caller : Nat} {message : PeerSinkMessage R} :
      s.callers[caller]? = some message →
      Moved s { s with callers := s.callers.eraseIdx caller, peerRx := s.peerRx ++ [message] }
  | abandoned (caller : Nat) : Moved s { s with callers := s.callers.eraseIdx caller }
  | notified (notification : R.Not) :
      Moved s
        { s with
          notificationCalls := s.notificationCalls + 1
          peerRx := s.peerRx ++ [.notification notification s.notificationCalls] }
  | returned {i : Nat} {handler : Handler R} (result : Except ErrorData R.Resp) :
      s.handlers[i]? = some handler →
      Moved s
        { s with
          handlers := s.handlers.eraseIdx i
          responding := s.responding ++ [Serve.answerOf handler.context.id result]
          returned := s.returned ++ [(handler.context.id, result)] }
  | aborted (i : Nat) : Moved s { s with handlers := s.handlers.eraseIdx i }
  | responded {answer : Nat} {message : TxJsonRpcMessage R} :
      s.responding[answer]? = some message →
      Moved s
        { s with
          responding := s.responding.eraseIdx answer
          sinkProxyRx := s.sinkProxyRx ++ [message] }
  | transport (sendTaskSet : List (SendTask R E))
      (responseSends : List (TxJsonRpcMessage R × SendProgress E))
      (accepted : List (TxJsonRpcMessage R)) :
      Moved s { s with sendTaskSet, responseSends, accepted }
  | loopCancelled : Moved s { s with loopCancelled := true }

theorem background_moved {s s' : Serve R E} {a : Action R E} (h : s.background a = some s') :
    Moved s s' := by
  cases background_step h with
  | requestCalled request options => exact .called request options
  | requestQueued hcaller => exact .queued hcaller
  | requestAbandoned => exact .abandoned _
  | notificationCalled => exact .notified _
  | handlerReturns hi => exact .returned _ hi
  | handlerAborts => exact .aborted _
  | responseQueued hanswer => exact .responded hanswer
  | sendAccepted | sendFinished | responseAccepted | responseFinished => exact .transport ..
  | loopCancelled => exact .loopCancelled

/-- Nothing that runs beside the loop touches what belongs to it. -/
theorem Moved.beside {s s' : Serve R E} (h : Moved s s') : Beside s s' := by
  cases h <;> exact { Beside.refl s with }

/-- What an action of the loop does, and when it is possible. -/
inductive LoopStep (s : Serve R E) : Action R E → Serve R E → Prop
  | batchMessage {m : RxJsonRpcMessage R} {batchMessages : List (RxJsonRpcMessage R)} :
      s.batchMessages = m :: batchMessages →
      LoopStep s .batchMessage ({ s with batchMessages }.turn (.peerMessage m))
  | toSink {m : TxJsonRpcMessage R} {sinkProxyRx : List (TxJsonRpcMessage R)} :
      s.batchMessages = [] → s.sinkProxyRx = m :: sinkProxyRx →
      LoopStep s .toSink ({ s with sinkProxyRx }.turn (.toSink m))
  | received {m : RxJsonRpcMessage R} :
      s.batchMessages = [] →
      LoopStep s (.received m) ({ s with inbound := s.inbound ++ [m] }.turn (.peerMessage m))
  | proxied {m : PeerSinkMessage R} {peerRx : List (PeerSinkMessage R)} :
      s.batchMessages = [] → s.peerRx = m :: peerRx →
      LoopStep s .proxied ({ s with peerRx }.turn (.proxyMessage m))
  | sendJoined {task : Nat} {message : TxJsonRpcMessage R} {job : SendJob}
      {result : Except E Unit} :
      s.batchMessages = [] → s.sendTaskSet[task]? = some ⟨message, job, .finished result⟩ →
      LoopStep s (.sendJoined task)
        ({ s with sendTaskSet := s.sendTaskSet.eraseIdx task }.turn
          (.sendTaskResult (job.done result)))
  | inputClosed : s.batchMessages = [] → LoopStep s .inputClosed { s with quit := some .closed }
  | joinFailed :
      s.batchMessages = [] → s.sendTaskSet ≠ [] →
      LoopStep s .joinFailed { s with quit := some .joinError }
  | cancelled :
      s.batchMessages = [] → s.loopCancelled = true →
      LoopStep s .cancelled { s with quit := some .cancelled }

theorem loop_step {s s' : Serve R E} {a : Action R E} (h : s.loop a = some s') :
    LoopStep s a s' := by
  cases a <;> simp only [Serve.loop, Option.ite_none_right_eq_some, Option.some.injEq,
    reduceCtorEq] at h
  case batchMessage =>
    split at h
    · cases h
    · next hbatch =>
      cases h
      exact .batchMessage hbatch
  case toSink =>
    split at h
    · next hbatch hsink =>
      cases h
      exact .toSink hbatch hsink
    · cases h
  case received m =>
    split at h
    · next hbatch =>
      cases h
      exact .received hbatch
    · cases h
  case proxied =>
    split at h
    · next hbatch hpeer =>
      cases h
      exact .proxied hbatch hpeer
    · cases h
  case sendJoined task =>
    split at h
    · next hbatch htask =>
      cases h
      exact .sendJoined hbatch htask
    · cases h
  case inputClosed =>
    obtain ⟨hbatch, rfl⟩ := h
    exact .inputClosed hbatch
  case joinFailed =>
    obtain ⟨⟨hbatch, htasks⟩, rfl⟩ := h
    exact .joinFailed hbatch htasks
  case cancelled =>
    obtain ⟨⟨hbatch, hcancelled⟩, rfl⟩ := h
    exact .cancelled hbatch hcancelled

theorem loop_turn {s s' : Serve R E} {a : Action R E} (h : s.loop a = some s') :
    (∃ e s₀, Taken s e s₀ ∧ s' = s₀.turn e) ∨ ∃ reason, s' = { s with quit := some reason } := by
  cases loop_step h with
  | batchMessage hbatch => exact .inl ⟨_, _, .batchMessage hbatch, rfl⟩
  | toSink hbatch hsink => exact .inl ⟨_, _, .toSink hbatch hsink, rfl⟩
  | received hbatch => exact .inl ⟨_, _, .received hbatch, rfl⟩
  | proxied hbatch hpeer => exact .inl ⟨_, _, .proxied hbatch hpeer, rfl⟩
  | sendJoined hbatch htask => exact .inl ⟨_, _, .sendJoined hbatch htask, rfl⟩
  | inputClosed | joinFailed | cancelled => exact .inr ⟨_, rfl⟩

theorem loop_cases {s s' : Serve R E} {a : Action R E} (h : s.loop a = some s') :
    (∃ e s₀, Taken s e s₀ ∧ TurnSpec s₀ e s') ∨ ∃ reason, s' = { s with quit := some reason } := by
  rcases loop_turn h with ⟨e, s₀, htaken, rfl⟩ | hquit
  · exact .inl ⟨e, s₀, htaken, s₀.turn_spec e⟩
  · exact .inr hquit

/-- A step is a move beside the loop, or one of the loop while it runs. -/
theorem background_or_loop {s s' : Serve R E} {a : Action R E} (h : step s a = some s') :
    s.background a = some s' ∨ (s.background a = none ∧ s.quit = none ∧ s.loop a = some s') := by
  unfold step at h
  split at h
  · next hbackground => exact .inl (hbackground.trans h)
  · next hbackground =>
    obtain ⟨hopen, hloop⟩ := Option.ite_none_right_eq_some.mp h
    exact .inr ⟨hbackground, hopen, hloop⟩

/-- A step is a move beside the loop, a turn of the loop, or its end. -/
theorem step_cases {s s' : Serve R E} {a : Action R E} (h : step s a = some s') :
    Moved s s' ∨ (∃ e s₀, Taken s e s₀ ∧ TurnSpec s₀ e s') ∨
      ∃ reason, s' = { s with quit := some reason } := by
  rcases background_or_loop h with hbackground | ⟨-, -, hloop⟩
  · exact .inl (background_moved hbackground)
  · exact .inr (loop_cases hloop)

end Rmcp.Service
