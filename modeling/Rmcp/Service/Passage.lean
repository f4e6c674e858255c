import Rmcp.Service.Batches
import Rmcp.Service.Correlation
import Rmcp.Service.Responses

/-!
# What passes through a loop

Of the messages that a loop hands over, each waits in a task until the transport takes it, and
then it has been accepted. They are the requests and notifications that came out of the channel
of the callers, and the answers of the handlers, and never a batch. A request that came in is
handled, or its handler has returned, or was aborted.

Nothing is lost on the way, so what is said here are equalities, up to the order in which the
tasks get on.

Results:
1. `Runs.sent_eq`: what was handed over, as it is read off the history.
2. `Runs.sent_perm`: what was handed over waits in a task, or was accepted.
3. `Runs.processed_eq`: a loop that is sent no batch processes what came in.
-/

namespace Rmcp

namespace JsonRpcMessage

variable {Req Resp Not : Type}

def request? : JsonRpcMessage Req Resp Not → Option (JsonRpcRequest Req)
  | .request r => some r
  | .response _ | .notification _ | .batchRequest _ | .batchResponse _ | .error _ => none

/-- The id of a request. -/
def requestedId (m : JsonRpcMessage Req Resp Not) : Option RequestId := m.request?.map (·.id)

def isBatch : JsonRpcMessage Req Resp Not → Bool
  | .batchRequest _ | .batchResponse _ => true
  | .request _ | .response _ | .notification _ | .error _ => false

theorem isBatch_of_answeredId {m : JsonRpcMessage Req Resp Not} {id : RequestId}
    (h : m.answeredId = some id) : m.isBatch = false := by
  cases m with
  | response | error => rfl
  | _ => cases h

end JsonRpcMessage

namespace Service

variable {R : ServiceRole} {E : Type}

/-! ## Lists of tasks -/

section Tasks

variable {α β : Type} {l : List α} {i : Nat} {a : α}

theorem filterMap_cons_toList (f : α → Option β) (a : α) (l : List α) :
    (a :: l).filterMap f = (f a).toList ++ l.filterMap f := by
  cases h : f a <;> simp [h]

theorem filterMap_eraseIdx_perm (f : α → Option β) (h : l[i]? = some a) :
    ((l.eraseIdx i).filterMap f ++ (f a).toList).Perm (l.filterMap f) := by
  obtain ⟨hi, rfl⟩ := List.getElem?_eq_some_iff.mp h
  have hperm := (List.getElem_cons_eraseIdx_perm hi).filterMap f
  rw [filterMap_cons_toList] at hperm
  exact List.perm_append_comm.trans hperm

/-- One entry of a list becomes another one. -/
theorem filterMap_set_perm (f : α → Option β) (h : l[i]? = some a) (b : α) :
    ((l.set i b).filterMap f ++ (f a).toList).Perm (l.filterMap f ++ (f b).toList) := by
  obtain ⟨hi, -⟩ := List.getElem?_eq_some_iff.mp h
  have hset := (List.set_perm_cons_eraseIdx hi b).filterMap f
  rw [filterMap_cons_toList] at hset
  calc (l.set i b).filterMap f ++ (f a).toList
      _ |>.Perm ((f b).toList ++ (l.eraseIdx i).filterMap f ++ (f a).toList) := hset.append_right _
      _ = (f b).toList ++ ((l.eraseIdx i).filterMap f ++ (f a).toList) := List.append_assoc ..
      _ |>.Perm ((f b).toList ++ l.filterMap f) := (filterMap_eraseIdx_perm f h).append_left _
      _ |>.Perm (l.filterMap f ++ (f b).toList) := List.perm_append_comm

theorem eq_of_nodup_filterMap {f : α → Option β} {a' : α} {b : β} (h : (l.filterMap f).Nodup)
    (ha : a ∈ l) (ha' : a' ∈ l) (hb : f a = some b) (hb' : f a' = some b) : a = a' := by
  have hdisjoint := List.pairwise_filterMap.mp h
  have hall : ∀ x ∈ l, ∀ y ∈ l, f x = some b → f y = some b → x = y := by
    refine List.Pairwise.forall_of_forall_of_flip (fun _ _ _ _ => rfl) ?_ ?_
    · exact hdisjoint.imp fun hne hx hy => absurd rfl (hne _ hx _ hy)
    · exact hdisjoint.imp fun hne hy hx => absurd rfl (hne _ hx _ hy)
  exact hall a ha a' ha' hb hb'

/-- A part of the first list has gone over to the end of the last one. -/
theorem perm_passed {l l' : List α} (m n p : List α) (h : (l' ++ p).Perm l) :
    (l' ++ m ++ (n ++ p)).Perm (l ++ m ++ n) := by
  calc l' ++ m ++ (n ++ p)
      _ = l' ++ (m ++ n ++ p) := by simp
      _ |>.Perm (l' ++ (p ++ (m ++ n))) := List.perm_append_comm.append_left l'
      _ = l' ++ p ++ (m ++ n) := (List.append_assoc ..).symm
      _ |>.Perm (l ++ (m ++ n)) := h.append_right _
      _ = l ++ m ++ n := (List.append_assoc ..).symm

end Tasks

/-! ## Reading an event -/

namespace PeerSinkMessage

theorem message_notification (n : R.Not) (responder : Nat) :
    ∃ n', (notification n responder).message = .notification n' := by
  cases h : R.tryIntoCancelled n <;> exact ⟨_, by simp [message, h]; rfl⟩

theorem isBatch_message (m : PeerSinkMessage R) : m.message.isBatch = false := by
  cases m with
  | request => rfl
  | notification n responder =>
    obtain ⟨n', hn'⟩ := message_notification n responder
    rw [hn']
    rfl

theorem requestedId_message (m : PeerSinkMessage R) :
    m.message.requestedId = m.issued?.map (·.1) := by
  cases m with
  | request => rfl
  | notification n responder =>
    obtain ⟨n', hn'⟩ := message_notification n responder
    rw [hn']
    rfl

end PeerSinkMessage

namespace Event

/-- The message that is handed over. -/
def handsOver? : Event R E → Option (TxJsonRpcMessage R)
  | .proxyMessage m => some m.message
  | .toSink m => if m.answeredId.isSome then some m else none
  | .peerMessage _ | .sendTaskResult _ => none

/-- The handler that is started. -/
def starts? (ct : Nat) : Event R E → Option (Handler R)
  | .peerMessage (.request r) =>
    some ⟨r.request, ⟨ct, r.id, R.peerMeta r.request, R.peerExtensions r.request⟩⟩
  | _ => none

theorem single?_of_starts? {e : Event R E} {ct : Nat} {handler : Handler R}
    (h : e.starts? ct = some handler) :
    e.single? = some (.request ⟨handler.context.id, handler.request⟩) := by
  rcases e with _ | (_ | _ | _ | _ | _ | _) | _ | _ <;> cases h
  rfl

theorem isBatch_of_handsOver? {e : Event R E} {m : TxJsonRpcMessage R}
    (h : e.handsOver? = some m) : m.isBatch = false := by
  cases e with
  | proxyMessage m' =>
    cases h
    exact m'.isBatch_message
  | toSink m' =>
    obtain ⟨hanswers, h⟩ := Option.ite_none_right_eq_some.mp h
    cases h
    obtain ⟨id, hid⟩ := Option.isSome_iff_exists.mp hanswers
    exact JsonRpcMessage.isBatch_of_answeredId hid
  | peerMessage | sendTaskResult => cases h

theorem eq_of_handsOver? {e : Event R E} {r : JsonRpcRequest R.Req}
    (h : e.handsOver? = some (.request r)) :
    ∃ responder, e = .proxyMessage (.request r.request r.id responder) := by
  cases e with
  | proxyMessage m =>
    cases m with
    | request request id responder =>
      cases h
      exact ⟨responder, rfl⟩
    | notification n responder =>
      obtain ⟨n', hn'⟩ := PeerSinkMessage.message_notification n responder
      rw [handsOver?, hn'] at h
      cases h
  | toSink m =>
    obtain ⟨hanswers, h⟩ := Option.ite_none_right_eq_some.mp h
    cases h
    cases hanswers
  | peerMessage | sendTaskResult => cases h

/-- The requests are those that are stored. -/
theorem stored?_eq (e : Event R E) :
    e.stored?.map (·.1) = e.handsOver?.bind (·.requestedId) := by
  cases e with
  | proxyMessage m => exact m.requestedId_message.symm
  | toSink m => cases m <;> rfl
  | peerMessage | sendTaskResult => rfl

theorem eq_of_stored? {e : Event R E} {id : RequestId} {responder : Nat}
    (h : e.stored? = some (id, responder)) :
    ∃ request, e = .proxyMessage (.request request id responder) := by
  rcases e with (⟨request, id', responder'⟩ | _) | _ | _ | _ <;> cases h
  exact ⟨request, rfl⟩

theorem single?_of_stored? {e : Event R E} {p : RequestId × Nat} (h : e.stored? = some p) :
    e.single? = none := by
  obtain ⟨request, rfl⟩ := eq_of_stored? h
  rfl

theorem eq_of_receives? {e : Event R E} {id : RequestId} (h : e.receives? = some id) :
    ∃ request, e = .peerMessage (.request ⟨id, request⟩) := by
  rcases e with _ | (⟨id', request⟩ | _ | _ | _ | _ | _) | _ | _ <;> cases h
  exact ⟨request, rfl⟩

theorem receives?_eq (e : Event R E) :
    e.receives? = e.single?.bind (·.requestedId) := by
  rcases e with _ | (_ | _ | _ | _ | _ | _) | _ | _ <;> rfl

end Event

/-! ## What was handed over -/

/-- What a turn with the event `e` hands over, and the handler that it starts. -/
structure TurnOutput (s : Serve R E) (e : Event R E) (s' : Serve R E) : Prop where
  sent_eq : s'.sent = s.sent ++ e.handsOver?.toList
  responseSends_eq : s'.responseSends = s.responseSends ++ e.answer?.toList.map (·, .spawned)
  handlers_eq : s'.handlers = s.handlers ++ (e.starts? s.nextToken).toList

namespace Serve

theorem turnOutput_proxyMessage (s : Serve R E) (m : PeerSinkMessage R) :
    TurnOutput s (.proxyMessage m) (s.turn (.proxyMessage m)) := by
  cases m with
  | request request id responder =>
    constructor <;> simp [turn, handle, handleProxyMessage, spawnSend, Event.handsOver?,
      Event.answer?, Event.starts?, PeerSinkMessage.message]
  | notification n responder =>
    cases h : R.tryIntoCancelled n
    all_goals
      constructor <;> simp [turn, handle, handleProxyMessage, h, spawnSend, Event.handsOver?,
        Event.answer?, Event.starts?, PeerSinkMessage.message]

theorem turnOutput_peerMessage (s : Serve R E) (m : RxJsonRpcMessage R) :
    TurnOutput s (.peerMessage m) (s.turn (.peerMessage m)) := by
  cases m with
  | notification n =>
    cases h : R.peerTryIntoCancelled n.notification with
    | ok cancelled =>
      obtain ⟨cancelledTokens, heq⟩ := s.cancelToken_eq cancelled.params.requestId
      constructor <;> simp [turn, handle, handlePeerMessage, h, heq, Event.handsOver?,
        Event.answer?, Event.starts?]
    | error =>
      constructor <;> simp [turn, handle, handlePeerMessage, h, Event.handsOver?, Event.answer?,
        Event.starts?]
  | _ =>
    constructor <;> simp [turn, handle, handlePeerMessage, spawnHandler, complete_eq,
      Event.handsOver?, Event.answer?, Event.starts?]

theorem turnOutput_toSink (s : Serve R E) (m : TxJsonRpcMessage R) :
    TurnOutput s (.toSink m) (s.turn (.toSink m)) := by
  cases h : m.answeredId with
  | none =>
    constructor <;> simp [turn, handle, handleToSink, h, Event.handsOver?, Event.answer?,
      Event.starts?]
  | some id =>
    obtain ⟨cancelledTokens, heq⟩ := s.cancelToken_eq id
    constructor <;> simp [turn, handle, handleToSink, h, heq, spawnResponse, Event.handsOver?,
      Event.answer?, Event.starts?]

theorem turnOutput_sendTaskResult (s : Serve R E) (result : SendTaskResult E) :
    TurnOutput s (.sendTaskResult result) (s.turn (.sendTaskResult result)) := by
  rcases result with ⟨id, e | -⟩ | ⟨responder, - | param, result⟩
  all_goals
    constructor <;> simp [turn, handle, handleSendTaskResult, complete_eq, Event.handsOver?,
      Event.answer?, Event.starts?]

theorem turn_output (s : Serve R E) (e : Event R E) : TurnOutput s e (s.turn e) := by
  cases e with
  | proxyMessage m => exact s.turnOutput_proxyMessage m
  | peerMessage m => exact s.turnOutput_peerMessage m
  | toSink m => exact s.turnOutput_toSink m
  | sendTaskResult result => exact s.turnOutput_sendTaskResult result

end Serve

/-- What was handed over is what the events of the loop hand over. -/
theorem Runs.sent_eq {first token : UInt32} {as : List (Action R E)} {s : Serve R E}
    (hrun : Runs first token as s) : s.sent = s.history.filterMap Event.handsOver? := by
  refine hrun.invariant (P := fun _ s => s.sent = s.history.filterMap Event.handsOver?) rfl ?_
  intro as s s' a _ h hstep
  rcases background_or_loop hstep with hbackground | ⟨-, -, hloop⟩
  · have hbeside := (background_moved hbackground).beside
    rw [hbeside.sent_eq, hbeside.history_eq]
    exact h
  · rcases loop_turn hloop with ⟨e, s₀, htaken, rfl⟩ | ⟨reason, rfl⟩
    · rw [(s₀.turn_output e).sent_eq, (s₀.turn_spec e).history_eq, History.filterMap_concat,
        htaken.kept.sent_eq, htaken.kept.history_eq, h]
    · exact h

theorem Runs.isBatch_of_sent {first token : UInt32} {as : List (Action R E)} {s : Serve R E}
    (hrun : Runs first token as s) {m : TxJsonRpcMessage R} (hm : m ∈ s.sent) :
    m.isBatch = false := by
  rw [hrun.sent_eq] at hm
  obtain ⟨e, -, he⟩ := List.mem_filterMap.mp hm
  exact Event.isBatch_of_handsOver? he

/-- The requests that were handed over are those that were stored. -/
theorem Runs.requests_eq {first token : UInt32} {as : List (Action R E)} {s : Serve R E}
    (hrun : Runs first token as s) :
    s.sent.filterMap (·.requestedId) = (storedRequests s.history).map (·.1) := by
  rw [hrun.sent_eq, storedRequests, List.filterMap_filterMap, List.map_filterMap]
  congr 1
  funext e
  exact e.stored?_eq.symm

/-! ## What waits for the transport -/

/-- The message of a send that the transport has not taken. -/
def SendProgress.unsent {α : Type} (message : α) : SendProgress E → Option α
  | .spawned => some message
  | .accepted | .finished _ => none

namespace Serve

def unsentMessages (s : Serve R E) : List (TxJsonRpcMessage R) :=
  s.sendTaskSet.filterMap (fun task => task.progress.unsent task.message) ++
    s.responseSends.filterMap fun task => task.2.unsent task.1

end Serve

theorem Event.spawns_eq (e : Event R E) :
    e.spawns.map (·.message) ++ e.answer?.toList = e.handsOver?.toList := by
  cases e <;> rfl

theorem turn_unsentMessages (s : Serve R E) (e : Event R E) :
    (s.turn e).unsentMessages.Perm (s.unsentMessages ++ e.handsOver?.toList) := by
  have hspawns : e.spawns.filterMap (fun task => task.progress.unsent task.message) =
      e.spawns.map (·.message) := by
    cases e <;> rfl
  have hanswer : (e.answer?.toList.map fun m => (m, (.spawned : SendProgress E))).filterMap
      (fun task => task.2.unsent task.1) = e.answer?.toList := by
    cases e.answer? <;> rfl
  simp only [Serve.unsentMessages, (s.turn_tasks e).sendTaskSet_eq,
    (s.turn_output e).responseSends_eq,
    List.filterMap_append, hspawns, hanswer, ← e.spawns_eq, List.append_assoc]
  refine .append_left _ ?_
  rw [← List.append_assoc, ← List.append_assoc]
  exact List.perm_append_comm.append_right _

/-- Taking an event out of its queue joins a task at most, that is done. -/
theorem Taken.unsentMessages_perm {s s₀ : Serve R E} {e : Event R E} (h : Taken s e s₀) :
    s₀.unsentMessages.Perm s.unsentMessages := by
  cases h with
  | sendJoined _ htask =>
    have herase := filterMap_eraseIdx_perm (fun task => task.progress.unsent task.message) htask
    exact .append_right _ (by simpa [SendProgress.unsent] using herase)
  | _ => exact .refl _

/-- What was handed over waits in a task, or the transport has taken it. -/
theorem Runs.sent_perm {first token : UInt32} {as : List (Action R E)} {s : Serve R E}
    (hrun : Runs first token as s) : (s.unsentMessages ++ s.accepted).Perm s.sent := by
  refine hrun.invariant (P := fun _ s => (s.unsentMessages ++ s.accepted).Perm s.sent) (.refl _) ?_
  intro as s s' a _ h hstep
  rcases background_or_loop hstep with hbackground | ⟨-, -, hloop⟩
  · cases background_step hbackground with
    | @sendAccepted i task htask hspawned =>
      have hset := filterMap_set_perm (fun task => task.progress.unsent task.message) htask
        { task with progress := .accepted }
      rw [hspawned] at hset
      exact (perm_passed _ _ _ (by simpa [SendProgress.unsent] using hset)).trans h
    | @sendFinished i task result htask haccepted =>
      have hset := filterMap_set_perm (fun task => task.progress.unsent task.message) htask
        { task with progress := .finished result }
      rw [haccepted] at hset
      exact ((List.Perm.append_right _ (by simpa [SendProgress.unsent] using hset)).append_right _).trans h
    | @responseAccepted i task htask hspawned =>
      have hset := filterMap_set_perm (fun task => task.2.unsent task.1) htask (task.1, .accepted)
      rw [hspawned] at hset
      have hpassed := perm_passed [] s.accepted _ (by simpa [SendProgress.unsent] using hset)
      simp only [List.append_nil] at hpassed
      refine List.Perm.trans ?_ h
      simp only [Serve.unsentMessages, List.append_assoc]
      exact hpassed.append_left _
    | @responseFinished i task result htask haccepted =>
      have herase := filterMap_eraseIdx_perm (fun task => task.2.unsent task.1) htask
      rw [haccepted] at herase
      exact (List.Perm.append_right _ (.append_left _ (by simpa [SendProgress.unsent] using herase))).trans h
    | _ => exact h
  · rcases loop_turn hloop with ⟨e, s₀, htaken, rfl⟩ | ⟨reason, rfl⟩
    · have haccepted : (s₀.turn e).accepted = s.accepted := by
        rw [(s₀.turn_tasks e).accepted_eq]
        cases htaken <;> rfl
      have hunsent := (turn_unsentMessages s₀ e).trans (htaken.unsentMessages_perm.append_right _)
      rw [(s₀.turn_output e).sent_eq, haccepted, htaken.kept.sent_eq]
      calc (s₀.turn e).unsentMessages ++ s.accepted
          _ |>.Perm (s.unsentMessages ++ e.handsOver?.toList ++ s.accepted) :=
            hunsent.append_right _
          _ = s.unsentMessages ++ (e.handsOver?.toList ++ s.accepted) := List.append_assoc ..
          _ |>.Perm (s.unsentMessages ++ (s.accepted ++ e.handsOver?.toList)) :=
            List.perm_append_comm.append_left _
          _ = s.unsentMessages ++ s.accepted ++ e.handsOver?.toList :=
            (List.append_assoc ..).symm
          _ |>.Perm (s.sent ++ e.handsOver?.toList) := h.append_right _
    · exact h

/-! ## Answers -/

theorem answeredId_sentAnswers (s : Serve R E) :
    s.sentAnswers.filterMap (·.answeredId) = s.sent.filterMap (·.answeredId) := by
  rw [Serve.sentAnswers, List.filterMap_filter]
  congr 1
  funext m
  cases m.answeredId <;> simp

/-! ## What comes in -/

theorem singles_of_not_isBatch {m : RxJsonRpcMessage R} (h : m.isBatch = false) :
    singles m = [m] := by
  cases m with
  | batchRequest | batchResponse => cases h
  | _ => rfl

/-- A loop that is sent no batch has none to take apart. -/
theorem Runs.batchMessages_eq {first token : UInt32} {as : List (Action R E)} {s : Serve R E}
    (hrun : Runs first token as s) (hsingle : ∀ m ∈ s.inbound, m.isBatch = false) :
    s.batchMessages = [] := by
  refine hrun.invariant
    (P := fun _ s => (∀ m ∈ s.inbound, m.isBatch = false) → s.batchMessages = []) (fun _ => rfl) ?_ hsingle
  intro as s s' a _ h hstep hsingle
  rcases step_cases hstep with hmoved | ⟨e, s₀, htaken, hturn⟩ | ⟨reason, rfl⟩
  · have hbeside := hmoved.beside
    rw [hbeside.inbound_eq] at hsingle
    rw [hbeside.batchMessages_eq]
    exact h hsingle
  · rw [hturn.inbound_eq] at hsingle
    rw [hturn.batchMessages_eq]
    cases htaken with
    | batchMessage hbatch =>
      rw [h hsingle] at hbatch
      cases hbatch
    | @received m hbatch =>
      have hm : m.isBatch = false := hsingle m (by simp)
      cases m with
      | batchRequest | batchResponse => cases hm
      | _ => simpa [Event.batchItems] using hbatch
    | toSink hbatch | proxied hbatch | sendJoined hbatch => simpa [Event.batchItems] using hbatch
  · exact h hsingle

/-- It processes what comes in, one message after the other. -/
theorem Runs.processed_eq {first token : UInt32} {as : List (Action R E)} {s : Serve R E}
    (hrun : Runs first token as s) (hsingle : ∀ m ∈ s.inbound, m.isBatch = false) :
    Service.processed s.history = s.inbound := by
  have hall := hrun.processed
  rw [hrun.batchMessages_eq hsingle, List.append_nil] at hall
  rw [hall]
  have hone : s.inbound.flatMap singles = s.inbound.flatMap fun m => [m] :=
    List.flatMap_congr fun m hm => singles_of_not_isBatch (hsingle m hm)
  rw [hone, List.flatMap_singleton']

theorem received_eq (history : List (Event R E)) :
    received history = (processed history).filterMap (·.requestedId) := by
  rw [received, processed, List.filterMap_filterMap]
  congr 1
  funext e
  exact e.receives?_eq

/-- The answers of the peer that were processed. -/
def answered (history : List (Event R E)) : List RequestId :=
  (processed history).filterMap (·.answeredId)

theorem answered_concat (history : List (Event R E)) (e : Event R E) :
    answered (history ++ [e]) = answered history ++ (e.single?.bind (·.answeredId)).toList := by
  rw [answered, processed_concat, List.filterMap_append]
  cases e.single? with
  | none => rfl
  | some m => exact congrArg _ (filterMap_cons_toList _ m [] |>.trans (List.append_nil _))

/-- An answer decides on its request. -/
theorem decides_of_answeredId {e : Event R E} {id : RequestId}
    (h : e.single?.bind (·.answeredId) = some id) : ∃ outcome, e.decides = some (id, outcome) := by
  rcases e with _ | (_ | _ | _ | _ | _ | _) | _ | _ <;> cases h
  all_goals exact ⟨_, rfl⟩

/-! ## Handlers -/

/-- The requests that were received, and whose handlers neither run nor have returned: they
were aborted. -/
def Serve.aborted (s : Serve R E) : List RequestId := (received s.history).diff s.handled

theorem Runs.handled_perm {first token : UInt32} {as : List (Action R E)} {s : Serve R E}
    (hrun : Runs first token as s) : (s.handled ++ s.aborted).Perm (received s.history) :=
  List.subperm_append_diff_self_of_count_le
    (List.subperm_ext_iff.mp (Runs.answered hrun).handled)

/-- A handler runs a request that was received. -/
theorem Runs.handlers_received {first token : UInt32} {as : List (Action R E)} {s : Serve R E}
    (hrun : Runs first token as s) {handler : Handler R} (hmem : handler ∈ s.handlers) :
    .request ⟨handler.context.id, handler.request⟩ ∈ Service.processed s.history := by
  refine hrun.invariant (P := fun _ s => ∀ handler ∈ s.handlers,
    .request ⟨handler.context.id, handler.request⟩ ∈ Service.processed s.history) ?_ ?_ handler hmem
  · intro handler hmem
    cases hmem
  intro as s s' a _ h hstep handler hmem
  rcases background_or_loop hstep with hbackground | ⟨-, -, hloop⟩
  · have hmoved := background_moved hbackground
    rw [hmoved.beside.history_eq]
    refine h handler ?_
    cases hmoved with
    | returned | aborted => exact List.mem_of_mem_eraseIdx hmem
    | _ => exact hmem
  · rcases loop_turn hloop with ⟨e, s₀, htaken, rfl⟩ | ⟨reason, rfl⟩
    · rw [(s₀.turn_spec e).history_eq, processed_concat, htaken.kept.history_eq]
      rw [(s₀.turn_output e).handlers_eq] at hmem
      rcases List.mem_append.mp hmem with hold | hnew
      · refine List.mem_append_left _ (h handler ?_)
        cases htaken <;> exact hold
      · rw [Event.single?_of_starts? (Option.mem_toList.mp hnew)]
        simp
    · exact h handler hmem

/-! ## What was completed -/

theorem single?_of_decides {e : Event R E} {id : RequestId} {result : Except ErrorData R.PeerResp}
    (h : e.decides = some (id, result.mapError .mcpError)) :
    e.single? = some (match result with
      | .ok r => .response ⟨id, r⟩
      | .error error => .error ⟨id, error⟩) := by
  cases e with
  | peerMessage m =>
    cases m with
    | response r =>
      cases result <;> cases h
      rfl
    | error error =>
      cases result <;> cases h
      rfl
    | _ => cases h
  | sendTaskResult sent =>
    rcases sent with ⟨id', e | -⟩ | ⟨responder, - | param, sent⟩ <;> cases result <;> cases h
  | proxyMessage | toSink => cases h

/-- A responder is completed with what an event decides on its request. -/
theorem Decided.of_completed {history : List (Event R E)} {pool : HashMap RequestId Nat}
    {completions : List (Nat × Outcome R E)} (h : Decided history pool completions) {responder : Nat}
    {outcome : Outcome R E} (hmem : (responder, outcome) ∈ completions) :
    ∃ id, (∃ request, .proxyMessage (.request request id responder) ∈ history) ∧
      ∃ e ∈ history, e.decides = some (id, outcome) := by
  obtain ⟨id, hstored⟩ := h.completed_stored _ hmem
  obtain ⟨e, he, hid⟩ := List.mem_filterMap.mp hstored
  obtain ⟨before, after, rfl⟩ := List.append_of_mem he
  have hout : outcome ∈ outcomesOf completions responder :=
    List.mem_filterMap.mpr ⟨_, hmem, if_pos rfl⟩
  rw [h.outcomes before e after id responder rfl hid] at hout
  obtain ⟨e', he', hverdict⟩ := List.exists_of_findSome?_eq_some (Option.mem_toList.mp hout)
  obtain ⟨⟨id', outcome'⟩, hdecides, hsame⟩ := Option.bind_eq_some_iff.mp hverdict
  obtain ⟨rfl, houtcome⟩ := Option.ite_none_right_eq_some.mp hsame
  cases houtcome
  obtain ⟨request, rfl⟩ := Event.eq_of_stored? hid
  exact ⟨id', ⟨request, he⟩, e', by simp [he'], hdecides⟩

/-- No responder is completed twice. -/
theorem Decided.nodup_completions {history : List (Event R E)} {pool : HashMap RequestId Nat}
    {completions : List (Nat × Outcome R E)} (h : Decided history pool completions) :
    (completions.map (·.1)).Nodup := by
  rw [List.nodup_iff_count_le_one]
  intro responder
  have hcount : (completions.map (·.1)).count responder =
      (outcomesOf completions responder).length := by
    rw [outcomesOf, List.length_filterMap_eq_countP, List.count, List.countP_map]
    congr 1
    funext c
    by_cases hc : c.1 = responder <;> simp [hc]
  rw [hcount]
  by_cases hmem : outcomesOf completions responder = []
  · simp [hmem]
  obtain ⟨outcome, hout⟩ := List.exists_mem_of_ne_nil _ hmem
  obtain ⟨c, hc, hsame⟩ := List.mem_filterMap.mp hout
  obtain ⟨rfl, -⟩ := Option.ite_none_right_eq_some.mp hsame
  obtain ⟨id, hstored⟩ := h.completed_stored c hc
  obtain ⟨e, he, hid⟩ := List.mem_filterMap.mp hstored
  obtain ⟨before, after, rfl⟩ := List.append_of_mem he
  rw [h.outcomes before e after id c.1 rfl hid]
  exact Option.length_toList_le

/-- As long as the ids have not gone round, the requests that were handed over have different
ones. -/
theorem Runs.nodup_requestedId {first token : UInt32} {as : List (Action R E)} {s : Serve R E}
    (hrun : Runs first token as s) (hcalls : s.requestCalls < 2 ^ 32) :
    (s.sent.filterMap (·.requestedId)).Nodup := by
  have hdistinct := (Runs.issued hrun).distinct hcalls
  rw [Runs.requests_eq hrun]
  refine (List.Nodup.of_map _ hdistinct.responders).map_on fun p hp q hq hid => ?_
  exact Prod.ext hid ((hdistinct.id_iff p hp q hq).mp hid)

end Service

end Rmcp
