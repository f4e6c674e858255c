import Rmcp.Service.Served

/-!
# Notifications that are delivered

What becomes of the notifications of both sides: the ones that the transport has taken come to the
other side in this order, and a task is spawned there for each, which calls the handler. In which
order the tasks get on is up to the runtime. A caller whose notification is acknowledged knows that
the transport has taken it, and no more.

Result: `notifications_delivered`.
-/

open Rmcp.Handler

namespace Rmcp

def JsonRpcMessage.notification? {Req Resp Not : Type} : JsonRpcMessage Req Resp Not → Option Not
  | .notification n => some n.notification
  | _ => none

namespace Service

/-! ## One side -/

section OneSide

variable {R : ServiceRole} {E : Type}

/-- A notification that is looked at for a cancellation is put together again. -/
structure Restores {N : Type} (tryIntoCancelled : N → Except N CancelledNotification)
    (ofCancelled : CancelledNotification → N) : Prop where
  cancelled : ∀ {n c}, tryIntoCancelled n = .ok c → ofCancelled c = n
  other : ∀ {n n'}, tryIntoCancelled n = .error n' → n' = n

theorem restores_client :
    Restores ClientNotification.tryIntoCancelled .cancelledNotification where
  cancelled {n c} h := by
    cases n <;> cases h
    rfl
  other {n n'} h := by cases n <;> cases h <;> rfl

theorem restores_server :
    Restores ServerNotification.tryIntoCancelled .cancelledNotification where
  cancelled {n c} h := by
    cases n <;> cases h
    rfl
  other {n n'} h := by cases n <;> cases h <;> rfl

/-- The notification that the loop hands over. -/
def Event.notifies? : Event R E → Option R.Not
  | .proxyMessage (.notification n _) => some n
  | _ => none

theorem PeerSinkMessage.message_eq (h : Restores R.tryIntoCancelled R.ofCancelled) (n : R.Not)
    (responder : Nat) : (notification n responder).message = .notification ⟨n⟩ := by
  cases hc : R.tryIntoCancelled n with
  | ok cancelled => simp [message, hc, h.cancelled hc]
  | error n' => simp [message, hc, h.other hc]

theorem Event.notifies?_eq (h : Restores R.tryIntoCancelled R.ofCancelled) (e : Event R E) :
    e.notifies? = e.handsOver?.bind (·.notification?) := by
  cases e with
  | proxyMessage m =>
    cases m with
    | request => rfl
    | notification n responder =>
      rw [handsOver?, PeerSinkMessage.message_eq h]
      rfl
  | toSink m => cases m <;> rfl
  | peerMessage | sendTaskResult => rfl

theorem turn_spawnedNotifications (h : Restores R.peerTryIntoCancelled R.peerOfCancelled)
    (s : Serve R E) (e : Event R E) : (s.turn e).spawnedNotifications =
      s.spawnedNotifications ++ (e.single?.bind (·.notification?)).toList := by
  cases e with
  | peerMessage m =>
    cases m with
    | notification n =>
      cases hc : R.peerTryIntoCancelled n.notification with
      | ok cancelled =>
        obtain ⟨cancelledTokens, heq⟩ := s.cancelToken_eq cancelled.params.requestId
        simp [Serve.turn, Serve.handle, Serve.handlePeerMessage, hc, heq, h.cancelled hc,
          Event.single?, JsonRpcMessage.notification?]
      | error n' =>
        simp [Serve.turn, Serve.handle, Serve.handlePeerMessage, hc, h.other hc, Event.single?,
          JsonRpcMessage.notification?]
    | request r =>
      simp [Serve.turn, Serve.handle, Serve.handlePeerMessage, Serve.spawnHandler, Event.single?,
        JsonRpcMessage.notification?]
    | response r | error r =>
      simp [Serve.turn, Serve.handle, Serve.handlePeerMessage, Serve.complete_eq, Event.single?,
        JsonRpcMessage.notification?]
    | batchRequest items | batchResponse items =>
      simp [Serve.turn, Serve.handle, Serve.handlePeerMessage, Event.single?]
  | proxyMessage m =>
    cases m with
    | request request id responder =>
      simp [Serve.turn, Serve.handle, Serve.handleProxyMessage, Serve.spawnSend, Event.single?]
    | notification n responder =>
      cases hc : R.tryIntoCancelled n <;>
        simp [Serve.turn, Serve.handle, Serve.handleProxyMessage, hc, Serve.spawnSend,
          Event.single?]
  | toSink m =>
    cases hid : m.answeredId with
    | none => simp [Serve.turn, Serve.handle, Serve.handleToSink, hid, Event.single?]
    | some id =>
      obtain ⟨cancelledTokens, heq⟩ := s.cancelToken_eq id
      simp [Serve.turn, Serve.handle, Serve.handleToSink, hid, heq, Serve.spawnResponse,
        Event.single?]
  | sendTaskResult result =>
    rcases result with ⟨id, e | -⟩ | ⟨responder, - | param, result⟩
    all_goals
      simp [Serve.turn, Serve.handle, Serve.handleSendTaskResult, Serve.complete_eq, Event.single?]

variable {first token : UInt32} {as : List (Action R E)} {s : Serve R E}

/-- Tasks are spawned for the notifications that were processed, in their order. -/
theorem Runs.spawnedNotifications_eq (hrestores : Restores R.peerTryIntoCancelled R.peerOfCancelled)
    (hrun : Runs first token as s) :
    s.spawnedNotifications = (Service.processed s.history).filterMap (·.notification?) := by
  refine hrun.invariant (P := fun _ s => s.spawnedNotifications =
    (Service.processed s.history).filterMap (·.notification?)) rfl ?_
  intro as s s' a _ h hstep
  rcases background_or_loop hstep with hbackground | ⟨-, -, hloop⟩
  · have hmoved := background_moved hbackground
    rw [hmoved.beside.history_eq, ← h]
    cases hmoved <;> rfl
  · rcases loop_turn hloop with ⟨e, s₀, htaken, rfl⟩ | ⟨reason, rfl⟩
    · have hkept : s₀.spawnedNotifications = s.spawnedNotifications := by
        cases htaken <;> rfl
      rw [turn_spawnedNotifications hrestores, (s₀.turn_spec e).history_eq, processed_concat,
        htaken.kept.history_eq, List.filterMap_append, hkept, h]
      cases e.single? with
      | none => rfl
      | some m => cases hm : m.notification? <;> simp [hm]
    · exact h

/-- Every notification that was handed over waits in a task, or the transport has taken it. -/
theorem Runs.notifications_perm (hrestores : Restores R.tryIntoCancelled R.ofCancelled)
    (hrun : Runs first token as s) :
    (s.unsentMessages.filterMap (·.notification?) ++ s.accepted.filterMap (·.notification?)).Perm
      (s.history.filterMap Event.notifies?) := by
  have hsent := (Runs.sent_perm hrun).filterMap (·.notification?)
  rw [List.filterMap_append, Runs.sent_eq hrun, List.filterMap_filterMap] at hsent
  rwa [funext (Event.notifies?_eq hrestores)]

/-- A task sends what a caller has handed over, and the transport has taken what a task is done
with. -/
structure Sending (s : Serve R E) : Prop where
  handedOver : ∀ task ∈ s.sendTaskSet, ∃ m, .proxyMessage m ∈ s.history ∧
    task.message = m.message ∧ task.job = m.job
  taken : ∀ task ∈ s.sendTaskSet, task.progress = .spawned ∨ task.message ∈ s.accepted
  joined : ∀ done, .sendTaskResult done ∈ s.history → ∃ m result, .proxyMessage m ∈ s.history ∧
    done = m.job.done result ∧ m.message ∈ s.accepted

theorem Sending.background (h : Sending s) {a : Action R E} {s' : Serve R E}
    (hs : BackgroundStep s a s') : Sending s' := by
  cases hs with
  | @sendAccepted i task htask hspawned =>
    refine ⟨fun t ht => ?_, fun t ht => ?_, fun done hdone => ?_⟩
    · rcases List.mem_or_eq_of_mem_set ht with hold | rfl
      · exact h.handedOver t hold
      · exact h.handedOver task (List.mem_of_getElem? htask)
    · rcases List.mem_or_eq_of_mem_set ht with hold | rfl
      · exact (h.taken t hold).imp_right (List.mem_append_left _)
      · exact .inr (List.mem_append_right _ List.mem_cons_self)
    · obtain ⟨m, result, hm, rfl, haccepted⟩ := h.joined done hdone
      exact ⟨m, result, hm, rfl, List.mem_append_left _ haccepted⟩
  | @sendFinished i task result htask haccepted =>
    refine ⟨fun t ht => ?_, fun t ht => ?_, h.joined⟩
    · rcases List.mem_or_eq_of_mem_set ht with hold | rfl
      · exact h.handedOver t hold
      · exact h.handedOver task (List.mem_of_getElem? htask)
    · rcases List.mem_or_eq_of_mem_set ht with hold | rfl
      · exact h.taken t hold
      · refine .inr ((h.taken task (List.mem_of_getElem? htask)).resolve_left ?_)
        simp [haccepted]
  | responseAccepted =>
    refine ⟨h.handedOver, fun t ht => (h.taken t ht).imp_right (List.mem_append_left _),
      fun done hdone => ?_⟩
    obtain ⟨m, result, hm, rfl, haccepted⟩ := h.joined done hdone
    exact ⟨m, result, hm, rfl, List.mem_append_left _ haccepted⟩
  | _ => exact ⟨h.handedOver, h.taken, h.joined⟩

/-- A task that is joined has come from a caller, and the transport has taken its message. -/
theorem Sending.of_taken (h : Sending s) {s₀ : Serve R E} {done : SendTaskResult E}
    (htaken : Taken s (.sendTaskResult done) s₀) : ∃ m result, .proxyMessage m ∈ s.history ∧
      done = m.job.done result ∧ m.message ∈ s.accepted := by
  cases htaken with
  | @sendJoined i message job result _ htask =>
    have hmem := List.mem_of_getElem? htask
    obtain ⟨m, hm, rfl, rfl⟩ := h.handedOver _ hmem
    exact ⟨m, result, hm, rfl, (h.taken _ hmem).resolve_left (by simp)⟩

theorem Sending.turn (h : Sending s) {e : Event R E} {s₀ : Serve R E} (htaken : Taken s e s₀) :
    Sending (s₀.turn e) := by
  have hkept : s₀.accepted = s.accepted ∧ ∀ task ∈ s₀.sendTaskSet, task ∈ s.sendTaskSet := by
    cases htaken with
    | sendJoined => exact ⟨rfl, fun _ => List.mem_of_mem_eraseIdx⟩
    | _ => exact ⟨rfl, fun _ h => h⟩
  obtain ⟨haccepted, htasks⟩ := hkept
  have hhistory := (s₀.turn_spec e).history_eq
  rw [htaken.kept.history_eq] at hhistory
  have hturn := s₀.turn_tasks e
  -- a new task has come from the caller whose message the turn took up
  have hnew : ∀ task ∈ e.spawns, ∃ m, e = .proxyMessage m ∧
      task = ⟨m.message, m.job, .spawned⟩ := by
    intro task htask
    cases e with
    | proxyMessage m => exact ⟨m, rfl, List.mem_singleton.mp htask⟩
    | peerMessage | toSink | sendTaskResult => cases htask
  refine ⟨fun task htask => ?_, fun task htask => ?_, fun done hdone => ?_⟩
  · rw [hhistory]
    rw [hturn.sendTaskSet_eq] at htask
    rcases List.mem_append.mp htask with hold | hnow
    · obtain ⟨m, hm, hmessage, hjob⟩ := h.handedOver task (htasks task hold)
      exact ⟨m, List.mem_append_left _ hm, hmessage, hjob⟩
    · obtain ⟨m, rfl, rfl⟩ := hnew task hnow
      exact ⟨m, List.mem_append_right _ List.mem_cons_self, rfl, rfl⟩
  · rw [hturn.accepted_eq, haccepted]
    rw [hturn.sendTaskSet_eq] at htask
    rcases List.mem_append.mp htask with hold | hnow
    · exact h.taken task (htasks task hold)
    · obtain ⟨m, -, rfl⟩ := hnew task hnow
      exact .inl rfl
  · rw [hhistory] at hdone ⊢
    rw [hturn.accepted_eq, haccepted]
    obtain ⟨m, result, hm, hresult, htaken⟩ : ∃ m result, .proxyMessage m ∈ s.history ∧
        done = m.job.done result ∧ m.message ∈ s.accepted := by
      rcases List.mem_append.mp hdone with hold | hnow
      · exact h.joined done hold
      · obtain rfl := List.mem_singleton.mp hnow
        exact h.of_taken htaken
    exact ⟨m, result, List.mem_append_left _ hm, hresult, htaken⟩

theorem Runs.sending (hrun : Runs first token as s) : Sending s := by
  refine hrun.invariant (P := fun _ s => Sending s) ?_ ?_
  · constructor <;> simp [Serve.start]
  intro as s s' a _ h hstep
  rcases background_or_loop hstep with hbackground | ⟨-, -, hloop⟩
  · exact h.background (background_step hbackground)
  · rcases loop_turn hloop with ⟨e, s₀, htaken, rfl⟩ | ⟨reason, rfl⟩
    · exact h.turn htaken
    · exact ⟨h.handedOver, h.taken, h.joined⟩

/-- Responders of notifications are completed by the turns that join their tasks. -/
theorem Runs.acknowledgements_eq (hrun : Runs first token as s) :
    s.acknowledgements = s.history.flatMap Event.acknowledges := by
  refine hrun.invariant (P := fun _ s =>
    s.acknowledgements = s.history.flatMap Event.acknowledges) rfl ?_
  intro as s s' a _ h hstep
  rcases background_or_loop hstep with hbackground | ⟨-, -, hloop⟩
  · have hmoved := background_moved hbackground
    rw [hmoved.beside.history_eq, ← h]
    cases hmoved <;> rfl
  · rcases loop_turn hloop with ⟨e, s₀, htaken, rfl⟩ | ⟨reason, rfl⟩
    · have hkept : s₀.acknowledgements = s.acknowledgements := by
        cases htaken <;> rfl
      rw [(s₀.turn_tasks e).acknowledgements_eq, (s₀.turn_spec e).history_eq,
        htaken.kept.history_eq, hkept, h]
      simp
    · exact h

/-- What a caller is told of success for, the transport has taken. -/
theorem Runs.notification_of_acknowledged
    (hrestores : Restores R.tryIntoCancelled R.ofCancelled) (hrun : Runs first token as s)
    {responder : Nat} (hack : (responder, .ok ()) ∈ s.acknowledgements) : ∃ n,
      .proxyMessage (.notification n responder) ∈ s.history ∧
      .notification ⟨n⟩ ∈ s.accepted := by
  rw [Runs.acknowledgements_eq hrun] at hack
  obtain ⟨e, he, hack⟩ := List.mem_flatMap.mp hack
  cases e with
  | sendTaskResult done =>
    obtain ⟨m, result, hm, rfl, haccepted⟩ := (Runs.sending hrun).joined done he
    cases m with
    | request => cases hack
    | notification n responder' =>
      have hresponder : responder = responder' := by
        cases hc : R.tryIntoCancelled n <;>
          simp [Event.acknowledges, PeerSinkMessage.job, hc, SendJob.done,
            SendTaskResult.acknowledges] at hack <;>
          exact hack.1
      subst hresponder
      rw [PeerSinkMessage.message_eq hrestores] at haccepted
      exact ⟨n, hm, haccepted⟩
  | proxyMessage | peerMessage | toSink => cases hack

/-! ### Responders are numbered -/

def PeerSinkMessage.notified? : PeerSinkMessage R → Option Nat
  | .notification _ responder => some responder
  | .request _ _ _ => none

def Event.notified? : Event R E → Option Nat
  | .proxyMessage m => m.notified?
  | _ => none

/-- The responders of the notifications that have been called for. -/
def Serve.notified (s : Serve R E) : List Nat :=
  (s.callers ++ s.peerRx).filterMap PeerSinkMessage.notified? ++
    s.history.filterMap Event.notified?

theorem Moved.notified_subperm {s' : Serve R E} (h : Moved s s')
    (hs : s.notified.Subperm (List.range s.notificationCalls)) :
    s'.notified.Subperm (List.range s'.notificationCalls) := by
  cases h with
  | called request options =>
    refine List.Subperm.trans (List.Perm.subperm (.of_eq ?_)) hs
    simp only [Serve.notified, Serve.drawRequestId, List.filterMap_append, List.append_assoc]
    rfl
  | queued hcaller =>
    have hmove := (move_perm (m := s.peerRx) hcaller).filterMap PeerSinkMessage.notified?
    exact (hmove.append_right _).subperm.trans hs
  | abandoned caller =>
    have hsub := ((List.eraseIdx_sublist s.callers caller).append_right s.peerRx).filterMap
      PeerSinkMessage.notified?
    exact (hsub.append_right _).subperm.trans hs
  | notified n =>
    have hnext : (s.notified ++ [s.notificationCalls]).Subperm
        (List.range (s.notificationCalls + 1)) := by
      rw [List.range_succ]
      exact (List.subperm_append_right _).mpr hs
    refine List.Subperm.trans (List.Perm.subperm ?_) hnext
    simp only [Serve.notified, List.filterMap_append, List.append_assoc]
    exact (List.perm_append_comm.append_left _).append_left _
  | _ => exact hs

/-- A turn of the loop moves a notification from its channel into the history, or none. -/
theorem turn_notified {e : Event R E} {s₀ : Serve R E} (htaken : Taken s e s₀) :
    (s₀.turn e).notified.Perm s.notified := by
  have hturn := s₀.turn_spec e
  have hnotified : (s₀.turn e).notified = s₀.notified ++ e.notified?.toList := by
    simp only [Serve.notified, hturn.callers_eq, hturn.peerRx_eq, hturn.history_eq,
      History.filterMap_concat, List.append_assoc]
  rw [hnotified]
  cases htaken with
  | @proxied m peerRx _ hpeer =>
    show (((s.callers ++ peerRx).filterMap PeerSinkMessage.notified? ++
      s.history.filterMap Event.notified?) ++ m.notified?.toList).Perm s.notified
    cases hm : m.notified? with
    | none => simp [Serve.notified, hpeer, hm]
    | some responder =>
      simp only [Serve.notified, hpeer, List.filterMap_append, List.filterMap_cons, hm,
        Option.toList_some, List.append_assoc, List.cons_append]
      refine .append_left _ ?_
      rw [← List.append_assoc]
      exact List.perm_append_singleton ..
  | _ => exact .of_eq (List.append_nil _)

theorem Runs.notified_subperm (hrun : Runs first token as s) :
    s.notified.Subperm (List.range s.notificationCalls) := by
  refine hrun.invariant (P := fun _ s => s.notified.Subperm (List.range s.notificationCalls))
    (List.nil_subperm) ?_
  intro as s s' a _ h hstep
  rcases background_or_loop hstep with hbackground | ⟨-, -, hloop⟩
  · exact (background_moved hbackground).notified_subperm h
  · rcases loop_turn hloop with ⟨e, s₀, htaken, rfl⟩ | ⟨reason, rfl⟩
    · have hcalls : (s₀.turn e).notificationCalls = s.notificationCalls := by
        rw [(s₀.turn_tasks e).notificationCalls_eq]
        cases htaken <;> rfl
      rw [hcalls]
      exact (turn_notified htaken).subperm.trans h
    · exact h

/-- A caller that is told of success has had its own notification taken by the transport. -/
theorem Runs.accepted_of_acknowledged (hrestores : Restores R.tryIntoCancelled R.ofCancelled)
    (hrun : Runs first token as s) {n : R.Not} {responder : Nat}
    (hstored : .proxyMessage (.notification n responder) ∈ s.history)
    (hack : (responder, .ok ()) ∈ s.acknowledgements) : .notification ⟨n⟩ ∈ s.accepted := by
  obtain ⟨n', hstored', haccepted⟩ :=
    Runs.notification_of_acknowledged hrestores hrun hack
  have hnodup : (s.history.filterMap Event.notified?).Nodup := by
    refine nodup_of_subperm ?_ (List.nodup_range (n := s.notificationCalls))
    exact (List.sublist_append_right _ _).subperm.trans (Runs.notified_subperm hrun)
  cases eq_of_nodup_filterMap hnodup hstored hstored' rfl rfl
  exact haccepted

end OneSide

/-! ## Both sides -/

namespace Conversation

section BothSides

variable {l : Link} {E : Type} {first token first' token' : UInt32} {s : Conversation l E}

/-- What becomes of the notifications of the near side. -/
structure Delivers (s : Conversation l E) : Prop where
  inOrder : s.far.spawnedNotifications ++ s.toFar.filterMap (·.notification?) =
    s.near.accepted.filterMap (·.notification?)
  once : (s.near.unsentMessages.filterMap (·.notification?) ++ s.far.spawnedNotifications ++
    s.toFar.filterMap (·.notification?)).Perm (s.near.history.filterMap Event.notifies?)
  acknowledged : ∀ n responder, .proxyMessage (.notification n responder) ∈ s.near.history →
    (responder, .ok ()) ∈ s.near.acknowledgements →
    n ∈ s.far.spawnedNotifications ∨ .notification ⟨n⟩ ∈ s.toFar

theorem Joined.delivers (h : Joined first token first' token' s)
    (hnear : Restores l.near.tryIntoCancelled l.near.ofCancelled)
    (hfar : Restores l.far.peerTryIntoCancelled l.far.peerOfCancelled) : Delivers s := by
  obtain ⟨as, hrun⟩ := h.near
  obtain ⟨as', hrun'⟩ := h.far
  have hspawned := Runs.spawnedNotifications_eq hfar hrun'
  rw [h.processed_eq] at hspawned
  have hinOrder : s.far.spawnedNotifications ++ s.toFar.filterMap (·.notification?) =
      s.near.accepted.filterMap (·.notification?) := by
    rw [hspawned, ← h.toFar, List.filterMap_append]
  refine ⟨hinOrder, ?_, fun n responder hstored hack => ?_⟩
  · rw [List.append_assoc, hinOrder]
    exact Runs.notifications_perm hnear hrun
  · have haccepted := Runs.accepted_of_acknowledged hnear hrun hstored hack
    rw [← h.toFar, List.mem_append] at haccepted
    refine haccepted.imp_left fun hinbound => ?_
    rw [hspawned]
    exact List.mem_filterMap.mpr ⟨_, hinbound, rfl⟩

end BothSides

end Conversation

section ClientAndServer

variable {L : Leaves} {E : Type} {first token first' token' : UInt32}

/-- The notifications of a client and a server, in both directions: the tasks for them are spawned
in the order in which the transport takes them, and each that a loop has handed over is in one
place. For one that is acknowledged a task was spawned that calls the method its peer means, or it
is on its way. -/
theorem notifications_delivered {as : List (Conversation.Action (clientLink L) E)}
    {s : Conversation (clientLink L) E}
    (hrun : Transition.Run Conversation.step (.start first token first' token') as s) :
    s.Delivers ∧ s.swap.Delivers ∧
    (∀ callback responder,
      .proxyMessage (.notification (ClientPeer.notify callback) responder) ∈ s.near.history →
      (responder, .ok ()) ∈ s.near.acknowledgements →
      callback ∈ s.far.spawnedNotifications.map ServerHandler.handleNotification ∨
        .notification ⟨ClientPeer.notify callback⟩ ∈ s.toFar) ∧
    (∀ callback responder,
      .proxyMessage (.notification (ServerPeer.notify callback) responder) ∈ s.far.history →
      (responder, .ok ()) ∈ s.far.acknowledgements →
      callback ∈ s.near.spawnedNotifications.map ClientHandler.handleNotification ∨
        .notification ⟨ServerPeer.notify callback⟩ ∈ s.toNear) := by
  have h := Conversation.joined_of_run hrun
  have hnear : s.Delivers := h.delivers restores_client restores_client
  have hfar : s.swap.Delivers := h.swap.delivers restores_server restores_server
  refine ⟨hnear, hfar, fun callback responder hstored hack => ?_,
    fun callback responder hstored hack => ?_⟩
  · refine (hnear.acknowledged _ responder hstored hack).imp_left fun hmem => ?_
    exact List.mem_map.mpr ⟨_, hmem, ServerHandler.handleNotification_notify callback⟩
  · refine (hfar.acknowledged _ responder hstored hack).imp_left fun hmem => ?_
    exact List.mem_map.mpr ⟨_, hmem, ClientHandler.handleNotification_notify callback⟩

end ClientAndServer

/-- The client gives a request of the server up, and tells it of new roots. The first of these
reaches the server while the second still waits. -/
def notifiedRun : List (Conversation.Action (clientLink plainLeaves) Unit) :=
  [.near (.notificationCalled (ClientPeer.notify (.onCancelled ⟨.number 3, none⟩))),
    .near (.notificationCalled (ClientPeer.notify .onRootsListChanged)), .near .proxied,
    .near .proxied, .near (.sendAccepted 0), .near (.sendFinished 0 (.ok ())),
    .near (.sendJoined 0), .farReceives]

theorem notifications_delivered_notifiedRun : ∃ s : Conversation (clientLink plainLeaves) Unit,
    Transition.Run Conversation.step (.start 0 0 0 0) notifiedRun s ∧
    s.near.unsentMessages = [.notification ⟨ClientPeer.notify .onRootsListChanged⟩] ∧
    .onCancelled ⟨.number 3, none⟩ ∈
      s.far.spawnedNotifications.map ServerHandler.handleNotification := by
  have hrun : ∃ s : Conversation (clientLink plainLeaves) Unit,
      Transition.Run Conversation.step (.start 0 0 0 0) notifiedRun s ∧
      s.near.unsentMessages = [.notification ⟨ClientPeer.notify .onRootsListChanged⟩] ∧
      s.near.history.head? = some (.proxyMessage
        (.notification (ClientPeer.notify (.onCancelled ⟨.number 3, none⟩)) 0)) ∧
      s.near.acknowledgements = [(0, .ok ())] ∧ s.toFar = [] :=
    ⟨_, Transition.run_of_exec rfl, rfl, rfl, rfl, rfl⟩
  obtain ⟨s, hrun, hunsent, hstored, hack, hempty⟩ := hrun
  refine ⟨s, hrun, hunsent, ?_⟩
  refine ((notifications_delivered hrun).2.2.1 _ 0 (List.mem_of_head? hstored) ?_).resolve_right ?_
  · rw [hack]
    exact List.mem_cons_self
  · rw [hempty]
    exact List.not_mem_nil

end Service

end Rmcp
