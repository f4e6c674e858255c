import Rmcp.Service.Isolation
import Rmcp.Service.Notifications
import Rmcp.Service.Overtaking

/-!
# Cancellations that arrive

What becomes of a cancellation, from the caller that gives up to the handler of the other side.
A handler is cancelled when a cancellation that names its request has come in after the request,
and otherwise only with its loop. The transport may take a cancellation before the request that
it names; then it cancels nothing.

Results:
1. `Runs.cancelled_iff`: when a running handler is cancelled, by what came in.
2. `cancellations_arrive`: the same between two loops, with the callers that have asked for it.
-/

open Rmcp.Handler

namespace Rmcp.Service

section OneSide

variable {R : ServiceRole} {E : Type}

/-- The request that a message of the peer cancels. -/
def cancelledId : RxJsonRpcMessage R → Option RequestId
  | .notification n =>
    match R.peerTryIntoCancelled n.notification with
    | .ok cancelled => some cancelled.params.requestId
    | .error _ => none
  | _ => none

theorem Event.cancels?_eq (e : Event R E) : e.cancels? = e.single?.bind cancelledId := by
  rcases e with _ | (_ | _ | _ | _ | _ | _) | _ | _ <;> rfl

/-! ## By what came in -/

/-- A request came in under `id`, and a cancellation of it after that. -/
def CancelledSince (messages : List (RxJsonRpcMessage R)) (id : RequestId) : Prop :=
  ∃ request m, cancelledId m = some id ∧ [.request ⟨id, request⟩, m].Sublist messages

theorem cancelledSince_concat {messages : List (RxJsonRpcMessage R)}
    {new : Option (RxJsonRpcMessage R)} {id : RequestId} :
    CancelledSince (messages ++ new.toList) id ↔ CancelledSince messages id ∨
      (new.bind cancelledId = some id ∧ ∃ request, .request ⟨id, request⟩ ∈ messages) := by
  cases new with
  | none => simp
  | some m =>
    constructor
    · rintro ⟨request, m', hm', hsub⟩
      rcases pair_sublist_concat hsub with hsub | ⟨hrequest, rfl⟩
      · exact .inl ⟨request, m', hm', hsub⟩
      · exact .inr ⟨hm', request, hrequest⟩
    · rintro (⟨request, m', hm', hsub⟩ | ⟨hm, request, hrequest⟩)
      · exact ⟨request, m', hm', hsub.trans (List.sublist_append_left _ _)⟩
      · exact ⟨request, m, hm, (List.singleton_sublist.mpr hrequest).append (.refl [m])⟩

theorem mem_received {history : List (Event R E)} {id : RequestId} {request : R.PeerReq}
    (h : .request ⟨id, request⟩ ∈ Service.processed history) : id ∈ received history := by
  rw [received_eq]
  exact List.mem_filterMap.mpr ⟨_, h, rfl⟩

theorem CancelledSince.mem_received {history : List (Event R E)} {id : RequestId}
    (h : CancelledSince (Service.processed history) id) : id ∈ received history := by
  obtain ⟨request, m, -, hsub⟩ := h
  exact Service.mem_received (hsub.subset List.mem_cons_self)

/-! ## What a step takes up -/

/-- A step leaves the history alone, or adds the event that it takes up. -/
theorem step_history {s s' : Serve R E} {a : Action R E} (h : step s a = some s') :
    ∃ e : Option (Event R E), s'.history = s.history ++ e.toList ∧
      ∀ m, s.peerMessage? a = some m ↔ e = some (.peerMessage m) := by
  rcases background_or_loop h with hbackground | ⟨-, -, hloop⟩
  · refine ⟨none, ?_, fun m => ?_⟩
    · simp [(background_moved hbackground).beside.history_eq]
    · cases background_step hbackground <;> simp [Serve.peerMessage?]
  · have hturn : ∀ (s₀ : Serve R E) (e : Event R E), (s₀.turn e).history = s₀.history ++ [e] :=
      fun _ _ => rfl
    cases loop_step hloop with
    | batchMessage hbatch =>
      refine ⟨some (.peerMessage _), hturn .., fun m => ?_⟩
      simp [Serve.peerMessage?, hbatch]
    | received =>
      refine ⟨some (.peerMessage _), hturn .., fun m => ?_⟩
      simp [Serve.peerMessage?]
    | toSink | proxied | sendJoined =>
      refine ⟨some _, hturn .., fun m => ?_⟩
      simp [Serve.peerMessage?]
    | inputClosed | joinFailed | cancelled =>
      refine ⟨none, (List.append_nil _).symm, fun m => ?_⟩
      simp [Serve.peerMessage?]

/-! ## When a handler is cancelled -/

/-- What is busy has come in. -/
theorem Runs.busy_subset {first token : UInt32} {as : List (Action R E)} {s : Serve R E}
    (hrun : Runs first token as s) : s.busy ⊆ received s.history := by
  have hanswered := Runs.answered hrun
  have hwaiting : s.waiting ⊆ s.returned.map (·.1) := by
    intro id hid
    obtain ⟨m, hm, hanswers⟩ := List.mem_filterMap.mp hid
    have hreturned := hanswered.answers.subset (List.mem_append_left _ hm)
    rw [← Serve.answeredId_returnedAnswers]
    exact List.mem_filterMap.mpr ⟨m, hreturned, hanswers⟩
  refine fun id hid => hanswered.handled.subset ?_
  rcases List.mem_append.mp hid with hrunning | hid
  · exact List.mem_append_left _ hrunning
  · exact List.mem_append_right _ (hwaiting hid)

theorem TokenStep.loopCancelled_mono {s s' : Serve R E} {a : Action R E} (h : TokenStep s a s')
    (hloop : s.loopCancelled = true) : s'.loopCancelled = true := by
  cases h with
  | other _ _ _ _ _ _ hmono => exact hmono hloop
  | spawned _ _ _ _ _ _ _ _ _ _ heq => exact heq.trans hloop
  | ended _ _ _ _ _ _ _ heq => exact heq.trans hloop

theorem TokenStep.cancelled_mono {s s' : Serve R E} {a : Action R E} (h : TokenStep s a s')
    {ct : Nat} (hct : s.Cancelled ct) : s'.Cancelled ct := by
  refine hct.imp (fun hct => ?_) h.loopCancelled_mono
  cases h with
  | other _ _ _ _ hcancelled => exact hcancelled ▸ hct
  | spawned _ _ _ _ _ _ _ _ hcancelled => exact hcancelled ▸ hct
  | ended _ _ _ _ _ hcancelled => exact (hcancelled ct).mpr (.inl hct)

/-- A handler that was not there before runs the request that came in. -/
theorem TokenStep.handler_cases {s s' : Serve R E} {a : Action R E} (h : TokenStep s a s')
    {handler : Handler R} (hmem : handler ∈ s'.handlers) :
    handler ∈ s.handlers ∨ ∃ request,
      s.peerMessage? a = some (.request ⟨handler.context.id, request⟩) := by
  cases h with
  | other _ hhandlers => exact .inl (hhandlers.subset hmem)
  | spawned r handler' hm hid _ hhandlers =>
    rw [hhandlers] at hmem
    refine (List.mem_append.mp hmem).imp_right fun hnew => ?_
    obtain rfl := List.mem_singleton.mp hnew
    exact ⟨r.request, hm.trans (by rw [hid])⟩
  | ended _ _ hhandlers => exact .inl (hhandlers ▸ hmem)

/-- The tokens of the handlers tell what came in. -/
structure Named (s : Serve R E) : Prop where
  tokens : Tokens s
  cancelled_iff : ∀ handler ∈ s.handlers, s.Cancelled handler.context.ct ↔
    s.loopCancelled = true ∨ CancelledSince (Service.processed s.history) handler.context.id

/-- What the peer cancels in a step, read off the event that the loop takes. -/
theorem peerCancels?_eq {s : Serve R E} {a : Action R E} {e : Option (Event R E)}
    (hpeer : ∀ m, s.peerMessage? a = some m ↔ e = some (.peerMessage m)) :
    s.peerCancels? a = (e.bind (·.single?)).bind cancelledId := by
  cases e with
  | none =>
    have hnone : s.peerMessage? a = none := Option.eq_none_iff_forall_ne_some.mpr fun m hm =>
      Option.some_ne_none _ ((hpeer m).mp hm).symm
    rw [Serve.peerCancels?, hnone]
    rfl
  | some e =>
    show s.peerCancels? a = e.single?.bind cancelledId
    rw [← Event.cancels?_eq, Serve.peerCancels?]
    cases hm : s.peerMessage? a with
    | some m =>
      rw [Option.some.inj ((hpeer m).mp hm)]
      rfl
    | none =>
      cases e with
      | peerMessage m =>
        rw [(hpeer m).mpr rfl] at hm
        cases hm
      | proxyMessage | toSink | sendTaskResult => rfl

theorem Named.step {first token : UInt32} {as : List (Action R E)} {s s' : Serve R E}
    {a : Action R E} (hrun : Runs first token as s) (h : Named s) (hstep : step s a = some s')
    (hids : (received s'.history).Nodup) : Named s' := by
  obtain ⟨e, hhistory, hpeer⟩ := step_history hstep
  have htokens := step_tokens hstep
  have hprocessed : Service.processed s'.history =
      Service.processed s.history ++ (e.bind (·.single?)).toList := by
    cases e with
    | none => simp [hhistory]
    | some e => simp [hhistory]
  have hcancels := peerCancels?_eq hpeer
  -- a request that comes in has an id that was not received before
  have hfresh : ∀ r, s.peerMessage? a = some (.request r) → r.id ∉ received s.history := by
    intro r hr hid
    rw [hhistory, (hpeer _).mp hr] at hids
    rw [Option.toList_some, received_concat] at hids
    exact List.disjoint_of_nodup_append hids hid (by simp [Event.receives?])
  have hfree : s.UsesFreeId a := fun r hr hbusy => hfresh r hr (Runs.busy_subset hrun hbusy)
  refine ⟨h.tokens.step hfree htokens, fun handler hmem => ?_⟩
  have hisolated := h.tokens.isolated htokens
  by_cases hloop : s'.loopCancelled = true
  · exact iff_of_true (.inr hloop) (.inl hloop)
  have hloop₀ : ¬ s.loopCancelled = true := fun hloop₀ =>
    hloop (htokens.loopCancelled_mono hloop₀)
  rw [hprocessed, cancelledSince_concat, ← hcancels]
  rcases htokens.handler_cases hmem with hold | ⟨request, hnew⟩
  · have hrequest := Runs.handlers_received hrun hold
    have hbefore := h.cancelled_iff handler hold
    constructor
    · intro hcancelled
      rcases hisolated.spared handler hmem hcancelled with ⟨-, hbefore' | hnamed⟩ | hloop'
      · exact .inr (.inl ((hbefore.mp hbefore').resolve_left hloop₀))
      · exact .inr (.inr ⟨hnamed, _, hrequest⟩)
      · exact absurd hloop' hloop
    · rintro (hloop' | hsince | ⟨hnamed, -⟩)
      · exact absurd hloop' hloop
      · exact htokens.cancelled_mono (hbefore.mpr (.inr hsince))
      · exact hisolated.named _ hnamed handler hold rfl
  · -- its token is new, and so is its id
    have hid := hfresh _ hnew
    refine iff_of_false (fun hcancelled => ?_) ?_
    · rcases hisolated.spared handler hmem hcancelled with ⟨hold, -⟩ | hloop'
      · exact hid (mem_received (Runs.handlers_received hrun hold))
      · exact hloop hloop'
    · rintro (hloop' | hsince | ⟨-, request', hrequest⟩)
      · exact hloop hloop'
      · exact hid hsince.mem_received
      · exact hid (mem_received hrequest)

theorem Runs.named {first token : UInt32} {as : List (Action R E)} {s : Serve R E}
    (hrun : Runs first token as s) (hids : (received s.history).Nodup) : Named s := by
  refine hrun.invariant (P := fun _ s => (received s.history).Nodup → Named s) ?_ ?_ hids
  · exact fun _ => ⟨tokens_start first token, by simp [Serve.start]⟩
  · intro as s s' a hrun h hstep hids
    refine Named.step hrun (h ?_) hstep hids
    obtain ⟨e, hhistory, -⟩ := step_history hstep
    rw [hhistory, received, List.filterMap_append] at hids
    exact (List.nodup_append'.mp hids).1

/-- As long as no id comes in twice, a running handler is cancelled exactly when its loop is, or
when a cancellation of its request has come in after the request. -/
theorem Runs.cancelled_iff {first token : UInt32} {as : List (Action R E)} {s : Serve R E}
    (hrun : Runs first token as s) (hids : (received s.history).Nodup) {handler : Handler R}
    (hmem : handler ∈ s.handlers) : s.Cancelled handler.context.ct ↔
      s.loopCancelled = true ∨ CancelledSince (Service.processed s.history) handler.context.id :=
  (Runs.named hrun hids).cancelled_iff handler hmem

/-! ## What a caller is told -/

/-- A caller that is told that its request is cancelled has had a cancellation of it taken by the
transport, for the reason that it is told. -/
theorem Runs.cancellation_of_told {first token : UInt32} {as : List (Action R E)} {s : Serve R E}
    (hrestores : Restores R.tryIntoCancelled R.ofCancelled) (hrun : Runs first token as s)
    (hcalls : s.requestCalls < 2 ^ 32) {responder : Nat} {reason : Option String}
    (htold : (responder, .error (.cancelled reason)) ∈ s.completions) :
    ∃ request id cancelled n responder',
      .proxyMessage (.request request id responder) ∈ s.history ∧
      R.tryIntoCancelled n = .ok cancelled ∧ cancelled.params = ⟨id, reason⟩ ∧
      .proxyMessage (.notification n responder') ∈ s.history ∧
      .notification ⟨n⟩ ∈ s.accepted := by
  obtain ⟨id, ⟨request, hstored⟩, e, he, hdecides⟩ :=
    (Runs.decided hrun hcalls).of_completed htold
  -- only a task of a cancellation decides so
  obtain ⟨done, rfl⟩ : ∃ done, e = .sendTaskResult done := by
    rcases e with _ | (_ | _ | _ | _ | _ | _) | _ | done <;>
      first | exact ⟨done, rfl⟩ | cases hdecides
  obtain ⟨m, result, hm, rfl, haccepted⟩ := (Runs.sending hrun).joined done he
  cases m with
  | request _ id' =>
    cases result <;> cases hdecides
  | notification n responder' =>
    cases hc : R.tryIntoCancelled n with
    | error n' => simp [PeerSinkMessage.job, hc, SendJob.done, Event.decides] at hdecides
    | ok cancelled =>
      simp only [PeerSinkMessage.job, hc, SendJob.done, Event.decides, Option.some.injEq,
        Prod.mk.injEq, Except.error.injEq, ServiceError.cancelled.injEq] at hdecides
      rw [PeerSinkMessage.message_eq hrestores] at haccepted
      obtain ⟨rfl, rfl⟩ := hdecides
      exact ⟨request, _, cancelled, n, responder', hstored, hc, rfl, hm, haccepted⟩

end OneSide

/-! ## Both sides -/

namespace Conversation

section BothSides

variable {l : Link} {E : Type} {first token first' token' : UInt32} {s : Conversation l E}

/-- What becomes of the cancellations of the near side. -/
structure Cancels (s : Conversation l E) : Prop where
  running : ∀ handler ∈ s.far.handlers, s.far.Cancelled handler.context.ct ↔
    s.far.loopCancelled = true ∨ @CancelledSince l.far s.far.inbound handler.context.id
  asked : ∀ handler ∈ s.far.handlers, s.far.Cancelled handler.context.ct →
    s.far.loopCancelled = true ∨ ∃ cancelled n responder,
      .proxyMessage (.notification n responder) ∈ s.near.history ∧
      l.near.tryIntoCancelled n = .ok cancelled ∧
      cancelled.params.requestId = handler.context.id
  told : ∀ responder reason, (responder, .error (.cancelled reason)) ∈ s.near.completions →
    ∃ request id cancelled n responder',
      .proxyMessage (.request request id responder) ∈ s.near.history ∧
      l.near.tryIntoCancelled n = .ok cancelled ∧ cancelled.params = ⟨id, reason⟩ ∧
      .proxyMessage (.notification n responder') ∈ s.near.history ∧
      (.notification ⟨n⟩ ∈ s.far.inbound ∨ .notification ⟨n⟩ ∈ s.toFar)

/-- A notification that has come in was handed over by a caller. -/
theorem Joined.notification_of_inbound (h : Joined first token first' token' s)
    (hrestores : Restores l.near.tryIntoCancelled l.near.ofCancelled) {n : l.near.Not}
    (hn : .notification ⟨n⟩ ∈ s.far.inbound) :
    ∃ responder, .proxyMessage (.notification n responder) ∈ s.near.history := by
  obtain ⟨as, hnear⟩ := h.near
  have hsent := h.sent_of_inbound hn
  rw [Runs.sent_eq hnear] at hsent
  obtain ⟨e, he, hover⟩ := List.mem_filterMap.mp hsent
  have hnotifies : e.notifies? = some n := by
    rw [Event.notifies?_eq hrestores, hover]
    rfl
  cases e with
  | proxyMessage m =>
    cases m with
    | request => cases hnotifies
    | notification n' responder =>
      cases hnotifies
      exact ⟨responder, he⟩
  | peerMessage | toSink | sendTaskResult => cases hnotifies

theorem Joined.cancels (h : Joined first token first' token' s)
    (hrestores : Restores l.near.tryIntoCancelled l.near.ofCancelled)
    (hcalls : s.near.requestCalls < 2 ^ 32) : Cancels s := by
  obtain ⟨as, hnear⟩ := h.near
  obtain ⟨as', hfar⟩ := h.far
  have hids : (received s.far.history).Nodup :=
    nodup_of_subperm h.received_subperm (Runs.nodup_requestedId hnear hcalls)
  have hrunning : ∀ handler ∈ s.far.handlers, s.far.Cancelled handler.context.ct ↔
      s.far.loopCancelled = true ∨ @CancelledSince l.far s.far.inbound handler.context.id := by
    intro handler hmem
    rw [← h.processed_eq]
    exact Runs.cancelled_iff hfar hids hmem
  refine ⟨hrunning, fun handler hmem hcancelled => ?_, fun responder reason htold => ?_⟩
  · refine ((hrunning handler hmem).mp hcancelled).imp_right fun hsince => ?_
    obtain ⟨request, m, hm, hsub⟩ := hsince
    have hinbound : m ∈ s.far.inbound := hsub.subset (by simp)
    cases m with
    | notification n =>
      cases hc : l.near.tryIntoCancelled n.notification with
      | ok cancelled =>
        obtain ⟨responder, hstored⟩ := h.notification_of_inbound hrestores hinbound
        simp only [cancelledId, hc, Option.some.injEq] at hm
        exact ⟨cancelled, n.notification, responder, hstored, hc, hm⟩
      | error => simp [cancelledId, hc] at hm
    | _ => cases hm
  · obtain ⟨request, id, cancelled, n, responder', hstored, hc, hparams, hn, haccepted⟩ :=
      Runs.cancellation_of_told hrestores hnear hcalls htold
    rw [← h.toFar, List.mem_append] at haccepted
    exact ⟨request, id, cancelled, n, responder', hstored, hc, hparams, hn, haccepted⟩

end BothSides

end Conversation

/-- The cancellations of a client and a server, in both directions. A running handler is cancelled
exactly when its loop is, or when a cancellation of its request has come in after the request, and
then a caller of the other side has asked for it. A caller that is told of a cancellation has had
it sent, for this reason, and it is on its way if it has not come in. -/
theorem cancellations_arrive {L : Leaves} {E : Type} {first token first' token' : UInt32}
    {as : List (Conversation.Action (clientLink L) E)} {s : Conversation (clientLink L) E}
    (hrun : Transition.Run Conversation.step (.start first token first' token') as s)
    (hcalls : s.near.requestCalls < 2 ^ 32) (hcalls' : s.far.requestCalls < 2 ^ 32) :
    s.Cancels ∧ s.swap.Cancels := by
  have h := Conversation.joined_of_run hrun
  exact ⟨h.cancels restores_client hcalls, h.swap.cancels restores_server hcalls'⟩

/-- The client calls a tool and gives up, and the cancellation reaches the running handler. -/
def givenUpRun : List (Conversation.Action (clientLink plainLeaves) Unit) :=
  [.near (.requestCalled (ClientPeer.callTool.request findCall) ⟨none⟩), .near (.requestQueued 0),
    .near .proxied, .near (.sendAccepted 0), .farReceives,
    .near (.notificationCalled (ClientPeer.notify (.onCancelled ⟨.number 0, some "late"⟩))),
    .near .proxied, .near (.sendAccepted 1), .near (.sendFinished 1 (.ok ())),
    .near (.sendJoined 1), .farReceives]

theorem cancellations_arrive_givenUpRun : ∃ (s : Conversation (clientLink plainLeaves) Unit)
    (handler : Handler (roleServer plainLeaves)),
    Transition.Run Conversation.step (.start 0 0 0 0) givenUpRun s ∧
    s.near.requestCalls < 2 ^ 32 ∧ s.far.requestCalls < 2 ^ 32 ∧ s.far.handlers = [handler] ∧
    s.near.completions = [(0, .error (.cancelled (some "late")))] ∧
    @CancelledSince (roleServer plainLeaves) s.far.inbound handler.context.id ∧
    s.far.Cancelled handler.context.ct := by
  have hrun : ∃ (s : Conversation (clientLink plainLeaves) Unit)
      (handler : Handler (roleServer plainLeaves)),
      Transition.Run Conversation.step (.start 0 0 0 0) givenUpRun s ∧
      s.near.requestCalls = 1 ∧ s.far.requestCalls = 0 ∧ s.far.handlers = [handler] ∧
      s.near.completions = [(0, .error (.cancelled (some "late")))] ∧
      s.far.inbound = [.request ⟨handler.context.id, handler.request⟩,
        .notification ⟨ClientPeer.notify (.onCancelled ⟨.number 0, some "late"⟩)⟩] ∧
      handler.context.id = .number 0 :=
    ⟨_, _, Transition.run_of_exec rfl, rfl, rfl, rfl, rfl, rfl, rfl⟩
  obtain ⟨s, handler, hrun, hcalls, hcalls', hhandlers, hcompletions, hinbound, hid⟩ := hrun
  have hsince : @CancelledSince (roleServer plainLeaves) s.far.inbound handler.context.id := by
    rw [hinbound]
    exact ⟨handler.request, _, hid ▸ rfl, .refl _⟩
  have hfew : s.near.requestCalls < 2 ^ 32 := by omega
  have hfew' : s.far.requestCalls < 2 ^ 32 := by omega
  refine ⟨s, handler, hrun, hfew, hfew', hhandlers, hcompletions, hsince, ?_⟩
  refine ((cancellations_arrive hrun hfew hfew').1.running handler ?_).mpr (.inr hsince)
  rw [hhandlers]
  exact List.mem_singleton.mpr rfl

end Rmcp.Service
