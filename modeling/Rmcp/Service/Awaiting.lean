import Rmcp.Service.Chain
import Rmcp.Service.Responses

/-!
# Awaited notifications and the response

A handler that awaits a notification goes on when the transport has sent it: the send is a task,
its result is an event of the loop, and that event completes the responder. The answer of the
handler goes another way, through the sink channel, and the loop hands it over to the transport
when it comes out. So the send is complete before that, whatever comes between.

The loop does not keep which handler made a call, and whose answer it is that waits. A run is
traced with both, which nothing of the loop reads.

Results:
1. `Awaiting.step_chain`: a step of a traced run, as a link of the chain.
2. `Awaits.traceable`: what holds along the chain holds in every run.
3. `awaited_notification_precedes_response`: an awaited notification is sent before the response
   is handed over.
-/

namespace Rmcp.Service

variable {R : ServiceRole} {E : Type}

/-! ## Traced runs -/

/-- A loop, with what its handlers wait for and whose answers wait. -/
structure Awaiting (R : ServiceRole) (E : Type) where
  serve : Serve R E
  /-- The notification of each call. -/
  notifications : List R.Not
  /-- The calls that handlers wait for. -/
  waiting : List (Nat × Nat)
  responding : List (Nat × TxJsonRpcMessage R)
  sinkProxyRx : List (Nat × TxJsonRpcMessage R)

/-- A handler calls `send_notification`, its call returns, or anything else happens. -/
inductive Move (R : ServiceRole) (E : Type)
  | serve (a : Action R E)
  | notify (handler : Nat) (notification : R.Not)
  | resume (handler call : Nat)

/-- The answer of a handler, and its token. -/
def Handler.answer (handler : Handler R) (result : Except ErrorData R.Resp) :
    Nat × TxJsonRpcMessage R :=
  (handler.context.ct, Serve.answerOf handler.context.id result)

namespace Awaiting

def start (first token : UInt32) : Awaiting R E := ⟨.start first token, [], [], [], []⟩

def nextNotifications (t : Awaiting R E) : Action R E → List R.Not
  | .notificationCalled notification => t.notifications ++ [notification]
  | _ => t.notifications

def nextResponding (t : Awaiting R E) : Action R E → List (Nat × TxJsonRpcMessage R)
  | .handlerReturns i result => t.responding ++ t.serve.handlers[i]?.toList.map (·.answer result)
  | .responseQueued answer => t.responding.eraseIdx answer
  | _ => t.responding

def nextSinkProxyRx (t : Awaiting R E) : Action R E → List (Nat × TxJsonRpcMessage R)
  | .responseQueued answer => t.sinkProxyRx ++ t.responding[answer]?.toList
  | .toSink => t.sinkProxyRx.tail
  | _ => t.sinkProxyRx

def serveStep (t : Awaiting R E) (a : Action R E) : Option (Awaiting R E) :=
  (Service.step t.serve a).map fun serve =>
    { t with
      serve
      notifications := t.nextNotifications a
      responding := t.nextResponding a
      sinkProxyRx := t.nextSinkProxyRx a }

/-- A call that a handler waits for returns when its responder has been completed. -/
def step (t : Awaiting R E) : Move R E → Option (Awaiting R E)
  | .serve a => t.serveStep a
  | .notify i notification =>
    t.serve.handlers[i]?.bind fun handler =>
      (t.serveStep (.notificationCalled notification)).map fun t' =>
        { t' with waiting := t.waiting ++ [(handler.context.ct, t.serve.notificationCalls)] }
  | .resume i call =>
    t.serve.handlers[i]?.bind fun handler =>
      (t.serve.acknowledgements.find? (·.1 = call)).bind fun _ =>
        if (handler.context.ct, call) ∈ t.waiting then
          some { t with waiting := t.waiting.erase (handler.context.ct, call) }
        else none

def serveMoments (t : Awaiting R E) : Action R E → List (Moment R E)
  | .sendFinished task result => t.serve.sendTaskSet[task]?.toList.flatMap (·.completed result)
  | .handlerReturns i result =>
    t.serve.handlers[i]?.toList.map fun h => .returned h.context.ct h.context.id result
  | .toSink => t.sinkProxyRx.head?.toList.map fun p => .responded p.1 p.2
  | _ => []

def moments (t : Awaiting R E) : Move R E → List (Moment R E)
  | .serve a => t.serveMoments a
  | .notify i notification =>
    t.serve.handlers[i]?.toList.map fun h =>
      .called h.context.ct t.serve.notificationCalls notification
  | .resume i call =>
    t.serve.handlers[i]?.toList.flatMap fun h =>
      (t.serve.acknowledgements.find? (·.1 = call)).toList.map fun ack =>
        .resumed h.context.ct call ack.2

end Awaiting

/-- The moves `as` lead from a new loop to `t`. -/
def Awaits (first token : UInt32) (as : List (Move R E)) (t : Awaiting R E) : Prop :=
  Transition.Run Awaiting.step (Awaiting.start first token) as t

/-- What happens in a run. -/
def momentsOf (first token : UInt32) (as : List (Move R E)) : List (Moment R E) :=
  Transition.observe Awaiting.step Awaiting.moments (Awaiting.start first token) as

def Awaiting.chain (t : Awaiting R E) : Chain R E where
  running := t.serve.handlers.map (·.context.ct)
  nextToken := t.serve.nextToken
  notifications := t.notifications
  peerRx := t.serve.peerRx
  sendTaskSet := t.serve.sendTaskSet
  acknowledgements := t.serve.acknowledgements
  responding := t.responding
  sinkProxyRx := t.sinkProxyRx
  sentAnswers := t.serve.sentAnswers

/-- The traced answers are those of the loop. -/
structure Awaiting.Aligned (t : Awaiting R E) : Prop where
  notifications : t.notifications.length = t.serve.notificationCalls
  responding : t.responding.map (·.2) = t.serve.responding
  sinkProxyRx : t.sinkProxyRx.map (·.2) = t.serve.sinkProxyRx
  answers : ∀ p ∈ t.responding ++ t.sinkProxyRx, p.2.answeredId.isSome

/-! ## What a step does -/

namespace Awaiting

variable {t t' : Awaiting R E}

theorem notificationCalled_chain (haligned : t.Aligned) {n : R.Not}
    (h : t.serveStep (.notificationCalled n) = some t') :
    t'.chain =
        { t.chain with
          notifications := t.notifications ++ [n]
          peerRx := t.serve.peerRx ++ [.notification n t.notifications.length] } ∧
      t'.Aligned := by
  obtain ⟨s', hstep, rfl⟩ := Option.map_eq_some_iff.mp h
  rcases background_or_loop hstep with hbackground | ⟨-, -, hloop⟩
  · cases background_step hbackground
    rw [haligned.notifications]
    refine ⟨rfl, ?_, haligned.responding, haligned.sinkProxyRx, haligned.answers⟩
    simp [nextNotifications, haligned.notifications]
  · cases hloop

theorem background_chain (haligned : t.Aligned)
    (hcallers : ∀ m ∈ t.serve.callers, ∃ r, m.requestId? = some r) {a : Action R E}
    {s' : Serve R E} (hstep : t.serveStep a = some t') (h : t.serve.background a = some s') :
    ChainStep t.chain (t.serveMoments a) t'.chain ∧ t'.Aligned := by
  have ht' : t' =
      { t with
        serve := s'
        notifications := t.nextNotifications a
        responding := t.nextResponding a
        sinkProxyRx := t.nextSinkProxyRx a } := by
    simpa [serveStep, Service.step, h] using hstep.symm
  subst ht'
  cases background_step h with
  | requestQueued hcaller =>
    obtain ⟨r, hr⟩ := hcallers _ (List.mem_of_getElem? hcaller)
    exact ⟨.requestQueued hr, { haligned with }⟩
  | @notificationCalled n =>
    obtain ⟨hchain, haligned'⟩ := notificationCalled_chain haligned hstep
    rw [hchain]
    exact ⟨.called n, haligned'⟩
  | @handlerReturns i handler result hi =>
    have hmoments : t.serveMoments (.handlerReturns i result) =
        [.returned handler.context.ct handler.context.id result] := by
      simp [serveMoments, hi]
    have hresponding : t.nextResponding (.handlerReturns i result) =
        t.responding ++ [handler.answer result] := by
      simp [nextResponding, hi]
    have hrunning : t.chain.running[i]? = some handler.context.ct := by
      simp [chain, hi]
    rw [hmoments, hresponding]
    refine ⟨?_, haligned.notifications, ?_, haligned.sinkProxyRx, ?_⟩
    · simp only [chain, ← List.eraseIdx_map]
      exact .returned _ result hrunning
    · simp [haligned.responding, Handler.answer]
    · intro p hp
      rw [List.append_assoc, List.mem_append, List.mem_append, List.mem_singleton] at hp
      rcases hp with hp | rfl | hp
      · exact haligned.answers p (List.mem_append_left _ hp)
      · simp [Handler.answer, Serve.answeredId_answerOf]
      · exact haligned.answers p (List.mem_append_right _ hp)
  | @handlerAborts i =>
    refine ⟨?_, { haligned with }⟩
    simp only [chain, ← List.eraseIdx_map]
    exact .aborted i
  | @responseQueued answer message hanswer =>
    rw [← haligned.responding, List.getElem?_map, Option.map_eq_some_iff] at hanswer
    obtain ⟨p, hp, rfl⟩ := hanswer
    have hsink : t.nextSinkProxyRx (.responseQueued answer) = t.sinkProxyRx ++ [p] := by
      simp [nextSinkProxyRx, hp]
    rw [hsink]
    refine ⟨.queued hp, haligned.notifications, ?_, ?_, ?_⟩
    · rw [← haligned.responding, List.eraseIdx_map]
      rfl
    · simp [haligned.sinkProxyRx]
    · intro q hq
      refine haligned.answers q ?_
      rw [← List.append_assoc, List.mem_append, List.mem_append, List.mem_singleton] at hq
      rcases hq with (hq | hq) | rfl
      · exact List.mem_append_left _ ((List.eraseIdx_sublist ..).subset hq)
      · exact List.mem_append_right _ hq
      · exact List.mem_append_left _ (List.mem_of_getElem? hp)
  | sendAccepted htask => exact ⟨.accepted htask, { haligned with }⟩
  | @sendFinished i task result htask =>
    have hmoments : t.serveMoments (.sendFinished i result) = task.completed result := by
      simp [serveMoments, htask]
    rw [hmoments]
    exact ⟨.finished result htask, { haligned with }⟩
  | _ => exact ⟨.other, { haligned with }⟩

/-- A turn leaves what is traced alone. -/
theorem Aligned.turn (haligned : t.Aligned) (e : Event R E) :
    Aligned { t with serve := t.serve.turn e } := by
  have hspec := t.serve.turn_spec e
  have hcalls := (t.serve.turn_tasks e).notificationCalls_eq
  exact ⟨haligned.notifications.trans hcalls.symm, haligned.responding.trans hspec.responding_eq.symm,
    haligned.sinkProxyRx.trans hspec.sinkProxyRx_eq.symm, haligned.answers⟩

/-- A turn adds to the chain what its event stands for. -/
theorem turn_chain (t : Awaiting R E) (e : Event R E) :
    { t with serve := t.serve.turn e }.chain =
      { t.chain with
        running := t.chain.running ++ e.receives?.toList.map fun _ => t.chain.nextToken
        nextToken := t.chain.nextToken + e.receives?.toList.length
        sendTaskSet := t.chain.sendTaskSet ++ e.spawns
        acknowledgements := t.chain.acknowledgements ++ e.acknowledges
        sentAnswers := t.chain.sentAnswers ++ e.answer?.toList } := by
  have hspec := t.serve.turn_spec e
  have htasks := t.serve.turn_tasks e
  simp only [chain, hspec.peerRx_eq, hspec.sentAnswers_eq, htasks.running_eq, htasks.nextToken_eq,
    htasks.sendTaskSet_eq, htasks.acknowledgements_eq]

/-- A message of the peer is a request, which starts a handler, or adds nothing. -/
theorem turn_peerMessage_chain (t : Awaiting R E) (m : RxJsonRpcMessage R) :
    ChainStep t.chain [] { t with serve := t.serve.turn (.peerMessage m) }.chain := by
  rw [turn_chain]
  simp only [Event.spawns, Event.acknowledges, Event.answer?, Option.toList_none, List.append_nil]
  cases (Event.peerMessage m : Event R E).receives? with
  | none =>
    simp only [Option.toList_none, List.map_nil, List.append_nil, List.length_nil]
    exact .other
  | some id => exact .received

theorem turn_toSink_chain (t : Awaiting R E) {m : TxJsonRpcMessage R} (h : m.answeredId.isSome) :
    { t with serve := t.serve.turn (.toSink m) }.chain =
      { t.chain with sentAnswers := t.chain.sentAnswers ++ [m] } := by
  have hanswer : (Event.toSink m : Event R E).answer? = some m := if_pos h
  rw [turn_chain, hanswer]
  simp [Event.receives?, Event.spawns, Event.acknowledges]

theorem turn_proxyMessage_chain (t : Awaiting R E) (m : PeerSinkMessage R) :
    { t with serve := t.serve.turn (.proxyMessage m) }.chain =
      { t.chain with
        sendTaskSet := t.chain.sendTaskSet ++ [⟨m.message, m.job, .spawned⟩] } := by
  rw [turn_chain]
  simp [Event.receives?, Event.spawns, Event.acknowledges, Event.answer?]

theorem turn_sendTaskResult_chain (t : Awaiting R E) (result : SendTaskResult E) :
    { t with serve := t.serve.turn (.sendTaskResult result) }.chain =
      { t.chain with
        acknowledgements := t.chain.acknowledgements ++ result.acknowledges } := by
  rw [turn_chain]
  simp [Event.receives?, Event.spawns, Event.acknowledges, Event.answer?]

theorem loop_chain (haligned : t.Aligned) {a : Action R E} {s' : Serve R E}
    (h : t.serve.loop a = some s')
    (ht' : t' =
      { t with
        serve := s'
        notifications := t.nextNotifications a
        responding := t.nextResponding a
        sinkProxyRx := t.nextSinkProxyRx a }) :
    ChainStep t.chain (t.serveMoments a) t'.chain ∧ t'.Aligned := by
  subst ht'
  cases loop_step h with
  | @batchMessage m batchMessages =>
    have haligned₀ : Aligned { t with serve := { t.serve with batchMessages } } :=
      { haligned with }
    exact ⟨turn_peerMessage_chain { t with serve := { t.serve with batchMessages } } m,
      haligned₀.turn _⟩
  | @received m =>
    have haligned₀ :
        Aligned { t with serve := { t.serve with inbound := t.serve.inbound ++ [m] } } :=
      { haligned with }
    exact ⟨turn_peerMessage_chain
      { t with serve := { t.serve with inbound := t.serve.inbound ++ [m] } } m, haligned₀.turn _⟩
  | toSink _ hsink =>
    rw [← haligned.sinkProxyRx, List.map_eq_cons_iff] at hsink
    obtain ⟨p, answers, hp, rfl, rfl⟩ := hsink
    have hmoments : t.serveMoments .toSink = [.responded p.1 p.2] := by
      simp [serveMoments, hp]
    have htail : t.nextSinkProxyRx .toSink = answers := by
      simp [nextSinkProxyRx, hp]
    have haligned₀ : Aligned
        { t with
          serve := { t.serve with sinkProxyRx := answers.map (·.2) }
          sinkProxyRx := answers } := by
      refine ⟨haligned.notifications, haligned.responding, rfl, fun q hq => ?_⟩
      refine haligned.answers q ?_
      rw [hp]
      rcases List.mem_append.mp hq with hq | hq
      · exact List.mem_append_left _ hq
      · exact List.mem_append_right _ (List.mem_cons_of_mem p hq)
    have hchain := turn_toSink_chain
      { t with
        serve := { t.serve with sinkProxyRx := answers.map (·.2) }
        sinkProxyRx := answers } (haligned.answers p (by simp [hp]))
    rw [hmoments, htail]
    refine ⟨(congrArg (ChainStep t.chain _) hchain).mpr ?_, haligned₀.turn _⟩
    exact .responded hp
  | @proxied m peerRx _ hpeer =>
    have haligned₀ : Aligned { t with serve := { t.serve with peerRx } } := { haligned with }
    have hchain := turn_proxyMessage_chain { t with serve := { t.serve with peerRx } } m
    refine ⟨(congrArg (ChainStep t.chain _) hchain).mpr ?_, haligned₀.turn _⟩
    exact .taken hpeer
  | @sendJoined i message job result _ htask =>
    have haligned₀ : Aligned
        { t with serve := { t.serve with sendTaskSet := t.serve.sendTaskSet.eraseIdx i } } :=
      { haligned with }
    have hchain := turn_sendTaskResult_chain
      { t with serve := { t.serve with sendTaskSet := t.serve.sendTaskSet.eraseIdx i } }
      (job.done result)
    have hfinished : t.chain.sendTaskSet[i]? = some ⟨message, job, .finished result⟩ := htask
    refine ⟨(congrArg (ChainStep t.chain _) hchain).mpr ?_, haligned₀.turn _⟩
    exact .joined hfinished rfl
  | inputClosed | joinFailed | cancelled => exact ⟨.other, { haligned with }⟩

/-- A step is a link of the chain. -/
theorem step_chain (haligned : t.Aligned)
    (hcallers : ∀ m ∈ t.serve.callers, ∃ r, m.requestId? = some r) {a : Move R E}
    (h : t.step a = some t') : ChainStep t.chain (t.moments a) t'.chain ∧ t'.Aligned := by
  cases a with
  | serve a =>
    obtain ⟨s', hstep, ht'⟩ := Option.map_eq_some_iff.mp h
    rcases background_or_loop hstep with hbackground | ⟨-, -, hloop⟩
    · exact background_chain haligned hcallers h hbackground
    · exact loop_chain haligned hloop ht'.symm
  | notify i n =>
    obtain ⟨handler, hi, h⟩ := Option.bind_eq_some_iff.mp h
    obtain ⟨t₁, hstep, rfl⟩ := Option.map_eq_some_iff.mp h
    obtain ⟨hchain, haligned'⟩ := notificationCalled_chain haligned hstep
    have hmoments : t.moments (.notify i n) =
        [.called handler.context.ct t.notifications.length n] := by
      simp [moments, hi, haligned.notifications]
    rw [hmoments]
    refine ⟨(congrArg (ChainStep t.chain _) hchain).mpr ?_, { haligned' with }⟩
    exact .calledBy _ n
  | resume i call =>
    obtain ⟨handler, hi, h⟩ := Option.bind_eq_some_iff.mp h
    obtain ⟨⟨call', result⟩, hfind, h⟩ := Option.bind_eq_some_iff.mp h
    obtain ⟨-, h⟩ := Option.ite_none_right_eq_some.mp h
    cases h
    have hmoments : t.moments (.resume i call) = [.resumed handler.context.ct call result] := by
      simp [moments, hi, hfind]
    have hcall : call' = call := by simpa using List.find?_some hfind
    have hrunning : handler.context.ct ∈ t.chain.running :=
      List.mem_map_of_mem (List.mem_of_getElem? hi)
    rw [hmoments, ← hcall]
    exact ⟨.resumed hrunning (List.mem_of_find?_eq_some hfind), { haligned with }⟩

end Awaiting

/-! ## Runs -/

/-- The loop of a traced run is a loop of a run. -/
theorem Awaits.runs {first token : UInt32} {as : List (Move R E)} {t : Awaiting R E}
    (hrun : Awaits first token as t) : ∃ bs, Runs first token bs t.serve := by
  refine hrun.invariant (P := fun _ t => ∃ bs, Runs first token bs (Awaiting.serve t)) ⟨[], .nil⟩ ?_
  rintro as t t' a - ⟨bs, hbs⟩ hstep
  have hserve : ∀ {b t'}, t.serveStep b = some t' → ∃ bs, Runs first token bs t'.serve := by
    intro b t' h
    obtain ⟨s', hs', rfl⟩ := Option.map_eq_some_iff.mp h
    exact ⟨bs ++ [b], hbs.snoc hs'⟩
  cases a with
  | serve b => exact hserve hstep
  | notify i n =>
    obtain ⟨handler, -, h⟩ := Option.bind_eq_some_iff.mp hstep
    obtain ⟨t₁, h₁, rfl⟩ := Option.map_eq_some_iff.mp h
    have hcalled := hserve h₁
    exact hcalled
  | resume i call =>
    obtain ⟨handler, -, h⟩ := Option.bind_eq_some_iff.mp hstep
    obtain ⟨ack, -, h⟩ := Option.bind_eq_some_iff.mp h
    obtain ⟨-, h⟩ := Option.ite_none_right_eq_some.mp h
    cases h
    exact ⟨bs, hbs⟩

/-- What holds in every traced run. -/
structure Traceable (log : List (Moment R E)) (t : Awaiting R E) : Prop where
  aligned : t.Aligned
  handlers : Handlers log t.chain
  sends : Sends log t.chain
  responses : Responses log t.chain

theorem Awaits.traceable {first token : UInt32} {as : List (Move R E)} {t : Awaiting R E}
    (hrun : Awaits first token as t) : Traceable (momentsOf first token as) t := by
  refine hrun.invariant (P := fun as t => Traceable (momentsOf first token as) t) ?_ ?_
  · refine ⟨⟨rfl, rfl, rfl, by simp [Awaiting.start]⟩, ?_, ?_, ?_⟩
    · constructor <;> simp [momentsOf, Transition.observe, Awaiting.chain, Awaiting.start,
        Serve.start]
    · constructor <;> simp [momentsOf, Transition.observe, Awaiting.chain, Awaiting.start,
        Serve.start]
    · constructor <;> simp [momentsOf, Transition.observe, Awaiting.chain, Awaiting.start,
        Serve.start, Serve.sentAnswers, respondedMessages]
  · intro as t t' a hrun h hstep
    obtain ⟨bs, hbs⟩ := Awaits.runs hrun
    obtain ⟨hchain, haligned⟩ := Awaiting.step_chain h.aligned (Runs.callers hbs) hstep
    rw [momentsOf, hrun.observe_concat hstep]
    exact ⟨haligned, h.handlers.step hchain, h.sends.step hchain,
      h.responses.step h.handlers h.sends hchain⟩

/-- When a handler calls `send_notification` and gets `Ok`, the transport send of the
notification is complete before its response is handed over. These are all the responses that
are handed over, and each is the one to the request of its handler. -/
theorem awaited_notification_precedes_response {first token : UInt32} {as : List (Move R E)}
    {t : Awaiting R E} (hrun : Awaits first token as t) :
    (∀ handler call n message before after,
      momentsOf first token as = before ++ .responded handler message :: after →
      .called handler call n ∈ momentsOf first token as →
      .resumed handler call (.ok ()) ∈ momentsOf first token as →
      .completed call (PeerSinkMessage.notification n call).message (.ok ()) ∈ before) ∧
    (∀ handler message before after,
      momentsOf first token as = before ++ .responded handler message :: after →
      ∃ id result, .returned handler id result ∈ before ∧ message = Serve.answerOf id result) ∧
    respondedMessages (momentsOf first token as) = t.serve.sentAnswers := by
  have htraced := hrun.traceable
  refine ⟨?_, ?_, htraced.responses.sent⟩
  · intro handler call n message before after heq hcalled hresumed
    obtain ⟨n', hn', hcompleted⟩ :=
      (htraced.responses.responded handler message before after heq).2 call hresumed
    -- the call is that of one notification
    rw [htraced.sends.called handler call n hcalled] at hn'
    cases hn'
    exact hcompleted
  · intro handler message before after heq
    exact (htraced.responses.responded handler message before after heq).1

/-- A handler notifies the peer of a change and answers. -/
def notifyingRun : List (Move bareClient Unit) :=
  [.serve (.received (.request ⟨.number 1, Meta.staticEmpty⟩)),
    .notify 0 (.rootsListChangedNotification ⟨⟨none⟩⟩), .serve .proxied, .serve (.sendAccepted 0),
    .serve (.sendFinished 0 (.ok ())), .serve (.sendJoined 0), .resume 0 0,
    .serve (.handlerReturns 0 (.ok ())), .serve (.responseQueued 0), .serve .toSink]

theorem awaited_notification_precedes_response_notifyingRun :
    ∃ (t : Awaiting bareClient Unit) (before : List (Moment bareClient Unit)),
      Awaits 0 0 notifyingRun t ∧
      momentsOf 0 0 notifyingRun = before ++ [.responded 0 (.response ⟨.number 1, ()⟩)] ∧
      .completed 0 (.notification ⟨.rootsListChangedNotification ⟨⟨none⟩⟩⟩) (.ok ()) ∈ before := by
  have hrun : ∃ (t : Awaiting bareClient Unit) (before : List (Moment bareClient Unit)),
      Awaits 0 0 notifyingRun t ∧
      momentsOf 0 0 notifyingRun = before ++ [.responded 0 (.response ⟨.number 1, ()⟩)] ∧
      before = [.called 0 0 (.rootsListChangedNotification ⟨⟨none⟩⟩),
        .completed 0 (.notification ⟨.rootsListChangedNotification ⟨⟨none⟩⟩⟩) (.ok ()),
        .resumed 0 0 (.ok ()), .returned 0 (.number 1) (.ok ())] :=
    ⟨_, _, Transition.run_of_exec rfl, rfl, rfl⟩
  obtain ⟨t, before, hrun, hlog, hbefore⟩ := hrun
  refine ⟨t, before, hrun, hlog, ?_⟩
  refine (awaited_notification_precedes_response hrun).1 0 0
    (.rootsListChangedNotification ⟨⟨none⟩⟩) _ before [] hlog ?_ ?_
  · simp [hlog, hbefore]
  · simp [hlog, hbefore]

end Rmcp.Service
