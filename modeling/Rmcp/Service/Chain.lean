import Rmcp.Service.Overtaking

/-!
# The chain from a notification to the response

What the order of an awaited notification and the response of its handler depends on: the queue,
the send tasks, the responders, the handlers that run, and the answers on their way out. The links
of the chain are the steps that move something along it, and each of them leaves the rest as it
is.

Results:
1. `Handlers.step`: a handler that has returned is not running any more.
2. `Sends.step`: a responder is completed with `Ok` when the send is complete.
3. `Responses.step`: what a handler has awaited is complete when its response is handed over.
-/

namespace Rmcp.Service

variable {R : ServiceRole} {E : Type}

/-- What happens between a call and the response. A handler is the token that it was given. -/
inductive Moment (R : ServiceRole) (E : Type)
  | called (handler call : Nat) (notification : R.Not)
  | completed (call : Nat) (message : TxJsonRpcMessage R) (result : Except E Unit)
  | resumed (handler call : Nat) (result : Except (ServiceError E) Unit)
  | returned (handler : Nat) (id : RequestId) (result : Except ErrorData R.Resp)
  | responded (handler : Nat) (message : TxJsonRpcMessage R)

/-- The end of the transport send of a notification. -/
def SendTask.completed (task : SendTask R E) (result : Except E Unit) : List (Moment R E) :=
  match task.job with
  | .notification call _ => [.completed call task.message result]
  | .request _ => []

/-- The answers that are handed over. -/
def respondedMessages (log : List (Moment R E)) : List (TxJsonRpcMessage R) :=
  log.filterMap fun
    | .responded _ message => some message
    | _ => none

/-! ## The chain -/

/-- What the order depends on. -/
structure Chain (R : ServiceRole) (E : Type) where
  running : List Nat
  nextToken : Nat
  notifications : List R.Not
  peerRx : List (PeerSinkMessage R)
  sendTaskSet : List (SendTask R E)
  acknowledgements : List (Nat × Except (ServiceError E) Unit)
  responding : List (Nat × TxJsonRpcMessage R)
  sinkProxyRx : List (Nat × TxJsonRpcMessage R)
  sentAnswers : List (TxJsonRpcMessage R)

/-- One link of the chain. -/
inductive ChainStep (c : Chain R E) : List (Moment R E) → Chain R E → Prop
  | other : ChainStep c [] c
  | received :
      ChainStep c []
        { c with running := c.running ++ [c.nextToken], nextToken := c.nextToken + 1 }
  | requestQueued {m : PeerSinkMessage R} {r : RequestId} :
      m.requestId? = some r → ChainStep c [] { c with peerRx := c.peerRx ++ [m] }
  | called (n : R.Not) :
      ChainStep c []
        { c with
          notifications := c.notifications ++ [n]
          peerRx := c.peerRx ++ [.notification n c.notifications.length] }
  | calledBy (handler : Nat) (n : R.Not) :
      ChainStep c [.called handler c.notifications.length n]
        { c with
          notifications := c.notifications ++ [n]
          peerRx := c.peerRx ++ [.notification n c.notifications.length] }
  | taken {m : PeerSinkMessage R} {peerRx : List (PeerSinkMessage R)} :
      c.peerRx = m :: peerRx →
      ChainStep c []
        { c with peerRx, sendTaskSet := c.sendTaskSet ++ [⟨m.message, m.job, .spawned⟩] }
  | accepted {i : Nat} {task : SendTask R E} :
      c.sendTaskSet[i]? = some task →
      ChainStep c []
        { c with sendTaskSet := c.sendTaskSet.set i { task with progress := .accepted } }
  | finished {i : Nat} {task : SendTask R E} (result : Except E Unit) :
      c.sendTaskSet[i]? = some task →
      ChainStep c (task.completed result)
        { c with sendTaskSet := c.sendTaskSet.set i { task with progress := .finished result } }
  | joined {i : Nat} {task : SendTask R E} {result : Except E Unit} :
      c.sendTaskSet[i]? = some task → task.progress = .finished result →
      ChainStep c []
        { c with
          sendTaskSet := c.sendTaskSet.eraseIdx i
          acknowledgements := c.acknowledgements ++ (task.job.done result).acknowledges }
  | resumed {handler call : Nat} {result : Except (ServiceError E) Unit} :
      handler ∈ c.running → (call, result) ∈ c.acknowledgements →
      ChainStep c [.resumed handler call result] c
  | returned {i handler : Nat} (id : RequestId) (result : Except ErrorData R.Resp) :
      c.running[i]? = some handler →
      ChainStep c [.returned handler id result]
        { c with
          running := c.running.eraseIdx i
          responding := c.responding ++ [(handler, Serve.answerOf id result)] }
  | aborted (i : Nat) : ChainStep c [] { c with running := c.running.eraseIdx i }
  | queued {i : Nat} {p : Nat × TxJsonRpcMessage R} :
      c.responding[i]? = some p →
      ChainStep c []
        { c with responding := c.responding.eraseIdx i, sinkProxyRx := c.sinkProxyRx ++ [p] }
  | responded {p : Nat × TxJsonRpcMessage R} {sinkProxyRx : List (Nat × TxJsonRpcMessage R)} :
      c.sinkProxyRx = p :: sinkProxyRx →
      ChainStep c [.responded p.1 p.2]
        { c with sinkProxyRx, sentAnswers := c.sentAnswers ++ [p.2] }

/-! ## What holds along the chain -/

variable {log moments : List (Moment R E)} {c c' : Chain R E}

/-- A handler that has returned is not running, and what waits is what the handlers returned. -/
structure Handlers (log : List (Moment R E)) (c : Chain R E) : Prop where
  nodup : c.running.Nodup
  lt : ∀ handler ∈ c.running, handler < c.nextToken
  gone : ∀ handler id result, .returned handler id result ∈ log →
    handler ∉ c.running ∧ handler < c.nextToken
  answers : ∀ p ∈ c.responding ++ c.sinkProxyRx, ∃ id result,
    .returned p.1 id result ∈ log ∧ p.2 = Serve.answerOf id result

/-- The transport send of a call is complete. -/
def Completed (log : List (Moment R E)) (c : Chain R E) (call : Nat) : Prop :=
  ∃ n, c.notifications[call]? = some n ∧
    .completed call (PeerSinkMessage.notification n call).message (.ok ()) ∈ log

/-- A responder is completed when the send is. -/
structure Sends (log : List (Moment R E)) (c : Chain R E) : Prop where
  queued : ∀ n call, .notification n call ∈ c.peerRx → c.notifications[call]? = some n
  tasks : ∀ task ∈ c.sendTaskSet, ∀ call param, task.job = .notification call param →
    ∃ n, c.notifications[call]? = some n ∧
      task.message = (PeerSinkMessage.notification n call).message ∧
      ∀ result, task.progress = .finished result → .completed call task.message result ∈ log
  acknowledged : ∀ call, (call, .ok ()) ∈ c.acknowledgements → Completed log c call
  called : ∀ handler call n, .called handler call n ∈ log → c.notifications[call]? = some n

/-- The sends that a handler has awaited are complete before its response is handed over. -/
structure Responses (log : List (Moment R E)) (c : Chain R E) : Prop where
  resumed : ∀ handler call, .resumed handler call (.ok ()) ∈ log → Completed log c call
  responded : ∀ handler message before after, log = before ++ .responded handler message :: after →
    (∃ id result, .returned handler id result ∈ before ∧ message = Serve.answerOf id result) ∧
    ∀ call, .resumed handler call (.ok ()) ∈ log → Completed before c call
  sent : respondedMessages log = c.sentAnswers

theorem SendTask.mem_completed {task : SendTask R E} {result : Except E Unit}
    {moment : Moment R E} :
    moment ∈ task.completed result ↔
      ∃ call param, task.job = .notification call param ∧
        moment = .completed call task.message result := by
  unfold completed
  cases task.job <;> simp

namespace Handlers

/-- Nothing else happens to the handlers. -/
theorem append (h : Handlers log c)
    (hquiet : ∀ handler id result, .returned handler id result ∉ moments) :
    Handlers (log ++ moments) c := by
  refine ⟨h.nodup, h.lt, fun handler id result hmem => ?_, fun p hp => ?_⟩
  · rcases List.mem_append.mp hmem with hold | hnew
    · exact h.gone handler id result hold
    · exact absurd hnew (hquiet handler id result)
  · obtain ⟨id, result, hreturned, hanswer⟩ := h.answers p hp
    exact ⟨id, result, List.mem_append_left _ hreturned, hanswer⟩

theorem received (h : Handlers log c) :
    Handlers log
      { c with running := c.running ++ [c.nextToken], nextToken := c.nextToken + 1 } := by
  refine ⟨?_, fun handler hmem => ?_, fun handler id result hmem => ?_, h.answers⟩
  · refine h.nodup.append (List.nodup_singleton _) ?_
    rw [List.disjoint_singleton]
    exact fun hmem => Nat.lt_irrefl _ (h.lt _ hmem)
  · rcases List.mem_append.mp hmem with hold | hnew
    · exact Nat.lt_succ_of_lt (h.lt handler hold)
    · rw [List.mem_singleton.mp hnew]
      exact Nat.lt_succ_self _
  · obtain ⟨hgone, hlt⟩ := h.gone handler id result hmem
    refine ⟨fun hmem => ?_, Nat.lt_succ_of_lt hlt⟩
    rcases List.mem_append.mp hmem with hold | hnew
    · exact hgone hold
    · exact absurd (List.mem_singleton.mp hnew) (Nat.ne_of_lt hlt)

theorem aborted (h : Handlers log c) (i : Nat) :
    Handlers log { c with running := c.running.eraseIdx i } := by
  have hsub := (List.eraseIdx_sublist c.running i).subset
  refine ⟨h.nodup.sublist (List.eraseIdx_sublist ..), fun handler hmem => h.lt handler (hsub hmem),
    fun handler id result hmem => ?_, h.answers⟩
  obtain ⟨hgone, hlt⟩ := h.gone handler id result hmem
  exact ⟨fun hrunning => hgone (hsub hrunning), hlt⟩

theorem returned (h : Handlers log c) {i handler : Nat} (hi : c.running[i]? = some handler)
    (id : RequestId) (result : Except ErrorData R.Resp) :
    Handlers (log ++ [.returned handler id result])
      { c with
        running := c.running.eraseIdx i
        responding := c.responding ++ [(handler, Serve.answerOf id result)] } := by
  have hmem := List.mem_of_getElem? hi
  refine ⟨(h.aborted i).nodup, (h.aborted i).lt, fun handler' id' result' hlog => ?_,
    fun p hp => ?_⟩
  · rcases List.mem_append.mp hlog with hold | hnew
    · exact (h.aborted i).gone handler' id' result' hold
    · cases List.mem_singleton.mp hnew
      obtain ⟨hlt, rfl⟩ := List.getElem?_eq_some_iff.mp hi
      refine ⟨fun hrunning => ?_, h.lt _ hmem⟩
      -- a handler runs once
      have hsplit := (List.getElem_cons_eraseIdx_perm hlt).nodup_iff.mpr h.nodup
      exact (List.nodup_cons.mp hsplit).1 hrunning
  · rw [List.append_assoc, List.mem_append, List.mem_append, List.mem_singleton] at hp
    rcases hp with hp | rfl | hp
    · obtain ⟨id', result', hlog, hanswer⟩ := h.answers p (List.mem_append_left _ hp)
      exact ⟨id', result', List.mem_append_left _ hlog, hanswer⟩
    · exact ⟨id, result, List.mem_append_right _ (List.mem_singleton_self _), rfl⟩
    · obtain ⟨id', result', hlog, hanswer⟩ := h.answers p (List.mem_append_right _ hp)
      exact ⟨id', result', List.mem_append_left _ hlog, hanswer⟩

theorem step (h : Handlers log c) (hstep : ChainStep c moments c') :
    Handlers (log ++ moments) c' := by
  cases hstep with
  | other => exact h.append (by simp)
  | received => exact h.received.append (by simp)
  | requestQueued | called | taken | accepted | joined => exact { h.append (by simp) with }
  | calledBy | resumed => exact { h.append (by simp) with }
  | finished => exact { h.append (by simp [SendTask.mem_completed]) with }
  | returned id result hi => exact h.returned hi id result
  | aborted i => exact (h.aborted i).append (by simp)
  | @queued i p hp =>
    refine { h.append (by simp) with answers := fun q hq => (h.append (by simp)).answers q ?_ }
    rw [← List.append_assoc, List.mem_append, List.mem_append, List.mem_singleton] at hq
    rcases hq with (hq | hq) | rfl
    · exact List.mem_append_left _ ((List.eraseIdx_sublist ..).subset hq)
    · exact List.mem_append_right _ hq
    · exact List.mem_append_left _ (List.mem_of_getElem? hp)
  | @responded p sinkProxyRx hsink =>
    refine { h.append (by simp) with answers := fun q hq => (h.append (by simp)).answers q ?_ }
    rw [hsink]
    rcases List.mem_append.mp hq with hq | hq
    · exact List.mem_append_left _ hq
    · exact List.mem_append_right _ (List.mem_cons_of_mem p hq)

end Handlers

theorem PeerSinkMessage.eq_notification_of_job {m : PeerSinkMessage R} {call : Nat}
    {param : Option CancelledNotificationParam} (h : m.job = .notification call param) :
    ∃ n, m = .notification n call := by
  cases m with
  | request => cases h
  | notification n responder =>
    simp only [job] at h
    split at h <;> cases h <;> exact ⟨n, rfl⟩

theorem SendJob.ok_mem_acknowledges {job : SendJob} {result : Except E Unit} {call : Nat}
    (h : (call, .ok ()) ∈ (job.done result).acknowledges) :
    (∃ param, job = .notification call param) ∧ result = .ok () := by
  cases job with
  | request => cases h
  | notification responder param =>
    cases result with
    | error e =>
      have heq := List.mem_singleton.mp h
      cases heq
    | ok =>
      have heq := List.mem_singleton.mp h
      cases heq
      exact ⟨⟨param, rfl⟩, rfl⟩

theorem getElem?_concat_of_some {α : Type} {l : List α} {i : Nat} {a : α} (h : l[i]? = some a)
    (b : α) : (l ++ [b])[i]? = some a := by
  obtain ⟨hi, -⟩ := List.getElem?_eq_some_iff.mp h
  rw [List.getElem?_append_left hi, h]

theorem Completed.append {call : Nat} (h : Completed log c call) (moments : List (Moment R E)) :
    Completed (log ++ moments) c call := by
  obtain ⟨n, hn, hmem⟩ := h
  exact ⟨n, hn, List.mem_append_left _ hmem⟩

namespace Sends

theorem append (h : Sends log c)
    (hcalled : ∀ handler call n, .called handler call n ∈ moments →
      c.notifications[call]? = some n) : Sends (log ++ moments) c := by
  refine ⟨h.queued, fun task htask call param hjob => ?_, fun call hmem => ?_,
    fun handler call n hmem => ?_⟩
  · obtain ⟨n, hn, hmessage, hfinished⟩ := h.tasks task htask call param hjob
    exact ⟨n, hn, hmessage, fun result hprogress =>
      List.mem_append_left _ (hfinished result hprogress)⟩
  · exact (h.acknowledged call hmem).append moments
  · rcases List.mem_append.mp hmem with hold | hnew
    · exact h.called handler call n hold
    · exact hcalled handler call n hnew

theorem called_notification (h : Sends log c) (n : R.Not) :
    Sends log
      { c with
        notifications := c.notifications ++ [n]
        peerRx := c.peerRx ++ [.notification n c.notifications.length] } := by
  refine ⟨fun n' call hmem => ?_, fun task htask call param hjob => ?_, fun call hmem => ?_,
    fun handler call n' hmem => ?_⟩
  · rcases List.mem_append.mp hmem with hold | hnew
    · exact getElem?_concat_of_some (h.queued n' call hold) n
    · cases List.mem_singleton.mp hnew
      exact List.getElem?_concat_length
  · obtain ⟨n', hn, hrest⟩ := h.tasks task htask call param hjob
    exact ⟨n', getElem?_concat_of_some hn n, hrest⟩
  · obtain ⟨n', hn, hcompleted⟩ := h.acknowledged call hmem
    exact ⟨n', getElem?_concat_of_some hn n, hcompleted⟩
  · exact getElem?_concat_of_some (h.called handler call n' hmem) n

theorem taken (h : Sends log c) {m : PeerSinkMessage R} {peerRx : List (PeerSinkMessage R)}
    (hqueue : c.peerRx = m :: peerRx) :
    Sends log
      { c with peerRx, sendTaskSet := c.sendTaskSet ++ [⟨m.message, m.job, .spawned⟩] } := by
  refine { h with queued := fun n call hmem => h.queued n call ?_, tasks := ?_ }
  · rw [hqueue]
    exact List.mem_cons_of_mem m hmem
  · intro task htask call param hjob
    rcases List.mem_append.mp htask with hold | hnew
    · exact h.tasks task hold call param hjob
    · obtain rfl := List.mem_singleton.mp hnew
      obtain ⟨n, rfl⟩ := PeerSinkMessage.eq_notification_of_job hjob
      refine ⟨n, h.queued n call (by simp [hqueue]), rfl, fun result hprogress => ?_⟩
      cases hprogress

/-- A send makes progress, and is logged when it is complete. -/
theorem progressed (h : Sends log c) {i : Nat} {task : SendTask R E}
    (hi : c.sendTaskSet[i]? = some task) (progress : SendProgress E)
    (hfinished : ∀ result, progress = .finished result → ∀ moment ∈ task.completed result,
      moment ∈ log) :
    Sends log { c with sendTaskSet := c.sendTaskSet.set i { task with progress } } := by
  refine { h with tasks := fun task' htask call param hjob => ?_ }
  rcases List.mem_or_eq_of_mem_set htask with hold | rfl
  · exact h.tasks task' hold call param hjob
  · obtain ⟨n, hn, hmessage, -⟩ := h.tasks task (List.mem_of_getElem? hi) call param hjob
    refine ⟨n, hn, hmessage, fun result hprogress => hfinished result hprogress _ ?_⟩
    exact SendTask.mem_completed.mpr ⟨call, param, hjob, rfl⟩

theorem joined (h : Sends log c) {i : Nat} {task : SendTask R E} {result : Except E Unit}
    (hi : c.sendTaskSet[i]? = some task) (hresult : task.progress = .finished result) :
    Sends log
      { c with
        sendTaskSet := c.sendTaskSet.eraseIdx i
        acknowledgements := c.acknowledgements ++ (task.job.done result).acknowledges } := by
  refine { h with
    tasks := fun task' htask => h.tasks task' ((List.eraseIdx_sublist ..).subset htask)
    acknowledged := fun call hmem => ?_ }
  rcases List.mem_append.mp hmem with hold | hnew
  · exact h.acknowledged call hold
  · obtain ⟨⟨param, hjob⟩, rfl⟩ := SendJob.ok_mem_acknowledges hnew
    obtain ⟨n, hn, hmessage, hfinished⟩ :=
      h.tasks task (List.mem_of_getElem? hi) call param hjob
    exact ⟨n, hn, hmessage ▸ hfinished _ hresult⟩

theorem step (h : Sends log c) (hstep : ChainStep c moments c') : Sends (log ++ moments) c' := by
  cases hstep with
  | other => exact h.append (by simp)
  | received | aborted | queued => exact { h.append (by simp) with }
  | resumed | returned | responded => exact { h.append (by simp) with }
  | @requestQueued m r hr =>
    refine { h.append (by simp) with queued := fun n call hmem => ?_ }
    rcases List.mem_append.mp hmem with hold | hnew
    · exact h.queued n call hold
    · rw [← List.mem_singleton.mp hnew] at hr
      cases hr
  | called n => exact (h.called_notification n).append (by simp)
  | calledBy handler n =>
    refine (h.called_notification n).append fun handler' call n' hmem => ?_
    cases List.mem_singleton.mp hmem
    exact List.getElem?_concat_length
  | taken hqueue => exact (h.taken hqueue).append (by simp)
  | accepted hi => exact (h.progressed hi .accepted nofun).append (by simp)
  | finished result hi =>
    refine (h.append (by simp [SendTask.mem_completed])).progressed hi (.finished result) ?_
    rintro result' ⟨⟩ moment hmem
    exact List.mem_append_right _ hmem
  | joined hi hresult => exact (h.joined hi hresult).append (by simp)

end Sends

namespace ChainStep

/-- A call returns in a handler that runs, when its responder has been completed. -/
theorem of_resumed (hstep : ChainStep c moments c') {handler call : Nat}
    {result : Except (ServiceError E) Unit} (hmem : .resumed handler call result ∈ moments) :
    handler ∈ c.running ∧ (call, result) ∈ c.acknowledgements := by
  cases hstep with
  | resumed hrunning hack =>
    cases List.mem_singleton.mp hmem
    exact ⟨hrunning, hack⟩
  | finished => simp [SendTask.mem_completed] at hmem
  | _ => simp at hmem

/-- A response is handed over when it comes out of the sink channel. -/
theorem of_responded (hstep : ChainStep c moments c') {handler : Nat}
    {message : TxJsonRpcMessage R} (hmem : .responded handler message ∈ moments) :
    moments = [.responded handler message] ∧ (handler, message) ∈ c.sinkProxyRx := by
  cases hstep with
  | responded hsink =>
    cases List.mem_singleton.mp hmem
    exact ⟨rfl, by rw [hsink]; exact List.mem_cons_self⟩
  | finished => simp [SendTask.mem_completed] at hmem
  | _ => simp at hmem

theorem notifications (hstep : ChainStep c moments c') {call : Nat} {n : R.Not}
    (h : c.notifications[call]? = some n) : c'.notifications[call]? = some n := by
  cases hstep with
  | called n' => exact getElem?_concat_of_some h n'
  | calledBy _ n' => exact getElem?_concat_of_some h n'
  | _ => exact h

theorem sentAnswers (hstep : ChainStep c moments c') :
    c'.sentAnswers = c.sentAnswers ++ respondedMessages moments := by
  cases hstep with
  | @finished i task result hi =>
    have hnone : respondedMessages (task.completed result) = [] := by
      unfold SendTask.completed respondedMessages
      cases task.job <;> rfl
    simp [hnone]
  | _ => simp [respondedMessages]

/-- A split of the history at a response is at the new one, or a split of the history before. -/
theorem split (hstep : ChainStep c moments c') {handler : Nat} {message : TxJsonRpcMessage R}
    {before after : List (Moment R E)}
    (heq : log ++ moments = before ++ .responded handler message :: after) :
    (before = log ∧ moments = [.responded handler message]) ∨
      ∃ after', log = before ++ .responded handler message :: after' := by
  rcases List.append_eq_append_iff.mp heq with ⟨middle, rfl, hmoments⟩ | ⟨middle, rfl, hafter⟩
  · have hmem : .responded handler message ∈ moments := by
      rw [hmoments]
      simp
    obtain ⟨hone, -⟩ := hstep.of_responded hmem
    rw [hone] at hmoments
    cases middle with
    | nil => exact .inl ⟨List.append_nil _, hone⟩
    | cons => simp at hmoments
  · cases middle with
    | nil =>
      have hmem : .responded handler message ∈ moments := by
        rw [← List.nil_append moments, ← hafter]
        exact List.mem_cons_self
      exact .inl ⟨(List.append_nil _).symm, (hstep.of_responded hmem).1⟩
    | cons x middle =>
      cases hafter
      exact .inr ⟨middle, rfl⟩

end ChainStep

theorem Completed.step {call : Nat} (h : Completed log c call) (hstep : ChainStep c moments c') :
    Completed log c' call := by
  obtain ⟨n, hn, hmem⟩ := h
  exact ⟨n, hstep.notifications hn, hmem⟩

/-- A handler that has been answered is not running, so it gets nothing any more. -/
theorem Responses.step (h : Responses log c) (hhandlers : Handlers log c) (hsends : Sends log c)
    (hstep : ChainStep c moments c') : Responses (log ++ moments) c' := by
  refine ⟨fun handler call hmem => ?_, fun handler message before after heq => ?_, ?_⟩
  · rcases List.mem_append.mp hmem with hold | hnew
    · exact ((h.resumed handler call hold).step hstep).append moments
    · obtain ⟨-, hack⟩ := hstep.of_resumed hnew
      exact ((hsends.acknowledged call hack).step hstep).append moments
  · rcases hstep.split heq with ⟨rfl, hone⟩ | ⟨after', rfl⟩
    · obtain ⟨-, hsink⟩ := hstep.of_responded (by rw [hone]; exact List.mem_singleton_self _)
      refine ⟨hhandlers.answers _ (List.mem_append_right _ hsink), fun call hmem => ?_⟩
      rcases List.mem_append.mp hmem with hold | hnew
      · exact (h.resumed handler call hold).step hstep
      · simp [hone] at hnew
    · obtain ⟨⟨id, result, hreturned, hanswer⟩, hcompleted⟩ :=
        h.responded handler message before after' rfl
      refine ⟨⟨id, result, hreturned, hanswer⟩, fun call hmem => ?_⟩
      rcases List.mem_append.mp hmem with hold | hnew
      · exact (hcompleted call hold).step hstep
      · obtain ⟨hrunning, -⟩ := hstep.of_resumed hnew
        exact absurd hrunning
          (hhandlers.gone handler id result (List.mem_append_left _ hreturned)).1
  · rw [hstep.sentAnswers, ← h.sent]
    exact List.filterMap_append

end Rmcp.Service
