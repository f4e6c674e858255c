import Rmcp.Service.Turn
import Rmcp.Support.Since

/-!
# Responses to the peer

A request of the peer is received, its handler runs and returns, the answer waits for the
sink channel, waits in it, and is handed over to the transport. A request is in at most one
of these places, and the answer is the one that its handler returned.

The token of a request is in the pool from the turn that receives the request to the first
turn that cancels it or takes its answer from the sink channel.

Results:
1. `Runs.answered`: handlers, returned results and answers are accounted for.
2. `Runs.answers_perm`: an answer for each return, wherever it waits.
3. `Runs.received_perm`: what the loop received came in alone or in a batch.
4. `response_per_request`: one answer for each request at most, none of them dropped, and the
   token pool.
-/

namespace Rmcp.Service

variable {R : ServiceRole} {E : Type}

/-- The requests that a message of the peer carries, alone or in a batch. -/
def requestIds : RxJsonRpcMessage R → List RequestId
  | .request r => [r.id]
  | .batchRequest items => items.filterMap fun
    | .request r => some r.id
    | .notification _ => none
  | .response _ | .notification _ | .batchResponse _ | .error _ => []

/-- The requests that the loop has received. -/
def received (history : List (Event R E)) : List RequestId :=
  history.filterMap Event.receives?

theorem received_concat (history : List (Event R E)) (e : Event R E) :
    received (history ++ [e]) = received history ++ e.receives?.toList :=
  History.filterMap_concat ..

namespace Serve

/-- The answers, from the handler's return on. -/
def answers (s : Serve R E) : List (TxJsonRpcMessage R) :=
  s.responding ++ s.sinkProxyRx ++ s.sentAnswers

/-- The requests whose handlers run or have returned. -/
def handled (s : Serve R E) : List RequestId :=
  s.handlers.map (·.context.id) ++ s.returned.map (·.1)

/-- The answers that the handlers returned. -/
def returnedAnswers (s : Serve R E) : List (TxJsonRpcMessage R) :=
  s.returned.map fun p => answerOf p.1 p.2

@[simp] theorem answeredId_answerOf (id : RequestId) (result : Except ErrorData R.Resp) :
    (answerOf id result).answeredId = some id := by
  cases result <;> rfl

end Serve

/-! ## Handlers and answers -/

/-- There is a handler for each request at most, and an answer for each return at most. -/
structure Answered (s : Serve R E) : Prop where
  handled : s.handled.Subperm (received s.history)
  answers : s.answers.Subperm s.returnedAnswers

theorem Answered.start (first token : UInt32) : Answered (Serve.start first token : Serve R E) :=
  ⟨.refl _, .refl _⟩

/-- A handler returns: its request stays handled, and there is one answer more. -/
theorem Answered.handlerReturns {s : Serve R E} (h : Answered s) {i : Nat} {handler : Handler R}
    (hi : s.handlers[i]? = some handler) (result : Except ErrorData R.Resp) :
    Answered
      { s with
        handlers := s.handlers.eraseIdx i
        responding := s.responding ++ [Serve.answerOf handler.context.id result]
        returned := s.returned ++ [(handler.context.id, result)] } := by
  have hid : (s.handlers.map (·.context.id))[i]? = some handler.context.id := by simp [hi]
  have hmove := move_perm (m := s.returned.map (·.1)) hid
  constructor
  · refine List.Subperm.trans (List.Perm.subperm ?_) h.handled
    simpa [Serve.handled, List.eraseIdx_map] using hmove
  · have hanswers : ((s.responding ++ [Serve.answerOf handler.context.id result]) ++
        s.sinkProxyRx ++ s.sentAnswers).Perm
        (s.answers ++ [Serve.answerOf handler.context.id result]) := by
      simp only [Serve.answers, List.append_assoc]
      rw [← List.append_assoc s.sinkProxyRx]
      exact List.perm_append_comm.append_left _
    refine hanswers.subperm.trans ?_
    simp only [Serve.returnedAnswers, List.map_append]
    exact (List.subperm_append_right _).mpr h.answers

theorem Answered.moved {s s' : Serve R E} (h : Answered s) (hmoved : Moved s s') :
    Answered s' := by
  cases hmoved with
  | returned result hi => exact h.handlerReturns hi result
  | aborted i =>
    have hsub := ((List.eraseIdx_sublist s.handlers i).map (·.context.id)).append_right
      (s.returned.map (·.1))
    exact ⟨hsub.subperm.trans h.handled, h.answers⟩
  | responded hi =>
    have hmove := (move_perm (m := s.sinkProxyRx) hi).append_right s.sentAnswers
    exact ⟨h.handled, hmove.subperm.trans h.answers⟩
  | _ => exact ⟨h.handled, h.answers⟩

/-- What a turn takes from the sink channel is not an answer there any more. -/
theorem Taken.answers {s s₀ : Serve R E} {e : Event R E} (h : Taken s e s₀) :
    (s₀.answers ++ e.answer?.toList).Subperm s.answers := by
  cases h with
  | @toSink m sinkProxyRx _ hsink =>
    have hold : s.answers = s.responding ++ (m :: (sinkProxyRx ++ s.sentAnswers)) := by
      simp [Serve.answers, hsink]
    have hnew : ∀ l, (s.responding ++ sinkProxyRx ++ s.sentAnswers ++ l).Perm
        (s.responding ++ (l ++ (sinkProxyRx ++ s.sentAnswers))) := by
      intro l
      simp only [List.append_assoc]
      rw [← List.append_assoc sinkProxyRx]
      exact List.perm_append_comm.append_left _
    rw [hold]
    refine (hnew _).subperm.trans ((List.subperm_append_left _).mpr ?_)
    show ((if m.answeredId.isSome then some m else none).toList ++ _).Subperm _
    split
    · exact .refl _
    · exact (List.sublist_cons_self ..).subperm
  | batchMessage => exact (List.append_nil s.answers).symm ▸ .refl _
  | received => exact (List.append_nil s.answers).symm ▸ .refl _
  | proxied => exact (List.append_nil s.answers).symm ▸ .refl _
  | sendJoined => exact (List.append_nil s.answers).symm ▸ .refl _

/-- A turn starts a handler for the request that it receives, and moves an answer from the
sink channel to the transport. -/
theorem Answered.turn {s s₀ s' : Serve R E} {e : Event R E} (h : Answered s)
    (htaken : Taken s e s₀) (hturn : TurnSpec s₀ e s') : Answered s' := by
  have hhandled : s'.handled.Perm (s₀.handled ++ e.receives?.toList) := by
    simp only [Serve.handled, hturn.handlers_eq, hturn.returned_eq, List.append_assoc]
    exact List.perm_append_comm.append_left _
  have hanswers : s'.answers = s₀.answers ++ e.answer?.toList := by
    simp [Serve.answers, hturn.responding_eq, hturn.sinkProxyRx_eq, hturn.sentAnswers_eq]
  have hkept : s₀.handled = s.handled ∧ s₀.returnedAnswers = s.returnedAnswers := by
    cases htaken <;> exact ⟨rfl, rfl⟩
  constructor
  · rw [hturn.history_eq, received_concat, htaken.kept.history_eq]
    refine hhandled.subperm.trans ((List.subperm_append_right _).mpr ?_)
    rw [hkept.1]
    exact h.handled
  · rw [hanswers, Serve.returnedAnswers, hturn.returned_eq]
    exact (htaken.answers.trans h.answers).trans (hkept.2 ▸ .refl _)

theorem Runs.answered {first token : UInt32} {as : List (Action R E)} {s : Serve R E}
    (hrun : Runs first token as s) : Answered s := by
  refine hrun.invariant (P := fun _ s => Answered s) (Answered.start first token) ?_
  intro as s s' a _ h hstep
  rcases step_cases hstep with hmoved | ⟨e, s₀, htaken, hturn⟩ | ⟨reason, rfl⟩
  · exact h.moved hmoved
  · exact h.turn htaken hturn
  · exact ⟨h.handled, h.answers⟩

/-- What waits in the sink channel are answers. -/
theorem Runs.isSome_answeredId {first token : UInt32} {as : List (Action R E)} {s : Serve R E}
    (hrun : Runs first token as s) {m : TxJsonRpcMessage R} (hm : m ∈ s.sinkProxyRx) :
    m.answeredId.isSome := by
  have hmem : m ∈ s.answers :=
    List.mem_append_left _ (List.mem_append_right _ hm)
  obtain ⟨⟨id, result⟩, -, rfl⟩ := List.mem_map.mp ((Runs.answered hrun).answers.subset hmem)
  simp

/-- What a turn takes from the sink channel, it hands over. -/
theorem length_answers_turn {s s₀ s' : Serve R E} {e : Event R E} (htaken : Taken s e s₀)
    (hturn : TurnSpec s₀ e s') (hsink : ∀ m ∈ s.sinkProxyRx, m.answeredId.isSome) :
    s'.answers.length = s.answers.length := by
  have hlength : s'.answers.length = s₀.answers.length + e.answer?.toList.length := by
    simp only [Serve.answers, hturn.responding_eq, hturn.sinkProxyRx_eq, hturn.sentAnswers_eq,
      List.length_append]
    omega
  rw [hlength]
  cases htaken with
  | @toSink m sinkProxyRx _ hqueue =>
    have hm : m.answeredId.isSome := hsink m (by simp [hqueue])
    simp only [Serve.answers, Serve.sentAnswers, hqueue, Event.answer?, hm, if_true,
      Option.toList_some, List.length_append, List.length_cons, List.length_nil]
    omega
  | batchMessage | received | proxied | sendJoined => rfl

/-- No answer is lost between the return of its handler and the transport. -/
theorem Runs.answers_perm {first token : UInt32} {as : List (Action R E)} {s : Serve R E}
    (hrun : Runs first token as s) : s.answers.Perm s.returnedAnswers := by
  refine (Runs.answered hrun).answers.perm_of_length_le ?_
  refine hrun.invariant (P := fun _ s => s.returnedAnswers.length ≤ s.answers.length)
    (Nat.le_refl _) ?_
  intro as s s' a hrun h hstep
  rcases step_cases hstep with hmoved | ⟨e, s₀, htaken, hturn⟩ | ⟨reason, rfl⟩
  · cases hmoved with
    | returned result hi =>
      simp only [Serve.answers, Serve.returnedAnswers, Serve.sentAnswers, List.length_append,
        List.length_map, List.length_cons, List.length_nil] at h ⊢
      omega
    | responded hanswer =>
      have hmove := (move_perm (m := s.sinkProxyRx) hanswer).length_eq
      simp only [Serve.answers, Serve.returnedAnswers, Serve.sentAnswers, List.length_append,
        List.length_map, List.length_cons, List.length_nil] at h hmove ⊢
      omega
    | _ => exact h
  · rw [length_answers_turn htaken hturn fun m hm => Runs.isSome_answeredId hrun hm]
    have hreturned : s₀.returned = s.returned := by cases htaken <;> rfl
    rw [Serve.returnedAnswers, hturn.returned_eq, hreturned]
    exact h
  · exact h

/-! ## What was received -/

/-- An event receives the request of its message, and puts those of a batch aside. -/
theorem requestIds_eq (m : RxJsonRpcMessage R) :
    (Event.peerMessage m : Event R E).receives?.toList ++
      (Event.peerMessage m : Event R E).batchItems.flatMap requestIds = requestIds m := by
  cases m with
  | batchRequest items =>
    show (items.map (·.intoNonBatchMessage)).flatMap requestIds = requestIds (.batchRequest items)
    rw [List.flatMap_map, requestIds, List.filterMap_eq_flatMap_toList]
    congr 1
    funext item
    cases item <;> rfl
  | batchResponse items =>
    show (items.map (·.intoNonBatchMessage)).flatMap requestIds = []
    rw [List.flatMap_map, List.flatMap_eq_nil_iff]
    intro item _
    cases item <;> rfl
  | _ => rfl

/-- What the loop has received, and what waits of a batch, is what came in. -/
theorem Runs.received_perm {first token : UInt32} {as : List (Action R E)} {s : Serve R E}
    (hrun : Runs first token as s) :
    (received s.history ++ s.batchMessages.flatMap requestIds).Perm
      (s.inbound.flatMap requestIds) := by
  refine hrun.invariant (P := fun _ s => (received s.history ++
    s.batchMessages.flatMap requestIds).Perm (s.inbound.flatMap requestIds)) (.refl _) ?_
  intro as s s' a _ h hstep
  rcases step_cases hstep with hmoved | ⟨e, s₀, htaken, hturn⟩ | ⟨reason, rfl⟩
  · have hbeside := hmoved.beside
    rw [hbeside.history_eq, hbeside.batchMessages_eq, hbeside.inbound_eq]
    exact h
  · rw [hturn.history_eq, received_concat, hturn.batchMessages_eq, hturn.inbound_eq,
      List.flatMap_append]
    cases htaken with
    | @batchMessage m batchMessages hbatch =>
      have hids := requestIds_eq (E := E) m
      rw [hbatch, List.flatMap_cons, ← hids] at h
      refine List.Perm.trans ?_ h
      simp only [List.append_assoc]
      refine .append_left _ (.append_left _ ?_)
      exact List.perm_append_comm
    | @received m hbatch =>
      have hids := requestIds_eq (E := E) m
      rw [hbatch, List.flatMap_nil, List.append_nil] at h
      rw [hbatch, List.flatMap_nil, List.nil_append, List.append_assoc, hids, List.flatMap_append,
        List.flatMap_singleton]
      exact h.append_right _
    | toSink => simpa [Event.receives?, Event.batchItems] using h
    | proxied => simpa [Event.receives?, Event.batchItems] using h
    | sendJoined => simpa [Event.receives?, Event.batchItems] using h
  · exact h

/-! ## The pool of tokens -/

/-- A token is in the pool since its request was received, until the turn that ends it. -/
theorem Runs.ctPool {first token : UInt32} {as : List (Action R E)} {s : Serve R E}
    (hrun : Runs first token as s) (r : RequestId) :
    (s.localCtPool.get r).isSome ↔
      History.Since (fun e => e.receives? = some r) (fun e => e.ends? = some r) s.history := by
  refine hrun.invariant (P := fun _ s => (s.localCtPool.get r).isSome ↔
    History.Since (fun e => e.receives? = some r) (fun e => e.ends? = some r) s.history) ?_ ?_
  · simp [Serve.start, HashMap.get_empty, History.not_since_nil]
  intro as s s' a _ h hstep
  rcases step_cases hstep with hmoved | ⟨e, s₀, htaken, hturn⟩ | ⟨reason, rfl⟩
  · have hbeside := hmoved.beside
    rw [hbeside.ctPool_eq, hbeside.history_eq]
    exact h
  · rw [hturn.history_eq, hturn.ctPool_eq, htaken.kept.history_eq, htaken.kept.ctPool_eq,
      History.since_concat, ← h]
    cases hreceives : e.receives? with
    | some id => 
      have hends := Event.ends?_of_receives? hreceives
      by_cases hid : r = id
      · simp [hid]
      · simp [hid, Ne.symm hid, hends, HashMap.get_insert]
    | none =>
      cases hends : e.ends? with
      | some id =>
        by_cases hid : r = id
        · simp [hid]
        · simp [hid, Ne.symm hid, HashMap.get_remove]
      | none => simp
  · exact h

/-! ## The answers of a run -/

theorem Answered.sentAnswers {s : Serve R E} (h : Answered s) :
    s.sentAnswers.Subperm s.returnedAnswers :=
  (List.sublist_append_right ..).subperm.trans h.answers

theorem Answered.returned {s : Serve R E} (h : Answered s) :
    (s.returned.map (·.1)).Subperm (received s.history) :=
  (List.sublist_append_right ..).subperm.trans h.handled

theorem Serve.answeredId_returnedAnswers (s : Serve R E) :
    s.returnedAnswers.filterMap (·.answeredId) = s.returned.map (·.1) := by
  simp [Serve.returnedAnswers, List.filterMap_map]

/-- For each request of the peer at most one answer is handed over, the one that its handler
returned. Whatever was cancelled, an answer that was returned waits or was handed over: the turn
of a cancellation changes nothing about the answers, and the later turns drop none of them. It
takes the token out of the pool. -/
theorem response_per_request {first token : UInt32} {as : List (Action R E)} {s : Serve R E}
    (hrun : Runs first token as s) (hids : (s.inbound.flatMap requestIds).Nodup) :
    (s.sentAnswers.filterMap (·.answeredId)).Nodup ∧
    (∀ m ∈ s.sentAnswers, ∃ id ∈ s.inbound.flatMap requestIds, ∃ result,
      m = Serve.answerOf id result ∧ ∀ result', (id, result') ∈ s.returned ↔ result' = result) ∧
    (∀ n cancelled, R.peerTryIntoCancelled n = .ok cancelled →
      let s' := s.turn (.peerMessage (.notification ⟨n⟩))
      s'.handlers = s.handlers ∧ s'.responding = s.responding ∧
        s'.sinkProxyRx = s.sinkProxyRx ∧ s'.sent = s.sent) ∧
    (s.responding ++ s.sinkProxyRx ++ s.sentAnswers).Perm s.returnedAnswers ∧
    ∀ r, (s.localCtPool.get r).isSome ↔
      History.Since (fun e => e.receives? = some r) (fun e => e.ends? = some r) s.history := by
  have hanswered := Runs.answered hrun
  -- the requests that were received are some of those that came in, so they are different
  have hreceived : (received s.history).Subperm (s.inbound.flatMap requestIds) :=
    (List.sublist_append_left ..).subperm.trans (Runs.received_perm hrun).subperm
  have hreturned := hanswered.returned.trans hreceived
  have hnodup := nodup_of_subperm hreturned hids
  refine ⟨?_, ?_, ?_, Runs.answers_perm hrun, Runs.ctPool hrun⟩
  · have hsub := subperm_filterMap (·.answeredId) hanswered.sentAnswers
    rw [s.answeredId_returnedAnswers] at hsub
    exact nodup_of_subperm hsub hnodup
  · intro m hm
    obtain ⟨⟨id, result⟩, hp, rfl⟩ := List.mem_map.mp (hanswered.sentAnswers.subset hm)
    refine ⟨id, hreturned.subset (List.mem_map.mpr ⟨_, hp, rfl⟩), result, rfl, fun result' => ?_⟩
    constructor
    · intro hp'
      exact (Prod.mk.inj (List.inj_on_of_nodup_map hnodup hp' hp rfl)).2
    · rintro rfl
      exact hp
  · intro n cancelled hn
    obtain ⟨cancelledTokens, heq⟩ := s.cancelToken_eq cancelled.params.requestId
    simp [Serve.turn, Serve.handle, Serve.handlePeerMessage, hn, heq]

/-- Two requests come in, one of them in a batch and cancelled; both are answered. -/
def batchRun : List (Action bareClient Unit) :=
  [.received (.batchRequest [.request ⟨.number 1, Meta.staticEmpty⟩]), .batchMessage,
    .received (.request ⟨.number 2, Meta.staticEmpty⟩), .handlerReturns 1 (.ok ()),
    .received (.notification ⟨.cancelledNotification ⟨⟨.number 1, none⟩, ⟨none⟩⟩⟩),
    .handlerReturns 0 (.ok ()), .responseQueued 1, .responseQueued 0, .toSink, .toSink]

theorem response_per_request_batchRun : ∃ s : Serve bareClient Unit, Runs 0 0 batchRun s ∧
    (s.inbound.flatMap requestIds).Nodup ∧
    s.sentAnswers.filterMap (·.answeredId) = [.number 1, .number 2] ∧
    (s.sentAnswers.filterMap (·.answeredId)).Nodup ∧
    (s.responding ++ s.sinkProxyRx ++ s.sentAnswers).Perm s.returnedAnswers := by
  have hrun : ∃ s : Serve bareClient Unit, Runs 0 0 batchRun s ∧
      s.inbound.flatMap requestIds = [.number 1, .number 2] ∧
      s.sentAnswers.filterMap (·.answeredId) = [.number 1, .number 2] :=
    ⟨_, Transition.run_of_exec rfl, rfl, rfl⟩
  obtain ⟨s, hrun, hinbound, hsent⟩ := hrun
  have hids : (s.inbound.flatMap requestIds).Nodup := by
    rw [hinbound]
    decide
  obtain ⟨hnodup, -, -, hkept, -⟩ := response_per_request hrun hids
  exact ⟨s, hrun, hids, hsent, hnodup, hkept⟩

end Rmcp.Service
