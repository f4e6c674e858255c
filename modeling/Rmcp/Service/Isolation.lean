import Rmcp.Service.Turn

/-!
# Cancellation tokens of running handlers

The token of a request sits in the pool under the id that the peer chose. A second request
with the same id puts its own token in its place, so a cancellation misses the first handler,
and the answer of the first one cancels the second. As long as no request comes in under an
id that is busy, every handler has its token in the pool, or it is cancelled already.

Results:
1. `step_tokens`: what a step does to handlers and tokens.
2. `Tokens.step`: what a request under a free id keeps.
3. `handlers_isolated`: a handler is cancelled only by name, and always by name.
4. `second_request_cancelled`: a run with a busy id in which it is not so.
-/

namespace Rmcp.Service

variable {R : ServiceRole} {E : Type}

namespace Serve

/-! ## Reading an action -/

/-- The message of the peer that the loop takes up. -/
def peerMessage? (s : Serve R E) : Action R E → Option (RxJsonRpcMessage R)
  | .batchMessage => s.batchMessages.head?
  | .received m => some m
  | _ => none

/-- The request of the peer that the peer cancels. -/
def peerCancels? (s : Serve R E) (a : Action R E) : Option RequestId :=
  (s.peerMessage? a).bind fun m => (Event.peerMessage m : Event R E).cancels?

/-- The requests whose answers are on their way to the loop. -/
def waiting (s : Serve R E) : List RequestId :=
  (s.responding ++ s.sinkProxyRx).filterMap (·.answeredId)

/-- The requests that have a running handler, or an answer that was not handed over yet. -/
def busy (s : Serve R E) : List RequestId := s.handlers.map (·.context.id) ++ s.waiting

/-- A token is cancelled by itself or with the loop. -/
def Cancelled (s : Serve R E) (ct : Nat) : Prop := ct ∈ s.cancelledTokens ∨ s.loopCancelled = true

theorem mem_cancelToken (s : Serve R E) (id : RequestId) (ct : Nat) :
    ct ∈ (s.cancelToken id).cancelledTokens ↔
      ct ∈ s.cancelledTokens ∨ s.localCtPool.get id = some ct := by
  unfold cancelToken
  cases h : s.localCtPool.get id with
  | none => simp
  | some ct' =>
    rw [Finset.mem_insert, or_comm]
    exact or_congr_right ⟨fun h => h ▸ rfl, fun h => (Option.some.inj h).symm⟩

end Serve

/-! ## What a step does to the tokens -/

/-- What a step does to handlers and tokens. -/
inductive TokenStep (s : Serve R E) (a : Action R E) (s' : Serve R E) : Prop
  /-- Handlers may end, and answers move on. -/
  | other :
      s.peerCancels? a = none → s'.handlers.Sublist s.handlers → s'.busy.Subperm s.busy →
      s'.localCtPool = s.localCtPool → s'.cancelledTokens = s.cancelledTokens →
      s'.nextToken = s.nextToken → (s.loopCancelled = true → s'.loopCancelled = true) →
      TokenStep s a s'
  | spawned (r : JsonRpcRequest R.PeerReq) (h : Handler R) :
      s.peerMessage? a = some (.request r) → h.context.id = r.id → h.context.ct = s.nextToken →
      s'.handlers = s.handlers ++ [h] → s'.waiting = s.waiting →
      s'.localCtPool = s.localCtPool.insert r.id s.nextToken →
      s'.cancelledTokens = s.cancelledTokens → s'.nextToken = s.nextToken + 1 →
      s'.loopCancelled = s.loopCancelled → TokenStep s a s'
  /-- A cancellation of the peer, or an answer that is handed over. -/
  | ended (id : RequestId) :
      s.peerCancels? a = some id ∨ (s.peerCancels? a = none ∧ id ∈ s.waiting) →
      s'.handlers = s.handlers → s'.busy.Subperm s.busy →
      s'.localCtPool = s.localCtPool.remove id →
      (∀ ct, ct ∈ s'.cancelledTokens ↔
        ct ∈ s.cancelledTokens ∨ s.localCtPool.get id = some ct) →
      s'.nextToken = s.nextToken → s'.loopCancelled = s.loopCancelled → TokenStep s a s'

theorem background_tokens {s s' : Serve R E} {a : Action R E} (h : s.background a = some s') :
    TokenStep s a s' := by
  have hnone : s.peerCancels? a = none := by
    cases a <;> first | rfl | cases h
  cases background_moved h with
  | @returned i handler result hi =>
    refine .other hnone (List.eraseIdx_sublist ..) ?_ rfl rfl rfl id
    have hid : (s.handlers.map (·.context.id))[i]? = some handler.context.id := by simp [hi]
    have hmove := move_perm (m := s.waiting) hid
    refine List.Perm.subperm (.trans ?_ hmove)
    simp only [Serve.busy, Serve.waiting, List.eraseIdx_map, List.filterMap_append,
      List.append_assoc]
    refine .append_left _ (.append_left _ ?_)
    have hanswer : [Serve.answerOf handler.context.id result].filterMap
        (·.answeredId) = [handler.context.id] := by
      cases result <;> rfl
    rw [hanswer]
    exact List.perm_append_comm
  | aborted i =>
    refine .other hnone (List.eraseIdx_sublist ..) ?_ rfl rfl rfl id
    exact (((List.eraseIdx_sublist s.handlers i).map _).append_right s.waiting).subperm
  | responded hi =>
    refine .other hnone (.refl _) ?_ rfl rfl rfl id
    have hmove := (move_perm (m := s.sinkProxyRx) hi).filterMap (·.answeredId)
    exact (hmove.append_left _).subperm
  | loopCancelled => exact .other hnone (.refl _) (.refl _) rfl rfl rfl fun _ => rfl
  | _ => exact .other hnone (.refl _) (.refl _) rfl rfl rfl id

/-- A message of the peer, taken from its batch or from the transport. -/
theorem tokenStep_peerMessage (s : Serve R E) {a : Action R E} {m : RxJsonRpcMessage R}
    (hm : s.peerMessage? a = some m) (batchMessages inbound : List (RxJsonRpcMessage R)) :
    TokenStep s a ({ s with batchMessages, inbound }.turn (.peerMessage m)) := by
  have hcancels : s.peerCancels? a = (Event.peerMessage m : Event R E).cancels? := by
    simp [Serve.peerCancels?, hm]
  cases m with
  | request r => exact .spawned r _ hm rfl rfl rfl rfl rfl rfl rfl rfl
  | notification n =>
    cases hn : R.peerTryIntoCancelled n.notification with
    | error notification =>
      simp only [Event.cancels?, hn] at hcancels
      simp only [Serve.turn, Serve.handle, Serve.handlePeerMessage, hn]
      exact .other hcancels (.refl _) (.refl _) rfl rfl rfl id
    | ok cancelled =>
      simp only [Event.cancels?, hn] at hcancels
      have hmem := ({ s with batchMessages, inbound } : Serve R E).mem_cancelToken
        cancelled.params.requestId
      obtain ⟨cancelledTokens, heq⟩ := ({ s with batchMessages, inbound } : Serve R E).cancelToken_eq
        cancelled.params.requestId
      simp only [heq] at hmem
      simp only [Serve.turn, Serve.handle, Serve.handlePeerMessage, hn, heq]
      exact .ended cancelled.params.requestId (.inl hcancels) rfl (.refl _) rfl hmem rfl rfl
  | response r =>
    simp only [Serve.turn, Serve.handle, Serve.handlePeerMessage, Serve.complete_eq]
    exact .other hcancels (.refl _) (.refl _) rfl rfl rfl id
  | error e =>
    simp only [Serve.turn, Serve.handle, Serve.handlePeerMessage, Serve.complete_eq]
    exact .other hcancels (.refl _) (.refl _) rfl rfl rfl id
  | batchRequest items => exact .other hcancels (.refl _) (.refl _) rfl rfl rfl id
  | batchResponse items => exact .other hcancels (.refl _) (.refl _) rfl rfl rfl id

theorem tokenStep_toSink (s : Serve R E) {m : TxJsonRpcMessage R}
    {sinkProxyRx : List (TxJsonRpcMessage R)} (hsink : s.sinkProxyRx = m :: sinkProxyRx) :
    TokenStep s .toSink ({ s with sinkProxyRx }.turn (.toSink m)) := by
  have hbusy : (s.handlers.map (·.context.id) ++
      (s.responding ++ sinkProxyRx).filterMap (·.answeredId)).Subperm s.busy := by
    have hsub : (s.responding ++ sinkProxyRx).Sublist (s.responding ++ s.sinkProxyRx) :=
      hsink ▸ (List.sublist_cons_self m sinkProxyRx).append_left s.responding
    exact ((hsub.filterMap _).append_left _).subperm
  cases hid : m.answeredId with
  | none =>
    simp only [Serve.turn, Serve.handle, Serve.handleToSink, hid]
    exact .other rfl (.refl _) hbusy rfl rfl rfl id
  | some id =>
    have hwaiting : id ∈ s.waiting := List.mem_filterMap.mpr ⟨m, by simp [hsink], hid⟩
    have hmem := ({ s with sinkProxyRx } : Serve R E).mem_cancelToken id
    obtain ⟨cancelledTokens, heq⟩ := ({ s with sinkProxyRx } : Serve R E).cancelToken_eq id
    simp only [heq] at hmem
    simp only [Serve.turn, Serve.handle, Serve.handleToSink, Serve.spawnResponse, hid, heq]
    exact .ended id (.inr ⟨rfl, hwaiting⟩) rfl hbusy rfl hmem rfl rfl

theorem loop_tokens {s s' : Serve R E} {a : Action R E} (h : s.loop a = some s') :
    TokenStep s a s' := by
  cases loop_step h with
  | batchMessage hbatch => exact tokenStep_peerMessage s (by simp [Serve.peerMessage?, hbatch]) _ _
  | received => exact tokenStep_peerMessage s rfl _ _
  | toSink _ hsink => exact tokenStep_toSink s hsink
  | @proxied m =>
    cases m with
    | request request id responder =>
      exact .other rfl (.refl _) (.refl _) rfl rfl rfl fun h => h
    | notification notification responder =>
      cases hn : R.tryIntoCancelled notification <;>
        simp only [Serve.turn, Serve.handle, Serve.handleProxyMessage, hn] <;>
        exact .other rfl (.refl _) (.refl _) rfl rfl rfl id
  | @sendJoined task message job result =>
    simp only [Serve.turn, Serve.handle]
    cases job with
    | request id =>
      cases result <;>
        simp only [SendJob.done, Serve.handleSendTaskResult, Serve.complete_eq] <;>
        exact .other rfl (.refl _) (.refl _) rfl rfl rfl fun h => h
    | notification responder param =>
      cases param <;>
        simp only [SendJob.done, Serve.handleSendTaskResult, Serve.complete_eq] <;>
        exact .other rfl (.refl _) (.refl _) rfl rfl rfl id
  | inputClosed | joinFailed | cancelled =>
    exact .other rfl (.refl _) (.refl _) rfl rfl rfl id

theorem step_tokens {s s' : Serve R E} {a : Action R E} (h : step s a = some s') :
    TokenStep s a s' := by
  rcases background_or_loop h with hbackground | ⟨-, -, hloop⟩
  · exact background_tokens hbackground
  · exact loop_tokens hloop

/-! ## Requests under free ids -/

/-- A request that the loop takes up comes in under an id that is not busy. -/
def Serve.UsesFreeId (s : Serve R E) (a : Action R E) : Prop :=
  ∀ r, s.peerMessage? a = some (.request r) → r.id ∉ s.busy

/-- Every running handler has its token in the pool, or the token is cancelled. -/
structure Tokens (s : Serve R E) : Prop where
  registered : ∀ h ∈ s.handlers,
    s.localCtPool.get h.context.id = some h.context.ct ∨ h.context.ct ∈ s.cancelledTokens
  pool_inj : ∀ id id' ct, s.localCtPool.get id = some ct → s.localCtPool.get id' = some ct →
    id = id'
  pool_lt : ∀ id ct, s.localCtPool.get id = some ct → ct < s.nextToken
  cancelled_lt : ∀ ct ∈ s.cancelledTokens, ct < s.nextToken
  busy_nodup : s.busy.Nodup

theorem tokens_start (first token : UInt32) : Tokens (Serve.start first token : Serve R E) where
  registered := by simp [Serve.start]
  pool_inj := by simp [Serve.start]
  pool_lt := by simp [Serve.start]
  cancelled_lt := by simp [Serve.start]
  busy_nodup := by simp [Serve.start, Serve.busy, Serve.waiting]

theorem Serve.mem_busy {s : Serve R E} {h : Handler R} (hmem : h ∈ s.handlers) :
    h.context.id ∈ s.busy :=
  List.mem_append_left _ (List.mem_map.mpr ⟨h, hmem, rfl⟩)

/-- A request comes in, and nothing is overwritten in the pool that a handler still needs. -/
theorem Tokens.spawned {s s' : Serve R E} (hs : Tokens s) {r : JsonRpcRequest R.PeerReq}
    {h : Handler R} (hfree : r.id ∉ s.busy) (hid : h.context.id = r.id)
    (hct : h.context.ct = s.nextToken) (hhandlers : s'.handlers = s.handlers ++ [h])
    (hwaiting : s'.waiting = s.waiting)
    (hpool : s'.localCtPool = s.localCtPool.insert r.id s.nextToken)
    (hcancelled : s'.cancelledTokens = s.cancelledTokens)
    (hnext : s'.nextToken = s.nextToken + 1) : Tokens s' := by
  -- the new token is in the pool under the new id only
  have hnew : ∀ id ct, s'.localCtPool.get id = some ct →
      (id = r.id ∧ ct = s.nextToken) ∨ (id ≠ r.id ∧ s.localCtPool.get id = some ct) := by
    intro id ct hget
    rw [hpool, HashMap.get_insert] at hget
    split at hget
    · next heq => exact .inl ⟨heq, (Option.some.inj hget).symm⟩
    · next hne => exact .inr ⟨hne, hget⟩
  refine ⟨?_, ?_, ?_, ?_, ?_⟩
  · intro h₁ hmem
    rw [hhandlers] at hmem
    rw [hpool, hcancelled, HashMap.get_insert]
    rcases List.mem_append.mp hmem with hold | hold
    · have hne : h₁.context.id ≠ r.id := fun heq => hfree (heq ▸ Serve.mem_busy hold)
      rw [if_neg hne]
      exact hs.registered h₁ hold
    · obtain rfl := List.mem_singleton.mp hold
      rw [if_pos hid, hct]
      exact .inl rfl
  · intro id id' ct hget hget'
    rcases hnew id ct hget with ⟨rfl, rfl⟩ | ⟨-, hold⟩ <;>
      rcases hnew id' _ hget' with ⟨rfl, heq⟩ | ⟨-, hold'⟩
    · rfl
    · exact absurd (hs.pool_lt _ _ hold') (Nat.lt_irrefl _)
    · exact absurd (heq ▸ hs.pool_lt _ _ hold) (Nat.lt_irrefl _)
    · exact hs.pool_inj id id' ct hold hold'
  · intro id ct hget
    rw [hnext]
    rcases hnew id ct hget with ⟨-, rfl⟩ | ⟨-, hold⟩
    · exact Nat.lt_succ_self _
    · exact Nat.lt_succ_of_lt (hs.pool_lt id ct hold)
  · intro ct hmem
    rw [hcancelled] at hmem
    rw [hnext]
    exact Nat.lt_succ_of_lt (hs.cancelled_lt ct hmem)
  · have hperm : s'.busy.Perm (h.context.id :: s.busy) := by
      rw [Serve.busy, hhandlers, hwaiting, List.map_append, List.append_assoc]
      exact List.perm_middle
    rw [hperm.nodup_iff, hid]
    exact List.nodup_cons.mpr ⟨hfree, hs.busy_nodup⟩

/-- The token of `id` is taken out of the pool and cancelled. -/
theorem Tokens.ended {s s' : Serve R E} (hs : Tokens s) {id : RequestId}
    (hhandlers : s'.handlers = s.handlers) (hbusy : s'.busy.Subperm s.busy)
    (hpool : s'.localCtPool = s.localCtPool.remove id)
    (hcancelled : ∀ ct, ct ∈ s'.cancelledTokens ↔
      ct ∈ s.cancelledTokens ∨ s.localCtPool.get id = some ct)
    (hnext : s'.nextToken = s.nextToken) : Tokens s' := by
  have hold : ∀ id₁ ct, s'.localCtPool.get id₁ = some ct → s.localCtPool.get id₁ = some ct := by
    intro id₁ ct hget
    rw [hpool, HashMap.get_remove] at hget
    split at hget
    · cases hget
    · exact hget
  refine ⟨?_, ?_, ?_, ?_, nodup_of_subperm hbusy hs.busy_nodup⟩
  · intro h hmem
    rw [hhandlers] at hmem
    rw [hcancelled, hpool, HashMap.get_remove]
    rcases hs.registered h hmem with hget | hdone
    · split
      · next heq => exact .inr (.inr (heq ▸ hget))
      · exact .inl hget
    · exact .inr (.inl hdone)
  · exact fun id₁ id₂ ct hget₁ hget₂ =>
      hs.pool_inj id₁ id₂ ct (hold id₁ ct hget₁) (hold id₂ ct hget₂)
  · exact fun id₁ ct hget => hnext ▸ hs.pool_lt id₁ ct (hold id₁ ct hget)
  · intro ct hmem
    rw [hnext]
    rcases (hcancelled ct).mp hmem with hdone | hget
    · exact hs.cancelled_lt ct hdone
    · exact hs.pool_lt id ct hget

theorem Tokens.step {s s' : Serve R E} {a : Action R E} (hs : Tokens s) (hfree : s.UsesFreeId a)
    (hstep : TokenStep s a s') : Tokens s' := by
  cases hstep with
  | other _ hhandlers hbusy hpool hcancelled hnext _ =>
    exact
      { registered := fun h hmem => hpool ▸ hcancelled ▸ hs.registered h (hhandlers.subset hmem)
        pool_inj := hpool ▸ hs.pool_inj
        pool_lt := hpool ▸ hnext ▸ hs.pool_lt
        cancelled_lt := hcancelled ▸ hnext ▸ hs.cancelled_lt
        busy_nodup := nodup_of_subperm hbusy hs.busy_nodup }
  | spawned r h hm hid hct hhandlers hwaiting hpool hcancelled hnext _ =>
    exact hs.spawned (hfree r hm) hid hct hhandlers hwaiting hpool hcancelled hnext
  | ended id _ hhandlers hbusy hpool hcancelled hnext _ =>
    exact hs.ended hhandlers hbusy hpool hcancelled hnext

/-! ## Isolation -/

/-- In the step from `s` to `s'` a running handler is cancelled only by a cancellation of the
peer that names it or with the loop, and a cancellation of the peer cancels every running
handler that it names. -/
structure Isolated (s : Serve R E) (a : Action R E) (s' : Serve R E) : Prop where
  spared : ∀ h ∈ s'.handlers, s'.Cancelled h.context.ct →
    (h ∈ s.handlers ∧ (s.Cancelled h.context.ct ∨ s.peerCancels? a = some h.context.id)) ∨
      s'.loopCancelled = true
  named : ∀ id, s.peerCancels? a = some id → ∀ h ∈ s.handlers, h.context.id = id →
    s'.Cancelled h.context.ct

theorem Tokens.isolated {s s' : Serve R E} {a : Action R E} (hs : Tokens s)
    (hstep : TokenStep s a s') : Isolated s a s' := by
  cases hstep with
  | other hnone hhandlers _ _ hcancelled _ _ =>
    refine ⟨fun h hmem hdone => ?_, fun id hid => ?_⟩
    · rcases hdone with hdone | hloop
      · exact .inl ⟨hhandlers.subset hmem, .inl (.inl (hcancelled ▸ hdone))⟩
      · exact .inr hloop
    · rw [hnone] at hid
      cases hid
  | spawned r h₁ hm _ hct hhandlers _ _ hcancelled _ _ =>
    refine ⟨fun h hmem hdone => ?_, fun id hid => ?_⟩
    · rcases hdone with hdone | hloop
      · rw [hcancelled] at hdone
        rw [hhandlers] at hmem
        rcases List.mem_append.mp hmem with hold | hnew
        · exact .inl ⟨hold, .inl (.inl hdone)⟩
        · -- the new token is not cancelled yet
          obtain rfl := List.mem_singleton.mp hnew
          exact absurd (hct ▸ hs.cancelled_lt _ hdone) (Nat.lt_irrefl _)
      · exact .inr hloop
    · simp [Serve.peerCancels?, hm, Event.cancels?] at hid
  | ended id hcause hhandlers _ _ hcancelled _ hloop =>
    refine ⟨fun h hmem hdone => ?_, fun id' hid' h hmem hid => ?_⟩
    · rw [hhandlers] at hmem
      rcases hdone with hdone | hloop
      · refine .inl ⟨hmem, ?_⟩
        rcases (hcancelled _).mp hdone with hbefore | hget
        · exact .inl (.inl hbefore)
        · rcases hs.registered h hmem with hown | hbefore
          · obtain rfl := hs.pool_inj _ _ _ hown hget
            rcases hcause with hnamed | ⟨-, hanswered⟩
            · exact .inr hnamed
            · -- its answer is not on its way, since it still runs
              exact absurd hanswered
                (List.disjoint_of_nodup_append hs.busy_nodup (List.mem_map.mpr ⟨h, hmem, rfl⟩))
          · exact .inl (.inl hbefore)
      · exact .inr hloop
    · have hid₁ : id' = id := by
        rcases hcause with hnamed | ⟨hnone, -⟩
        · exact Option.some.inj (hid'.symm.trans hnamed)
        · rw [hnone] at hid'
          cases hid'
      refine .inl ((hcancelled _).mpr ?_)
      rcases hs.registered h hmem with hown | hbefore
      · exact .inr (hid₁ ▸ hid ▸ hown)
      · exact .inl hbefore

/-- The actions `as` lead from a new loop to `s`, and no request comes in under an id that is
busy. -/
def RunsWithFreeIds (first token : UInt32) (as : List (Action R E)) (s : Serve R E) : Prop :=
  Runs first token as s ∧ Transition.Always step Serve.UsesFreeId (Serve.start first token) as

/-- As long as no request comes in under an id whose handler runs or whose answer is not
handed over yet, the running handlers are isolated from each other. -/
theorem handlers_isolated {first token : UInt32} {as : List (Action R E)} {s s' : Serve R E}
    {a : Action R E} (hrun : RunsWithFreeIds first token as s) (hstep : step s a = some s') :
    Isolated s a s' := by
  have hs : Tokens s := by
    refine hrun.1.invariant_always (P := fun _ s => Tokens s) hrun.2 (tokens_start first token) ?_
    intro as s s' a _ h hfree hstep
    exact h.step hfree (step_tokens hstep)
  exact hs.isolated (step_tokens hstep)

/-- A request comes in. -/
def requested (id : UInt32) : Action bareClient Unit := .received (.request ⟨.number id, .staticEmpty⟩)

/-- Two requests come in, and the peer cancels the second. -/
def cancelSecond : Action bareClient Unit :=
  .received (.notification ⟨.cancelledNotification ⟨⟨.number 2, none⟩, ⟨none⟩⟩⟩)

theorem handlers_isolated_requested : ∃ s s' : Serve bareClient Unit,
    RunsWithFreeIds 0 0 [requested 1, requested 2] s ∧ step s cancelSecond = some s' ∧
    s.handlers.length = 2 ∧ Isolated s cancelSecond s' := by
  have hrun : ∃ s s' : Serve bareClient Unit, Runs 0 0 [requested 1, requested 2] s ∧
      step s cancelSecond = some s' ∧ s.handlers.length = 2 :=
    ⟨_, _, Transition.run_of_exec rfl, rfl, rfl⟩
  have hfree : Transition.Always step Serve.UsesFreeId (Serve.start 0 0)
      [requested 1, requested 2] := by
    refine ⟨?_, fun s₁ hs₁ => ⟨?_, fun _ _ => trivial⟩⟩
    · rintro r -
      simp [Serve.busy, Serve.waiting, Serve.start]
    · rintro r hr
      cases hs₁
      cases hr
      decide
  obtain ⟨s, s', hrun, hstep, hlength⟩ := hrun
  exact ⟨s, s', ⟨hrun, hfree⟩, hstep, hlength, handlers_isolated ⟨hrun, hfree⟩ hstep⟩

/-- A second request comes in under the id of one that is being handled, and then the answer
of the first. -/
def secondRequestRun : List (Action bareClient Unit) :=
  [requested 1, requested 1, .handlerReturns 0 (.ok ()), .responseQueued 0]

/-- Handing this answer over cancels the second handler, which nobody has named. -/
theorem second_request_cancelled : ∃ s s' : Serve bareClient Unit,
    Runs 0 0 secondRequestRun s ∧ step s .toSink = some s' ∧ ¬ Isolated s .toSink s' := by
  have hrun : ∃ (s s' : Serve bareClient Unit) (h : Handler bareClient),
      Runs 0 0 secondRequestRun s ∧ step s .toSink = some s' ∧ s.handlers = [h] ∧
      s'.handlers = [h] ∧ h.context.ct = 1 ∧ s.cancelledTokens = ∅ ∧ s'.cancelledTokens = {1} ∧
      s.loopCancelled = false ∧ s'.loopCancelled = false :=
    ⟨_, _, _, Transition.run_of_exec rfl, rfl, rfl, rfl, rfl, rfl, rfl, rfl, rfl⟩
  obtain ⟨s, s', h, hrun, hstep, hbefore, hafter, hct, hnone, hone, hloop, hloop'⟩ := hrun
  refine ⟨s, s', hrun, hstep, fun hisolated => ?_⟩
  have hspared := hisolated.spared h (by simp [hafter]) (.inl (by simp [hone, hct]))
  simp [Serve.Cancelled, Serve.peerCancels?, Serve.peerMessage?, hnone, hloop, hloop'] at hspared

end Rmcp.Service
