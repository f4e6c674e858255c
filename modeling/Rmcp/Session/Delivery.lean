import Rmcp.Session.Senders

/-!
# Where answers go

The loop unregisters the request of a response or an error before it looks for the channel
of the message. So the route of the request is gone when the message is sent, and every
answer goes to the common channel.

Results:
1. `answer_on_common`: an answer to a request of an open channel is pushed on the common
   channel and not on that one.
2. `answer_misrouted`: such a run.
-/

namespace Rmcp.Session

variable {P : Payloads}

/-- The message was pushed on the channel of the sender `tx`, and nothing on any other. -/
def PushedOnlyOn (channels channels' : Channels P) (tx : Nat) (message : ServerJsonRpcMessage P) :
    Prop :=
  (∃ eventId, channels'.offered tx = channels.offered tx ++ [⟨eventId, message⟩]) ∧
    ∀ i, i ≠ tx → channels'.offered i = channels.offered i

/-- A message is pushed on one channel only. -/
theorem PushedOnlyOn.unique {channels channels' : Channels P} {tx tx' : Nat}
    {message : ServerJsonRpcMessage P} (h : PushedOnlyOn channels channels' tx message)
    (h' : PushedOnlyOn channels channels' tx' message) : tx = tx' := by
  by_contra hne
  obtain ⟨eventId, hpushed⟩ := h.1
  have hlength := congrArg List.length (hpushed.symm.trans (h'.2 tx hne))
  simp at hlength

theorem CachedTx.pushedOnlyOn_send {c c' : CachedTx P} {channels channels' : Channels P}
    {message : ServerJsonRpcMessage P} (h : c.send channels message = .ok (c', channels')) :
    PushedOnlyOn channels channels' c.tx message := by
  obtain ⟨-, ok, hsend⟩ := CachedTx.send_eq_ok h
  have hoffered := Mpsc.offered_send hsend
  exact ⟨⟨_, (hoffered c.tx).trans (if_pos rfl)⟩, fun i hi => (hoffered i).trans (if_neg hi)⟩

namespace SessionWorker

/-- After `unregister_resource` the resource is routed nowhere. -/
theorem outboundOf_unregisterResource (w : SessionWorker P) (k : ResourceKey) :
    (w.unregisterResource k).outboundOf k = .common := by
  have hroute : (w.unregisterResource k).registry.owner.get k = none := by
    rw [registry_unregisterResource]
    simp
  have hget : (w.unregisterResource k).resourceRouter.get k = none := hroute
  simp [outboundOf, hget]

/-- So an answer finds no channel of its own. -/
theorem resolveOutboundChannel_answer (w : SessionWorker P) {message : ServerJsonRpcMessage P}
    {id : RequestId} (hid : message.answeredId = some id) :
    (w.catchResponse message).resolveOutboundChannel message = .ok .common := by
  cases message with
  | response r => exact congrArg _ (w.outboundOf_unregisterResource (.mcpRequestId r.id))
  | error e => exact congrArg _ (w.outboundOf_unregisterResource (.mcpRequestId e.id))
  | request _ => cases hid
  | notification _ => cases hid
  | batchRequest _ => cases hid
  | batchResponse _ => cases hid

end SessionWorker

/-- An answer is pushed on the common channel. -/
theorem Vars.pushed_answer {s s' : Vars P} {message : ServerJsonRpcMessage P} {id : RequestId}
    {result : Except SessionError Unit} (hid : message.answeredId = some id)
    (h : s.fromHandler message = .ok (result, s')) :
    PushedOnlyOn s.channels s'.channels s.worker.common.tx message := by
  obtain ⟨⟨result₁, worker, channels⟩, hhandle, h⟩ := Exec.bind_eq_ok.mp h
  cases h
  obtain ⟨out, hout, hhandle⟩ := Exec.bind_eq_ok.mp hhandle
  rw [s.worker.resolveOutboundChannel_answer hid] at hout
  cases hout
  obtain ⟨⟨common, channels₁⟩, hsend, hhandle⟩ := Exec.bind_eq_ok.mp hhandle
  cases hhandle
  rw [← (s.worker.rewired_catchResponse message).common_eq]
  exact CachedTx.pushedOnlyOn_send hsend

/-- A response or an error is pushed on the common channel, and on no open channel `h`: also
not on the one that its request was registered through. -/
theorem answer_on_common {config : SessionConfig} {as : List (Action P)} {s s' : Vars P}
    (hrun : Runs config as s) {message : ServerJsonRpcMessage P} {id : RequestId}
    {h : HttpRequestId} {channel : HttpRequestWise P} {result : Except SessionError Unit}
    (hid : message.answeredId = some id) (hopen : s.worker.txRouter.get h = some channel)
    (hstep : s.fromHandler message = .ok (result, s')) :
    PushedOnlyOn s.channels s'.channels s.worker.common.tx message ∧
      ¬ PushedOnlyOn s.channels s'.channels channel.tx.tx message := by
  have hcommon := Vars.pushed_answer hid hstep
  refine ⟨hcommon, fun hown => ?_⟩
  exact hrun.senders.channel_ne h channel hopen (hown.unique hcommon)

/-- A request is posted on its own channel. -/
def postedRun : List (Action bare) :=
  handshake ++ [.httpService .establishRequestWiseChannel, post 1 .staticEmpty 0]

theorem answer_on_common_postedRun : ∃ (s s' : Vars bare) (channel : HttpRequestWise bare)
    (result : Except SessionError Unit), Runs .default postedRun s ∧
    s.worker.resourceRouter.get (.mcpRequestId (.number 1)) = some 0 ∧
    s.worker.txRouter.get 0 = some channel ∧ s.fromHandler (answer 1) = .ok (result, s') ∧
    PushedOnlyOn s.channels s'.channels s.worker.common.tx (answer 1) := by
  have hrun : ∃ (s s' : Vars bare) (channel : HttpRequestWise bare)
      (result : Except SessionError Unit), Runs .default postedRun s ∧
      s.worker.resourceRouter.get (.mcpRequestId (.number 1)) = some 0 ∧
      s.worker.txRouter.get 0 = some channel ∧ s.fromHandler (answer 1) = .ok (result, s') :=
    ⟨_, _, _, _, Transition.run_of_exec rfl, rfl, rfl, rfl⟩
  obtain ⟨s, s', channel, result, hrun, hroute, hopen, hstep⟩ := hrun
  have hid : (answer 1).answeredId = some (.number 1) := rfl
  exact ⟨s, s', channel, result, hrun, hroute, hopen, hstep,
    (answer_on_common hrun hid hopen hstep).1⟩

/-- The channel of the posted request gets nothing when the request is answered. -/
theorem answer_misrouted : ∃ (s s' : Vars bare) (channel : HttpRequestWise bare),
    Runs .default postedRun s ∧
    s.worker.resourceRouter.get (.mcpRequestId (.number 1)) = some 0 ∧
    s.worker.txRouter.get 0 = some channel ∧ s.fromHandler (answer 1) = .ok (.ok (), s') ∧
    ¬ PushedOnlyOn s.channels s'.channels channel.tx.tx (answer 1) := by
  have hrun : ∃ (s s' : Vars bare) (channel : HttpRequestWise bare),
      Runs .default postedRun s ∧
      s.worker.resourceRouter.get (.mcpRequestId (.number 1)) = some 0 ∧
      s.worker.txRouter.get 0 = some channel ∧ s.fromHandler (answer 1) = .ok (.ok (), s') ∧
      s'.channels.offered channel.tx.tx = s.channels.offered channel.tx.tx :=
    ⟨_, _, _, Transition.run_of_exec rfl, rfl, rfl, rfl, rfl⟩
  obtain ⟨s, s', channel, hrun, hroute, hopen, hstep, hsame⟩ := hrun
  refine ⟨s, s', channel, hrun, hroute, hopen, hstep, fun hpushed => ?_⟩
  obtain ⟨eventId, hpushed⟩ := hpushed.1
  have hlength := congrArg List.length (hsame.symm.trans hpushed)
  simp at hlength

end Rmcp.Session
