import Rmcp.Session.Delivery
import Rmcp.Session.Log

/-!
# Where a cancellation of the server goes

A request of the server is pushed on the common channel. A cancellation is looked up in the
routes of the requests of the client, whose ids are counted apart from those of the server
but are of the same type. So it leaves the common channel as soon as a request of the client
with the same id is routed.

Results:
1. `pushed_request`: a request of the server is pushed on the common channel only.
2. `cancellation_follows_iff`: when its cancellation is pushed on the same channel.
3. `cancellation_misrouted`: a run in which it is not.
-/

namespace Rmcp.Session

variable {P : Payloads}

/-- From `s` to `s'` the message was pushed on the channel `id`, and on no other. -/
def PushedOn (s s' : Vars P) (id : Option HttpRequestId) (message : ServerJsonRpcMessage P) :
    Prop :=
  ∃ c, s.worker.cachedTx id = some c ∧ PushedOnlyOn s.channels s'.channels c.tx message

theorem PushedOn.unique {config : SessionConfig} {s s' : Vars P}
    (hsenders : SendersOk config s.worker s.channels) {id id' : Option HttpRequestId}
    {message : ServerJsonRpcMessage P} (h : PushedOn s s' id message)
    (h' : PushedOn s s' id' message) : id = id' := by
  obtain ⟨c, hc, hpushed⟩ := h
  obtain ⟨c', hc', hpushed'⟩ := h'
  exact hsenders.tx_inj hc hc' (hpushed.unique hpushed')

/-- A message of the handler that is routed nowhere is pushed on the common channel. -/
theorem Vars.pushedOn_common {s s' : Vars P} {message : ServerJsonRpcMessage P}
    {result : Except SessionError Unit} (hcaught : s.worker.catchResponse message = s.worker)
    (hout : s.worker.resolveOutboundChannel message = .ok .common)
    (h : s.fromHandler message = .ok (result, s')) : PushedOn s s' none message := by
  obtain ⟨⟨result₁, worker, channels⟩, hhandle, h⟩ := Exec.bind_eq_ok.mp h
  cases h
  rw [hcaught] at hhandle
  obtain ⟨out, hout₁, hhandle⟩ := Exec.bind_eq_ok.mp hhandle
  rw [hout] at hout₁
  cases hout₁
  obtain ⟨⟨common, channels₁⟩, hsend, hhandle⟩ := Exec.bind_eq_ok.mp hhandle
  cases hhandle
  exact ⟨s.worker.common, rfl, CachedTx.pushedOnlyOn_send hsend⟩

/-- One that is routed to a channel is not pushed on the common channel. -/
theorem Vars.not_pushedOn_common {config : SessionConfig} {s s' : Vars P}
    (hsenders : SendersOk config s.worker s.channels) {message : ServerJsonRpcMessage P}
    {id : HttpRequestId} {close : Bool} {result : Except SessionError Unit}
    (hcaught : s.worker.catchResponse message = s.worker)
    (hout : s.worker.resolveOutboundChannel message = .ok (.requestWise id close))
    (h : s.fromHandler message = .ok (result, s')) : ¬ PushedOn s s' none message := by
  rintro ⟨c, hc, hcommon⟩
  obtain rfl := Option.some.inj hc
  obtain ⟨⟨result₁, worker, channels⟩, hhandle, h⟩ := Exec.bind_eq_ok.mp h
  cases h
  rw [hcaught] at hhandle
  obtain ⟨out, hout₁, hhandle⟩ := Exec.bind_eq_ok.mp hhandle
  rw [hout] at hout₁
  cases hout₁
  simp only [] at hhandle
  split at hhandle
  · next channel hget =>
    obtain ⟨⟨tx, channels₁⟩, hsend, hhandle⟩ := Exec.bind_eq_ok.mp hhandle
    cases hhandle
    have hown := CachedTx.pushedOnlyOn_send hsend
    exact hsenders.channel_ne id channel hget (hown.unique hcommon)
  · -- the route leads to a closed channel, and nothing is pushed
    cases hhandle
    obtain ⟨eventId, hpushed⟩ := hcommon.1
    have hlength := congrArg List.length hpushed
    simp at hlength

/-- A request of the server is pushed on the common channel, and on no other. -/
theorem pushed_request {config : SessionConfig} {s s' : Vars P}
    (hsenders : SendersOk config s.worker s.channels) {request : JsonRpcRequest P.ServerRequest}
    {result : Except SessionError Unit} (h : s.fromHandler (.request request) = .ok (result, s'))
    (id : Option HttpRequestId) : PushedOn s s' id (.request request) ↔ id = none := by
  have hcommon : PushedOn s s' none (.request request) := Vars.pushedOn_common rfl rfl h
  constructor
  · exact fun hid => hid.unique hsenders hcommon
  · rintro rfl
    exact hcommon

/-- The cancellation of a request of the server is pushed on the channel that the request was
pushed on exactly when no request of the client with the same id is routed. -/
theorem cancellation_follows_iff {config : SessionConfig} {before after : List (Action P)}
    {s₀ s₁ s s' : Vars P} {request : JsonRpcRequest P.ServerRequest} {n : CancelledNotification}
    {result₁ result : Except SessionError Unit} (hrun₀ : Runs config before s₀)
    (hrequest : s₀.fromHandler (.request request) = .ok (result₁, s₁))
    (hrun : Runs config (before ++ .handler (.request request) :: after) s)
    (hn : n.params.requestId = request.id)
    (hcancel : s.fromHandler (.notification ⟨.cancelledNotification n⟩) = .ok (result, s')) :
    (∃ id, PushedOn s₀ s₁ id (.request request) ∧
      PushedOn s s' id (.notification ⟨.cancelledNotification n⟩)) ↔
      s.worker.resourceRouter.get (.mcpRequestId request.id) = none := by
  have hout : s.worker.resolveOutboundChannel (.notification ⟨.cancelledNotification n⟩) =
      .ok (s.worker.outboundOf (.mcpRequestId request.id)) :=
    hn ▸ rfl
  constructor
  · rintro ⟨id, hpushed, hfollows⟩
    obtain rfl := (pushed_request hrun₀.senders hrequest id).mp hpushed
    rcases s.worker.outboundOf_cases (.mcpRequestId request.id) with hcommon | ⟨id, hid, -⟩
    · cases hroute : s.worker.resourceRouter.get (.mcpRequestId request.id) with
      | none => rfl
      | some id => simp [SessionWorker.outboundOf, hroute] at hcommon
    · rw [hid] at hout
      exact absurd hfollows (Vars.not_pushedOn_common hrun.senders rfl hout hcancel)
  · intro hroute
    have hcommon : s.worker.outboundOf (.mcpRequestId request.id) = .common := by
      simp [SessionWorker.outboundOf, hroute]
    rw [hcommon] at hout
    exact ⟨none, (pushed_request hrun₀.senders hrequest none).mpr rfl,
      Vars.pushedOn_common rfl hout hcancel⟩

/-- The handler cancels the request `id`. -/
def cancellation (id : UInt32) : CancelledNotification := ⟨⟨.number id, none⟩, ⟨none⟩⟩

/-- A request of the client is posted on its own channel, and the handler asks the client
something. -/
def askingRun (id : UInt32) : List (Action bare) :=
  postedRun ++ [.handler (.request ⟨.number id, ()⟩)]

theorem cancellation_follows_askingRun : ∃ s₀ s₁ s s' : Vars bare,
    Runs .default postedRun s₀ ∧ s₀.fromHandler (.request ⟨.number 0, ()⟩) = .ok (.ok (), s₁) ∧
    Runs .default (askingRun 0) s ∧
    s.fromHandler (.notification ⟨.cancelledNotification (cancellation 0)⟩) = .ok (.ok (), s') ∧
    ∃ id, PushedOn s₀ s₁ id (.request ⟨.number 0, ()⟩) ∧
      PushedOn s s' id (.notification ⟨.cancelledNotification (cancellation 0)⟩) := by
  have hrun : ∃ s₀ s₁ s s' : Vars bare,
      Runs .default postedRun s₀ ∧
      s₀.fromHandler (.request ⟨.number 0, ()⟩) = .ok (.ok (), s₁) ∧
      Runs .default (askingRun 0) s ∧
      s.fromHandler (.notification ⟨.cancelledNotification (cancellation 0)⟩) =
        .ok (.ok (), s') ∧
      s.worker.resourceRouter.get (.mcpRequestId (.number 0)) = none :=
    ⟨_, _, _, _, Transition.run_of_exec rfl, rfl, Transition.run_of_exec rfl, rfl, rfl⟩
  obtain ⟨s₀, s₁, s, s', hrun₀, hrequest, hrun, hcancel, hroute⟩ := hrun
  exact ⟨s₀, s₁, s, s', hrun₀, hrequest, hrun, hcancel,
    (cancellation_follows_iff hrun₀ hrequest hrun rfl hcancel).mpr hroute⟩

/-- The client has posted a request with the same id, and its channel is given the
cancellation. -/
theorem cancellation_misrouted : ∃ s₀ s₁ s s' : Vars bare,
    Runs .default postedRun s₀ ∧ s₀.fromHandler (.request ⟨.number 1, ()⟩) = .ok (.ok (), s₁) ∧
    Runs .default (askingRun 1) s ∧
    s.fromHandler (.notification ⟨.cancelledNotification (cancellation 1)⟩) = .ok (.ok (), s') ∧
    ¬ ∃ id, PushedOn s₀ s₁ id (.request ⟨.number 1, ()⟩) ∧
      PushedOn s s' id (.notification ⟨.cancelledNotification (cancellation 1)⟩) := by
  have hrun : ∃ s₀ s₁ s s' : Vars bare,
      Runs .default postedRun s₀ ∧
      s₀.fromHandler (.request ⟨.number 1, ()⟩) = .ok (.ok (), s₁) ∧
      Runs .default (askingRun 1) s ∧
      s.fromHandler (.notification ⟨.cancelledNotification (cancellation 1)⟩) =
        .ok (.ok (), s') ∧
      s'.channels.offered s.worker.common.tx = s.channels.offered s.worker.common.tx :=
    ⟨_, _, _, _, Transition.run_of_exec rfl, rfl, Transition.run_of_exec rfl, rfl, rfl⟩
  obtain ⟨s₀, s₁, s, s', hrun₀, hrequest, hrun, hcancel, hsame⟩ := hrun
  refine ⟨s₀, s₁, s, s', hrun₀, hrequest, hrun, hcancel, ?_⟩
  rintro ⟨id, hpushed, hfollows⟩
  obtain rfl := (pushed_request hrun₀.senders hrequest id).mp hpushed
  obtain ⟨c, hc, hcommon⟩ := hfollows
  obtain rfl := Option.some.inj hc
  obtain ⟨eventId, hcommon⟩ := hcommon.1
  have hlength := congrArg List.length (hsame.symm.trans hcommon)
  simp at hlength

end Rmcp.Session
