import Rmcp.Session.Replay

/-!
# What is sent in a session

The log of a run: the request-wise channels that are established, and every message that is
sent on a cached sender, as it goes out. The messages of a channel are those since it was
last established.

Results:
1. `step_senders`: what a step does to the cached senders and to what their receivers are
   given, together with what it adds to the log.
-/

namespace Rmcp.Session

variable {P : Payloads}

/-! ## The log -/

inductive LogEntry (P : Payloads)
  | established (id : HttpRequestId)
  | sent (id : Option HttpRequestId) (m : ServerSessionMessage P)

/-- The cached sender that a message of the handler goes out on. -/
def SessionWorker.outlet (w : SessionWorker P) (message : ServerJsonRpcMessage P) :
    Option (Option HttpRequestId × CachedTx P) :=
  match w.resolveOutboundChannel message with
  | .ok .common => some (none, w.common)
  | .ok (.requestWise id _) => (w.txRouter.get id).map fun channel => (some id, channel.tx)
  | .error _ => none

/-- What an action adds to the log. -/
def Vars.logs (s : Vars P) : Action P → List (LogEntry P)
  | .httpService .establishRequestWiseChannel => [.established s.worker.nextHttpRequestId]
  | .handler message =>
    match (s.worker.catchResponse message).outlet message with
    | some (id, c) => [.sent id (c.stamp message)]
    | none => []
  | _ => []

/-- The log of a run. -/
def sessionLog (config : SessionConfig) (as : List (Action P)) : List (LogEntry P) :=
  observed Vars.logs config as

/-- The messages of a channel after one more entry. -/
def LogEntry.next (id : Option HttpRequestId) (ms : List (ServerSessionMessage P)) :
    LogEntry P → List (ServerSessionMessage P)
  | .established h => if id = some h then [] else ms
  | .sent id' m => if id = id' then ms ++ [m] else ms

/-- The messages that were sent on a channel since it was last established. -/
def sentOn (id : Option HttpRequestId) (log : List (LogEntry P)) : List (ServerSessionMessage P) :=
  log.foldl (LogEntry.next id) []

/-- The message of an entry about the channel `id`. -/
def LogEntry.on? (id : Option HttpRequestId) : LogEntry P → Option (ServerSessionMessage P)
  | .established _ => none
  | .sent id' m => if id = id' then some m else none

/-- All messages that were ever sent on the channel `id`. -/
def everSentOn (id : Option HttpRequestId) (log : List (LogEntry P)) :
    List (ServerSessionMessage P) :=
  log.filterMap (LogEntry.on? id)

theorem sentOn_concat (id : Option HttpRequestId) (log : List (LogEntry P)) (e : LogEntry P) :
    sentOn id (log ++ [e]) = e.next id (sentOn id log) := by
  simp [sentOn]

theorem everSentOn_concat (id : Option HttpRequestId) (log : List (LogEntry P)) (e : LogEntry P) :
    everSentOn id (log ++ [e]) = everSentOn id log ++ (e.on? id).toList := by
  simp [everSentOn, List.filterMap_append, List.filterMap_cons]
  cases e.on? id <;> rfl

/-! ## What the senders of a worker have -/

section Senders

variable {config : SessionConfig} {w : SessionWorker P} {channels : Channels P}

theorem SendersOk.tx_lt (h : SendersOk config w channels) {id : Option HttpRequestId}
    {c : CachedTx P} (hc : w.cachedTx id = some c) : c.tx < channels.next := by
  cases id with
  | none =>
    obtain rfl := Option.some.inj hc
    exact h.common_lt
  | some id =>
    obtain ⟨channel, hget, rfl⟩ := Option.map_eq_some_iff.mp hc
    exact h.channel_lt id channel hget

theorem SendersOk.tx_inj (h : SendersOk config w channels) {id id' : Option HttpRequestId}
    {c c' : CachedTx P} (hc : w.cachedTx id = some c) (hc' : w.cachedTx id' = some c')
    (heq : c.tx = c'.tx) : id = id' := by
  cases id with
  | none =>
    obtain rfl := Option.some.inj hc
    cases id' with
    | none => rfl
    | some id' =>
      obtain ⟨channel', hget', rfl⟩ := Option.map_eq_some_iff.mp hc'
      exact absurd heq.symm (h.channel_ne id' channel' hget')
  | some id =>
    obtain ⟨channel, hget, rfl⟩ := Option.map_eq_some_iff.mp hc
    cases id' with
    | none =>
      obtain rfl := Option.some.inj hc'
      exact absurd heq (h.channel_ne id channel hget)
    | some id' =>
      obtain ⟨channel', hget', rfl⟩ := Option.map_eq_some_iff.mp hc'
      rw [h.channel_inj id id' channel channel' hget hget' heq]

end Senders

/-! ## What a step does to the senders -/

/-- The cached senders of `w'` are those of `w`, but that of `id` is `c`. -/
def SessionWorker.Replaced (w : SessionWorker P) (id : Option HttpRequestId) (c : CachedTx P)
    (w' : SessionWorker P) : Prop :=
  ∀ id₁ c₁, w'.cachedTx id₁ = some c₁ →
    (id₁ = id ∧ c₁ = c) ∨ (id₁ ≠ id ∧ w.cachedTx id₁ = some c₁)

/-- What a step does to the senders and the receivers, and what it adds to the log. -/
inductive SendersStep (s : Vars P) : List (LogEntry P) → Vars P → Prop
  /-- Nothing is sent, and no channel is made. -/
  | quiet {s' : Vars P} :
      (∀ id c, s'.worker.cachedTx id = some c → s.worker.cachedTx id = some c) →
      (∀ rx, s'.channels.offered rx = s.channels.offered rx) →
      s'.channels.next = s.channels.next →
      s'.worker.nextHttpRequestId = s.worker.nextHttpRequestId → SendersStep s [] s'
  | sent {s' : Vars P} {id : Option HttpRequestId} {c : CachedTx P}
      {message : ServerJsonRpcMessage P} :
      s.worker.cachedTx id = some c →
      s.worker.Replaced id (c.remember (c.stamp message)) s'.worker →
      (∀ rx, s'.channels.offered rx =
        if rx = c.tx then s.channels.offered rx ++ [c.stamp message] else s.channels.offered rx) →
      s'.channels.next = s.channels.next →
      s'.worker.nextHttpRequestId = s.worker.nextHttpRequestId →
      SendersStep s [.sent id (c.stamp message)] s'
  | established {s' : Vars P} {c : CachedTx P} :
      c.cache = [] → c.tx = s.channels.next →
      s.worker.Replaced (some s.worker.nextHttpRequestId) c s'.worker →
      (∀ rx, s'.channels.offered rx = if rx = s.channels.next then [] else s.channels.offered rx) →
      s'.channels.next = s.channels.next + 1 →
      s'.worker.nextHttpRequestId = s.worker.nextHttpRequestId + 1 →
      SendersStep s [.established s.worker.nextHttpRequestId] s'
  /-- A new receiver is given the cache from some message on. -/
  | resumed {s' : Vars P} {id : Option HttpRequestId} {c : CachedTx P} (q : Nat) :
      s.worker.cachedTx id = some c →
      s.worker.Replaced id { c with tx := s.channels.next } s'.worker →
      (∀ rx, s'.channels.offered rx =
        if rx = s.channels.next then c.cache.drop q else s.channels.offered rx) →
      s'.channels.next = s.channels.next + 1 →
      s'.worker.nextHttpRequestId = s.worker.nextHttpRequestId → SendersStep s [] s'

namespace SessionWorker

theorem Rewired.cachedTx {w w' : SessionWorker P} {ops : List RouterOp} (h : w.Rewired ops w')
    {id : Option HttpRequestId} {c : CachedTx P} (hc : w'.cachedTx id = some c) :
    w.cachedTx id = some c := by
  cases id with
  | none => exact (congrArg some h.common_eq.symm).trans hc
  | some id =>
    obtain ⟨channel', hget', rfl⟩ := Option.map_eq_some_iff.mp hc
    obtain ⟨channel, hget, htx⟩ := h.tx_eq id channel' hget'
    simp [SessionWorker.cachedTx, hget, htx]

theorem replaced_insert (w : SessionWorker P) (id : HttpRequestId) (channel : HttpRequestWise P) :
    w.Replaced (some id) channel.tx { w with txRouter := w.txRouter.insert id channel } := by
  intro id₁ c₁ hc₁
  cases id₁ with
  | none => exact .inr ⟨by simp, hc₁⟩
  | some id₁ =>
    obtain ⟨channel₁, hget, rfl⟩ := Option.map_eq_some_iff.mp hc₁
    rw [HashMap.get_insert] at hget
    split at hget
    · next heq =>
      cases hget
      exact .inl ⟨congrArg some heq, rfl⟩
    · next hne => exact .inr ⟨fun heq => hne (Option.some.inj heq), by simp [cachedTx, hget]⟩

theorem replaced_common (w : SessionWorker P) (common : CachedTx P) :
    w.Replaced none common { w with common } := by
  intro id₁ c₁ hc₁
  cases id₁ with
  | none => exact .inl ⟨rfl, (Option.some.inj hc₁).symm⟩
  | some id₁ => exact .inr ⟨by simp, hc₁⟩

/-- Only the senders of `w` count. -/
theorem Replaced.of_cachedTx {w₀ w w' : SessionWorker P} {id : Option HttpRequestId}
    {c : CachedTx P} (h : w.Replaced id c w')
    (hw : ∀ id c, w.cachedTx id = some c → w₀.cachedTx id = some c) : w₀.Replaced id c w' :=
  fun id₁ c₁ hc₁ => (h id₁ c₁ hc₁).imp_right fun hold => ⟨hold.1, hw id₁ c₁ hold.2⟩

end SessionWorker

theorem CachedTx.offered_send {c c' : CachedTx P} {channels channels' : Channels P}
    {message : ServerJsonRpcMessage P} (h : c.send channels message = .ok (c', channels'))
    (rx : Nat) :
    channels'.offered rx =
      if rx = c.tx then channels.offered rx ++ [c.stamp message] else channels.offered rx := by
  obtain ⟨-, ok, hsend⟩ := CachedTx.send_eq_ok h
  rw [Mpsc.offered_send hsend]
  split
  · next heq => rw [heq]
  · rfl

/-- A new receiver is given the end of the cache, and no other receiver is given anything. -/
theorem offered_resumeOn {config : SessionConfig} {c c' : CachedTx P}
    {channels channels' : Channels P} {index : UInt64} {result : Except SessionError Nat}
    (hroom : c.cache.length ≤ config.channelCapacity)
    (h : SessionWorker.resumeOn c config.channelCapacity channels index =
      .ok (result, c', channels')) :
    ∃ q, ∀ rx, channels'.offered rx =
      if rx = channels.next then c.cache.drop q else channels.offered rx := by
  have hnothing : c.cache.drop c.cache.length = [] := List.drop_length
  have hnew := channels.offered_channel config.channelCapacity
  obtain ⟨⟨result₁, channels₁⟩, hsync, h⟩ := Exec.bind_eq_ok.mp h
  replace hsync : CachedTx.sync { c with tx := channels.next }
    (channels.channel config.channelCapacity).2 index = .ok (result₁, channels₁) := hsync
  suffices hsynced : ∃ q, ∀ rx, channels₁.offered rx =
      if rx = channels.next then c.cache.drop q else channels.offered rx by
    obtain ⟨q, hq⟩ := hsynced
    refine ⟨q, fun rx => ?_⟩
    rw [← hq]
    cases result₁ <;> cases h <;> simp
  unfold CachedTx.sync at hsync
  split at hsync
  · cases hsync
    refine ⟨c.cache.length, fun rx => ?_⟩
    rw [hnothing, ← hnew]
  · next front _ =>
    simp only [] at hsync
    split at hsync
    · cases hsync
      refine ⟨c.cache.length, fun rx => ?_⟩
      rw [hnothing, ← hnew]
    · refine ⟨index.toNat - front.eventId.index.toNat, ?_⟩
      generalize index.toNat - front.eventId.index.toNat = q at hsync ⊢
      obtain ⟨⟨result₂, channels₂⟩, hsend, hsync⟩ := Exec.bind_eq_ok.mp hsync
      have hfits : (c.cache.drop q).length ≤ config.channelCapacity := by
        rw [List.length_drop]
        exact (Nat.sub_le _ _).trans hroom
      obtain ⟨channels₃, hall, hoffered⟩ := channels.sendAll_fresh hfits
      rw [hall] at hsend
      cases hsend
      cases hsync
      intro rx
      split
      · next heq => rw [heq, hoffered]
      · next hne =>
        rw [Mpsc.offered_sendAll_of_ne hall hne, hnew, if_neg hne]

/-- The handler's message is sent on its outlet, if it has one. -/
theorem Vars.sendersStep_fromHandler {s s' : Vars P} {message : ServerJsonRpcMessage P}
    {result : Except SessionError Unit} (h : s.fromHandler message = .ok (result, s')) :
    SendersStep s (s.logs (.handler message)) s' := by
  obtain ⟨⟨result₁, worker, channels⟩, hhandle, h⟩ := Exec.bind_eq_ok.mp h
  cases h
  have hcaught := s.worker.rewired_catchResponse message
  obtain ⟨out, hout, hhandle⟩ := Exec.bind_eq_ok.mp hhandle
  rcases SessionWorker.resolveOutboundChannel_cases hout with rfl | ⟨k, id, rfl, -⟩
  · simp only [Vars.logs, SessionWorker.outlet, hout]
    obtain ⟨⟨common, channels₁⟩, hsend, hhandle⟩ := Exec.bind_eq_ok.mp hhandle
    cases hhandle
    have hoffered := CachedTx.offered_send hsend
    obtain ⟨rfl, ok, hsend⟩ := CachedTx.send_eq_ok hsend
    exact .sent (hcaught.cachedTx rfl)
      ((SessionWorker.replaced_common _ _).of_cachedTx fun _ _ => hcaught.cachedTx) hoffered
      (Mpsc.next_send hsend) hcaught.next_eq
  · simp only [] at hhandle
    cases hget : (s.worker.catchResponse message).txRouter.get id with
    | none =>
      simp only [hget] at hhandle
      cases hhandle
      simp only [Vars.logs, SessionWorker.outlet, hout, hget, Option.map_none]
      refine .quiet (fun _ _ => hcaught.cachedTx) (fun _ => rfl) rfl ?_
      exact hcaught.next_eq
    | some channel =>
      simp only [hget] at hhandle
      obtain ⟨⟨tx, channels₁⟩, hsend, hhandle⟩ := Exec.bind_eq_ok.mp hhandle
      cases hhandle
      have hoffered := CachedTx.offered_send hsend
      obtain ⟨rfl, ok, hsend⟩ := CachedTx.send_eq_ok hsend
      have hc : (s.worker.catchResponse message).cachedTx (some id) = some channel.tx := by
        simp [SessionWorker.cachedTx, hget]
      simp only [Vars.logs, SessionWorker.outlet, hout, hget, Option.map_some]
      refine .sent (hcaught.cachedTx hc)
        ((SessionWorker.replaced_insert _ _ _).of_cachedTx fun _ _ => hcaught.cachedTx) hoffered
        (Mpsc.next_send hsend) ?_
      exact hcaught.next_eq

theorem Vars.sendersStep_resume {config : SessionConfig} {s : Vars P} {w' : SessionWorker P}
    {channels' : Channels P} {lastEventId : EventId}
    {result : Except SessionError StreamableHttpMessageReceiver}
    (hsenders : SendersOk config s.worker s.channels)
    (h : s.worker.resume s.channels lastEventId = .ok (result, w', channels')) :
    SendersStep s [] { s with worker := w', channels := channels' } := by
  unfold SessionWorker.resume at h
  simp only [hsenders.config_eq] at h
  split at h
  · next id _ =>
    split at h
    · cases h
      exact .quiet (fun _ _ hc => hc) (fun _ => rfl) rfl rfl
    · next channel hget =>
      obtain ⟨⟨result₁, tx, channels₁⟩, hon, h⟩ := Exec.bind_eq_ok.mp h
      cases h
      obtain ⟨q, hoffered⟩ := offered_resumeOn (hsenders.channel id channel hget).length_le hon
      obtain ⟨rfl, hnext⟩ := resumeOn_eq_ok hon
      have hc : s.worker.cachedTx (some id) = some channel.tx := by
        simp [SessionWorker.cachedTx, hget]
      exact .resumed q hc (SessionWorker.replaced_insert _ _ _) hoffered hnext rfl
  · obtain ⟨⟨result₁, common, channels₁⟩, hon, h⟩ := Exec.bind_eq_ok.mp h
    cases h
    obtain ⟨q, hoffered⟩ := offered_resumeOn hsenders.common.length_le hon
    obtain ⟨rfl, hnext⟩ := resumeOn_eq_ok hon
    exact .resumed q rfl (SessionWorker.replaced_common _ _) hoffered hnext rfl

/-- What a step does to the cached senders, and what it adds to the log. -/
theorem step_senders {config : SessionConfig} {s s' : Vars P} {a : Action P}
    (hsenders : SendersOk config s.worker s.channels) (h : VarsStep s a s') :
    SendersStep s (s.logs a) s' := by
  cases h with
  | @environment move s' hmove =>
    cases move <;> simp only [Vars.environment] at hmove
    case receive | dropReceiver =>
      split at hmove <;> cases hmove
      exact .quiet (fun _ _ hc => hc) (fun _ => by simp) rfl rfl
    all_goals
      cases hmove
      exact .quiet (fun _ _ hc => hc) (fun _ => rfl) rfl rfl
  | initializeRequest => exact .quiet (fun _ _ hc => hc) (fun _ => rfl) rfl rfl
  | initializeResponse => exact .quiet (fun _ _ hc => hc) (fun _ => rfl) rfl rfl
  | handler hmessage => exact Vars.sendersStep_fromHandler hmessage
  | @httpService event reply s' hevent =>
    cases event with
    | clientMessage message httpRequestId =>
      obtain ⟨⟨ok, toHandler⟩, -, hevent⟩ := Exec.bind_eq_ok.mp hevent
      cases ok <;> cases hevent
      have hregistered := s.worker.rewired_registerMessage httpRequestId message
      exact .quiet (fun _ _ => hregistered.cachedTx) (fun _ => rfl) rfl hregistered.next_eq
    | establishRequestWiseChannel =>
      cases hevent
      exact .established rfl rfl (SessionWorker.replaced_insert _ _ _)
        (fun rx => s.channels.offered_channel _ rx) rfl rfl
    | closeRequestWiseChannel id =>
      cases hevent
      refine .quiet (fun id₁ c hc => ?_) (fun _ => rfl) rfl rfl
      cases id₁ with
      | none => exact hc
      | some id₁ =>
        obtain ⟨channel, hget, rfl⟩ := Option.map_eq_some_iff.mp hc
        rw [HashMap.get_remove] at hget
        split at hget
        · cases hget
        · simp [SessionWorker.cachedTx, hget]
    | resume lastEventId =>
      obtain ⟨⟨result, worker, channels⟩, hresume, hevent⟩ := Exec.bind_eq_ok.mp hevent
      cases hevent
      exact Vars.sendersStep_resume hsenders hresume
    | initializeRequest request =>
      cases hevent
      exact .quiet (fun _ _ hc => hc) (fun _ => rfl) rfl rfl
    | close => cases hevent

end Rmcp.Session
