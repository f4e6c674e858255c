import Rmcp.Session.Routing

/-!
# The senders of a session

Every cached sender numbers its messages in order and keeps no more of them than its channel
has room for, and no two of them share a channel.

Results:
1. `Numbered.send`: what a send does to a cached sender.
2. `Runs.senders`: the invariant, in every reachable state of the loop.
-/

namespace Rmcp.Session

variable {P : Payloads}

/-! ## One cached sender -/

/-- Messages of the channel `id`, numbered from `first` on. -/
def Consecutive (id : Option HttpRequestId) (first : UInt64)
    (ms : List (ServerSessionMessage P)) : Prop :=
  ∀ p (hp : p < ms.length), ms[p].eventId = ⟨id, first + UInt64.ofNat p⟩

theorem Consecutive.tail {id : Option HttpRequestId} {first : UInt64}
    {ms : List (ServerSessionMessage P)} (h : Consecutive id first ms) :
    Consecutive id (first + 1) ms.tail := by
  intro p hp
  rw [List.length_tail] at hp
  rw [List.getElem_tail, h (p + 1) (by omega), UInt64.ofNat_add, UInt64.add_assoc,
    UInt64.add_comm 1]
  rfl

theorem Consecutive.concat {id : Option HttpRequestId} {first : UInt64}
    {ms : List (ServerSessionMessage P)} {m : ServerSessionMessage P} (h : Consecutive id first ms)
    (hm : m.eventId = ⟨id, first + UInt64.ofNat ms.length⟩) :
    Consecutive id first (ms ++ [m]) := by
  intro p hp
  rw [List.length_append, List.length_singleton] at hp
  by_cases hlt : p < ms.length
  · rw [List.getElem_append_left hlt]
    exact h p hlt
  · obtain rfl : p = ms.length := by omega
    simpa using hm

/-- The cache of `c`, the sender of the channel `id`, holds consecutively numbered messages of
that channel, and they fit into a new channel. -/
structure Numbered (config : SessionConfig) (id : Option HttpRequestId) (c : CachedTx P) : Prop where
  capacity_eq : c.capacity = config.channelCapacity
  httpRequestId_eq : c.httpRequestId = id
  length_le : c.cache.length ≤ config.channelCapacity
  consecutive : ∃ first, Consecutive id first c.cache

namespace CachedTx

theorem remember_cache_full {c : CachedTx P} {m : ServerSessionMessage P}
    (h : c.capacity ≤ c.cache.length) : (c.remember m).cache = c.cache.tail ++ [m] := by
  simp [remember, h]

theorem remember_cache_room {c : CachedTx P} {m : ServerSessionMessage P}
    (h : ¬ c.capacity ≤ c.cache.length) : (c.remember m).cache = c.cache ++ [m] := by
  simp [remember, h]

theorem send_eq_ok {c c' : CachedTx P} {channels channels' : Channels P}
    {message : ServerJsonRpcMessage P} (h : c.send channels message = .ok (c', channels')) :
    c' = c.remember (c.stamp message) ∧
      ∃ ok, channels.send c.tx (c.stamp message) = .ok (ok, channels') := by
  obtain ⟨⟨ok, channels₁⟩, hsend, h⟩ := Exec.bind_eq_ok.mp h
  cases h
  exact ⟨rfl, ok, hsend⟩

theorem next_sync {c : CachedTx P} {channels channels' : Channels P} {index : UInt64}
    {result : Except SessionError Unit} (h : c.sync channels index = .ok (result, channels')) :
    channels'.next = channels.next := by
  unfold sync at h
  split at h
  · cases h
    rfl
  · simp only [] at h
    split at h
    · cases h
      rfl
    · obtain ⟨⟨result₁, channels₁⟩, hsend, h⟩ := Exec.bind_eq_ok.mp h
      have hnext := Mpsc.next_sendAll hsend
      cases result₁ <;> cases h <;> exact hnext

end CachedTx

section Numbered

variable {config : SessionConfig} {id : Option HttpRequestId} {c : CachedTx P}

theorem numbered_new {channels : Channels P} {tx : Nat}
    (h : (channels.chan tx).available = config.channelCapacity) :
    Numbered config id (.new channels tx id) :=
  ⟨h, rfl, Nat.zero_le _, 0, fun _ hp => absurd hp (Nat.not_lt_zero _)⟩

/-- Giving a cached sender another channel does not touch its cache. -/
theorem Numbered.setTx (h : Numbered config id c) (tx : Nat) :
    Numbered config id { c with tx } :=
  ⟨h.capacity_eq, h.httpRequestId_eq, h.length_le, h.consecutive⟩

/-- The next message has the number after the last one. -/
theorem Numbered.nextIndex_eq (h : Numbered config id c) :
    ∃ first, Consecutive id first c.cache ∧
      c.nextIndex = first + UInt64.ofNat c.cache.length := by
  obtain ⟨first, hfirst⟩ := h.consecutive
  by_cases hnil : c.cache = []
  · refine ⟨0, fun p hp => ?_, ?_⟩
    · simp [hnil] at hp
    · simp [CachedTx.nextIndex, hnil]
  · refine ⟨first, hfirst, ?_⟩
    have hpos : 0 < c.cache.length := List.length_pos_iff.mpr hnil
    have hlast : c.cache.getLast? = some (c.cache[c.cache.length - 1]) := by
      rw [List.getLast?_eq_getElem?, List.getElem?_eq_getElem]
    simp only [CachedTx.nextIndex, hlast, hfirst _ (Nat.sub_lt hpos Nat.one_pos)]
    rw [UInt64.add_assoc, ← UInt64.ofNat_one, ← UInt64.ofNat_add, Nat.sub_add_cancel hpos]

theorem Numbered.send (h : Numbered config id c) (message : ServerJsonRpcMessage P) :
    Numbered config id (c.remember (c.stamp message)) := by
  have hpos := config.channelCapacity_pos
  have hcapacity := h.capacity_eq
  have hlength := h.length_le
  obtain ⟨first, hfirst, hnext⟩ := h.nextIndex_eq
  have hstamp : (c.stamp message).eventId = ⟨id, first + UInt64.ofNat c.cache.length⟩ := by
    simp only [CachedTx.stamp, hnext, h.httpRequestId_eq]
  by_cases hfull : c.capacity ≤ c.cache.length
  · have hcache := CachedTx.remember_cache_full (m := c.stamp message) hfull
    refine ⟨hcapacity, h.httpRequestId_eq, ?_, first + 1, ?_⟩
    · rw [hcache, List.length_append, List.length_tail, List.length_singleton]
      omega
    · rw [hcache]
      refine hfirst.tail.concat ?_
      rw [hstamp, List.length_tail, UInt64.add_assoc, UInt64.add_comm 1, ← UInt64.ofNat_one,
        ← UInt64.ofNat_add, Nat.sub_add_cancel (by omega)]
  · have hcache := CachedTx.remember_cache_room (m := c.stamp message) hfull
    refine ⟨hcapacity, h.httpRequestId_eq, ?_, first, ?_⟩
    · rw [hcache, List.length_append, List.length_singleton]
      omega
    · rw [hcache]
      exact hfirst.concat hstamp

end Numbered

/-! ## All of them -/

/-- The cached senders of a worker are numbered, and each has a channel of its own. -/
structure SendersOk (config : SessionConfig) (w : SessionWorker P) (channels : Channels P) :
    Prop where
  config_eq : w.sessionConfig = config
  common : Numbered config none w.common
  common_lt : w.common.tx < channels.next
  channel : ∀ h channel, w.txRouter.get h = some channel → Numbered config (some h) channel.tx
  channel_lt : ∀ h channel, w.txRouter.get h = some channel → channel.tx.tx < channels.next
  channel_ne : ∀ h channel, w.txRouter.get h = some channel → channel.tx.tx ≠ w.common.tx
  channel_inj : ∀ h h' channel channel', w.txRouter.get h = some channel →
    w.txRouter.get h' = some channel' → channel.tx.tx = channel'.tx.tx → h = h'

section Senders

variable {config : SessionConfig} {w w' : SessionWorker P} {channels channels' : Channels P}

/-- Only the number of channels counts. -/
theorem SendersOk.mono (h : SendersOk config w channels) (hnext : channels.next ≤ channels'.next) :
    SendersOk config w channels' :=
  { h with
    common_lt := Nat.lt_of_lt_of_le h.common_lt hnext
    channel_lt := fun id channel hget => Nat.lt_of_lt_of_le (h.channel_lt id channel hget) hnext }

theorem SendersOk.rewired {ops : List RouterOp} (h : SendersOk config w channels)
    (hw : w.Rewired ops w') : SendersOk config w' channels := by
  refine ⟨hw.config_eq.trans h.config_eq, hw.common_eq ▸ h.common, hw.common_eq ▸ h.common_lt,
    ?_, ?_, ?_, ?_⟩
  · intro id channel' hget
    obtain ⟨channel, hget, htx⟩ := hw.tx_eq id channel' hget
    exact htx ▸ h.channel id channel hget
  · intro id channel' hget
    obtain ⟨channel, hget, htx⟩ := hw.tx_eq id channel' hget
    exact htx ▸ h.channel_lt id channel hget
  · intro id channel' hget
    obtain ⟨channel, hget, htx⟩ := hw.tx_eq id channel' hget
    rw [htx, hw.common_eq]
    exact h.channel_ne id channel hget
  · intro id id' channel₁ channel₂ hget₁ hget₂ heq
    obtain ⟨channel, hget, htx⟩ := hw.tx_eq id channel₁ hget₁
    obtain ⟨channel', hget', htx'⟩ := hw.tx_eq id' channel₂ hget₂
    rw [htx, htx'] at heq
    exact h.channel_inj id id' channel channel' hget hget' heq

/-- Another cached sender for the channel `id`, on its own channel or on a new one. -/
theorem SendersOk.insert (h : SendersOk config w channels) {id : HttpRequestId}
    {channel' : HttpRequestWise P} (hnumbered : Numbered config (some id) channel'.tx)
    (hnext : channels.next ≤ channels'.next) (hlt : channel'.tx.tx < channels'.next)
    (hown : channels.next ≤ channel'.tx.tx ∨
      ∃ channel, w.txRouter.get id = some channel ∧ channel'.tx.tx = channel.tx.tx) :
    SendersOk config { w with txRouter := w.txRouter.insert id channel' } channels' := by
  -- nobody else has its channel
  have hother : ∀ id₁ channel₁, id₁ ≠ id → w.txRouter.get id₁ = some channel₁ →
      channel₁.tx.tx ≠ channel'.tx.tx := by
    intro id₁ channel₁ hne hget heq
    rcases hown with hfresh | ⟨channel, hid, htx⟩
    · have := h.channel_lt id₁ channel₁ hget
      omega
    · exact hne (h.channel_inj id₁ id channel₁ channel hget hid (heq.trans htx))
  have hcommon : channel'.tx.tx ≠ w.common.tx := by
    intro heq
    rcases hown with hfresh | ⟨channel, hid, htx⟩
    · have := h.common_lt
      omega
    · exact h.channel_ne id channel hid (htx ▸ heq)
  have hcases : ∀ id₁ channel₁, (w.txRouter.insert id channel').get id₁ = some channel₁ →
      (id₁ = id ∧ channel₁ = channel') ∨ (id₁ ≠ id ∧ w.txRouter.get id₁ = some channel₁) := by
    intro id₁ channel₁ hget
    rw [HashMap.get_insert] at hget
    split at hget
    · next heq => exact .inl ⟨heq, (Option.some.inj hget).symm⟩
    · next hne => exact .inr ⟨hne, hget⟩
  refine ⟨h.config_eq, h.common, Nat.lt_of_lt_of_le h.common_lt hnext, ?_, ?_, ?_, ?_⟩
  · intro id₁ channel₁ hget
    rcases hcases id₁ channel₁ hget with ⟨rfl, rfl⟩ | ⟨-, hget⟩
    · exact hnumbered
    · exact h.channel id₁ channel₁ hget
  · intro id₁ channel₁ hget
    rcases hcases id₁ channel₁ hget with ⟨rfl, rfl⟩ | ⟨-, hget⟩
    · exact hlt
    · exact Nat.lt_of_lt_of_le (h.channel_lt id₁ channel₁ hget) hnext
  · intro id₁ channel₁ hget
    rcases hcases id₁ channel₁ hget with ⟨rfl, rfl⟩ | ⟨-, hget⟩
    · exact hcommon
    · exact h.channel_ne id₁ channel₁ hget
  · intro id₁ id₂ channel₁ channel₂ hget₁ hget₂ heq
    rcases hcases id₁ channel₁ hget₁ with ⟨rfl, rfl⟩ | ⟨hne₁, hold₁⟩ <;>
      rcases hcases id₂ channel₂ hget₂ with ⟨rfl, rfl⟩ | ⟨hne₂, hold₂⟩
    · rfl
    · exact absurd heq.symm (hother id₂ channel₂ hne₂ hold₂)
    · exact absurd heq (hother id₁ channel₁ hne₁ hold₁)
    · exact h.channel_inj id₁ id₂ channel₁ channel₂ hold₁ hold₂ heq

/-- Another common sender, on the same channel or on a new one. -/
theorem SendersOk.setCommon (h : SendersOk config w channels) {common : CachedTx P}
    (hnumbered : Numbered config none common) (hnext : channels.next ≤ channels'.next)
    (hlt : common.tx < channels'.next)
    (hown : channels.next ≤ common.tx ∨ common.tx = w.common.tx) :
    SendersOk config { w with common } channels' := by
  refine { h.mono hnext with common := hnumbered, common_lt := hlt, channel_ne := ?_ }
  intro id channel hget
  rcases hown with hfresh | hsame
  · have := h.channel_lt id channel hget
    simp only
    omega
  · simp only [hsame]
    exact h.channel_ne id channel hget

end Senders

/-! ## What the operations do to the senders -/

theorem SendersOk.establish {config : SessionConfig} {w : SessionWorker P} {channels : Channels P}
    (h : SendersOk config w channels) :
    SendersOk config (w.establishRequestWiseChannel channels).2.1
      (w.establishRequestWiseChannel channels).2.2 := by
  have hw : SendersOk config w.takeNextHttpRequestId.2 channels :=
    ⟨h.config_eq, h.common, h.common_lt, h.channel, h.channel_lt, h.channel_ne, h.channel_inj⟩
  refine hw.insert (numbered_new ?_) (Nat.le_succ _) (Nat.lt_succ_self _) (.inl (Nat.le_refl _))
  simp only [Function.update_self, Chan.available_new]
  exact congrArg _ h.config_eq

theorem SendersOk.close {config : SessionConfig} {w : SessionWorker P} {channels : Channels P}
    (h : SendersOk config w channels) (id : HttpRequestId) :
    SendersOk config { w with txRouter := w.txRouter.remove id } channels := by
  have hold : ∀ id₁ channel, (w.txRouter.remove id).get id₁ = some channel →
      w.txRouter.get id₁ = some channel := by
    intro id₁ channel hget
    rw [HashMap.get_remove] at hget
    split at hget
    · cases hget
    · exact hget
  exact
    { h with
      channel := fun id₁ channel hget => h.channel id₁ channel (hold id₁ channel hget)
      channel_lt := fun id₁ channel hget => h.channel_lt id₁ channel (hold id₁ channel hget)
      channel_ne := fun id₁ channel hget => h.channel_ne id₁ channel (hold id₁ channel hget)
      channel_inj := fun id₁ id₂ channel channel' hget hget' =>
        h.channel_inj id₁ id₂ channel channel' (hold id₁ channel hget) (hold id₂ channel' hget') }

theorem SendersOk.handleServerMessage {config : SessionConfig} {w w' : SessionWorker P}
    {channels channels' : Channels P} {message : ServerJsonRpcMessage P}
    {result : Except SessionError Unit} (h : SendersOk config w channels)
    (hhandle : w.handleServerMessage channels message = .ok (result, w', channels')) :
    SendersOk config w' channels' := by
  obtain ⟨out, hout, hhandle⟩ := Exec.bind_eq_ok.mp hhandle
  rcases SessionWorker.resolveOutboundChannel_cases hout with rfl | ⟨k, id, rfl, -⟩
  · obtain ⟨⟨common, channels₁⟩, hsend, hhandle⟩ := Exec.bind_eq_ok.mp hhandle
    cases hhandle
    obtain ⟨rfl, ok, hsend⟩ := CachedTx.send_eq_ok hsend
    have hnext := Mpsc.next_send hsend
    exact h.setCommon (h.common.send message) hnext.ge (hnext ▸ h.common_lt) (.inr rfl)
  · simp only [] at hhandle
    split at hhandle
    · next channel hget =>
      obtain ⟨⟨tx, channels₁⟩, hsend, hhandle⟩ := Exec.bind_eq_ok.mp hhandle
      cases hhandle
      obtain ⟨rfl, ok, hsend⟩ := CachedTx.send_eq_ok hsend
      have hnext := Mpsc.next_send hsend
      exact h.insert ((h.channel id channel hget).send message) hnext.ge
        (hnext ▸ h.channel_lt id channel hget) (.inr ⟨channel, hget, rfl⟩)
    · cases hhandle
      exact h

/-- Resuming puts a new channel under the sender, whatever comes of the replay. -/
theorem resumeOn_eq_ok {c c' : CachedTx P} {capacity : Nat} {channels channels' : Channels P}
    {index : UInt64} {result : Except SessionError Nat}
    (h : SessionWorker.resumeOn c capacity channels index = .ok (result, c', channels')) :
    c' = { c with tx := channels.next } ∧ channels'.next = channels.next + 1 := by
  obtain ⟨⟨result₁, channels₁⟩, hsync, h⟩ := Exec.bind_eq_ok.mp h
  have hnext := CachedTx.next_sync hsync
  cases result₁ <;> cases h <;> exact ⟨rfl, hnext⟩

theorem SendersOk.resume {config : SessionConfig} {w w' : SessionWorker P}
    {channels channels' : Channels P} {lastEventId : EventId}
    {result : Except SessionError StreamableHttpMessageReceiver} (h : SendersOk config w channels)
    (hresume : w.resume channels lastEventId = .ok (result, w', channels')) :
    SendersOk config w' channels' := by
  unfold SessionWorker.resume at hresume
  simp only [] at hresume
  split at hresume
  · next id _ =>
    split at hresume
    · cases hresume
      exact h
    · next channel hget =>
      obtain ⟨⟨result₁, tx, channels₁⟩, hon, hresume⟩ := Exec.bind_eq_ok.mp hresume
      cases hresume
      obtain ⟨rfl, hnext⟩ := resumeOn_eq_ok hon
      exact h.insert ((h.channel id channel hget).setTx _) (by simp [hnext]) (by simp [hnext])
        (.inl (Nat.le_refl _))
  · obtain ⟨⟨result₁, common, channels₁⟩, hon, hresume⟩ := Exec.bind_eq_ok.mp hresume
    cases hresume
    obtain ⟨rfl, hnext⟩ := resumeOn_eq_ok hon
    exact h.setCommon (h.common.setTx _) (by simp [hnext]) (by simp [hnext]) (.inl (Nat.le_refl _))

theorem VarsStep.senders {config : SessionConfig} {s s' : Vars P} {a : Action P}
    (hstep : VarsStep s a s') (h : SendersOk config s.worker s.channels) :
    SendersOk config s'.worker s'.channels := by
  cases hstep with
  | @environment move s' hmove =>
    cases move <;> simp only [Vars.environment] at hmove
    case receive | dropReceiver =>
      split at hmove <;> cases hmove
      exact h.mono (Nat.le_refl _)
    all_goals
      cases hmove
      exact h
  | initializeRequest => exact h
  | initializeResponse => exact h
  | @handler message result s' hmessage =>
    obtain ⟨⟨result₁, worker, channels⟩, hhandle, hmessage⟩ := Exec.bind_eq_ok.mp hmessage
    cases hmessage
    exact (h.rewired (s.worker.rewired_catchResponse message)).handleServerMessage hhandle
  | @httpService event reply s' hevent =>
    cases event with
    | clientMessage message httpRequestId =>
      obtain ⟨⟨ok, toHandler⟩, -, hevent⟩ := Exec.bind_eq_ok.mp hevent
      cases ok <;> cases hevent
      exact h.rewired (s.worker.rewired_registerMessage httpRequestId message)
    | establishRequestWiseChannel =>
      cases hevent
      exact h.establish
    | closeRequestWiseChannel id =>
      cases hevent
      exact h.close id
    | resume lastEventId =>
      obtain ⟨⟨result, worker, channels⟩, hresume, hevent⟩ := Exec.bind_eq_ok.mp hevent
      cases hevent
      exact h.resume hresume
    | initializeRequest request =>
      cases hevent
      exact h
    | close => cases hevent

theorem senders_start (config : SessionConfig) :
    SendersOk config (start P config).worker (start P config).channels := by
  refine ⟨rfl, numbered_new ?_, Nat.zero_lt_one, ?_, ?_, ?_, ?_⟩
  · simp [Mpsc.close, Mpsc.chan_set]
  all_goals
    intro id channel
    simp [start, createSession]

/-- The senders are in order in every reachable state of the loop. -/
theorem Runs.senders {config : SessionConfig} {as : List (Action P)} {s : Vars P}
    (h : Runs config as s) : SendersOk config s.worker s.channels :=
  h.invariant (I := fun _ s => SendersOk config s.worker s.channels) (senders_start config)
    fun hsenders hstep => hstep.senders hsenders

end Rmcp.Session
