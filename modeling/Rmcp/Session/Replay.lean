import Rmcp.Session.Senders

/-!
# What a resumed stream gets

A client resumes with the id of the last event it received. The messages are replayed from
that one on, so it is the first to be delivered again: the skip count is the distance of its
number from that of the front of the cache, without the one for the message itself.

Results:
1. `resume_cached`: resuming at a cached message succeeds, and the backlog of the new
   receiver is a suffix of the cache that begins no later than at this message.
2. `resume_repeats`: so it is never what was not seen yet.
3. `resume_repeats_first`: such a run.
4. `replay_fits`: a replay never waits, although nothing reads the new channel before it is over:
   it sends at most as many messages as the channel has room for.
-/

namespace Rmcp.Session

variable {P : Payloads}

/-- The cached sender that an event id names. -/
def SessionWorker.cachedTx (w : SessionWorker P) : Option HttpRequestId → Option (CachedTx P)
  | none => some w.common
  | some h => (w.txRouter.get h).map (·.tx)

/-- Resuming after the event `lastEventId` succeeds, and the receiver gets exactly the cached
messages with a greater number. -/
def ResumesAfter (s : Vars P) (c : CachedTx P) (lastEventId : EventId) : Prop :=
  ∃ rx s', s.fromHttpService (.resume lastEventId) = .ok (.ok (.receiver (.ok rx), s')) ∧
    s'.channels.offered rx.inner = c.cache.filter (lastEventId.index < ·.eventId.index)

/-- The cached sender that an event id names is numbered. -/
theorem SendersOk.numbered {config : SessionConfig} {w : SessionWorker P} {channels : Channels P}
    (h : SendersOk config w channels) {id : Option HttpRequestId} {c : CachedTx P}
    (hc : w.cachedTx id = some c) : Numbered config id c := by
  cases id with
  | none =>
    obtain rfl := Option.some.inj hc
    exact h.common
  | some id =>
    obtain ⟨channel, hget, rfl⟩ := Option.map_eq_some_iff.mp hc
    exact h.channel id channel hget

/-- The skip count never goes past the message that is asked for, also where the numbers
wrap. -/
theorem syncIndex_le {id : Option HttpRequestId} {first : UInt64}
    {ms : List (ServerSessionMessage P)} {front m : ServerSessionMessage P} {p : Nat}
    (h : Consecutive id first ms) (hfront : ms.head? = some front) (hm : ms[p]? = some m) :
    m.eventId.index.toNat - front.eventId.index.toNat ≤ p := by
  obtain ⟨hp, rfl⟩ := List.getElem?_eq_some_iff.mp hm
  rw [List.head?_eq_getElem?] at hfront
  obtain ⟨hzero, rfl⟩ := List.getElem?_eq_some_iff.mp hfront
  rw [h p hp, h 0 hzero]
  simp only [UInt64.toNat_add, UInt64.toNat_ofNat']
  have := first.toNat_lt
  omega

/-- The whole cache fits into a new channel of the configured capacity, so that its replay does
not wait. -/
theorem Numbered.sync_drop {config : SessionConfig} {id : Option HttpRequestId} {c : CachedTx P}
    {front : ServerSessionMessage P} (h : Numbered config id c)
    (hfront : c.cache.head? = some front) (channels : Channels P) {index : UInt64}
    (hle : index.toNat - front.eventId.index.toNat ≤ c.cache.length) :
    ∃ channels',
      CachedTx.sync { c with tx := channels.next } (channels.channel config.channelCapacity).2
        index = .ok (.ok (), channels') ∧
      channels'.offered channels.next =
        c.cache.drop (index.toNat - front.eventId.index.toNat) := by
  have hroom : (c.cache.drop (index.toNat - front.eventId.index.toNat)).length ≤
      config.channelCapacity := by
    rw [List.length_drop]
    exact (Nat.sub_le _ _).trans h.length_le
  obtain ⟨channels', hsend, hoffered⟩ := channels.sendAll_fresh hroom
  refine ⟨channels', ?_, hoffered⟩
  simp only [CachedTx.sync, hfront]
  rw [if_neg (Nat.not_lt.mpr hle), hsend]
  rfl

theorem resumeOn_cached {config : SessionConfig} {id : Option HttpRequestId} {c : CachedTx P}
    {m : ServerSessionMessage P} {p : Nat} (h : Numbered config id c) (hm : c.cache[p]? = some m)
    (channels : Channels P) :
    ∃ c' channels' q,
      SessionWorker.resumeOn c config.channelCapacity channels m.eventId.index =
        .ok (.ok channels.next, c', channels') ∧
      q ≤ p ∧ channels'.offered channels.next = c.cache.drop q := by
  obtain ⟨first, hfirst⟩ := h.consecutive
  obtain ⟨hp, -⟩ := List.getElem?_eq_some_iff.mp hm
  cases hfront : c.cache.head? with
  | none =>
    rw [List.head?_eq_none_iff.mp hfront] at hp
    cases hp
  | some front =>
    have hq := syncIndex_le hfirst hfront hm
    obtain ⟨channels', hsync, hoffered⟩ := h.sync_drop hfront channels (hq.trans hp.le)
    exact ⟨{ c with tx := channels.next }, channels', _, Exec.bind_eq_ok.mpr ⟨_, hsync, rfl⟩, hq,
      hoffered⟩

/-- Resuming at a cached message succeeds; the new receiver gets the cache from some message
on, which is not after that one. -/
theorem resume_cached {config : SessionConfig} {as : List (Action P)} {s : Vars P}
    (hrun : Runs config as s) {id : Option HttpRequestId} {c : CachedTx P}
    {m : ServerSessionMessage P} {p : Nat} (hc : s.worker.cachedTx id = some c)
    (hm : c.cache[p]? = some m) :
    ∃ rx s' q, s.fromHttpService (.resume m.eventId) = .ok (.ok (.receiver (.ok rx), s')) ∧
      q ≤ p ∧ s'.channels.offered rx.inner = c.cache.drop q := by
  have hsenders := hrun.senders
  have hconfig := hsenders.config_eq
  have hnumbered := hsenders.numbered hc
  have hid : m.eventId.httpRequestId = id := by
    obtain ⟨first, hfirst⟩ := hnumbered.consecutive
    obtain ⟨hp, rfl⟩ := List.getElem?_eq_some_iff.mp hm
    rw [hfirst p hp]
  obtain ⟨c', channels', q, hon, hq, hoffered⟩ := resumeOn_cached hnumbered hm s.channels
  cases id with
  | none =>
    obtain rfl := Option.some.inj hc
    refine ⟨⟨none, s.channels.next⟩,
      { s with worker := { s.worker with common := c' }, channels := channels' }, q, ?_, hq,
      hoffered⟩
    simp only [Vars.fromHttpService, SessionWorker.resume, hid, hconfig, hon]
    rfl
  | some h =>
    obtain ⟨channel, hget, rfl⟩ := Option.map_eq_some_iff.mp hc
    refine ⟨⟨some h, s.channels.next⟩,
      { s with
        worker :=
          { s.worker with txRouter := s.worker.txRouter.insert h { channel with tx := c' } }
        channels := channels' }, q, ?_, hq, hoffered⟩
    simp only [Vars.fromHttpService, SessionWorker.resume, hid, hget, hconfig, hon]
    rfl

/-- Resuming at a cached message delivers that message again, so never exactly the unseen
ones. -/
theorem resume_repeats {config : SessionConfig} {as : List (Action P)} {s : Vars P}
    (hrun : Runs config as s) {id : Option HttpRequestId} {c : CachedTx P}
    {m : ServerSessionMessage P} (hc : s.worker.cachedTx id = some c) (hm : m ∈ c.cache) :
    ¬ ResumesAfter s c m.eventId := by
  rintro ⟨rx, s', hresume, hbacklog⟩
  obtain ⟨p, hp⟩ := List.mem_iff_getElem?.mp hm
  obtain ⟨rx₁, s₁, q, hresume₁, hq, hoffered⟩ := resume_cached hrun hc hp
  rw [hresume₁] at hresume
  cases hresume
  -- the message itself is in the backlog, and its number is not greater than its own
  have hagain : m ∈ c.cache.drop q := by
    refine List.mem_iff_getElem?.mpr ⟨p - q, ?_⟩
    rw [List.getElem?_drop, Nat.add_sub_cancel' hq]
    exact hp
  rw [← hoffered, hbacklog] at hagain
  simpa using (List.mem_filter.mp hagain).2

/-- The handler sends a request of its own on the common channel. -/
def askedRun : List (Action bare) := handshake ++ [.handler (.request ⟨.number 0, ()⟩)]

theorem resume_repeats_askedRun : ∃ (s : Vars bare) (m : ServerSessionMessage bare),
    Runs .default askedRun s ∧ s.worker.cachedTx none = some s.worker.common ∧
    m ∈ s.worker.common.cache ∧ ¬ ResumesAfter s s.worker.common m.eventId := by
  have hrun : ∃ (s : Vars bare) (m : ServerSessionMessage bare),
      Runs .default askedRun s ∧ s.worker.common.cache = [m] :=
    ⟨_, _, Transition.run_of_exec rfl, rfl⟩
  obtain ⟨s, m, hrun, hcache⟩ := hrun
  have hm : m ∈ s.worker.common.cache := by simp [hcache]
  have hc : s.worker.cachedTx none = some s.worker.common := rfl
  exact ⟨s, m, hrun, hc, hm, resume_repeats hrun hc hm⟩

/-- A client that has received this request and resumes with its id gets it again. -/
theorem resume_repeats_first : ∃ (s : Vars bare) (m : ServerSessionMessage bare),
    Runs .default askedRun s ∧ m.eventId = ⟨none, 0⟩ ∧ m ∈ s.worker.common.cache ∧
    ¬ ResumesAfter s s.worker.common ⟨none, 0⟩ := by
  have hrun : ∃ (s s' : Vars bare) (m : ServerSessionMessage bare)
      (rx : StreamableHttpMessageReceiver), Runs .default askedRun s ∧ m.eventId = ⟨none, 0⟩ ∧
      s.worker.common.cache = [m] ∧
      s.fromHttpService (.resume ⟨none, 0⟩) = .ok (.ok (.receiver (.ok rx), s')) ∧
      s'.channels.offered rx.inner = [m] :=
    ⟨_, _, _, _, Transition.run_of_exec rfl, rfl, rfl, rfl, rfl⟩
  obtain ⟨s, s', m, rx, hrun, hid, hcache, hresume, hbacklog⟩ := hrun
  refine ⟨s, m, hrun, hid, by simp [hcache], ?_⟩
  rintro ⟨rx₁, s₁, hresume₁, hexact⟩
  rw [hresume] at hresume₁
  cases hresume₁
  rw [hbacklog, hcache] at hexact
  simp [hid] at hexact

/-! ## A replay does not wait -/

namespace CachedTx

/-- A replay leaves every channel as large as it was, and takes nothing from it. -/
theorem chan_sync {c : CachedTx P} {channels channels' : Channels P} {index : UInt64}
    {result : Except SessionError Unit} (h : c.sync channels index = .ok (result, channels'))
    (i : Nat) :
    (channels'.chan i).capacity = (channels.chan i).capacity ∧
      (channels'.chan i).taken = (channels.chan i).taken := by
  unfold sync at h
  split at h
  · cases h
    exact ⟨rfl, rfl⟩
  · simp only [] at h
    split at h
    · cases h
      exact ⟨rfl, rfl⟩
    · obtain ⟨⟨result₁, channels₁⟩, hsend, h⟩ := Exec.bind_eq_ok.mp h
      have hchan := Mpsc.chan_sendAll hsend i
      cases result₁ <;> cases h <;> exact hchan

end CachedTx

/-- Into a new channel of the configured capacity, a cached sender replays a suffix of its cache,
whatever index is asked for. -/
theorem Numbered.sync_fresh {config : SessionConfig} {id : Option HttpRequestId} {c : CachedTx P}
    (h : Numbered config id c) (channels : Channels P) (index : UInt64) :
    ∃ result channels',
      CachedTx.sync { c with tx := channels.next } (channels.channel config.channelCapacity).2
        index = .ok (result, channels') ∧
      channels'.offered channels.next <:+ c.cache := by
  have hempty : (channels.channel config.channelCapacity).2.offered channels.next = [] := by
    rw [Mpsc.offered_channel, if_pos rfl]
  have hnothing : (channels.channel config.channelCapacity).2.offered channels.next <:+
      c.cache := by
    rw [hempty]
    exact List.nil_suffix
  cases hfront : c.cache.head? with
  | none =>
    refine ⟨.ok (), _, ?_, hnothing⟩
    simp only [CachedTx.sync, hfront]
  | some front =>
    by_cases hpast : c.cache.length < index.toNat - front.eventId.index.toNat
    · refine ⟨.error .invalidEventId, _, ?_, hnothing⟩
      simp only [CachedTx.sync, hfront]
      rw [if_pos hpast]
    · obtain ⟨channels', hsync, hoffered⟩ :=
        h.sync_drop hfront channels (Nat.not_lt.mp hpast)
      exact ⟨.ok (), channels', hsync, hoffered ▸ List.drop_suffix _ _⟩

/-- Resuming on a cached sender returns, with a receiver or an error. -/
theorem Numbered.resumeOn_returns {config : SessionConfig} {id : Option HttpRequestId}
    {c : CachedTx P} (h : Numbered config id c) (channels : Channels P) (index : UInt64) :
    ∃ out, SessionWorker.resumeOn c config.channelCapacity channels index = .ok out := by
  obtain ⟨result, channels', hsync, -⟩ := h.sync_fresh channels index
  cases result with
  | ok => exact ⟨_, Exec.bind_eq_ok.mpr ⟨_, hsync, rfl⟩⟩
  | error e => exact ⟨_, Exec.bind_eq_ok.mpr ⟨_, hsync, rfl⟩⟩

/-- The whole turn of the loop returns. -/
theorem SendersOk.resume_returns {config : SessionConfig} {s : Vars P}
    (h : SendersOk config s.worker s.channels) (lastEventId : EventId) :
    ∃ reply s', s.fromHttpService (.resume lastEventId) = .ok (.ok (reply, s')) := by
  suffices hresume : ∃ out, s.worker.resume s.channels lastEventId = .ok out by
    obtain ⟨⟨result, worker, channels⟩, hresume⟩ := hresume
    exact ⟨.receiver result, { s with worker, channels }, Exec.bind_eq_ok.mpr ⟨_, hresume, rfl⟩⟩
  obtain ⟨id, index⟩ := lastEventId
  cases id with
  | none =>
    obtain ⟨⟨result, common, channels⟩, hon⟩ := h.common.resumeOn_returns s.channels index
    simp only [SessionWorker.resume, h.config_eq, hon]
    exact ⟨_, rfl⟩
  | some id =>
    cases hget : s.worker.txRouter.get id with
    | none =>
      simp only [SessionWorker.resume, hget]
      exact ⟨_, rfl⟩
    | some channel =>
      obtain ⟨⟨result, tx, channels⟩, hon⟩ :=
        (h.channel id channel hget).resumeOn_returns s.channels index
      simp only [SessionWorker.resume, hget, h.config_eq, hon]
      exact ⟨_, rfl⟩

/-- A resume never waits. The replay sends no more messages into the new channel than it has room
for, while its receiver has taken none. -/
theorem replay_fits {config : SessionConfig} {as : List (Action P)} {s : Vars P}
    (hrun : Runs config as s) (lastEventId : EventId) :
    (∃ reply s', s.fromHttpService (.resume lastEventId) = .ok (.ok (reply, s'))) ∧
    ∀ c, s.worker.cachedTx lastEventId.httpRequestId = some c →
      ∃ result channels',
        CachedTx.sync { c with tx := s.channels.next }
          (s.channels.channel s.worker.sessionConfig.channelCapacity).2 lastEventId.index =
            .ok (result, channels') ∧
        (channels'.chan s.channels.next).taken = 0 ∧
        (channels'.offered s.channels.next).length ≤ (channels'.chan s.channels.next).capacity := by
  have hsenders := hrun.senders
  refine ⟨hsenders.resume_returns lastEventId, fun c hc => ?_⟩
  have hnumbered := hsenders.numbered hc
  obtain ⟨result, channels', hsync, hsuffix⟩ :=
    hnumbered.sync_fresh s.channels lastEventId.index
  obtain ⟨hcapacity, htaken⟩ := CachedTx.chan_sync hsync s.channels.next
  have hnew : (s.channels.channel config.channelCapacity).2.chan s.channels.next =
      .new config.channelCapacity := by
    rw [Mpsc.chan_channel, if_pos rfl]
  refine ⟨result, channels', hsenders.config_eq ▸ hsync, ?_, ?_⟩
  · rw [htaken, hnew]
    rfl
  · rw [hcapacity, hnew]
    exact hsuffix.length_le.trans hnumbered.length_le

theorem replay_fits_askedRun : ∃ s : Vars bare, Runs .default askedRun s ∧
    (∃ reply s', s.fromHttpService (.resume ⟨none, 0⟩) = .ok (.ok (reply, s'))) ∧
    ∀ c, s.worker.cachedTx none = some c →
      ∃ result channels',
        CachedTx.sync { c with tx := s.channels.next }
          (s.channels.channel s.worker.sessionConfig.channelCapacity).2 0 =
            .ok (result, channels') ∧
        (channels'.chan s.channels.next).taken = 0 ∧
        (channels'.offered s.channels.next).length ≤
          (channels'.chan s.channels.next).capacity := by
  have hrun : ∃ s : Vars bare, Runs .default askedRun s := ⟨_, Transition.run_of_exec rfl⟩
  obtain ⟨s, hrun⟩ := hrun
  exact ⟨s, hrun, replay_fits hrun ⟨none, 0⟩⟩

end Rmcp.Session
