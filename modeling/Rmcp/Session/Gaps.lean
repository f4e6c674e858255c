import Rmcp.Session.Events

/-!
# What a resumed stream has lost

A client that resumes at number `i` has lost messages when the one after it has left the
cache, and it cannot have received number `i` when that many were never sent. The skip count
is cut off at zero, so the first is taken for the front of the cache; and it may be as large
as the cache, so the first number that was not sent is taken for the last one that was.

Results:
1. `resume_outcome`: resuming returns, and fails exactly past the end of the cache.
2. `resume_gap_iff`: the numbers at which a resume hides no gap.
3. `resume_hides_gap`: a run in which it hides one.
-/

namespace Rmcp.Session

variable {P : Payloads}

/-! ## The outcome of a resume -/

/-- The number `i` is past the end of the cache. -/
def CachedTx.PastEnd (c : CachedTx P) (i : UInt64) : Prop :=
  ∃ front, c.cache.head? = some front ∧ front.eventId.index.toNat + c.cache.length < i.toNat

theorem resumeOn_outcome {capacity : Nat} {c : CachedTx P} (hroom : c.cache.length ≤ capacity)
    (channels : Channels P) (i : UInt64) :
    ∃ result c' channels',
      SessionWorker.resumeOn c capacity channels i = .ok (result, c', channels') ∧
      ((∃ e, result = .error e) ↔ c.PastEnd i) := by
  suffices hsync : ∃ result channels',
      CachedTx.sync { c with tx := channels.next } (channels.channel capacity).2 i =
        .ok (result, channels') ∧ ((∃ e, result = .error e) ↔ c.PastEnd i) by
    obtain ⟨result, channels', hsync, hiff⟩ := hsync
    cases result with
    | ok =>
      refine ⟨_, _, _, Exec.bind_eq_ok.mpr ⟨_, hsync, rfl⟩, ?_⟩
      rw [← hiff]
      simp
    | error e =>
      refine ⟨_, _, _, Exec.bind_eq_ok.mpr ⟨_, hsync, rfl⟩, ?_⟩
      rw [← hiff]
      simp
  cases hfront : c.cache.head? with
  | none =>
    refine ⟨.ok (), (channels.channel capacity).2, ?_, ?_⟩
    · simp [CachedTx.sync, hfront]
    · simp [CachedTx.PastEnd, hfront]
  | some front =>
    have hpast : c.PastEnd i ↔ c.cache.length < i.toNat - front.eventId.index.toNat := by
      simp only [CachedTx.PastEnd, hfront, Option.some.injEq, exists_eq_left']
      omega
    rw [hpast]
    by_cases hlt : c.cache.length < i.toNat - front.eventId.index.toNat
    · refine ⟨.error .invalidEventId, (channels.channel capacity).2, ?_, by simp [hlt]⟩
      simp only [CachedTx.sync, hfront]
      rw [if_pos hlt]
    · -- what is left of the cache fits into the new channel
      have hfits : (c.cache.drop (i.toNat - front.eventId.index.toNat)).length ≤ capacity := by
        rw [List.length_drop]
        exact (Nat.sub_le _ _).trans hroom
      obtain ⟨channels', hsend, -⟩ := channels.sendAll_fresh hfits
      refine ⟨.ok (), channels', ?_, by simp [hlt]⟩
      simp only [CachedTx.sync, hfront]
      rw [if_neg hlt]
      exact Exec.bind_eq_ok.mpr ⟨_, hsend, rfl⟩

/-- Resuming an open channel returns, and fails exactly past the end of its cache. -/
theorem resume_outcome {config : SessionConfig} {s : Vars P}
    (hsenders : SendersOk config s.worker s.channels) {id : Option HttpRequestId}
    {c : CachedTx P} (hc : s.worker.cachedTx id = some c) (i : UInt64) :
    ∃ result s', s.fromHttpService (.resume ⟨id, i⟩) = .ok (.ok (.receiver result, s')) ∧
      ((∃ e, result = .error e) ↔ c.PastEnd i) := by
  have hroom := (hsenders.numbered hc).length_le
  obtain ⟨result, c', channels', hon, hiff⟩ := resumeOn_outcome hroom s.channels i
  have herror : ∀ {α : Type} (f : Nat → α),
      (∃ e, result.map f = .error e) ↔ c.PastEnd i := by
    intro α f
    rw [← hiff]
    cases result <;> simp [Except.map]
  cases id with
  | none =>
    obtain rfl := Option.some.inj hc
    refine ⟨result.map (⟨none, ·⟩),
      { s with worker := { s.worker with common := c' }, channels := channels' }, ?_, herror _⟩
    simp only [Vars.fromHttpService, SessionWorker.resume, hsenders.config_eq, hon]
    rfl
  | some h =>
    obtain ⟨channel, hget, rfl⟩ := Option.map_eq_some_iff.mp hc
    refine ⟨result.map (⟨some h, ·⟩),
      { s with
        worker :=
          { s.worker with txRouter := s.worker.txRouter.insert h { channel with tx := c' } }
        channels := channels' }, ?_, herror _⟩
    simp only [Vars.fromHttpService, SessionWorker.resume, hget, hsenders.config_eq, hon]
    rfl

/-- The end of a cache that holds the last of the messages `ms`. -/
theorem pastEnd_iff {id : Option HttpRequestId} {c : CachedTx P} {capacity : Nat}
    {ms : List (ServerSessionMessage P)} (hms : Consecutive id 0 ms) (hpos : 0 < capacity)
    (hcache : c.cache = ms.rtake capacity) (i : UInt64) :
    c.PastEnd i ↔ 1 ≤ ms.length ∧
      (ms.length - min ms.length capacity) % 2 ^ 64 + min ms.length capacity < i.toNat := by
  have hlength : c.cache.length = min ms.length capacity := by
    rw [hcache, Window.length_rtake]
  have hhead : c.cache.head? = ms[ms.length - min ms.length capacity]? := by
    rw [hcache, List.head?_eq_getElem?, Window.getElem?_rtake, Nat.add_zero]
  rw [CachedTx.PastEnd, hhead, hlength]
  by_cases hsome : 1 ≤ ms.length
  · have hlt : ms.length - min ms.length capacity < ms.length := by omega
    rw [List.getElem?_eq_getElem hlt]
    have hindex := hms _ hlt
    simp only [Option.some.injEq, exists_eq_left', hindex, UInt64.zero_add, UInt64.toNat_ofNat',
      hsome, true_and]
  · have hnil : ms = [] := List.eq_nil_of_length_eq_zero (by omega)
    simp [hnil]

/-! ## Gaps -/

/-- Of `n` messages that were sent, the one after number `i` is not among the last
`capacity` any more, or number `i` was never sent. -/
def Missed (capacity n : Nat) (i : UInt64) : Prop :=
  i.toNat + 1 < n - min n capacity ∨ (1 ≤ n ∧ n ≤ i.toNat)

/-- Resuming the channel `id` with the messages `ms` at number `i` does not hide a gap: it is
refused when messages are missed, and what it accepts has everything in the cache. -/
structure NoGapHidden (config : SessionConfig) (s : Vars P) (id : Option HttpRequestId)
    (c : CachedTx P) (ms : List (ServerSessionMessage P)) (i : UInt64) : Prop where
  refused : Missed config.channelCapacity ms.length i →
    ∃ e s', s.fromHttpService (.resume ⟨id, i⟩) = .ok (.ok (.receiver (.error e), s'))
  kept : ∀ rx s', s.fromHttpService (.resume ⟨id, i⟩) = .ok (.ok (.receiver (.ok rx), s')) →
    ∀ p m, ms[p]? = some m → i.toNat < p → m ∈ c.cache

/-- A resume hides no gap exactly when nothing is missed, or when the number is past the one
that comes next. -/
theorem resume_gap_iff {config : SessionConfig} {as : List (Action P)} {s : Vars P}
    (hrun : Runs config as s) {id : Option HttpRequestId} {c : CachedTx P}
    (hc : s.worker.cachedTx id = some c) (i : UInt64) {n : Nat}
    (hn : n = (sentOn id (sessionLog config as)).length) :
    NoGapHidden config s id c (sentOn id (sessionLog config as)) i ↔
      ¬ Missed config.channelCapacity n i ∨
        (n - min n config.channelCapacity) % 2 ^ 64 + min n config.channelCapacity < i.toNat := by
  have hlogged := hrun.logged
  have hcache := hlogged.cached id c hc
  have hpast := pastEnd_iff (hlogged.numbered id) config.channelCapacity_pos hcache i
  obtain ⟨result, s', hresume, hresult⟩ := resume_outcome hrun.senders hc i
  rw [hpast] at hresult
  generalize sentOn id (sessionLog config as) = ms at *
  subst hn
  constructor
  · intro h
    by_cases hmissed : Missed config.channelCapacity ms.length i
    · obtain ⟨e, s₁, hrefused⟩ := h.refused hmissed
      rw [hresume] at hrefused
      cases hrefused
      exact .inr (hresult.mp ⟨e, rfl⟩).2
    · exact .inl hmissed
  · intro h
    refine ⟨fun hmissed => ?_, fun rx s₁ haccepted p m hm hp => ?_⟩
    · have hsome : 1 ≤ ms.length := by
        rcases hmissed with hevicted | ⟨hsome, -⟩
        · omega
        · exact hsome
      obtain ⟨e, rfl⟩ := hresult.mpr ⟨hsome, h.resolve_left (not_not_intro hmissed)⟩
      exact ⟨e, s', hresume⟩
    · obtain ⟨hlt, rfl⟩ := List.getElem?_eq_some_iff.mp hm
      rw [hresume] at haccepted
      cases haccepted
      have hnot : ¬ (1 ≤ ms.length ∧ _) := fun hpast => by
        obtain ⟨e, he⟩ := hresult.mpr hpast
        cases he
      -- so nothing is missed, and the message is one of the last
      have hmissed : ¬ Missed config.channelCapacity ms.length i :=
        h.resolve_right fun hend => hnot ⟨by omega, hend⟩
      have hkept : ms.length - min ms.length config.channelCapacity ≤ p := by
        unfold Missed at hmissed
        omega
      rw [hcache]
      refine List.mem_iff_getElem?.mpr
        ⟨p - (ms.length - min ms.length config.channelCapacity), ?_⟩
      rw [Window.getElem?_rtake, Nat.add_sub_cancel' hkept]
      exact hm

/-- As long as no number wraps, these are the numbers that are neither too old nor the next
one. -/
theorem missed_past_iff {capacity n : Nat} (hn : n < 2 ^ 64) (i : UInt64) :
    (¬ Missed capacity n i ∨ (n - min n capacity) % 2 ^ 64 + min n capacity < i.toNat) ↔
      n - min n capacity ≤ i.toNat + 1 ∧ (n = 0 ∨ i.toNat ≠ n) := by
  have hmod : (n - min n capacity) % 2 ^ 64 = n - min n capacity :=
    Nat.mod_eq_of_lt (by omega)
  rw [hmod, Missed]
  omega

/-- The cache has room for one message. -/
def SessionConfig.small : SessionConfig := ⟨1, by decide⟩

/-- The handler sends three requests on the common channel. -/
def evictedRun : List (Action bare) :=
  handshake ++ List.replicate 3 (.handler (.request ⟨.number 0, ()⟩))

theorem resume_gap_iff_evictedRun : ∃ (s : Vars bare) (c : CachedTx bare),
    Runs .small evictedRun s ∧ s.worker.cachedTx none = some c ∧
    (NoGapHidden .small s none c (sentOn none (sessionLog .small evictedRun)) 1 ↔
      ¬ Missed 1 3 1 ∨ (3 - min 3 1) % 2 ^ 64 + min 3 1 < UInt64.toNat 1) := by
  have hrun : ∃ s, Runs .small evictedRun s := ⟨_, Transition.run_of_exec rfl⟩
  obtain ⟨s, hrun⟩ := hrun
  exact ⟨s, s.worker.common, hrun, rfl, resume_gap_iff hrun rfl 1 rfl⟩

/-- The first two messages of that run have left the cache. A client that got the first one
resumes, and is given neither an error nor the second one. -/
theorem resume_hides_gap : ∃ (s s' : Vars bare) (c : CachedTx bare)
    (rx : StreamableHttpMessageReceiver),
    Runs .small evictedRun s ∧ s.worker.cachedTx none = some c ∧
    Missed 1 (sentOn none (sessionLog .small evictedRun)).length 0 ∧
    s.fromHttpService (.resume ⟨none, 0⟩) = .ok (.ok (.receiver (.ok rx), s')) ∧
    ¬ NoGapHidden .small s none c (sentOn none (sessionLog .small evictedRun)) 0 := by
  have hrun : ∃ (s s' : Vars bare) (rx : StreamableHttpMessageReceiver),
      Runs .small evictedRun s ∧
      s.fromHttpService (.resume ⟨none, 0⟩) = .ok (.ok (.receiver (.ok rx), s')) :=
    ⟨_, _, _, Transition.run_of_exec rfl, rfl⟩
  obtain ⟨s, s', rx, hrun, hresume⟩ := hrun
  have hlength : (sentOn none (sessionLog .small evictedRun)).length = 3 := rfl
  have hmissed : Missed 1 (sentOn none (sessionLog .small evictedRun)).length 0 := by
    rw [hlength]
    exact .inl (by decide)
  refine ⟨s, s', s.worker.common, rx, hrun, rfl, hmissed, hresume, fun h => ?_⟩
  obtain ⟨e, s₁, hrefused⟩ := h.refused hmissed
  rw [hresume] at hrefused
  cases hrefused

end Rmcp.Session
