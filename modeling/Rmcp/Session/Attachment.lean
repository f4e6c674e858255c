import Rmcp.Session.Log

/-!
# What a receiver is attached to

A receiver that is handed out belongs to one channel of its session, and is given messages of
that channel only, now and later.

Results:
1. `Carries.step`: a receiver stays with its channel.
2. `resume_carries`: a resumed receiver belongs to the channel that the event id names.
3. `common_resume`: resuming a channel of its own leaves the common one alone; resuming the
   common one puts a new sender in its place.
-/

namespace Rmcp.Session

variable {P : Payloads}

/-- The receiver `rx` gets messages of the channel `id`, and of no other. -/
structure Carries (s : Vars P) (rx : Nat) (id : Option HttpRequestId) : Prop where
  lt : rx < s.channels.next
  offered : ∀ m ∈ s.channels.offered rx, m.eventId.httpRequestId = id
  sender : ∀ id' c, s.worker.cachedTx id' = some c → c.tx = rx → id' = id

theorem Numbered.httpRequestId_of_mem {config : SessionConfig} {id : Option HttpRequestId}
    {c : CachedTx P} (h : Numbered config id c) {m : ServerSessionMessage P} (hm : m ∈ c.cache) :
    m.eventId.httpRequestId = id := by
  obtain ⟨first, hfirst⟩ := h.consecutive
  obtain ⟨p, hp, rfl⟩ := List.mem_iff_getElem.mp hm
  rw [hfirst p hp]

section Step

variable {config : SessionConfig} {s s' : Vars P} {entries : List (LogEntry P)} {rx : Nat}
  {id : Option HttpRequestId}

theorem Carries.step (h : Carries s rx id) (hsenders : SendersOk config s.worker s.channels)
    (hstep : SendersStep s entries s') : Carries s' rx id := by
  cases hstep with
  | quiet hcached hoffered hnext _ =>
    exact ⟨hnext ▸ h.lt, hoffered rx ▸ h.offered, fun id' c hc => h.sender id' c (hcached id' c hc)⟩
  | @sent _ id₁ c message hc hreplaced hoffered hnext _ =>
    refine ⟨hnext ▸ h.lt, ?_, fun id' c' hc' htx => ?_⟩
    · rw [hoffered]
      split
      · next htx =>
        intro m hm
        rcases List.mem_append.mp hm with hold | hnew
        · exact h.offered m hold
        · -- the sender of `rx` has stamped the message with its own id
          obtain rfl := List.mem_singleton.mp hnew
          exact (hsenders.numbered hc).httpRequestId_eq.trans (h.sender id₁ c hc htx.symm)
      · exact h.offered
    · rcases hreplaced id' c' hc' with ⟨rfl, rfl⟩ | ⟨-, hold⟩
      · exact h.sender id' c hc htx
      · exact h.sender id' c' hold htx
  | established hcache htx hreplaced hoffered hnext _ =>
    refine ⟨hnext ▸ h.lt.trans (Nat.lt_succ_self _), ?_, fun id' c' hc' htx' => ?_⟩
    · rw [hoffered, if_neg h.lt.ne]
      exact h.offered
    · rcases hreplaced id' c' hc' with ⟨rfl, rfl⟩ | ⟨-, hold⟩
      · exact absurd (htx'.symm.trans htx) h.lt.ne
      · exact h.sender id' c' hold htx'
  | resumed q hc hreplaced hoffered hnext _ =>
    refine ⟨hnext ▸ h.lt.trans (Nat.lt_succ_self _), ?_, fun id' c' hc' htx' => ?_⟩
    · rw [hoffered, if_neg h.lt.ne]
      exact h.offered
    · rcases hreplaced id' c' hc' with ⟨rfl, rfl⟩ | ⟨-, hold⟩
      · exact absurd htx'.symm h.lt.ne
      · exact h.sender id' c' hold htx'

end Step

/-- The senders are in order as long as the session has its variables. -/
theorem senders_of_run {config : SessionConfig} {as : List (Action P)} {st : State P} {s : Vars P}
    (hrun : Transition.Run step (.awaitInitialize (start P config)) as st)
    (hs : st.vars? = some s) : SendersOk config s.worker s.channels := by
  refine hrun.invariant (P := fun _ st => ∀ s, st.vars? = some s →
    SendersOk config s.worker s.channels) ?_ ?_ s hs
  · rintro s ⟨⟩
    exact senders_start config
  · intro _ st st' a _ ih hst s' hs'
    obtain ⟨s, hs, hstep⟩ := step_session hst hs'
    exact hstep.senders (ih s hs)

/-- A receiver stays with its channel when the session gets on. -/
theorem carries_of_step {config : SessionConfig} {as : List (Action P)} {st st' : State P}
    {a : Action P} {s' : Vars P} {rx : Nat} {id : Option HttpRequestId}
    (hrun : Transition.Run step (.awaitInitialize (start P config)) as st)
    (hst : step st a = some st') (hs' : st'.vars? = some s')
    (h : ∀ s, st.vars? = some s → Carries s rx id) : Carries s' rx id := by
  obtain ⟨s, hs, hstep⟩ := step_session hst hs'
  have hsenders := senders_of_run hrun hs
  exact (h s hs).step hsenders (step_senders hsenders hstep)

/-! ## New receivers -/

theorem carries_new {config : SessionConfig} {s s' : Vars P} {id : Option HttpRequestId}
    {c : CachedTx P} (hsenders : SendersOk config s.worker s.channels)
    (hreplaced : s.worker.Replaced id c s'.worker)
    (hoffered : ∀ m ∈ s'.channels.offered s.channels.next, m.eventId.httpRequestId = id)
    (hnext : s'.channels.next = s.channels.next + 1) : Carries s' s.channels.next id := by
  refine ⟨hnext ▸ Nat.lt_succ_self _, hoffered, fun id' c' hc' htx => ?_⟩
  rcases hreplaced id' c' hc' with ⟨rfl, -⟩ | ⟨-, hold⟩
  · rfl
  · exact absurd htx (hsenders.tx_lt hold).ne

theorem establish_carries {config : SessionConfig} {s : Vars P}
    (hsenders : SendersOk config s.worker s.channels) {receiver : StreamableHttpMessageReceiver}
    {w' : SessionWorker P} {channels' : Channels P}
    (h : s.worker.establishRequestWiseChannel s.channels = (receiver, w', channels')) :
    ∃ id, receiver.httpRequestId = some id ∧
      Carries { s with worker := w', channels := channels' } receiver.inner (some id) := by
  have hempty := s.channels.offered_channel s.worker.sessionConfig.channelCapacity s.channels.next
  rw [if_pos rfl] at hempty
  cases h
  refine ⟨s.worker.nextHttpRequestId, rfl,
    carries_new (s := s) hsenders (SessionWorker.replaced_insert _ _ _) (fun m hm => ?_) rfl⟩
  exact absurd (hempty ▸ hm : m ∈ []) List.not_mem_nil

/-- The receiver that is handed out is the new one. -/
theorem resumeOn_ok {c c' : CachedTx P} {capacity : Nat} {channels channels' : Channels P}
    {index : UInt64} {tx : Nat}
    (h : SessionWorker.resumeOn c capacity channels index = .ok (.ok tx, c', channels')) :
    tx = channels.next := by
  obtain ⟨⟨result₁, channels₁⟩, -, h⟩ := Exec.bind_eq_ok.mp h
  cases result₁ <;> cases h
  rfl

section Resume

variable {config : SessionConfig} {s : Vars P} {w' : SessionWorker P} {channels' : Channels P}
  {e : EventId}

/-- Where a resume that succeeds puts the new receiver. -/
theorem resume_carries {rx : StreamableHttpMessageReceiver}
    (hsenders : SendersOk config s.worker s.channels)
    (h : s.worker.resume s.channels e = .ok (.ok rx, w', channels')) :
    rx.httpRequestId = e.httpRequestId ∧
      Carries { s with worker := w', channels := channels' } rx.inner e.httpRequestId := by
  unfold SessionWorker.resume at h
  simp only [hsenders.config_eq] at h
  split at h
  · next id hid =>
    rw [hid]
    split at h
    · cases h
    · next channel hget =>
      obtain ⟨⟨result₁, tx, channels₁⟩, hon, h⟩ := Exec.bind_eq_ok.mp h
      cases result₁ <;> cases h
      obtain rfl := resumeOn_ok hon
      have hnumbered := hsenders.channel id channel hget
      obtain ⟨q, hoffered⟩ := offered_resumeOn hnumbered.length_le hon
      refine ⟨rfl, carries_new (s := s) hsenders (SessionWorker.replaced_insert _ _ _)
        (fun m hm => ?_) (resumeOn_eq_ok hon).2⟩
      rw [hoffered, if_pos rfl] at hm
      exact hnumbered.httpRequestId_of_mem (List.mem_of_mem_drop hm)
  · next hid =>
    rw [hid]
    obtain ⟨⟨result₁, common, channels₁⟩, hon, h⟩ := Exec.bind_eq_ok.mp h
    cases result₁ <;> cases h
    obtain rfl := resumeOn_ok hon
    obtain ⟨q, hoffered⟩ := offered_resumeOn hsenders.common.length_le hon
    refine ⟨rfl, carries_new (s := s) hsenders (SessionWorker.replaced_common _ _)
      (fun m hm => ?_) (resumeOn_eq_ok hon).2⟩
    rw [hoffered, if_pos rfl] at hm
    exact hsenders.common.httpRequestId_of_mem (List.mem_of_mem_drop hm)

theorem resume_inner {rx : StreamableHttpMessageReceiver}
    (h : s.worker.resume s.channels e = .ok (.ok rx, w', channels')) :
    rx.inner = s.channels.next := by
  unfold SessionWorker.resume at h
  simp only [] at h
  split at h
  · split at h
    · cases h
    · obtain ⟨⟨result₁, tx, channels₁⟩, hon, h⟩ := Exec.bind_eq_ok.mp h
      cases result₁ <;> cases h
      exact resumeOn_ok hon
  · obtain ⟨⟨result₁, common, channels₁⟩, hon, h⟩ := Exec.bind_eq_ok.mp h
    cases result₁ <;> cases h
    exact resumeOn_ok hon

/-- What a resume does to the common sender. -/
theorem common_resume {result : Except SessionError StreamableHttpMessageReceiver}
    (h : s.worker.resume s.channels e = .ok (result, w', channels')) :
    if e.httpRequestId = none then w'.common.tx = s.channels.next
    else w'.common = s.worker.common := by
  unfold SessionWorker.resume at h
  simp only [] at h
  split at h
  · next id hid =>
    rw [if_neg (by simp [hid])]
    split at h
    · cases h
      rfl
    · obtain ⟨⟨result₁, tx, channels₁⟩, -, h⟩ := Exec.bind_eq_ok.mp h
      cases h
      rfl
  · next hid =>
    rw [if_pos hid]
    obtain ⟨⟨result₁, common, channels₁⟩, hon, h⟩ := Exec.bind_eq_ok.mp h
    cases h
    obtain ⟨rfl, -⟩ := resumeOn_eq_ok hon
    rfl

end Resume

end Rmcp.Session
