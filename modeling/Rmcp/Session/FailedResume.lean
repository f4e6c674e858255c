import Rmcp.Session.Gaps

/-!
# What a failed resume leaves behind

Whether the channel is there is looked up first, and when it is not nothing has changed. But
the number of the event is looked at only when the new sender is in its place, so a number past
the end of the cache is refused after the stream that was connected has lost its sender.

Results:
1. `resume_moves`: resuming an open channel gives it a new sender, whatever comes of it.
2. `failed_resume_unchanged_iff`: the ids at which a failed resume changes nothing.
3. `failed_resume_disconnects`: a run in which it cuts off a connected stream.
-/

namespace Rmcp.Session

variable {P : Payloads}

/-- When resuming at `lastEventId` fails, the session is as it was. -/
def FailsUnchanged (s : Vars P) (lastEventId : EventId) : Prop :=
  ∀ e s', s.fromHttpService (.resume lastEventId) = .ok (.ok (.receiver (.error e), s')) → s' = s

theorem resume_unknown {s : Vars P} {id : Option HttpRequestId}
    (hnone : s.worker.cachedTx id = none) (i : UInt64) :
    s.fromHttpService (.resume ⟨id, i⟩) =
      .ok (.ok (.receiver (.error (.channelClosed id)), s)) := by
  cases id with
  | none => cases hnone
  | some h =>
    have hget : s.worker.txRouter.get h = none := Option.map_eq_none_iff.mp hnone
    simp only [Vars.fromHttpService, SessionWorker.resume, hget]
    rfl

/-- The new sender is in its place whether the replay succeeds or not. -/
theorem resume_moves {s s' : Vars P} {id : Option HttpRequestId} {c : CachedTx P} {i : UInt64}
    {reply : Reply} (hc : s.worker.cachedTx id = some c)
    (h : s.fromHttpService (.resume ⟨id, i⟩) = .ok (.ok (reply, s'))) :
    s'.worker.cachedTx id = some { c with tx := s.channels.next } := by
  obtain ⟨⟨result, worker, channels⟩, hresume, h⟩ := Exec.bind_eq_ok.mp h
  cases h
  cases id with
  | none =>
    obtain rfl := Option.some.inj hc
    obtain ⟨⟨result₁, common, channels₁⟩, hon, hresume⟩ := Exec.bind_eq_ok.mp hresume
    cases hresume
    obtain ⟨rfl, -⟩ := resumeOn_eq_ok hon
    rfl
  | some h =>
    obtain ⟨channel, hget, rfl⟩ := Option.map_eq_some_iff.mp hc
    simp only [SessionWorker.resume, hget] at hresume
    obtain ⟨⟨result₁, tx, channels₁⟩, hon, hresume⟩ := Exec.bind_eq_ok.mp hresume
    cases hresume
    obtain ⟨rfl, -⟩ := resumeOn_eq_ok hon
    simp [SessionWorker.cachedTx]

/-- A failed resume changes nothing exactly where it is not the number that is refused: the
channel is not open, or the number is not past the end of its cache. -/
theorem failed_resume_unchanged_iff {config : SessionConfig} {as : List (Action P)} {s : Vars P}
    (hrun : Runs config as s) (lastEventId : EventId) :
    FailsUnchanged s lastEventId ↔
      ∀ c, s.worker.cachedTx lastEventId.httpRequestId = some c → ¬ c.PastEnd lastEventId.index := by
  obtain ⟨id, i⟩ := lastEventId
  cases hc : s.worker.cachedTx id with
  | none =>
    refine iff_of_true (fun e s' hresume => ?_) (by simp)
    rw [resume_unknown hc] at hresume
    cases hresume
    rfl
  | some c =>
    obtain ⟨result, s', hresume, hresult⟩ := resume_outcome hrun.senders hc i
    constructor
    · intro h c' hc' hpast
      obtain rfl := Option.some.inj hc'
      obtain ⟨e, rfl⟩ := hresult.mpr hpast
      have hsame := h e s' hresume
      have hmoved := resume_moves hc hresume
      -- the sender that was there is older than the one that is now
      rw [hsame, hc, Option.some.injEq] at hmoved
      have hlt := hrun.senders.tx_lt hc
      rw [hmoved] at hlt
      exact absurd hlt (Nat.lt_irrefl _)
    · intro h e s₁ hfails
      rw [hresume] at hfails
      cases hfails
      exact absurd (hresult.mp ⟨e, rfl⟩) (h c rfl)

/-- A client opens the common stream, and is sent a request of the handler. -/
def connectedRun : List (Action bare) :=
  handshake ++ [.httpService (.resume ⟨none, 0⟩), .handler (.request ⟨.number 0, ()⟩)]

theorem failed_resume_unchanged_iff_connectedRun : ∃ (s : Vars bare) (c : CachedTx bare),
    Runs .default connectedRun s ∧ s.worker.cachedTx none = some c ∧ c.tx = 1 ∧
    (FailsUnchanged s ⟨none, 1⟩ ↔ ∀ c, s.worker.cachedTx none = some c → ¬ c.PastEnd 1) := by
  have hrun : ∃ s : Vars bare, Runs .default connectedRun s ∧ s.worker.common.tx = 1 :=
    ⟨_, Transition.run_of_exec rfl, rfl⟩
  obtain ⟨s, hrun, htx⟩ := hrun
  exact ⟨s, s.worker.common, hrun, rfl, htx, failed_resume_unchanged_iff hrun ⟨none, 1⟩⟩

/-- Another client resumes at a number that was never sent, and is refused. The next message
does not reach the stream that was connected before, which has the receiver 1. -/
theorem failed_resume_disconnects : ∃ s s' s'' : Vars bare,
    Runs .default connectedRun s ∧ s.channels.offered 1 ≠ [] ∧
    s.fromHttpService (.resume ⟨none, 7⟩) =
      .ok (.ok (.receiver (.error .invalidEventId), s')) ∧
    s'.worker.common.tx ≠ s.worker.common.tx ∧
    s'.fromHandler (.request ⟨.number 1, ()⟩) = .ok (.ok (), s'') ∧
    s''.channels.offered 1 = s.channels.offered 1 ∧ ¬ FailsUnchanged s ⟨none, 7⟩ := by
  have hrun : ∃ s s' s'' : Vars bare, Runs .default connectedRun s ∧ s.channels.offered 1 ≠ [] ∧
      s.fromHttpService (.resume ⟨none, 7⟩) =
        .ok (.ok (.receiver (.error .invalidEventId), s')) ∧
      s.worker.common.tx = 1 ∧ s'.worker.common.tx = 2 ∧
      s'.fromHandler (.request ⟨.number 1, ()⟩) = .ok (.ok (), s'') ∧
      s''.channels.offered 1 = s.channels.offered 1 :=
    ⟨_, _, _, Transition.run_of_exec rfl, List.cons_ne_nil _ _, rfl, rfl, rfl, rfl, rfl⟩
  obtain ⟨s, s', s'', hrun, hoffered, hresume, htx, htx', hnext, hsame⟩ := hrun
  have hne : s'.worker.common.tx ≠ s.worker.common.tx := by
    rw [htx, htx']
    decide
  refine ⟨s, s', s'', hrun, hoffered, hresume, hne, hnext, hsame, fun h => hne ?_⟩
  rw [h _ _ hresume]

end Rmcp.Session
