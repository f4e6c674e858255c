import Rmcp.Transport.ClientSse
import Rmcp.Support.Transition
import Rmcp.Support.Since

/-!
# Runs of the reconnecting event stream

The state counts the attempts that have failed since the stream was connected, and keeps the id
and the pause that the server sent last. A run is looked at as the list of its turns, and what the
state keeps is read off this list.

The count starts again with every connection, and the first attempt after a connection has failed
is made at once. So a server that accepts every connection and fails it is reconnected to without
a pause, whatever the policy says.

Results:
1. `Kept.step`: what the state keeps of the turns.
2. `retries_as_specified`: what is yielded, and which attempts are made.
3. `paused_between_attempts_iff`: two attempts have a pause or an event between them exactly when
   every connection that an attempt made delivers an event before it fails.
4. `accepting_server_storms`: a run where none does.
-/

namespace Rmcp

namespace Awaited

variable {S M E : Type}

/-- The message of the event that was received, if it was one and its data decodes. -/
def message (fromStr : String → Option M) : Awaited S E → Option M
  | .item (some (.ok sse)) => sse.data.bind fromStr
  | _ => none

/-- The pause that the server asked for. -/
def serverRetry : Awaited S E → Option Nat
  | .item (some (.ok sse)) => sse.retry
  | _ => none

/-- An event was received. -/
def IsEvent (awaited : Awaited S E) : Prop := ∃ sse, awaited = .item (some (.ok sse))

/-- The connection has failed. -/
def IsFailure (awaited : Awaited S E) : Prop := ∃ e, awaited = .item (some (.error e))

/-- An attempt to connect has succeeded. -/
def Connects (awaited : Awaited S E) : Prop := ∃ stream, awaited = .retried (.ok stream)

end Awaited

namespace SseAutoReconnectStream

variable {S M E : Type}

/-! ## Turns -/

/-- One turn of `poll_next`. -/
structure Turn (S M E : Type) where
  state : SseAutoReconnectStreamState S
  awaited : Awaited S E
  polled : Polled M E

def step (retryPolicy : SseRetryPolicy) (fromStr : String → Option M)
    (s : SseAutoReconnectStream S) (awaited : Awaited S E) : Option (SseAutoReconnectStream S) :=
  (s.pollNext retryPolicy fromStr awaited).map (·.1)

def turn (retryPolicy : SseRetryPolicy) (fromStr : String → Option M)
    (s : SseAutoReconnectStream S) (awaited : Awaited S E) : List (Turn S M E) :=
  (s.pollNext retryPolicy fromStr awaited).toList.map fun r => ⟨s.state, awaited, r.2⟩

/-- The turns of a stream that starts on a connection. -/
def turns (retryPolicy : SseRetryPolicy) (fromStr : String → Option M) (stream : S)
    (as : List (Awaited S E)) : List (Turn S M E) :=
  Transition.observe (step retryPolicy fromStr) (turn retryPolicy fromStr) (new stream) as

/-- The stream `s` has waited for `as` since it was connected to `stream`. -/
def Runs (retryPolicy : SseRetryPolicy) (fromStr : String → Option M) (stream : S)
    (as : List (Awaited S E)) (s : SseAutoReconnectStream S) : Prop :=
  Transition.Run (step retryPolicy fromStr) (new stream) as s

namespace Turn

/-- It calls `retry_connection`. -/
def Calls (t : Turn S M E) : Prop := ∃ lastEventId, t.polled = .retryConnection lastEventId

/-- The attempt has failed. -/
def Refused (t : Turn S M E) : Prop := ∃ e, t.awaited = .retried (.error e)

/-- The stream is in `WaitingNextRetry`. -/
def Pauses (t : Turn S M E) : Prop := ∃ sleep retryTimes, t.state = .waitingNextRetry sleep retryTimes

def item (t : Turn S M E) : Option (Except E M) :=
  match t.polled with
  | .ready item => item
  | .again | .retryConnection _ => none

def error (t : Turn S M E) : Option E :=
  match t.polled with
  | .ready (some (.error e)) => some e
  | _ => none

end Turn

/-! ## What the turns say -/

/-- The messages of the events that were received. -/
def messages (fromStr : String → Option M) (log : List (Turn S M E)) : List M :=
  log.filterMap (·.awaited.message fromStr)

/-- The items that were yielded, up to the end. -/
def items (log : List (Turn S M E)) : List (Except E M) := log.filterMap (·.item)

def errors (log : List (Turn S M E)) : List E := log.filterMap (·.error)

/-- The id of the last event that had one. -/
def idReceived (log : List (Turn S M E)) : Option String :=
  log.reverse.findSome? (·.awaited.eventId)

/-- The pause that the server asked for last. -/
def retryReceived (log : List (Turn S M E)) : Option Nat :=
  log.reverse.findSome? (·.awaited.serverRetry)

/-- The attempts that have failed one after the other. -/
def failures (log : List (Turn S M E)) : Nat :=
  log.foldl (fun n t =>
    match t.awaited with
    | .retried (.error _) => n + 1
    | .retried (.ok _) => 0
    | _ => n) 0

/-! ## One turn -/

variable {retryPolicy : SseRetryPolicy} {fromStr : String → Option M}
  {s s' : SseAutoReconnectStream S} {awaited : Awaited S E} {polled : Polled M E}
  {stream : S} {as : List (Awaited S E)} {log : List (Turn S M E)}

theorem failures_concat (log : List (Turn S M E)) (t : Turn S M E) :
    failures (log ++ [t]) =
      match t.awaited with
      | .retried (.error _) => failures log + 1
      | .retried (.ok _) => 0
      | _ => failures log := by
  rw [failures, List.foldl_append]
  rfl

/-- A run goes on with one turn. -/
theorem Runs.turn (hrun : Runs retryPolicy fromStr stream as s)
    (hstep : step retryPolicy fromStr s awaited = some s') :
    ∃ polled, Polls retryPolicy fromStr s awaited s' polled ∧
      turns retryPolicy fromStr stream (as ++ [awaited]) =
        turns retryPolicy fromStr stream as ++ [⟨s.state, awaited, polled⟩] := by
  have hlog : turns retryPolicy fromStr stream (as ++ [awaited]) =
      turns retryPolicy fromStr stream as ++
        SseAutoReconnectStream.turn retryPolicy fromStr s awaited :=
    Transition.Run.observe_concat hrun hstep
  obtain ⟨⟨s₁, polled⟩, hpoll, rfl⟩ := Option.map_eq_some_iff.mp hstep
  refine ⟨polled, polls_of_pollNext hpoll, hlog.trans ?_⟩
  simp only [SseAutoReconnectStream.turn, hpoll]
  rfl

/-! ## What the state keeps -/

/-- What the state keeps of the turns so far. -/
structure Kept (retryPolicy : SseRetryPolicy) (log : List (Turn S M E))
    (s : SseAutoReconnectStream S) : Prop where
  lastEventId_eq : s.lastEventId = idReceived log
  serverRetryInterval_eq : s.serverRetryInterval = retryReceived log
  failures_eq :
    match s.state with
    | .connected _ => failures log = 0
    | .retrying retryTimes =>
      failures log = retryTimes ∧ (retryTimes = 0 ∨ retryPolicy retryTimes ≠ none)
    | .waitingNextRetry sleep retryTimes =>
      failures log = retryTimes ∧
        ∃ interval, retryPolicy retryTimes = some interval ∧ sleep = s.interval interval
    | .terminated => True

theorem Kept.step (h : Kept retryPolicy log s)
    (hpolls : Polls retryPolicy fromStr s awaited s' polled) :
    Kept retryPolicy (log ++ [⟨s.state, awaited, polled⟩]) s' := by
  have hfailures := h.failures_eq
  refine ⟨?_, ?_, ?_⟩
  · rw [idReceived, History.findSome?_reverse_concat]
    cases hpolls <;> simp [Awaited.eventId, observe, h.lastEventId_eq, idReceived]
  · rw [retryReceived, History.findSome?_reverse_concat]
    cases hpolls <;> simp [Awaited.serverRetry, observe, h.serverRetryInterval_eq, retryReceived]
  · rw [failures_concat]
    cases hpolls with
    | message hstate | skipped hstate =>
      rw [hstate] at hfailures
      simpa [observe, hstate] using hfailures
    | failed e hstate =>
      rw [hstate] at hfailures
      exact ⟨hfailures, .inl rfl⟩
    | ended hstate =>
      rw [hstate] at hfailures
      simpa [hstate] using hfailures
    | connects stream hstate => rfl
    | @refused retryTimes interval e hstate hpolicy =>
      rw [hstate] at hfailures
      exact ⟨congrArg (· + 1) hfailures.1, interval, hpolicy, rfl⟩
    | gaveUp e hstate hpolicy => trivial
    | slept hstate =>
      rw [hstate] at hfailures
      obtain ⟨hcount, interval, hpolicy, -⟩ := hfailures
      exact ⟨hcount, .inr (by simp [hpolicy])⟩
    | terminated hstate => simp [hstate]

theorem Runs.kept (hrun : Runs retryPolicy fromStr stream as s) :
    Kept retryPolicy (turns retryPolicy fromStr stream as : List (Turn S M E)) s := by
  refine Transition.Run.invariant (P := fun as s =>
    Kept retryPolicy (turns retryPolicy fromStr stream as : List (Turn S M E)) s) hrun ?_ ?_
  · exact ⟨rfl, rfl, rfl⟩
  · intro as s s' awaited hrun h hstep
    obtain ⟨polled, hpolls, hlog⟩ := Runs.turn hrun hstep
    rw [hlog]
    exact h.step hpolls

/-- What holds of every turn, given the turns before it. -/
theorem Runs.forall_turn {Q : List (Turn S M E) → Turn S M E → Prop}
    (hrun : Runs retryPolicy fromStr stream as s)
    (hturn : ∀ {as s awaited s' polled}, Runs retryPolicy fromStr stream as s →
      Polls retryPolicy fromStr s awaited s' polled →
      Q (turns retryPolicy fromStr stream as) ⟨s.state, awaited, polled⟩)
    {before after : List (Turn S M E)} {t : Turn S M E}
    (h : turns retryPolicy fromStr stream as = before ++ t :: after) : Q before t := by
  suffices hall : ∀ before t after,
      turns retryPolicy fromStr stream as = before ++ t :: after → Q before t from
    hall before t after h
  clear h
  refine Transition.Run.invariant (P := fun as _ => ∀ before t after,
    turns retryPolicy fromStr stream as = before ++ t :: after → Q before t) hrun ?_ ?_
  · intro before t after h
    simp [turns, Transition.observe] at h
  · intro as s s' awaited hrun ih hstep before t after h
    obtain ⟨polled, hpolls, hlog⟩ := Runs.turn (M := M) hrun hstep
    rw [hlog] at h
    rcases History.concat_eq_split.mp h with ⟨-, rfl, rfl⟩ | ⟨after', -, hbefore⟩
    · exact hturn hrun hpolls
    · exact ih before t after' hbefore

/-! ## What is yielded -/

theorem messages_concat (log : List (Turn S M E)) (t : Turn S M E) :
    messages fromStr (log ++ [t]) = messages fromStr log ++ (t.awaited.message fromStr).toList :=
  History.filterMap_concat ..

theorem items_concat (log : List (Turn S M E)) (t : Turn S M E) :
    items (log ++ [t]) = items log ++ t.item.toList :=
  History.filterMap_concat ..

theorem errors_concat (log : List (Turn S M E)) (t : Turn S M E) :
    errors (log ++ [t]) = errors log ++ t.error.toList :=
  History.filterMap_concat ..

/-- A turn yields the message of its event, or an error. -/
theorem Polls.item_eq (h : Polls retryPolicy fromStr s awaited s' polled) :
    (⟨s.state, awaited, polled⟩ : Turn S M E).item.toList =
      (awaited.message fromStr).toList.map .ok ++
        (⟨s.state, awaited, polled⟩ : Turn S M E).error.toList.map .error := by
  cases h with
  | message hstate hmessage => simp [Turn.item, Turn.error, Awaited.message, hmessage]
  | skipped hstate hmessage => simp [Turn.item, Turn.error, Awaited.message, hmessage]
  | _ => rfl

/-- Only the turn that terminates the stream yields an error. -/
theorem Polls.error_eq_none (h : Polls retryPolicy fromStr s awaited s' polled)
    (hstate : s'.state ≠ .terminated) :
    (⟨s.state, awaited, polled⟩ : Turn S M E).error = none := by
  cases h with
  | gaveUp => exact absurd rfl hstate
  | _ => rfl

/-- The messages of the events are yielded, each once and in order, and then an error. -/
theorem Runs.items_eq (hrun : Runs retryPolicy fromStr stream as s) :
    items (turns retryPolicy fromStr stream as) =
      (messages fromStr (turns retryPolicy fromStr stream as)).map .ok ++
        (errors (turns retryPolicy fromStr stream as)).map .error := by
  suffices hboth : items (turns retryPolicy fromStr stream as) =
      (messages fromStr (turns retryPolicy fromStr stream as)).map .ok ++
        (errors (turns retryPolicy fromStr stream as)).map .error ∧
      (s.state ≠ .terminated → errors (turns retryPolicy fromStr stream as) = []) from hboth.1
  refine Transition.Run.invariant (P := fun as s => items (turns retryPolicy fromStr stream as) =
      (messages fromStr (turns retryPolicy fromStr stream as)).map .ok ++
        (errors (turns retryPolicy fromStr stream as)).map .error ∧
      (SseAutoReconnectStream.state s ≠ .terminated →
        errors (turns retryPolicy fromStr stream as) = [])) hrun ⟨rfl, fun _ => rfl⟩ ?_
  intro as s s' awaited hrun ⟨h, hnone⟩ hstep
  obtain ⟨polled, hpolls, hlog⟩ := Runs.turn (M := M) hrun hstep
  rw [hlog, items_concat, messages_concat, errors_concat, hpolls.item_eq, h]
  by_cases hstate : s.state = .terminated
  · obtain ⟨rfl, rfl, rfl⟩ := hpolls.of_terminated hstate
    refine ⟨?_, fun hne => absurd hstate hne⟩
    simp [Awaited.message, Turn.error]
  · refine ⟨by simp [hnone hstate], fun hne => ?_⟩
    rw [hnone hstate, hpolls.error_eq_none hne]
    rfl

/-- Every attempt is given the id of the last event that had one. -/
theorem Runs.idSent (hrun : Runs retryPolicy fromStr stream as s)
    {before after : List (Turn S M E)} {t : Turn S M E} {lastEventId : Option String}
    (h : turns retryPolicy fromStr stream as = before ++ t :: after)
    (ht : t.polled = .retryConnection lastEventId) : lastEventId = idReceived before := by
  refine hrun.forall_turn (Q := fun before t => ∀ lastEventId,
    t.polled = .retryConnection lastEventId → lastEventId = idReceived before) ?_ h lastEventId ht
  rintro as s awaited s' polled hrun hpolls lastEventId rfl
  cases hpolls <;> exact hrun.kept.lastEventId_eq

/-! ## When the stream gives up -/

/-- The stream gives up at the failure that reaches the bound, which is one at least. -/
theorem Polls.gives_up_iff {maxTimes : Nat} (hpolicy : retryPolicy.RefusesFrom maxTimes)
    (hkept : Kept retryPolicy log s) {e : E}
    (h : Polls retryPolicy fromStr s (.retried (.error e)) s' polled) :
    failures log < max maxTimes 1 ∧
      (polled = .ready (some (.error e)) ↔ failures log + 1 = max maxTimes 1) := by
  have hfailures := hkept.failures_eq
  cases h with
  | @refused retryTimes interval e hstate hsome =>
    rw [hstate] at hfailures
    have hlt : ¬ maxTimes ≤ retryTimes + 1 := by
      rw [← hpolicy, hsome]
      simp
    simp only [reduceCtorEq, false_iff]
    omega
  | @gaveUp retryTimes e hstate hnone =>
    rw [hstate] at hfailures
    have hle := (hpolicy (retryTimes + 1)).mp hnone
    have hbefore : retryTimes = 0 ∨ ¬ maxTimes ≤ retryTimes :=
      hfailures.2.imp_right fun hne hge => hne ((hpolicy retryTimes).mpr hge)
    simp only [true_iff]
    omega

theorem Runs.gives_up_iff {maxTimes : Nat} (hpolicy : retryPolicy.RefusesFrom maxTimes)
    (hrun : Runs retryPolicy fromStr stream as s) {before after : List (Turn S M E)}
    {t : Turn S M E} {e : E} (h : turns retryPolicy fromStr stream as = before ++ t :: after)
    (ht : t.awaited = .retried (.error e)) :
    failures before < max maxTimes 1 ∧
      (t.polled = .ready (some (.error e)) ↔ failures before + 1 = max maxTimes 1) := by
  refine hrun.forall_turn (Q := fun before t => ∀ e, t.awaited = .retried (.error e) →
    failures before < max maxTimes 1 ∧
      (t.polled = .ready (some (.error e)) ↔ failures before + 1 = max maxTimes 1)) ?_ h e ht
  rintro as s awaited s' polled hrun hpolls e rfl
  exact hpolls.gives_up_iff hpolicy hrun.kept

/-- After an error the stream has ended. -/
theorem Runs.ended (hrun : Runs retryPolicy fromStr stream as s)
    {before after : List (Turn S M E)} {t : Turn S M E} {e : E}
    (h : turns retryPolicy fromStr stream as = before ++ t :: after)
    (ht : t.polled = .ready (some (.error e))) :
    t.awaited = .retried (.error e) ∧ ∀ u ∈ after, u.polled = .ready none := by
  suffices hall : ∀ before t after, turns retryPolicy fromStr stream as = before ++ t :: after →
      ∀ e, t.polled = .ready (some (.error e)) →
      t.awaited = .retried (.error e) ∧ s.state = .terminated ∧ ∀ u ∈ after, u.polled = .ready none by
    obtain ⟨hawaited, -, hafter⟩ := hall before t after h e ht
    exact ⟨hawaited, hafter⟩
  clear h
  refine Transition.Run.invariant (P := fun as s => ∀ before t after,
    turns retryPolicy fromStr stream as = before ++ t :: after →
      ∀ e, t.polled = .ready (some (.error e)) →
      t.awaited = .retried (.error e) ∧ SseAutoReconnectStream.state s = .terminated ∧
        ∀ u ∈ after, u.polled = .ready none) hrun ?_ ?_
  · intro before t after h
    simp [turns, Transition.observe] at h
  · intro as s s' awaited hrun ih hstep before t after h e ht
    obtain ⟨polled, hpolls, hlog⟩ := Runs.turn (M := M) hrun hstep
    rw [hlog] at h
    rcases History.concat_eq_split.mp h with ⟨rfl, -, rfl⟩ | ⟨after', rfl, hbefore⟩
    · cases hpolls with
      | gaveUp e' hstate =>
        cases ht
        exact ⟨rfl, rfl, List.forall_mem_nil _⟩
      | _ => cases ht
    · obtain ⟨hawaited, hstate, hafter⟩ := ih before t after' hbefore e ht
      obtain ⟨rfl, rfl, rfl⟩ := hpolls.of_terminated hstate
      refine ⟨hawaited, hstate, fun u hu => ?_⟩
      rcases List.mem_append.mp hu with hold | hnew
      · exact hafter u hold
      · rw [List.mem_singleton.mp hnew]

/-! ## The pauses -/

/-- A pause after the failures in `log`, as long as the policy and the server ask for. -/
def LongEnough (retryPolicy : SseRetryPolicy) (log : List (Turn S M E)) (sleep : Nat) : Prop :=
  ∃ interval, retryPolicy (failures log) = some interval ∧ interval ≤ sleep ∧
    ∀ r, retryReceived log = some r → r ≤ sleep

theorem longEnough_interval (hkept : Kept retryPolicy log s) {interval : Nat}
    (hpolicy : retryPolicy (failures log) = some interval) :
    LongEnough retryPolicy log (s.interval interval) := by
  refine ⟨interval, hpolicy, ?_, fun r hr => ?_⟩
  · unfold SseAutoReconnectStream.interval
    cases s.serverRetryInterval with
    | none => exact Nat.le_refl _
    | some r => exact Nat.le_max_right r interval
  · rw [← hkept.serverRetryInterval_eq] at hr
    rw [SseAutoReconnectStream.interval, hr]
    exact Nat.le_max_left r interval

/-- After a failed attempt the stream pauses, or has given up. -/
theorem Runs.pausing (hrun : Runs retryPolicy fromStr stream as s)
    {before middle : List (Turn S M E)} {t : Turn S M E}
    (h : turns retryPolicy fromStr stream as = before ++ t :: middle) (ht : t.Refused)
    (hmiddle : ∀ u ∈ middle, ¬ u.Calls) :
    s.state = .terminated ∨ ∃ sleep retryTimes,
      s.state = .waitingNextRetry sleep retryTimes ∧ LongEnough retryPolicy (before ++ [t]) sleep := by
  suffices hall : ∀ before t middle, turns retryPolicy fromStr stream as = before ++ t :: middle →
      t.Refused → (∀ u ∈ middle, ¬ u.Calls) →
      s.state = .terminated ∨ ∃ sleep retryTimes,
        s.state = .waitingNextRetry sleep retryTimes ∧
          LongEnough retryPolicy (before ++ [t]) sleep from hall before t middle h ht hmiddle
  clear h
  refine Transition.Run.invariant (P := fun as s => ∀ before t middle,
    turns retryPolicy fromStr stream as = before ++ t :: middle →
      t.Refused → (∀ u ∈ middle, ¬ u.Calls) →
      SseAutoReconnectStream.state s = .terminated ∨ ∃ sleep retryTimes,
        SseAutoReconnectStream.state s = .waitingNextRetry sleep retryTimes ∧
          LongEnough retryPolicy (before ++ [t]) sleep) hrun ?_ ?_
  · intro before t middle h
    simp [turns, Transition.observe] at h
  · intro as s s' awaited hrun ih hstep before t middle h ht hmiddle
    obtain ⟨polled, hpolls, hlog⟩ := Runs.turn (M := M) hrun hstep
    have hkept := (Runs.kept hrun).step hpolls
    rw [hlog] at h
    rcases History.concat_eq_split.mp h with ⟨rfl, rfl, rfl⟩ | ⟨middle', rfl, hbefore⟩
    · obtain ⟨e, rfl⟩ := ht
      cases hpolls with
      | refused e hstate hpolicy =>
        refine .inr ⟨_, _, rfl, longEnough_interval hkept ?_⟩
        exact hkept.failures_eq.1.symm ▸ hpolicy
      | gaveUp => exact .inl rfl
    · obtain ⟨hmiddle', hlast⟩ := List.forall_mem_append.mp hmiddle
      rcases ih before t middle' hbefore ht hmiddle' with hstate | ⟨sleep, retryTimes, hstate, -⟩
      · obtain ⟨-, rfl, -⟩ := hpolls.of_terminated hstate
        exact .inl hstate
      · -- the next turn would be an attempt
        obtain ⟨-, -, rfl⟩ := hpolls.of_waiting hstate
        exact absurd ⟨_, rfl⟩ (hlast _ (List.mem_singleton_self _))

/-- An attempt that follows a failed one comes after a pause. -/
theorem Runs.paused (hrun : Runs retryPolicy fromStr stream as s)
    {before middle after : List (Turn S M E)} {t t' : Turn S M E}
    (h : turns retryPolicy fromStr stream as = before ++ t :: (middle ++ t' :: after))
    (ht : t.Refused) (hmiddle : ∀ u ∈ middle, ¬ u.Calls) (ht' : t'.Calls) :
    t'.awaited = .slept ∧ ∃ sleep retryTimes,
      t'.state = .waitingNextRetry sleep retryTimes ∧ LongEnough retryPolicy (before ++ [t]) sleep := by
  have hsplit : turns retryPolicy fromStr stream as = (before ++ t :: middle) ++ t' :: after := by
    rw [h, List.append_assoc, List.cons_append]
  refine hrun.forall_turn (Q := fun log t' => log = before ++ t :: middle → t'.Calls →
    t'.awaited = .slept ∧ ∃ sleep retryTimes, t'.state = .waitingNextRetry sleep retryTimes ∧
      LongEnough retryPolicy (before ++ [t]) sleep) ?_ hsplit rfl ht'
  rintro as s awaited s' polled hrun hpolls hlog ⟨lastEventId, rfl⟩
  rcases hrun.pausing hlog ht hmiddle with hstate | ⟨sleep, retryTimes, hstate, hlong⟩
  · obtain ⟨-, -, hready⟩ := hpolls.of_terminated hstate
    cases hready
  · obtain ⟨rfl, -, -⟩ := hpolls.of_waiting hstate
    exact ⟨rfl, sleep, retryTimes, hstate, hlong⟩

/-- What a stream is to do whose policy refuses from attempt `maxTimes` on. -/
structure RetrySpec (maxTimes : Nat) (retryPolicy : SseRetryPolicy) (fromStr : String → Option M)
    (log : List (Turn S M E)) : Prop where
  items_eq : items log = (messages fromStr log).map .ok ++ (errors log).map .error
  idSent : ∀ before t after lastEventId, log = before ++ t :: after →
    t.polled = .retryConnection lastEventId → lastEventId = idReceived before
  gives_up_iff : ∀ before t after e, log = before ++ t :: after → t.awaited = .retried (.error e) →
    failures before < max maxTimes 1 ∧
      (t.polled = .ready (some (.error e)) ↔ failures before + 1 = max maxTimes 1)
  ended : ∀ before t after e, log = before ++ t :: after → t.polled = .ready (some (.error e)) →
    t.awaited = .retried (.error e) ∧ ∀ u ∈ after, u.polled = .ready none
  paused : ∀ before t middle t' after, log = before ++ t :: (middle ++ t' :: after) → t.Refused →
    (∀ u ∈ middle, ¬ u.Calls) → t'.Calls →
    t'.awaited = .slept ∧ ∃ sleep retryTimes, t'.state = .waitingNextRetry sleep retryTimes ∧
      LongEnough retryPolicy (before ++ [t]) sleep

/-- The messages are yielded in order, each attempt has the id that was received last, the stream
gives up with one error after as many failures as the policy allows, and it pauses after every
other failure. -/
theorem retries_as_specified {maxTimes : Nat} (hpolicy : retryPolicy.RefusesFrom maxTimes)
    (hrun : Runs retryPolicy fromStr stream as s) :
    RetrySpec maxTimes retryPolicy fromStr (turns retryPolicy fromStr stream as) where
  items_eq := hrun.items_eq
  idSent _ _ _ _ := hrun.idSent
  gives_up_iff _ _ _ _ := hrun.gives_up_iff hpolicy
  ended _ _ _ _ := hrun.ended
  paused _ _ _ _ _ := hrun.paused

/-- Every text is a message. -/
def anyText : String → Option String := some

def textEvent (id data : Option String) (retry : Option Nat) : Awaited Nat Unit :=
  .item (some (.ok ⟨none, data, id, retry⟩))

/-- The connection fails, and is made again at the second attempt. When that has failed as well,
two attempts fail. -/
def givingUp : List (Awaited Nat Unit) :=
  [textEvent (some "1") (some "a") (some 50), .item (some (.error ())), .retried (.error ()), .slept,
    .retried (.ok 1), textEvent none (some "b") none, .item (some (.error ())),
    .retried (.error ()), .slept, .retried (.error ()), .nothing]

theorem retries_as_specified_givingUp : ∃ s,
    Runs (FixedInterval.retry ⟨some 2, 10⟩) anyText 0 givingUp s ∧
    items (turns (FixedInterval.retry ⟨some 2, 10⟩) anyText 0 givingUp) =
      [.ok "a", .ok "b", .error ()] ∧
    RetrySpec 2 (FixedInterval.retry ⟨some 2, 10⟩) anyText
      (turns (FixedInterval.retry ⟨some 2, 10⟩) anyText 0 givingUp) := by
  have hrun : ∃ s, Runs (FixedInterval.retry ⟨some 2, 10⟩) anyText 0 givingUp s :=
    ⟨_, Transition.run_of_exec rfl⟩
  obtain ⟨s, hrun⟩ := hrun
  exact ⟨s, hrun, rfl, retries_as_specified (FixedInterval.refusesFrom rfl) hrun⟩

/-! ## Connections that fail at once -/

/-- Between two attempts the stream has paused, or has received an event. -/
def PausedBetween (log : List (Turn S M E)) : Prop :=
  ∀ before t middle t' after, log = before ++ t :: (middle ++ t' :: after) → t.Calls → t'.Calls →
    (∃ u ∈ middle ++ [t'], u.Pauses) ∨ ∃ u ∈ middle, u.awaited.IsEvent

/-- Every connection that an attempt made delivers an event before it fails. -/
def DeliversFirst (as : List (Awaited S E)) : Prop :=
  History.Between Awaited.Connects Awaited.IsEvent Awaited.IsFailure as

/-- A pause, or an event. -/
def Turn.Separates (t : Turn S M E) : Prop := t.Pauses ∨ t.awaited.IsEvent

theorem pausedBetween_iff :
    PausedBetween log ↔
      History.Between Turn.Calls Turn.Separates (fun t => t.Calls ∧ ¬ t.Pauses) log := by
  constructor
  · rintro h before t middle t' after heq ht ⟨ht', hawake⟩
    rcases h before t middle t' after heq ht ht' with ⟨u, hu, hpauses⟩ | ⟨u, hu, hevent⟩
    · rcases List.mem_append.mp hu with hu | hu
      · exact ⟨u, hu, .inl hpauses⟩
      · rw [List.mem_singleton.mp hu] at hpauses
        exact absurd hpauses hawake
    · exact ⟨u, hu, .inr hevent⟩
  · intro h before t middle t' after heq ht ht'
    by_cases hpauses : t'.Pauses
    · exact .inl ⟨t', by simp, hpauses⟩
    · obtain ⟨u, hu, hpause | hevent⟩ := h before t middle t' after heq ht ⟨ht', hpauses⟩
      · exact .inl ⟨u, List.mem_append_left _ hu, hpause⟩
      · exact .inr ⟨u, hu, hevent⟩

/-- Since the last attempt nothing has separated it from the next one exactly as long as its
connection has delivered nothing. -/
def Fresh (log : List (Turn S M E)) (as : List (Awaited S E)) (s : SseAutoReconnectStream S) :
    Prop :=
  match s.state with
  | .connected _ =>
    History.Since Turn.Calls Turn.Separates log ↔
      History.Since Awaited.Connects Awaited.IsEvent as
  | .retrying _ => History.Since Turn.Calls Turn.Separates log
  | .waitingNextRetry _ _ | .terminated => True

theorem Fresh.step (h : Fresh log as s) (hpolls : Polls retryPolicy fromStr s awaited s' polled) :
    Fresh (log ++ [⟨s.state, awaited, polled⟩]) (as ++ [awaited]) s' := by
  unfold Fresh at h ⊢
  simp only [History.since_concat]
  cases hpolls with
  | message hstate | skipped hstate =>
    simp [observe, hstate, Turn.Calls, Turn.Separates, Awaited.Connects, Awaited.IsEvent]
  | failed e hstate => exact .inl ⟨_, rfl⟩
  | ended hstate =>
    rw [hstate] at h
    simpa [hstate, Turn.Calls, Turn.Separates, Turn.Pauses, Awaited.Connects, Awaited.IsEvent]
      using h
  | connects stream hstate =>
    rw [hstate] at h
    simpa [hstate, Turn.Calls, Turn.Separates, Turn.Pauses, Awaited.Connects, Awaited.IsEvent]
      using h
  | refused | gaveUp => trivial
  | slept hstate => exact .inl ⟨_, rfl⟩
  | terminated hstate => simp [hstate]

/-- An attempt is not separated from the one before when its connection fails before it has
delivered an event. -/
theorem Polls.calls_iff (h : Fresh log as s)
    (hpolls : Polls retryPolicy fromStr s awaited s' polled) :
    ((⟨s.state, awaited, polled⟩ : Turn S M E).Calls ∧
        ¬ (⟨s.state, awaited, polled⟩ : Turn S M E).Pauses →
      ¬ History.Since Turn.Calls Turn.Separates log) ↔
      (awaited.IsFailure → ¬ History.Since Awaited.Connects Awaited.IsEvent as) := by
  unfold Fresh at h
  cases hpolls with
  | failed e hstate =>
    rw [hstate] at h
    simp [hstate, Turn.Calls, Turn.Pauses, Awaited.IsFailure, h]
  | slept hstate => simp [hstate, Turn.Calls, Turn.Pauses, Awaited.IsFailure]
  | _ => simp [Turn.Calls, Awaited.IsFailure]

/-- Two attempts always have a pause or an event between them exactly when every connection that
an attempt made delivers an event before it fails. -/
theorem paused_between_attempts_iff (hrun : Runs retryPolicy fromStr stream as s) :
    PausedBetween (turns retryPolicy fromStr stream as) ↔ DeliversFirst as := by
  suffices hboth : (PausedBetween (turns retryPolicy fromStr stream as) ↔ DeliversFirst as) ∧
      Fresh (turns retryPolicy fromStr stream as) as s from hboth.1
  refine Transition.Run.invariant (P := fun as s =>
    (PausedBetween (turns retryPolicy fromStr stream as) ↔ DeliversFirst as) ∧
      Fresh (turns retryPolicy fromStr stream as) as s) hrun ?_ ?_
  · refine ⟨?_, iff_of_false History.not_since_nil History.not_since_nil⟩
    rw [pausedBetween_iff]
    exact iff_of_true History.between_nil History.between_nil
  · intro as s s' awaited hrun ⟨h, hfresh⟩ hstep
    obtain ⟨polled, hpolls, hlog⟩ := Runs.turn (M := M) hrun hstep
    rw [hlog]
    refine ⟨?_, hfresh.step hpolls⟩
    rw [pausedBetween_iff, DeliversFirst, History.between_concat, History.between_concat,
      ← pausedBetween_iff, hpolls.calls_iff hfresh, h]
    rfl

/-- One attempt at most, and a second between attempts. -/
def oneAttempt : FixedInterval := ⟨some 1, 1000⟩

/-- The stream is connected again after a failure, reads an event, and fails again. -/
def deliveringServer : List (Awaited Nat Unit) :=
  [.item (some (.error ())), .retried (.ok 1), textEvent (some "1") none none,
    .item (some (.error ()))]

theorem paused_between_attempts_iff_deliveringServer : ∃ s,
    Runs oneAttempt.retry anyText 0 deliveringServer s ∧
    (PausedBetween (turns oneAttempt.retry anyText 0 deliveringServer) ↔
      DeliversFirst deliveringServer) := by
  have hrun : ∃ s, Runs oneAttempt.retry anyText 0 deliveringServer s :=
    ⟨_, Transition.run_of_exec rfl⟩
  obtain ⟨s, hrun⟩ := hrun
  exact ⟨s, hrun, paused_between_attempts_iff hrun⟩

/-- The server accepts every connection, and fails it at once. -/
def acceptingServer : List (Awaited Nat Unit) :=
  [.item (some (.error ())), .retried (.ok 1), .item (some (.error ())), .retried (.ok 2),
    .item (some (.error ()))]

/-- The client connects again and again without a pause, although its policy allows one
attempt. -/
theorem accepting_server_storms : ∃ s,
    Runs oneAttempt.retry anyText 0 acceptingServer s ∧
    (turns oneAttempt.retry anyText 0 acceptingServer).map (·.polled) =
      [.retryConnection none, .again, .retryConnection none, .again, .retryConnection none] ∧
    ¬ PausedBetween (turns oneAttempt.retry anyText 0 acceptingServer) := by
  refine ⟨_, Transition.run_of_exec rfl, rfl, fun h => ?_⟩
  have hbetween := h [] ⟨.connected 0, .item (some (.error ())), .retryConnection none⟩
    [⟨.retrying 0, .retried (.ok 1), .again⟩]
    ⟨.connected 1, .item (some (.error ())), .retryConnection none⟩ _ rfl ⟨_, rfl⟩ ⟨_, rfl⟩
  simp [Turn.Pauses, Awaited.IsEvent] at hbetween

end SseAutoReconnectStream

end Rmcp
