import Mathlib.Algebra.Group.Nat.Defs
import Mathlib.Tactic.Common

/-!
# The reconnecting event stream

`SseAutoReconnectStream`: a stream of server messages over connections that may fail. One
step is what `poll_next` does with one thing it waited for: an item of the connected stream,
the outcome of an attempt to connect, or the end of a pause. The recursion of `poll_next` is
a sequence of such steps.

A connection is a parameter, and so are the decoder of messages and the errors. Times are in
milliseconds.

Results:
1. `FixedInterval.refusesFrom`, `ExponentialBackoff.refusesFrom`: which attempts the policies
   refuse.
2. `polls_of_pollNext`: what a step does.
3. `lastEventId_pollNext`: what a step does to the id that is sent along with the next
   attempt.
4. `connected_pollNext`: a stream gets connected by an attempt that succeeds, and by nothing
   else.
5. `pollNext_mapError`: the errors pass through a step, and decide nothing in it.
-/

namespace Rmcp

/-- One server-sent event. -/
structure Sse where
  event : Option String
  data : Option String
  id : Option String
  retry : Option Nat
deriving DecidableEq

/-- `SseRetryPolicy::retry`: the pause before the next attempt, if there is to be one. -/
abbrev SseRetryPolicy := Nat → Option Nat

structure FixedInterval where
  maxTimes : Option Nat
  duration : Nat
deriving DecidableEq

def FixedInterval.retry (p : FixedInterval) : SseRetryPolicy := fun currentTimes =>
  match p.maxTimes with
  | some maxTimes => if maxTimes ≤ currentTimes then none else some p.duration
  | none => some p.duration

def FixedInterval.default : FixedInterval := ⟨none, 1000⟩

structure ExponentialBackoff where
  maxTimes : Option Nat
  baseDuration : Nat
deriving DecidableEq

/-- The factor is a `u32`, and wraps around in a release build. That the multiplication of a
`Duration` panics when it overflows is left out here; `ExactBackoff` has both. -/
def ExponentialBackoff.retry (p : ExponentialBackoff) : SseRetryPolicy := fun currentTimes =>
  if p.maxTimes.any (· ≤ currentTimes) then none
  else some (p.baseDuration * (2 ^ (currentTimes % 2 ^ 32) % 2 ^ 32))

def ExponentialBackoff.default : ExponentialBackoff := ⟨none, 1000⟩

/-- The policy refuses exactly the attempts from number `maxTimes` on. -/
def SseRetryPolicy.RefusesFrom (retryPolicy : SseRetryPolicy) (maxTimes : Nat) : Prop :=
  ∀ currentTimes, retryPolicy currentTimes = none ↔ maxTimes ≤ currentTimes

theorem FixedInterval.refusesFrom {p : FixedInterval} {maxTimes : Nat}
    (h : p.maxTimes = some maxTimes) : p.retry.RefusesFrom maxTimes := by
  intro currentTimes
  simp [retry, h]

theorem ExponentialBackoff.refusesFrom {p : ExponentialBackoff} {maxTimes : Nat}
    (h : p.maxTimes = some maxTimes) : p.retry.RefusesFrom maxTimes := by
  intro currentTimes
  simp [retry, h]

inductive SseAutoReconnectStreamState (S : Type)
  | connected (stream : S)
  | retrying (retryTimes : Nat)
  | waitingNextRetry (sleep : Nat) (retryTimes : Nat)
  | terminated
deriving DecidableEq

/-- The state of the stream. `retry_policy` is a parameter of its step, and the connector is
what the step asks to connect. -/
structure SseAutoReconnectStream (S : Type) where
  lastEventId : Option String
  serverRetryInterval : Option Nat
  state : SseAutoReconnectStreamState S
deriving DecidableEq

/-- What `poll_next` waited for. -/
inductive Awaited (S E : Type)
  /-- The next item of the connected stream; `none` is its end. -/
  | item (sse : Option (Except E Sse))
  | retried (result : Except E S)
  | slept
  /-- A terminated stream waits for nothing. -/
  | nothing

/-- The id of the event that was received, if it was one and has an id. -/
def Awaited.eventId {S E : Type} : Awaited S E → Option String
  | .item (some (.ok sse)) => sse.id
  | _ => none

def Awaited.mapError {S E E' : Type} (f : E → E') : Awaited S E → Awaited S E'
  | .item sse => .item (sse.map (Except.mapError f))
  | .retried result => .retried (result.mapError f)
  | .slept => .slept
  | .nothing => .nothing

/-- What `poll_next` does next. -/
inductive Polled (M E : Type)
  | again
  /-- It calls `retry_connection`, and polls again. -/
  | retryConnection (lastEventId : Option String)
  | ready (item : Option (Except E M))
deriving DecidableEq

def Polled.mapError {M E E' : Type} (f : E → E') : Polled M E → Polled M E'
  | .again => .again
  | .retryConnection lastEventId => .retryConnection lastEventId
  | .ready item => .ready (item.map (Except.mapError f))

namespace SseAutoReconnectStream

variable {S M E E' : Type}

def new (stream : S) : SseAutoReconnectStream S := ⟨none, none, .connected stream⟩

/-- The stream after it has read the fields `retry` and `id` of an event. -/
def observe (s : SseAutoReconnectStream S) (sse : Sse) : SseAutoReconnectStream S :=
  { s with
    serverRetryInterval := sse.retry <|> s.serverRetryInterval
    lastEventId := sse.id <|> s.lastEventId }

/-- The pause: what the policy says, or what the server asked for if that is longer. -/
def interval (s : SseAutoReconnectStream S) (interval : Nat) : Nat :=
  (s.serverRetryInterval.map (max · interval)).getD interval

/-- One turn of `poll_next`; `none` when the stream does not wait for this. Data that does
not decode is logged and skipped. -/
def pollNext (retryPolicy : SseRetryPolicy) (fromStr : String → Option M)
    (s : SseAutoReconnectStream S) :
    Awaited S E → Option (SseAutoReconnectStream S × Polled M E) := fun awaited =>
  match s.state, awaited with
  | .connected _, .item (some (.ok sse)) =>
    some (s.observe sse,
      match sse.data.bind fromStr with
      | some message => .ready (some (.ok message))
      | none => .again)
  | .connected _, .item (some (.error _)) =>
    some ({ s with state := .retrying 0 }, .retryConnection s.lastEventId)
  | .connected _, .item none => some (s, .ready none)
  | .retrying _, .retried (.ok stream) => some ({ s with state := .connected stream }, .again)
  | .retrying retryTimes, .retried (.error e) =>
    match retryPolicy (retryTimes + 1) with
    | some interval =>
      some ({ s with state := .waitingNextRetry (s.interval interval) (retryTimes + 1) }, .again)
    | none => some ({ s with state := .terminated }, .ready (some (.error e)))
  | .waitingNextRetry _ retryTimes, .slept =>
    some ({ s with state := .retrying retryTimes }, .retryConnection s.lastEventId)
  | .terminated, .nothing => some (s, .ready none)
  | _, _ => none

/-- The connection that the stream reads from. -/
def connection (s : SseAutoReconnectStream S) : Option S :=
  match s.state with
  | .connected stream => some stream
  | _ => none

/-- What a turn with `awaited` makes of `s`. -/
inductive Polls (retryPolicy : SseRetryPolicy) (fromStr : String → Option M)
    (s : SseAutoReconnectStream S) :
    Awaited S E → SseAutoReconnectStream S → Polled M E → Prop
  | message {stream : S} {sse : Sse} {message : M} :
      s.state = .connected stream → sse.data.bind fromStr = some message →
      Polls retryPolicy fromStr s (.item (some (.ok sse))) (s.observe sse)
        (.ready (some (.ok message)))
  | skipped {stream : S} {sse : Sse} :
      s.state = .connected stream → sse.data.bind fromStr = none →
      Polls retryPolicy fromStr s (.item (some (.ok sse))) (s.observe sse) .again
  | failed {stream : S} (e : E) :
      s.state = .connected stream →
      Polls retryPolicy fromStr s (.item (some (.error e))) { s with state := .retrying 0 }
        (.retryConnection s.lastEventId)
  | ended {stream : S} :
      s.state = .connected stream → Polls retryPolicy fromStr s (.item none) s (.ready none)
  | connects {retryTimes : Nat} (stream : S) :
      s.state = .retrying retryTimes →
      Polls retryPolicy fromStr s (.retried (.ok stream)) { s with state := .connected stream }
        .again
  | refused {retryTimes interval : Nat} (e : E) :
      s.state = .retrying retryTimes → retryPolicy (retryTimes + 1) = some interval →
      Polls retryPolicy fromStr s (.retried (.error e))
        { s with state := .waitingNextRetry (s.interval interval) (retryTimes + 1) } .again
  | gaveUp {retryTimes : Nat} (e : E) :
      s.state = .retrying retryTimes → retryPolicy (retryTimes + 1) = none →
      Polls retryPolicy fromStr s (.retried (.error e)) { s with state := .terminated }
        (.ready (some (.error e)))
  | slept {sleep retryTimes : Nat} :
      s.state = .waitingNextRetry sleep retryTimes →
      Polls retryPolicy fromStr s .slept { s with state := .retrying retryTimes }
        (.retryConnection s.lastEventId)
  | terminated :
      s.state = .terminated → Polls retryPolicy fromStr s .nothing s (.ready none)

variable {retryPolicy : SseRetryPolicy} {fromStr : String → Option M}
  {s s' : SseAutoReconnectStream S} {awaited : Awaited S E} {polled : Polled M E}

theorem polls_of_pollNext (h : s.pollNext retryPolicy fromStr awaited = some (s', polled)) :
    Polls retryPolicy fromStr s awaited s' polled := by
  unfold pollNext at h
  split at h
  case h_1 hstate =>
    cases h
    split
    · next hmessage => exact .message hstate hmessage
    · next hmessage => exact .skipped hstate hmessage
  case h_2 hstate =>
    cases h
    exact .failed _ hstate
  case h_3 hstate =>
    cases h
    exact .ended hstate
  case h_4 hstate =>
    cases h
    exact .connects _ hstate
  case h_5 hstate =>
    split at h
    · next hpolicy =>
      cases h
      exact .refused _ hstate hpolicy
    · next hpolicy =>
      cases h
      exact .gaveUp _ hstate hpolicy
  case h_6 hstate =>
    cases h
    exact .slept hstate
  case h_7 hstate =>
    cases h
    exact .terminated hstate
  case h_8 => cases h

/-- A stream that has terminated waits for nothing and yields nothing. -/
theorem Polls.of_terminated (h : Polls retryPolicy fromStr s awaited s' polled)
    (hstate : s.state = .terminated) : awaited = .nothing ∧ s' = s ∧ polled = .ready none := by
  cases h with
  | terminated => exact ⟨rfl, rfl, rfl⟩
  | _ => simp_all

/-- A pause ends with an attempt. -/
theorem Polls.of_waiting (h : Polls retryPolicy fromStr s awaited s' polled)
    {sleep retryTimes : Nat} (hstate : s.state = .waitingNextRetry sleep retryTimes) :
    awaited = .slept ∧ s' = { s with state := .retrying retryTimes } ∧
      polled = .retryConnection s.lastEventId := by
  cases h with
  | slept hstate' =>
    cases hstate.symm.trans hstate'
    exact ⟨rfl, rfl, rfl⟩
  | _ => simp_all

/-- Only an event changes the id of the last event, and only one that has an id. -/
theorem lastEventId_pollNext (h : s.pollNext retryPolicy fromStr awaited = some (s', polled)) :
    s'.lastEventId = (awaited.eventId <|> s.lastEventId) := by
  cases polls_of_pollNext h <;> rfl

/-- A stream is connected where it was, or where an attempt has just succeeded. -/
theorem connected_pollNext (h : s.pollNext retryPolicy fromStr awaited = some (s', polled))
    {stream : S} (hconnected : s'.connection = some stream) :
    s.connection = some stream ∨ (s.connection = none ∧ awaited = .retried (.ok stream)) := by
  cases polls_of_pollNext h with
  | message | skipped | ended | terminated => exact .inl hconnected
  | connects stream' hstate =>
    obtain rfl : stream' = stream := Option.some.inj hconnected
    exact .inr ⟨by simp [connection, hstate], rfl⟩
  | _ => cases hconnected

/-- An attempt that succeeds connects the stream. -/
theorem pollNext_retried {stream : S}
    (h : s.pollNext retryPolicy fromStr (.retried (.ok stream) : Awaited S E) = some (s', polled)) :
    s'.connection = some stream := by
  cases polls_of_pollNext h with
  | connects => rfl

theorem pollNext_mapError (f : E → E') :
    (s.pollNext retryPolicy fromStr (awaited.mapError f) :
        Option (SseAutoReconnectStream S × Polled M E')) =
      (s.pollNext retryPolicy fromStr awaited).map fun r => (r.1, r.2.mapError f) := by
  unfold pollNext
  cases hstate : s.state with
  | connected stream =>
    cases awaited with
    | item sse =>
      obtain _ | _ | sse := sse
      · rfl
      · rfl
      · simp only [Awaited.mapError, Option.map_some, Except.mapError]
        cases sse.data.bind fromStr <;> rfl
    | retried | slept | nothing => rfl
  | retrying retryTimes =>
    cases awaited with
    | retried result =>
      cases result with
      | ok stream => rfl
      | error e =>
        simp only [Awaited.mapError, Except.mapError]
        cases retryPolicy (retryTimes + 1) <;> rfl
    | item | slept | nothing => rfl
  | waitingNextRetry sleep retryTimes => cases awaited <;> rfl
  | terminated => cases awaited <;> rfl

end SseAutoReconnectStream

end Rmcp
