import Rmcp.Session.Log
import Rmcp.Support.Window
import Mathlib.Algebra.Group.Nat.Defs

/-!
# Event ids and caches

A cached sender has no counter: the number of a message is read off the last one in the
cache. The cache always holds the last messages of the channel, so the numbers are the places
of the messages in the log, and no two messages of a session have the same event id as long
as no number and no channel id wraps.

Results:
1. `Logged.step`, `Unused.step`: what one step keeps.
2. `event_ids`: the caches, the event ids and the receivers, in every run that does not wrap.
-/

namespace Rmcp.Session

variable {P : Payloads}

/-! ## One sender and its log -/

/-- The number of the next message is the length of the log. -/
theorem nextIndex_of_cache {id : Option HttpRequestId} {c : CachedTx P} {capacity : Nat}
    {ms : List (ServerSessionMessage P)} (hms : Consecutive id 0 ms) (hpos : 0 < capacity)
    (hcache : c.cache = ms.rtake capacity) : c.nextIndex = UInt64.ofNat ms.length := by
  rcases List.eq_nil_or_concat ms with rfl | ⟨before, m, rfl⟩
  · simp [CachedTx.nextIndex, hcache]
  · rw [List.concat_eq_append] at hms hcache ⊢
    obtain ⟨capacity, rfl⟩ := Nat.exists_eq_succ_of_ne_zero hpos.ne'
    rw [Nat.succ_eq_add_one, List.rtake_concat_succ] at hcache
    have hm := hms before.length (by simp)
    rw [List.getElem_concat_length rfl] at hm
    simp [CachedTx.nextIndex, hcache, hm]

/-- What a run has left of its log: every channel numbers its messages from zero on, a cache
holds the last of them, and a receiver is given messages that follow each other. -/
structure Logged (config : SessionConfig) (log : List (LogEntry P)) (s : Vars P) : Prop where
  numbered : ∀ id, Consecutive id 0 (sentOn id log)
  cached : ∀ id c, s.worker.cachedTx id = some c →
    c.cache = (sentOn id log).rtake config.channelCapacity
  current : ∀ id c, s.worker.cachedTx id = some c → s.channels.offered c.tx <:+ sentOn id log
  received : ∀ rx, ∃ id, s.channels.offered rx <:+: everSentOn id log

/-! ## The log -/

theorem sentOn_suffix (id : Option HttpRequestId) (log : List (LogEntry P)) :
    sentOn id log <:+ everSentOn id log := by
  induction log using List.reverseRecOn with
  | nil => exact List.suffix_refl _
  | append_singleton log e ih =>
    rw [sentOn_concat, everSentOn_concat]
    cases e with
    | established h =>
      simp only [LogEntry.next, LogEntry.on?, Option.toList_none, List.append_nil]
      split
      · exact List.nil_suffix
      · exact ih
    | sent id' m =>
      simp only [LogEntry.next, LogEntry.on?]
      split
      · exact List.suffix_append_self_iff.mpr ih
      · simpa using ih

/-- What a receiver was given stays a part of the log. -/
theorem infix_everSentOn_append {id : Option HttpRequestId} {log : List (LogEntry P)}
    {ms : List (ServerSessionMessage P)} (h : ms <:+: everSentOn id log)
    (entries : List (LogEntry P)) : ms <:+: everSentOn id (log ++ entries) := by
  rw [everSentOn, List.filterMap_append]
  exact h.trans (List.prefix_append _ _).isInfix

section Step

variable {config : SessionConfig} {log entries : List (LogEntry P)} {s s' : Vars P}
  {id : Option HttpRequestId} {c : CachedTx P}

/-- A message that is sent is the next one of its channel, and goes into its cache. -/
theorem Logged.sent {message : ServerJsonRpcMessage P} (h : Logged config log s)
    (hsenders : SendersOk config s.worker s.channels) (hc : s.worker.cachedTx id = some c)
    (hreplaced : s.worker.Replaced id (c.remember (c.stamp message)) s'.worker)
    (hoffered : ∀ rx, s'.channels.offered rx =
      if rx = c.tx then s.channels.offered rx ++ [c.stamp message] else s.channels.offered rx) :
    Logged config (log ++ [.sent id (c.stamp message)]) s' := by
  have hnumbered := hsenders.numbered hc
  have hnext := nextIndex_of_cache (h.numbered id) config.channelCapacity_pos (h.cached id c hc)
  have hstamp : (c.stamp message).eventId = ⟨id, 0 + UInt64.ofNat (sentOn id log).length⟩ := by
    simp [CachedTx.stamp, hnext, hnumbered.httpRequestId_eq]
  have hsent : ∀ id₁, sentOn id₁ (log ++ [.sent id (c.stamp message)]) =
      if id₁ = id then sentOn id₁ log ++ [c.stamp message] else sentOn id₁ log :=
    fun id₁ => sentOn_concat _ _ _
  have hgiven : s.channels.offered c.tx ++ [c.stamp message] <:+
      sentOn id (log ++ [.sent id (c.stamp message)]) := by
    rw [hsent, if_pos rfl]
    exact List.suffix_append_self_iff.mpr (h.current id c hc)
  refine ⟨fun id₁ => ?_, fun id₁ c₁ hc₁ => ?_, fun id₁ c₁ hc₁ => ?_, fun rx => ?_⟩
  · rw [hsent]
    split
    · next heq =>
      rw [heq]
      exact (h.numbered id).concat hstamp
    · exact h.numbered id₁
  · rcases hreplaced id₁ c₁ hc₁ with ⟨rfl, rfl⟩ | ⟨hne, hold⟩
    · rw [hsent, if_pos rfl, ← Window.push_rtake config.channelCapacity_pos, ← h.cached _ c hc,
        ← hnumbered.capacity_eq]
      rfl
    · rw [hsent, if_neg hne]
      exact h.cached id₁ c₁ hold
  · rw [hoffered]
    rcases hreplaced id₁ c₁ hc₁ with ⟨rfl, rfl⟩ | ⟨hne, hold⟩
    · rw [show (c.remember (c.stamp message)).tx = c.tx from rfl, if_pos rfl]
      exact hgiven
    · rw [if_neg fun heq => hne (hsenders.tx_inj hold hc heq), hsent, if_neg hne]
      exact h.current id₁ c₁ hold
  · rw [hoffered]
    split
    · next heq =>
      rw [heq]
      exact ⟨id, (hgiven.trans (sentOn_suffix _ _)).isInfix⟩
    · obtain ⟨id₁, hinfix⟩ := h.received rx
      exact ⟨id₁, infix_everSentOn_append hinfix _⟩

/-- A new channel starts with nothing sent. -/
theorem Logged.established (h : Logged config log s)
    (hsenders : SendersOk config s.worker s.channels) (hcache : c.cache = [])
    (htx : c.tx = s.channels.next)
    (hreplaced : s.worker.Replaced (some s.worker.nextHttpRequestId) c s'.worker)
    (hoffered : ∀ rx, s'.channels.offered rx =
      if rx = s.channels.next then [] else s.channels.offered rx) :
    Logged config (log ++ [.established s.worker.nextHttpRequestId]) s' := by
  have hsent : ∀ id₁, sentOn id₁ (log ++ [.established s.worker.nextHttpRequestId]) =
      if id₁ = some s.worker.nextHttpRequestId then [] else sentOn id₁ log :=
    fun id₁ => sentOn_concat _ _ _
  refine ⟨fun id₁ => ?_, fun id₁ c₁ hc₁ => ?_, fun id₁ c₁ hc₁ => ?_, fun rx => ?_⟩
  · rw [hsent]
    split
    · exact fun _ hp => absurd hp (Nat.not_lt_zero _)
    · exact h.numbered id₁
  · rcases hreplaced id₁ c₁ hc₁ with ⟨rfl, rfl⟩ | ⟨hne, hold⟩
    · rw [hsent, if_pos rfl, List.rtake_nil, hcache]
    · rw [hsent, if_neg hne]
      exact h.cached id₁ c₁ hold
  · rw [hoffered]
    rcases hreplaced id₁ c₁ hc₁ with ⟨rfl, rfl⟩ | ⟨hne, hold⟩
    · rw [if_pos htx]
      exact List.nil_suffix
    · rw [if_neg (hsenders.tx_lt hold).ne, hsent, if_neg hne]
      exact h.current id₁ c₁ hold
  · rw [hoffered]
    split
    · exact ⟨none, List.nil_infix⟩
    · obtain ⟨id₁, hinfix⟩ := h.received rx
      exact ⟨id₁, infix_everSentOn_append hinfix _⟩

/-- A new receiver of an old channel is given the end of what was sent on it. -/
theorem Logged.resumed {q : Nat} (h : Logged config log s)
    (hsenders : SendersOk config s.worker s.channels) (hc : s.worker.cachedTx id = some c)
    (hreplaced : s.worker.Replaced id { c with tx := s.channels.next } s'.worker)
    (hoffered : ∀ rx, s'.channels.offered rx =
      if rx = s.channels.next then c.cache.drop q else s.channels.offered rx) :
    Logged config log s' := by
  have hgiven : c.cache.drop q <:+ sentOn id log := by
    refine (List.drop_suffix _ _).trans ?_
    rw [h.cached id c hc]
    exact Window.rtake_suffix _ _
  refine ⟨h.numbered, fun id₁ c₁ hc₁ => ?_, fun id₁ c₁ hc₁ => ?_, fun rx => ?_⟩
  · rcases hreplaced id₁ c₁ hc₁ with ⟨rfl, rfl⟩ | ⟨-, hold⟩
    · exact h.cached _ c hc
    · exact h.cached id₁ c₁ hold
  · rw [hoffered]
    rcases hreplaced id₁ c₁ hc₁ with ⟨rfl, rfl⟩ | ⟨-, hold⟩
    · rw [if_pos rfl]
      exact hgiven
    · rw [if_neg (hsenders.tx_lt hold).ne]
      exact h.current id₁ c₁ hold
  · rw [hoffered]
    split
    · exact ⟨id, (hgiven.trans (sentOn_suffix _ _)).isInfix⟩
    · exact h.received rx

/-- One step keeps the caches, the numbers and the receivers in agreement with the log. -/
theorem Logged.step (h : Logged config log s) (hsenders : SendersOk config s.worker s.channels)
    (hstep : SendersStep s entries s') : Logged config (log ++ entries) s' := by
  cases hstep with
  | quiet hcached hoffered _ _ =>
    rw [List.append_nil]
    exact
      { numbered := h.numbered
        cached := fun id c hc => h.cached id c (hcached id c hc)
        current := fun id c hc => hoffered c.tx ▸ h.current id c (hcached id c hc)
        received := fun rx => hoffered rx ▸ h.received rx }
  | sent hc hreplaced hoffered _ _ => exact h.sent hsenders hc hreplaced hoffered
  | established hcache htx hreplaced hoffered _ _ =>
    exact h.established hsenders hcache htx hreplaced hoffered
  | resumed q hc hreplaced hoffered _ _ =>
    rw [List.append_nil]
    exact h.resumed hsenders hc hreplaced hoffered

end Step

theorem logged_start (config : SessionConfig) : Logged config [] (start P config) := by
  have hoffered : ∀ rx, (start P config).channels.offered rx = [] := by
    intro rx
    simp only [start, createSession, Mpsc.offered_close, Mpsc.offered_channel]
    split <;> rfl
  refine ⟨fun _ _ hp => absurd hp (Nat.not_lt_zero _), fun id c hc => ?_, fun id c _ => ?_,
    fun rx => ⟨none, hoffered rx ▸ List.nil_infix⟩⟩
  · cases id with
    | none =>
      cases hc
      exact (List.rtake_nil _).symm
    | some h => cases hc
  · rw [hoffered]
    exact List.nil_suffix

theorem Runs.logged {config : SessionConfig} {as : List (Action P)} {s : Vars P}
    (hrun : Runs config as s) : Logged config (sessionLog config as) s := by
  suffices hboth : SendersOk config s.worker s.channels ∧
      Logged config (sessionLog config as) s from hboth.2
  refine hrun.observed_invariant Vars.logs
    (I := fun log s => SendersOk config s.worker s.channels ∧ Logged config log s)
    ⟨senders_start config, logged_start config⟩ ?_
  rintro log s s' a ⟨hsenders, hlogged⟩ hstep
  exact ⟨hstep.senders hsenders, hlogged.step hsenders (step_senders hsenders hstep)⟩

/-! ## Channel ids -/

def LogEntry.isEstablished : LogEntry P → Bool
  | .established _ => true
  | .sent _ _ => false

/-- How many request-wise channels were established. -/
def established (log : List (LogEntry P)) : Nat := log.countP LogEntry.isEstablished

/-- Before the counter wraps a new channel has an id that was never used, so all messages of
a channel were sent since it was established. -/
structure Unused (log : List (LogEntry P)) (w : SessionWorker P) : Prop where
  next_eq : w.nextHttpRequestId = UInt64.ofNat (established log)
  open_lt : ∀ h c, w.cachedTx (some h) = some c → h.toNat < established log
  unsent : ∀ h : HttpRequestId, established log ≤ h.toNat → everSentOn (some h) log = []
  whole : ∀ id, sentOn id log = everSentOn id log

section Step

variable {log entries : List (LogEntry P)} {s s' : Vars P} {id : Option HttpRequestId}
  {c : CachedTx P}

theorem Unused.sent {message : ServerJsonRpcMessage P} (h : Unused log s.worker)
    (hc : s.worker.cachedTx id = some c)
    (hreplaced : s.worker.Replaced id (c.remember (c.stamp message)) s'.worker)
    (hnext : s'.worker.nextHttpRequestId = s.worker.nextHttpRequestId) :
    Unused (log ++ [.sent id (c.stamp message)]) s'.worker := by
  have hcount : established (log ++ [.sent id (c.stamp message)]) = established log := by
    simp [established, LogEntry.isEstablished]
  have hopen : ∀ h₁ c₁, s'.worker.cachedTx (some h₁) = some c₁ →
      h₁.toNat < established log := by
    intro h₁ c₁ hc₁
    rcases hreplaced _ c₁ hc₁ with ⟨rfl, rfl⟩ | ⟨-, hold⟩
    · exact h.open_lt h₁ c hc
    · exact h.open_lt h₁ c₁ hold
  refine ⟨?_, ?_, fun h₁ hle => ?_, fun id₁ => ?_⟩
  · rw [hcount]
    exact hnext.trans h.next_eq
  · rw [hcount]
    exact hopen
  · rw [hcount] at hle
    have hne : some h₁ ≠ id := by
      rintro rfl
      exact absurd (h.open_lt h₁ c hc) (Nat.not_lt.mpr hle)
    rw [everSentOn_concat, h.unsent h₁ hle]
    simp [LogEntry.on?, hne]
  · rw [sentOn_concat, everSentOn_concat, h.whole id₁]
    simp only [LogEntry.next, LogEntry.on?]
    split <;> simp

/-- The id of a new channel is the number of the channels before it. -/
theorem Unused.opened (h : Unused log s.worker)
    (hreplaced : s.worker.Replaced (some s.worker.nextHttpRequestId) c s'.worker)
    (hnext : s'.worker.nextHttpRequestId = s.worker.nextHttpRequestId + 1)
    (hlt : established (log ++ [.established s.worker.nextHttpRequestId]) < 2 ^ 64) :
    Unused (log ++ [.established s.worker.nextHttpRequestId]) s'.worker := by
  have hcount : established (log ++ [.established s.worker.nextHttpRequestId]) =
      established log + 1 := by
    simp [established, LogEntry.isEstablished]
  rw [hcount] at hlt
  have hid : s.worker.nextHttpRequestId.toNat = established log := by
    rw [h.next_eq, UInt64.toNat_ofNat']
    exact Nat.mod_eq_of_lt (by omega)
  have hever : ∀ id₁, everSentOn id₁ (log ++ [.established s.worker.nextHttpRequestId]) =
      everSentOn id₁ log := by
    intro id₁
    rw [everSentOn_concat]
    simp [LogEntry.on?]
  refine ⟨?_, fun h₁ c₁ hc₁ => ?_, fun h₁ hle => ?_, fun id₁ => ?_⟩
  · rw [hnext, hcount, h.next_eq, UInt64.ofNat_add]
    rfl
  · rw [hcount]
    rcases hreplaced _ c₁ hc₁ with ⟨heq, -⟩ | ⟨-, hold⟩
    · rw [Option.some.inj heq, hid]
      exact Nat.lt_succ_self _
    · exact Nat.lt_succ_of_lt (h.open_lt h₁ c₁ hold)
  · rw [hcount] at hle
    rw [hever]
    exact h.unsent h₁ (Nat.le_of_succ_le hle)
  · rw [sentOn_concat, hever, LogEntry.next]
    split
    · next heq => rw [heq, h.unsent _ hid.ge]
    · exact h.whole id₁

theorem Unused.step (h : Unused log s.worker) (hstep : SendersStep s entries s')
    (hlt : established (log ++ entries) < 2 ^ 64) : Unused (log ++ entries) s'.worker := by
  cases hstep with
  | quiet hcached _ _ hnext =>
    rw [List.append_nil]
    exact
      { h with
        next_eq := hnext.trans h.next_eq
        open_lt := fun id c hc => h.open_lt id c (hcached _ c hc) }
  | sent hc hreplaced _ _ hnext => exact h.sent hc hreplaced hnext
  | established _ _ hreplaced _ _ hnext => exact h.opened hreplaced hnext hlt
  | @resumed _ id c q hc hreplaced _ _ hnext =>
    rw [List.append_nil]
    refine { h with next_eq := hnext.trans h.next_eq, open_lt := fun h₁ c₁ hc₁ => ?_ }
    rcases hreplaced _ c₁ hc₁ with ⟨rfl, -⟩ | ⟨-, hold⟩
    · exact h.open_lt h₁ c hc
    · exact h.open_lt h₁ c₁ hold

end Step

theorem Runs.unused {config : SessionConfig} {as : List (Action P)} {s : Vars P}
    (hrun : Runs config as s) (hlt : established (sessionLog config as) < 2 ^ 64) :
    Unused (sessionLog config as) s.worker := by
  suffices hboth : SendersOk config s.worker s.channels ∧
      (established (sessionLog config as) < 2 ^ 64 →
        Unused (sessionLog config as) s.worker) from hboth.2 hlt
  refine hrun.observed_invariant Vars.logs
    (I := fun log s => SendersOk config s.worker s.channels ∧
      (established log < 2 ^ 64 → Unused log s.worker))
    ⟨senders_start config, fun _ => ⟨rfl, ?_, fun _ _ => rfl, fun _ => rfl⟩⟩ ?_
  · rintro h c hc
    cases hc
  · rintro log s s' a ⟨hsenders, hunused⟩ hstep
    refine ⟨hstep.senders hsenders, fun hlt => ?_⟩
    have hle : established log ≤ established (log ++ s.logs a) := by
      simp [established]
    exact (hunused (Nat.lt_of_le_of_lt hle hlt)).step (step_senders hsenders hstep) hlt

/-! ## Event ids -/

def LogEntry.message? : LogEntry P → Option (ServerSessionMessage P)
  | .established _ => none
  | .sent _ m => some m

/-- All messages that were sent in the session. -/
def sentMessages (log : List (LogEntry P)) : List (ServerSessionMessage P) :=
  log.filterMap LogEntry.message?

theorem mem_sentMessages {log : List (LogEntry P)} {m : ServerSessionMessage P} :
    m ∈ sentMessages log ↔ ∃ id, m ∈ everSentOn id log := by
  simp only [sentMessages, everSentOn, List.mem_filterMap]
  constructor
  · rintro ⟨e, he, hm⟩
    cases e with
    | established h => cases hm
    | sent id m' =>
      cases hm
      exact ⟨id, _, he, by simp [LogEntry.on?]⟩
  · rintro ⟨id, e, he, hm⟩
    cases e with
    | established h => cases hm
    | sent id' m' =>
      simp only [LogEntry.on?] at hm
      split at hm <;> cases hm
      exact ⟨_, he, rfl⟩

/-- Event ids that carry their channel, and differ on each channel, differ in the session. -/
theorem nodup_eventIds {log : List (LogEntry P)}
    (hid : ∀ id, ∀ m ∈ everSentOn id log, m.eventId.httpRequestId = id)
    (hnodup : ∀ id, ((everSentOn id log).map (·.eventId)).Nodup) :
    ((sentMessages log).map (·.eventId)).Nodup := by
  induction log using List.reverseRecOn with
  | nil => exact List.nodup_nil
  | append_singleton log e ih =>
    have hsplit : ∀ id, everSentOn id (log ++ [e]) = everSentOn id log ++ (e.on? id).toList :=
      fun id => everSentOn_concat id log e
    simp only [hsplit, List.map_append, List.mem_append] at hid hnodup
    have hbefore := ih (fun id m hm => hid id m (.inl hm)) fun id => (hnodup id).of_append_left
    cases e with
    | established h =>
      have hsame : sentMessages (log ++ [.established h]) = sentMessages log := by
        rw [sentMessages, List.filterMap_append]
        exact List.append_nil _
      rw [hsame]
      exact hbefore
    | sent id m =>
      have hm := hid id m (.inr (by simp [LogEntry.on?]))
      have hlast := hnodup id
      simp only [LogEntry.on?, ↓reduceIte, Option.toList_some, List.map_cons, List.map_nil]
        at hlast
      rw [sentMessages, List.filterMap_append, List.map_append]
      refine hbefore.append (by simp [LogEntry.message?]) ?_
      -- a message with the same event id was sent on the same channel
      rintro eventId hold hnew
      obtain ⟨m', hm', heq⟩ := List.mem_map.mp hold
      obtain ⟨id', hm'⟩ := mem_sentMessages.mp hm'
      have hnew' : eventId = m.eventId := by simpa [LogEntry.message?] using hnew
      have hid' := hid id' m' (.inl hm')
      rw [heq, hnew', hm] at hid'
      subst hid'
      refine List.disjoint_of_nodup_append hlast (List.mem_map.mpr ⟨m', hm', rfl⟩) ?_
      rw [heq, hnew']
      exact List.mem_singleton_self _

/-- The numbers of the messages are their places in the log, the caches hold the end of it,
event ids are unique, and receivers are given messages in the order of the log without a
gap. -/
structure NumberedEvents (config : SessionConfig) (log : List (LogEntry P)) (s : Vars P) :
    Prop where
  numbers : ∀ id p (m : ServerSessionMessage P), (everSentOn id log)[p]? = some m →
    m.eventId.httpRequestId = id ∧ m.eventId.index.toNat = p
  caches : ∀ id c, s.worker.cachedTx id = some c → ∀ n, n = (everSentOn id log).length →
    c.cache = (everSentOn id log).drop (n - min n config.channelCapacity)
  distinct : ((sentMessages log).map (·.eventId)).Nodup
  received : ∀ rx, ∃ id first, ∀ p (m : ServerSessionMessage P), (s.channels.chan rx).accepted[p]? = some m →
    m.eventId.index.toNat = first + p ∧ (everSentOn id log)[first + p]? = some m

/-- Every session numbers its events consistently, as long as fewer than `2 ^ 64` channels
are established and fewer than `2 ^ 64` messages are sent on each. -/
theorem event_ids {config : SessionConfig} {as : List (Action P)} {s : Vars P}
    (hrun : Runs config as s) (hestablished : established (sessionLog config as) < 2 ^ 64)
    (hsent : ∀ id, (everSentOn id (sessionLog config as)).length < 2 ^ 64) :
    NumberedEvents config (sessionLog config as) s := by
  have hlogged := hrun.logged
  have hunused := hrun.unused hestablished
  generalize sessionLog config as = log at *
  have hnumbers : ∀ id p (m : ServerSessionMessage P), (everSentOn id log)[p]? = some m →
      m.eventId.httpRequestId = id ∧ m.eventId.index.toNat = p := by
    intro id p m hm
    obtain ⟨hp, rfl⟩ := List.getElem?_eq_some_iff.mp hm
    have hconsecutive := hlogged.numbered id
    rw [hunused.whole id] at hconsecutive
    rw [hconsecutive p hp]
    refine ⟨rfl, ?_⟩
    simp only [UInt64.zero_add, UInt64.toNat_ofNat']
    exact Nat.mod_eq_of_lt (hp.trans (hsent id))
  refine ⟨hnumbers, ?_, ?_, ?_⟩
  · rintro id c hc n rfl
    rw [hlogged.cached id c hc, hunused.whole id, List.rtake]
    congr 1
    omega
  · refine nodup_eventIds (fun id m hm => ?_) fun id => ?_
    · obtain ⟨p, hp⟩ := List.mem_iff_getElem?.mp hm
      exact (hnumbers id p m hp).1
    · rw [List.nodup_iff_injective_get]
      rintro ⟨p, hp⟩ ⟨q, hq⟩ heq
      simp only [List.length_map] at hp hq
      simp only [List.get_eq_getElem, List.getElem_map] at heq
      have hpq := (hnumbers id p _ (List.getElem?_eq_getElem hp)).2
      rw [heq, (hnumbers id q _ (List.getElem?_eq_getElem hq)).2] at hpq
      exact Fin.ext hpq.symm
  · intro rx
    obtain ⟨id, before, after, hinfix⟩ := hlogged.received rx
    refine ⟨id, before.length, fun p m hm => ?_⟩
    have hoffered : (s.channels.offered rx)[p]? = some m := by
      unfold Chan.accepted at hm
      split at hm
      · exact hm
      · rw [List.getElem?_take] at hm
        split at hm
        · exact hm
        · cases hm
    have hplace : (everSentOn id log)[before.length + p]? = some m := by
      obtain ⟨hp, rfl⟩ := List.getElem?_eq_some_iff.mp hoffered
      rw [← hinfix, List.append_assoc, List.getElem?_append_right (Nat.le_add_right _ _),
        Nat.add_sub_cancel_left, List.getElem?_append_left hp, List.getElem?_eq_getElem hp]
    exact ⟨(hnumbers id _ m hplace).2, hplace⟩

/-- A channel is established, a request is posted on it, and the handler sends two messages
and resumes one of the channels. -/
def resumedRun : List (Action bare) :=
  handshake ++
    [.httpService .establishRequestWiseChannel, post 1 .staticEmpty 0,
      .handler (.request ⟨.number 0, ()⟩), .handler (answer 1),
      .httpService (.resume ⟨none, 0⟩)]

theorem event_ids_resumedRun : ∃ s : Vars bare, Runs .default resumedRun s ∧
    (everSentOn none (sessionLog .default resumedRun)).length = 2 ∧
    NumberedEvents .default (sessionLog .default resumedRun) s := by
  have hrun : ∃ s, Runs .default resumedRun s := ⟨_, Transition.run_of_exec rfl⟩
  obtain ⟨s, hrun⟩ := hrun
  have hlength : (sessionLog .default resumedRun).length = 3 := rfl
  refine ⟨s, hrun, rfl, event_ids hrun (by decide) fun id => ?_⟩
  have hle : (everSentOn id (sessionLog .default resumedRun)).length ≤ 3 :=
    hlength ▸ List.length_filterMap_le _ _
  omega

end Rmcp.Session
