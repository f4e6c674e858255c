import Rmcp.Service.Turn
import Rmcp.Support.Since
import Mathlib.Algebra.Group.Nat.Defs

/-!
# Requests and their responses

A local request waits in the responder pool under its id. What becomes of it is decided by
the first event after it was stored that names its id: a response or an error of the peer,
the failure of its own transport send, or the completed send of a local cancellation.

The ids come from a counter, so while it has not gone round no two requests share one, and
storing a request never displaces another.

Results:
1. `Decided.turn`: one turn of the loop keeps pool and completions in step with the history.
2. `Runs.issued`: the requests of a run are numbered.
3. `response_correlation`: the outcome of every request.
-/

namespace Rmcp.Service

variable {R : ServiceRole} {E : Type}

/-- The outcome that an event decides on for the request `id`. -/
def Event.verdict (id : RequestId) (e : Event R E) : Option (Outcome R E) :=
  e.decides.bind fun d => if d.1 = id then some d.2 else none

/-- The requests that were stored, with their responders. -/
def storedRequests (history : List (Event R E)) : List (RequestId × Nat) :=
  history.filterMap Event.stored?

/-- The outcomes that a responder has been completed with. -/
def outcomesOf (completions : List (Nat × Outcome R E)) (responder : Nat) :
    List (Outcome R E) :=
  completions.filterMap fun c => if c.1 = responder then some c.2 else none

theorem outcomesOf_append (cs cs' : List (Nat × Outcome R E)) (responder : Nat) :
    outcomesOf (cs ++ cs') responder = outcomesOf cs responder ++ outcomesOf cs' responder :=
  List.filterMap_append

theorem outcomesOf_option (o : Option Nat) (outcome : Outcome R E) (responder : Nat) :
    outcomesOf (o.toList.map (·, outcome)) responder =
      if o = some responder then [outcome] else [] := by
  cases o with
  | none => rfl
  | some responder' => by_cases h : responder' = responder <;> simp [outcomesOf, h]

/-! ## Pool and completions follow the history -/

/-- Pool and completions are what the history makes of them. -/
structure Decided (history : List (Event R E)) (pool : HashMap RequestId Nat)
    (completions : List (Nat × Outcome R E)) : Prop where
  pool_stored : ∀ id responder, pool.get id = some responder →
    (id, responder) ∈ storedRequests history
  completed_stored : ∀ c ∈ completions, ∃ id, (id, c.1) ∈ storedRequests history
  outcomes : ∀ before e after id responder, history = before ++ e :: after →
    e.stored? = some (id, responder) →
    outcomesOf completions responder = (after.findSome? (Event.verdict id)).toList
  pending : ∀ before e after id responder, history = before ++ e :: after →
    e.stored? = some (id, responder) →
    (pool.get id = some responder ↔ after.findSome? (Event.verdict id) = none)

/-- No two stored requests share an id or a responder. -/
structure Distinct (stored : List (RequestId × Nat)) : Prop where
  responders : (stored.map (·.2)).Nodup
  id_iff : ∀ p ∈ stored, ∀ q ∈ stored, p.1 = q.1 ↔ p.2 = q.2

theorem storedRequests_concat (history : List (Event R E)) (e : Event R E) :
    storedRequests (history ++ [e]) = storedRequests history ++ e.stored?.toList :=
  History.filterMap_concat ..

theorem mem_storedRequests {before after : List (Event R E)} {e : Event R E}
    {p : RequestId × Nat} (h : e.stored? = some p) :
    p ∈ storedRequests (before ++ e :: after) :=
  List.mem_filterMap.mpr ⟨e, by simp, h⟩

/-- A history that ends with an event that stores nothing is split before that event. -/
theorem split_before {history before after : List (Event R E)} {e e' : Event R E}
    {p : RequestId × Nat} (he : e.stored? = none) (he' : e'.stored? = some p)
    (heq : history ++ [e] = before ++ e' :: after) :
    ∃ after', after = after' ++ [e] ∧ history = before ++ e' :: after' := by
  rcases History.concat_eq_split.mp heq with ⟨-, -, rfl⟩ | hafter
  · rw [he] at he'
    cases he'
  · exact hafter

/-- A turn that stores a request. -/
theorem Decided.store {history : List (Event R E)} {pool : HashMap RequestId Nat}
    {completions : List (Nat × Outcome R E)} (h : Decided history pool completions)
    {e : Event R E} {id : RequestId} {responder : Nat} (he : e.stored? = some (id, responder))
    (hdistinct : Distinct (storedRequests (history ++ [e]))) :
    Decided (history ++ [e]) (pool.insert id responder) completions := by
  have hmem : ∀ p, p ∈ storedRequests (history ++ [e]) ↔
      p ∈ storedRequests history ∨ p = (id, responder) := by
    simp [storedRequests_concat, he]
  -- the new responder is none of the old ones
  have hnew : ∀ id', (id', responder) ∉ storedRequests history := by
    intro id' hold
    have hnodup := hdistinct.responders
    rw [storedRequests_concat, he, List.map_append] at hnodup
    exact List.disjoint_of_nodup_append hnodup (List.mem_map.mpr ⟨_, hold, rfl⟩) (by simp)
  have hverdict : ∀ id', e.verdict id' = none := by
    intro id'
    simp [Event.verdict, Event.decides_of_stored? he]
  constructor
  · intro id' responder' hget
    rw [HashMap.get_insert] at hget
    split at hget
    · next heq =>
      cases hget
      exact (hmem _).mpr (.inr (by rw [heq]))
    · exact (hmem _).mpr (.inl (h.pool_stored id' responder' hget))
  · intro c hc
    obtain ⟨id', hid'⟩ := h.completed_stored c hc
    exact ⟨id', (hmem _).mpr (.inl hid')⟩
  · intro before e' after id' responder' heq he'
    rcases History.concat_eq_split.mp heq with ⟨rfl, rfl, rfl⟩ | ⟨after', rfl, rfl⟩
    · obtain ⟨rfl, rfl⟩ := Prod.mk.inj (Option.some.inj (he.symm.trans he'))
      simp only [List.findSome?_nil, Option.toList_none]
      refine List.filterMap_eq_nil_iff.mpr fun c hc => if_neg ?_
      rintro rfl
      obtain ⟨id', hid'⟩ := h.completed_stored c hc
      exact hnew id' hid'
    · rw [History.findSome?_concat, hverdict, Option.or_none]
      exact h.outcomes before e' after' id' responder' rfl he'
  · intro before e' after id' responder' heq he'
    rcases History.concat_eq_split.mp heq with ⟨rfl, rfl, rfl⟩ | ⟨after', rfl, rfl⟩
    · obtain ⟨rfl, rfl⟩ := Prod.mk.inj (Option.some.inj (he.symm.trans he'))
      simp
    · have hold : (id', responder') ∈ storedRequests (before ++ e' :: after') :=
        mem_storedRequests he'
      have hne : id' ≠ id := by
        rintro rfl
        have hsame := (hdistinct.id_iff _ ((hmem _).mpr (.inl hold)) _ ((hmem _).mpr (.inr rfl))).mp rfl
        simp only at hsame
        exact hnew id' (hsame ▸ hold)
      rw [History.findSome?_concat, hverdict, Option.or_none, HashMap.get_insert_of_ne hne]
      exact h.pending before e' after' id' responder' rfl he'

/-- A turn that decides on a request. -/
theorem Decided.decide {history : List (Event R E)} {pool : HashMap RequestId Nat}
    {completions : List (Nat × Outcome R E)} (h : Decided history pool completions)
    {e : Event R E} {id : RequestId} {outcome : Outcome R E} (he : e.stored? = none)
    (hdecides : e.decides = some (id, outcome)) (hdistinct : Distinct (storedRequests history)) :
    Decided (history ++ [e]) (pool.remove id)
      (completions ++ (pool.get id).toList.map (·, outcome)) := by
  have hstored : storedRequests (history ++ [e]) = storedRequests history := by
    simp [storedRequests_concat, he]
  have hverdict : ∀ id', e.verdict id' = if id = id' then some outcome else none := by
    intro id'
    simp [Event.verdict, hdecides]
  constructor
  · intro id' responder' hget
    rw [HashMap.get_remove] at hget
    split at hget
    · cases hget
    · exact hstored ▸ h.pool_stored id' responder' hget
  · intro c hc
    rw [hstored]
    rcases List.mem_append.mp hc with hc | hc
    · exact h.completed_stored c hc
    · obtain ⟨responder, hget, rfl⟩ := List.mem_map.mp hc
      exact ⟨id, h.pool_stored id responder (Option.mem_toList.mp hget)⟩
  · intro before e' after id' responder' heq he'
    obtain ⟨after', rfl, rfl⟩ := split_before he he' heq
    have hold := h.outcomes before e' after' id' responder' rfl he'
    have hpending := h.pending before e' after' id' responder' rfl he'
    rw [History.findSome?_concat, hverdict, outcomesOf_append, outcomesOf_option, hold]
    by_cases hid : id = id'
    · subst hid
      cases hfirst : after'.findSome? (Event.verdict id) with
      | none => simp [hpending.mpr hfirst]
      | some first =>
        have hget : pool.get id ≠ some responder' := fun hget => by
          rw [hpending.mp hget] at hfirst
          cases hfirst
        simp [hget]
    · -- the responder of another request is not in the pool under this id
      have hget : pool.get id ≠ some responder' := fun hget =>
        hid ((hdistinct.id_iff _ (h.pool_stored id responder' hget) _
          (mem_storedRequests he')).mpr rfl)
      simp [hget, hid]
  · intro before e' after id' responder' heq he'
    obtain ⟨after', rfl, rfl⟩ := split_before he he' heq
    have hpending := h.pending before e' after' id' responder' rfl he'
    rw [History.findSome?_concat, hverdict, HashMap.get_remove]
    by_cases hid : id = id'
    · simp [hid]
    · simp [hid, Ne.symm hid, hpending]

/-- Any other turn. -/
theorem Decided.skip {history : List (Event R E)} {pool : HashMap RequestId Nat}
    {completions : List (Nat × Outcome R E)} (h : Decided history pool completions)
    {e : Event R E} (he : e.stored? = none) (hdecides : e.decides = none) :
    Decided (history ++ [e]) pool completions := by
  have hstored : storedRequests (history ++ [e]) = storedRequests history := by
    simp [storedRequests_concat, he]
  have hverdict : ∀ id, e.verdict id = none := by
    intro id
    simp [Event.verdict, hdecides]
  refine ⟨hstored ▸ h.pool_stored, hstored ▸ h.completed_stored, ?_, ?_⟩
  · intro before e' after id' responder' heq he'
    obtain ⟨after', rfl, rfl⟩ := split_before he he' heq
    rw [History.findSome?_concat, hverdict, Option.or_none]
    exact h.outcomes before e' after' id' responder' rfl he'
  · intro before e' after id' responder' heq he'
    obtain ⟨after', rfl, rfl⟩ := split_before he he' heq
    rw [History.findSome?_concat, hverdict, Option.or_none]
    exact h.pending before e' after' id' responder' rfl he'

theorem Decided.turn {s s' : Serve R E} {e : Event R E}
    (h : Decided s.history s.localResponderPool s.completions) (hturn : TurnSpec s e s')
    (hdistinct : Distinct (storedRequests s'.history)) :
    Decided s'.history s'.localResponderPool s'.completions := by
  have hdistinct' := hdistinct
  rw [hturn.history_eq] at hdistinct
  rw [hturn.history_eq, hturn.pool_eq, hturn.completions_eq]
  cases he : e.stored? with
  | some p =>
    rw [Event.decides_of_stored? he]
    exact h.store he hdistinct
  | none =>
    cases hdecides : e.decides with
    | none => exact h.skip he hdecides
    | some d =>
      rw [storedRequests_concat, he, Option.toList_none, List.append_nil] at hdistinct
      exact h.decide he hdecides hdistinct

/-! ## Ids and responders are numbered -/

/-- The requests that have an id: those of callers that wait, those in the channel, and those
that were stored. -/
def Serve.issued (s : Serve R E) : List (RequestId × Nat) :=
  (s.callers ++ s.peerRx).filterMap PeerSinkMessage.issued? ++ storedRequests s.history

/-- The responders of the requests are the numbers of their calls, and the ids count on from
`first`. -/
structure Issued (first : UInt32) (s : Serve R E) : Prop where
  next : s.nextRequestId = first + UInt32.ofNat s.requestCalls
  numbered : ∀ p ∈ s.issued, p.1 = .number (first + UInt32.ofNat p.2) ∧ p.2 < s.requestCalls
  nodup : (s.issued.map (·.2)).Nodup

theorem Issued.start (first token : UInt32) : Issued first (Serve.start first token : Serve R E) :=
  ⟨by simp [Serve.start], by simp [Serve.issued, Serve.start, storedRequests],
    by simp [Serve.issued, Serve.start, storedRequests]⟩

/-- Requests that move on, or are given up, stay numbered. -/
theorem Issued.of_subperm {first : UInt32} {s s' : Serve R E} (h : Issued first s)
    (hissued : s'.issued.Subperm s.issued) (hcalls : s'.requestCalls = s.requestCalls)
    (hnext : s'.nextRequestId = s.nextRequestId) : Issued first s' where
  next := by rw [hnext, hcalls, h.next]
  numbered p hp := hcalls ▸ h.numbered p (hissued.subset hp)
  nodup := nodup_of_subperm (subperm_map (·.2) hissued) h.nodup

/-- A call draws the next id. -/
theorem Issued.draw {first : UInt32} {s : Serve R E} (h : Issued first s) (request : R.Req)
    (options : PeerRequestOptions) : Issued first (s.drawRequestId request options) := by
  have hissued : (s.drawRequestId request options).issued.Perm
      ((.number s.nextRequestId, s.requestCalls) :: s.issued) := by
    simp only [Serve.issued, Serve.drawRequestId, List.filterMap_append, List.append_assoc]
    exact List.perm_middle
  constructor
  · show s.nextRequestId + 1 = first + UInt32.ofNat (s.requestCalls + 1)
    rw [h.next, UInt32.ofNat_add, UInt32.add_assoc]
    rfl
  · intro p hp
    show _ ∧ p.2 < s.requestCalls + 1
    rcases List.mem_cons.mp (hissued.subset hp) with rfl | hp
    · exact ⟨by rw [h.next], by simp⟩
    · obtain ⟨hid, hlt⟩ := h.numbered p hp
      exact ⟨hid, by omega⟩
  · rw [(hissued.map _).nodup_iff, List.map_cons, List.nodup_cons]
    refine ⟨fun hmem => ?_, h.nodup⟩
    obtain ⟨p, hp, heq⟩ := List.mem_map.mp hmem
    exact absurd (h.numbered p hp).2 (by omega)

/-- As long as the counter has not gone round, the ids are different too. -/
theorem Issued.distinct {first : UInt32} {s : Serve R E} (h : Issued first s)
    (hdrawn : s.requestCalls < 2 ^ 32) : Distinct (storedRequests s.history) := by
  have hsub : List.Sublist (storedRequests s.history) s.issued := List.sublist_append_right ..
  refine ⟨(hsub.map _).nodup h.nodup, fun p hp q hq => ?_⟩
  obtain ⟨hp₁, hp₂⟩ := h.numbered p (hsub.subset hp)
  obtain ⟨hq₁, hq₂⟩ := h.numbered q (hsub.subset hq)
  rw [hp₁, hq₁, NumberOrString.number.injEq, UInt32.add_right_inj, ← UInt32.toNat_inj,
    UInt32.toNat_ofNat_of_lt' (hp₂.trans hdrawn), UInt32.toNat_ofNat_of_lt' (hq₂.trans hdrawn)]

/-- A move beside the loop gives a request its id, moves one on, gives one up, or does not
touch the requests. -/
theorem Moved.issued {s s' : Serve R E} (h : Moved s s') :
    (∃ request options, s' = s.drawRequestId request options) ∨
      (s'.issued.Subperm s.issued ∧ s'.requestCalls = s.requestCalls ∧
        s'.nextRequestId = s.nextRequestId) := by
  cases h with
  | called request options => exact .inl ⟨request, options, rfl⟩
  | queued hcaller =>
    have hmove := (move_perm (m := s.peerRx) hcaller).filterMap PeerSinkMessage.issued?
    exact .inr ⟨(hmove.append_right _).subperm, rfl, rfl⟩
  | abandoned caller =>
    have hsub := ((List.eraseIdx_sublist s.callers caller).append_right s.peerRx).filterMap
      PeerSinkMessage.issued?
    exact .inr ⟨(hsub.append_right _).subperm, rfl, rfl⟩
  | notified notification =>
    refine .inr ⟨?_, rfl, rfl⟩
    simp [Serve.issued, PeerSinkMessage.issued?, List.filterMap_cons, List.Subperm.refl]
  | _ => exact .inr ⟨.refl _, rfl, rfl⟩

/-- A turn of the loop moves a request from its channel into the history, or none. -/
theorem turn_issued {s s₀ s' : Serve R E} {e : Event R E} (htaken : Taken s e s₀)
    (hturn : TurnSpec s₀ e s') :
    s'.issued.Perm s.issued ∧ s'.requestCalls = s.requestCalls ∧
      s'.nextRequestId = s.nextRequestId := by
  have hissued : s'.issued = s₀.issued ++ e.stored?.toList := by
    simp [Serve.issued, hturn.callers_eq, hturn.peerRx_eq, hturn.history_eq, storedRequests_concat]
  rw [hissued, hturn.requestCalls_eq, hturn.nextRequestId_eq]
  cases htaken with
  | @proxied m peerRx _ hpeer =>
    refine ⟨?_, rfl, rfl⟩
    show (((s.callers ++ peerRx).filterMap PeerSinkMessage.issued? ++ storedRequests s.history) ++
      m.issued?.toList).Perm s.issued
    cases hm : m.issued? with
    | none => simp [Serve.issued, hpeer, hm]
    | some p =>
      simp only [Serve.issued, hpeer, List.filterMap_append, List.filterMap_cons, hm,
        Option.toList_some, List.append_assoc, List.cons_append]
      refine .append_left _ ?_
      rw [← List.append_assoc]
      exact List.perm_append_singleton ..
  | batchMessage => exact ⟨by simp [Event.stored?, Serve.issued], rfl, rfl⟩
  | toSink => exact ⟨by simp [Event.stored?, Serve.issued], rfl, rfl⟩
  | received => exact ⟨by simp [Event.stored?, Serve.issued], rfl, rfl⟩
  | sendJoined => exact ⟨by simp [Event.stored?, Serve.issued], rfl, rfl⟩

theorem Issued.step {first : UInt32} {s s' : Serve R E} {a : Action R E} (h : Issued first s)
    (hstep : step s a = some s') : Issued first s' ∧ s.requestCalls ≤ s'.requestCalls := by
  rcases step_cases hstep with hmoved | ⟨e, s₀, htaken, hturn⟩ | ⟨reason, rfl⟩
  · rcases hmoved.issued with ⟨request, options, rfl⟩ | ⟨hissued, hcalls, hnext⟩
    · exact ⟨h.draw request options, Nat.le_succ _⟩
    · exact ⟨h.of_subperm hissued hcalls hnext, hcalls.ge⟩
  · obtain ⟨hissued, hcalls, hnext⟩ := turn_issued htaken hturn
    exact ⟨h.of_subperm hissued.subperm hcalls hnext, hcalls.ge⟩
  · exact ⟨⟨h.next, h.numbered, h.nodup⟩, Nat.le_refl _⟩

theorem Runs.issued {first token : UInt32} {as : List (Action R E)} {s : Serve R E}
    (hrun : Runs first token as s) : Issued first s :=
  hrun.invariant (P := fun _ s => Issued first s) (Issued.start first token)
    fun _ h hstep => (h.step hstep).1

/-! ## Runs -/

theorem Decided.kept {s s' : Serve R E}
    (h : Decided s.history s.localResponderPool s.completions) (hkept : Kept s s') :
    Decided s'.history s'.localResponderPool s'.completions := by
  rw [hkept.history_eq, hkept.pool_eq, hkept.completions_eq]
  exact h

theorem Decided.step {s s' : Serve R E} {a : Action R E}
    (h : Decided s.history s.localResponderPool s.completions) (hstep : step s a = some s')
    (hdistinct : Distinct (storedRequests s'.history)) :
    Decided s'.history s'.localResponderPool s'.completions := by
  rcases step_cases hstep with hmoved | ⟨e, s₀, htaken, hturn⟩ | ⟨reason, rfl⟩
  · exact h.kept hmoved.beside.toKept
  · exact (h.kept htaken.kept).turn hturn hdistinct
  · exact h

/-- Fewer than `2 ^ 32` calls were made, so all the ids are different. -/
theorem Runs.decided {first token : UInt32} {as : List (Action R E)} {s : Serve R E}
    (hrun : Runs first token as s) (hdrawn : s.requestCalls < 2 ^ 32) :
    Decided s.history s.localResponderPool s.completions := by
  refine hrun.invariant (P := fun _ s => s.requestCalls < 2 ^ 32 →
    Decided s.history s.localResponderPool s.completions) ?_ ?_ hdrawn
  · intro _
    constructor <;> simp [Serve.start, HashMap.get_empty]
  · intro as s s' a hrun h hstep hdrawn
    obtain ⟨hissued, hcalls⟩ := (Runs.issued hrun).step hstep
    exact (h (hcalls.trans_lt hdrawn)).step hstep (hissued.distinct hdrawn)

/-- What each stored request is completed with is decided by the first event after it that
names its id, and is nothing before there is one. A response or an error that no request
waits for changes nothing. -/
theorem response_correlation {first token : UInt32} {as : List (Action R E)} {s : Serve R E}
    (hrun : Runs first token as s) (hdrawn : s.requestCalls < 2 ^ 32) :
    (∀ before after request id responder,
      s.history = before ++ .proxyMessage (.request request id responder) :: after →
        outcomesOf s.completions responder = (after.findSome? (Event.verdict id)).toList) ∧
    ∀ (m : RxJsonRpcMessage R) (id : RequestId), m.answeredId = some id →
      s.localResponderPool.get id = none →
        (s.turn (.peerMessage m)).completions = s.completions ∧
        (s.turn (.peerMessage m)).localResponderPool = s.localResponderPool ∧
        (s.turn (.peerMessage m)).localCtPool = s.localCtPool := by
  constructor
  · intro before after request id responder heq
    exact (Runs.decided hrun hdrawn).outcomes before _ after id responder heq rfl
  · intro m id hanswered hpending
    have hspec := s.turn_spec (.peerMessage m)
    rw [hspec.completions_eq, hspec.pool_eq, hspec.ctPool_eq]
    cases m with
    | response r =>
      cases hanswered
      simp [Event.stored?, Event.decides, Event.receives?, Event.ends?, Event.cancels?,
        Event.answer?, hpending, HashMap.remove_of_get]
    | error e =>
      cases hanswered
      simp [Event.stored?, Event.decides, Event.receives?, Event.ends?, Event.cancels?,
        Event.answer?, hpending, HashMap.remove_of_get]
    | _ => cases hanswered

/-- A request is sent and answered. -/
def answeredRun : List (Action bareClient Unit) :=
  [.requestCalled Meta.staticEmpty ⟨none⟩, .requestQueued 0, .proxied,
    .received (.response ⟨.number 0, ()⟩)]

/-- The caller is told the result. -/
theorem response_correlation_answeredRun :
    ∃ (s : Serve bareClient Unit) (request : Meta) (after : List (Event bareClient Unit)),
      Runs 0 0 answeredRun s ∧ s.requestCalls < 2 ^ 32 ∧
      s.history = .proxyMessage (.request request (.number 0) 0) :: after ∧
      after.findSome? (Event.verdict (.number 0)) = some (.ok ()) ∧
      outcomesOf s.completions 0 = [.ok ()] := by
  have hrun : ∃ (s : Serve bareClient Unit) (request : Meta)
      (after : List (Event bareClient Unit)), Runs 0 0 answeredRun s ∧ s.requestCalls = 1 ∧
      s.history = .proxyMessage (.request request (.number 0) 0) :: after ∧
      after.findSome? (Event.verdict (.number 0)) = some (.ok ()) :=
    ⟨_, _, _, Transition.run_of_exec rfl, rfl, rfl, rfl⟩
  obtain ⟨s, request, after, hrun, hcalls, hhistory, hverdict⟩ := hrun
  have hdrawn : s.requestCalls < 2 ^ 32 := by omega
  refine ⟨s, request, after, hrun, hdrawn, hhistory, hverdict, ?_⟩
  rw [(response_correlation hrun hdrawn).1 [] after request (.number 0) 0 hhistory, hverdict]
  rfl

end Rmcp.Service

