import Rmcp.Session.About
import Rmcp.Session.Attachment
import Rmcp.Transport.HttpDelivery

/-!
# The streams of a server

A call that succeeds may be answered with a stream: that of a POST belongs to the channel that was
established for it, that of a GET to the channel that it names. No two calls have the same receiver.
A channel that was established for a POST is used for its message alone, so its stream is about the
requests of this message.

Results:
1. `streams_isolated`: no two calls share a stream, and the stream of a POST is about its own
   requests.
-/

namespace Rmcp.HttpServer

open Session

variable {P : Payloads}

/-- The receiver that a call has, and its session. -/
def Phase.stream? : Phase P → Option (Nat × StreamableHttpMessageReceiver)
  | .pushing i _ (some rx) | .done (.sse i rx) => some (i, rx)
  | _ => none

/-- The receiver belongs to its channel, as long as the session goes on. -/
def Slot.Carries (slot : Slot P) (rx : StreamableHttpMessageReceiver) : Prop :=
  slot.worker ≠ .offered ∧ ∀ session v, slot.worker = .running session →
    session.vars? = some v → Session.Carries v rx.inner rx.httpRequestId

/-- How many channels the loop of a session has established. -/
def Slot.established (slot : Slot P) : Nat := slot.actions.countP Action.establishes

/-- The channel `h` of the session `i` was established for the call `c`. -/
inductive Owns (s : State P) (i c : Nat) (h : HttpRequestId) : Prop
  | asked {call : Call P} {message : ClientJsonRpcMessage P}
      {rx : StreamableHttpMessageReceiver} : s.calls[c]? = some call →
      call.phase = .pushing i message (some rx) → rx.httpRequestId = some h → Owns s i c h
  | pushed {m : Mailbox P} {message : ClientJsonRpcMessage P} : s.mailboxes[i]? = some m →
      ⟨.clientMessage message (some h), c⟩ ∈ m.accepted → Owns s i c h

/-- The call `c` has a receiver of the session `i`. -/
def HasStream (s : State P) (c i : Nat) (rx : StreamableHttpMessageReceiver) : Prop :=
  ∃ call, s.calls[c]? = some call ∧ call.phase.stream? = some (i, rx)

/-- The streams of the calls, and the channels that are theirs. -/
structure Streams (s : State P) : Prop where
  carries : ∀ c i rx, HasStream s c i rx → ∃ slot, s.sessions[i]? = some slot ∧ slot.Carries rx
  separate : ∀ c c' i rx rx', c ≠ c' → HasStream s c i rx → HasStream s c' i rx' →
    rx.inner ≠ rx'.inner
  own : ∀ c i rx request, HasStream s c i rx → s.requests[c]? = some request →
    request.isPost = true → ∃ h, rx.httpRequestId = some h ∧ Owns s i c h
  lt : ∀ (i : Nat) (slot : Slot P) (c : Nat) (h : HttpRequestId), s.sessions[i]? = some slot →
    slot.established ≤ 2 ^ 64 → Owns s i c h → h.toNat < slot.established
  unique : ∀ (i : Nat) (slot : Slot P) (c c' : Nat) (h : HttpRequestId),
    s.sessions[i]? = some slot → slot.established ≤ 2 ^ 64 → Owns s i c h → Owns s i c' h → c = c'

theorem streams_start : Streams (State.start : State P) where
  carries c i rx h := by simp [HasStream, State.start] at h
  separate c c' i rx rx' _ h := by simp [HasStream, State.start] at h
  own c i rx request h := by simp [HasStream, State.start] at h
  lt i slot c h hslot := by simp [State.start] at hslot
  unique i slot c c' h hslot := by simp [State.start] at hslot

section Steps

variable {s s' : State P}

/-- The owner of a channel has its session. -/
theorem Streams.session_of_owns (h : Streams s) {i c : Nat} {id : HttpRequestId}
    (howns : Owns s i c id) : ∃ slot, s.sessions[i]? = some slot := by
  cases howns with
  | asked hc hphase hid =>
    obtain ⟨slot, hslot, -⟩ := h.carries c i _ ⟨_, hc, by rw [hphase]; rfl⟩
    exact ⟨slot, hslot⟩
  | pushed hm _ =>
    rw [State.mailboxes, List.getElem?_map] at hm
    obtain ⟨slot, hslot, -⟩ := Option.map_eq_some_iff.mp hm
    exact ⟨slot, hslot⟩

/-- A channel keeps its owner, if the call goes on and the events are still there. -/
theorem Owns.imp {i c : Nat} {id : HttpRequestId} (h : Owns s i c id)
    (hcalls : ∀ (call : Call P) (rx : StreamableHttpMessageReceiver), s.calls[c]? = some call →
      call.phase.stream? = some (i, rx) →
      ∃ call', s'.calls[c]? = some call' ∧ call'.phase = call.phase)
    (hmailboxes : ∀ (m : Mailbox P) (queued : Queued P), s.mailboxes[i]? = some m →
      queued ∈ m.accepted → ∃ m', s'.mailboxes[i]? = some m' ∧ queued ∈ m'.accepted) :
    Owns s' i c id := by
  cases h with
  | asked hc hphase hid =>
    obtain ⟨call', hc', hsame⟩ := hcalls _ _ hc (by rw [hphase]; rfl)
    exact .asked hc' (hsame.trans hphase) hid
  | pushed hm hmem =>
    obtain ⟨m', hm', hmem'⟩ := hmailboxes _ _ hm hmem
    exact .pushed hm' hmem'

/-- The sessions and the calls of `s` are still there; a session may have got on. -/
structure Passes (s s' : State P) : Prop where
  requests : ∀ (c : Nat) (request : HttpRequest P), s.requests[c]? = some request →
    s'.requests[c]? = some request
  sessions : ∀ (i : Nat) (slot : Slot P), s.sessions[i]? = some slot → ∃ slot' : Slot P,
    s'.sessions[i]? = some slot' ∧ slot.established ≤ slot'.established ∧
      ∀ rx, slot.Carries rx → slot'.Carries rx

theorem Passes.slot (h : Passes s s') {i : Nat} {slot slot' : Slot P}
    (hslot : s.sessions[i]? = some slot) (hslot' : s'.sessions[i]? = some slot') :
    slot.established ≤ slot'.established ∧ ∀ rx, slot.Carries rx → slot'.Carries rx := by
  obtain ⟨slot₁, hslot₁, hkeeps⟩ := h.sessions i slot hslot
  obtain rfl := Option.some.inj (hslot'.symm.trans hslot₁)
  exact hkeeps

/-- Nothing new is established, and no call gets a stream. -/
theorem Streams.mono (h : Streams s) (hpasses : Passes s s')
    (hstreams : ∀ c i rx, HasStream s' c i rx → HasStream s c i rx)
    (howns : ∀ i c id, Owns s' i c id → Owns s i c id)
    (hkept : ∀ i c id rx, HasStream s' c i rx → Owns s i c id → Owns s' i c id) : Streams s' where
  carries c i rx hrx := by
    obtain ⟨slot, hslot, hcarries⟩ := h.carries c i rx (hstreams c i rx hrx)
    obtain ⟨slot', hslot', -, hkeeps⟩ := hpasses.sessions i slot hslot
    exact ⟨slot', hslot', hkeeps rx hcarries⟩
  separate c c' i rx rx' hne hrx hrx' :=
    h.separate c c' i rx rx' hne (hstreams c i rx hrx) (hstreams c' i rx' hrx')
  own c i rx request hrx hrequest hpost := by
    obtain ⟨call, hc, hstream⟩ := hstreams c i rx hrx
    have hsame := hpasses.requests c call.request (request_eq hc)
    obtain rfl := Option.some.inj (hrequest.symm.trans hsame)
    obtain ⟨id, hid, hown⟩ := h.own c i rx _ ⟨call, hc, hstream⟩ (request_eq hc) hpost
    exact ⟨id, hid, hkept i c id rx hrx hown⟩
  lt i slot' c id hslot' hfew hid := by
    replace hid := howns i c id hid
    obtain ⟨slot, hslot⟩ := h.session_of_owns hid
    obtain ⟨hle, -⟩ := hpasses.slot hslot hslot'
    exact Nat.lt_of_lt_of_le (h.lt i slot c id hslot (Nat.le_trans hle hfew) hid) hle
  unique i slot' c c' id hslot' hfew hid hid' := by
    replace hid := howns i c id hid
    obtain ⟨slot, hslot⟩ := h.session_of_owns hid
    obtain ⟨hle, -⟩ := hpasses.slot hslot hslot'
    exact h.unique i slot c c' id hslot (Nat.le_trans hle hfew) hid (howns i c' id hid')

theorem Streams.of_eq (h : Streams s) (hsessions : s'.sessions = s.sessions)
    (hcalls : s'.calls = s.calls) : Streams s' := by
  have hmailboxes : s'.mailboxes = s.mailboxes := congrArg (List.map Slot.mailbox) hsessions
  refine h.mono ⟨fun c request hc => ?_, fun i slot hslot => ?_⟩ ?_ ?_ ?_
  · rwa [State.requests, hcalls]
  · exact ⟨slot, hsessions ▸ hslot, Nat.le_refl _, fun _ hrx => hrx⟩
  · rintro c i rx ⟨call, hc, hstream⟩
    exact ⟨call, hcalls ▸ hc, hstream⟩
  · intro i c id hid
    exact hid.imp (fun call _ hc _ => ⟨call, hcalls ▸ hc, rfl⟩)
      fun m _ hm hmem => ⟨m, hmailboxes ▸ hm, hmem⟩
  · intro i c id rx _ hid
    exact hid.imp (fun call _ hc _ => ⟨call, hcalls.symm ▸ hc, rfl⟩)
      fun m _ hm hmem => ⟨m, hmailboxes.symm ▸ hm, hmem⟩

/-! ### Sessions that get on -/

theorem passes_set {i : Nat} {slot slot' : Slot P} (hslot : s.sessions[i]? = some slot)
    (hle : slot.established ≤ slot'.established)
    (hkeeps : ∀ rx, slot.Carries rx → slot'.Carries rx) : Passes s (s.set i slot') := by
  refine ⟨fun c request hc => hc, fun j slot₁ hslot₁ => ?_⟩
  obtain ⟨hi, -⟩ := List.getElem?_eq_some_iff.mp hslot
  by_cases hij : i = j
  · subst hij
    obtain rfl := Option.some.inj (hslot.symm.trans hslot₁)
    exact ⟨slot', List.getElem?_set_self hi, hle, hkeeps⟩
  · exact ⟨slot₁, (List.getElem?_set_ne hij).trans hslot₁, Nat.le_refl _, fun _ h => h⟩

theorem Passes.setPhase (h : Passes s s') (c : Nat) (phase : Phase P) :
    Passes s (s'.setPhase c phase) where
  requests c' request hc' := by
    rw [requests_setPhase]
    exact h.requests c' request hc'
  sessions := h.sessions

theorem owns_set_iff {i : Nat} {slot slot' : Slot P} (hslot : s.sessions[i]? = some slot)
    (hmailbox : slot'.mailbox = slot.mailbox) {j c : Nat} {id : HttpRequestId} :
    Owns (s.set i slot') j c id ↔ Owns s j c id := by
  have hsame := mailboxes_set_of_eq hslot hmailbox
  constructor
  · intro hid
    exact hid.imp (fun call _ hc _ => ⟨call, hc, rfl⟩) fun m _ hm hmem => ⟨m, hsame ▸ hm, hmem⟩
  · intro hid
    exact hid.imp (fun call _ hc _ => ⟨call, hc, rfl⟩) fun m _ hm hmem => ⟨m, hsame ▸ hm, hmem⟩

theorem Streams.set (h : Streams s) {i : Nat} {slot slot' : Slot P}
    (hslot : s.sessions[i]? = some slot) (hmailbox : slot'.mailbox = slot.mailbox)
    (hle : slot.established ≤ slot'.established)
    (hkeeps : ∀ rx, slot.Carries rx → slot'.Carries rx) : Streams (s.set i slot') :=
  h.mono (passes_set hslot hle hkeeps) (fun _ _ _ hrx => hrx)
    (fun _ _ _ => (owns_set_iff hslot hmailbox).mp)
    fun _ _ _ _ _ => (owns_set_iff hslot hmailbox).mpr

/-- The loop of a session makes a step. -/
theorem Slot.Sound.keeps_streams {slot slot' : Slot P} {events : Chan (Queued P)}
    {a : Session.Action P} (h : slot.Sound) (hact : { slot with events }.act a = some slot') :
    slot'.established = slot.established + (if a.establishes then 1 else 0) ∧
      ∀ rx, slot.Carries rx → slot'.Carries rx := by
  obtain ⟨session, session', hworker, hstep, rfl⟩ := act_spec hact
  replace hworker : slot.worker = .running session := hworker
  refine ⟨?_, fun rx hcarries => ⟨fun hoffered => (by cases hoffered), ?_⟩⟩
  · show (slot.actions ++ [a]).countP _ = slot.actions.countP _ + _
    rw [List.countP_append, List.countP_singleton]
  · rintro _ v' ⟨⟩ hv'
    exact carries_of_step (h.run session hworker) hstep hv' fun v hv =>
      hcarries.2 session v hworker hv

theorem Streams.act (h : Streams s) (hsound : ∀ slot ∈ s.sessions, slot.Sound) {i : Nat}
    {slot slot' : Slot P} {events : Chan (Queued P)} {a : Session.Action P}
    (hslot : s.sessions[i]? = some slot) (hevents : events.accepted = slot.events.accepted)
    (hact : { slot with events }.act a = some slot') : Streams (s.set i slot') := by
  obtain ⟨hestablished, hkeeps⟩ :=
    (hsound slot (List.mem_of_getElem? hslot)).keeps_streams hact
  refine h.set hslot ((Slot.mailbox_act hact).trans ?_) ?_ hkeeps
  · simp [Slot.mailbox, hevents]
  · rw [hestablished]
    exact Nat.le_add_right _ _

/-! ### Calls that get on -/

theorem getElem?_setPhase_of_ne {c c' : Nat} (hne : c ≠ c') {phase : Phase P} :
    (s.setPhase c phase).calls[c']? = s.calls[c']? :=
  List.getElem?_modify_ne _ _ hne

/-- A call without a stream goes on without one, or a call loses its stream. -/
theorem Streams.setPhase (h : Streams s) {c : Nat} {phase : Phase P}
    (hphase : phase.stream? = none) : Streams (s.setPhase c phase) := by
  have hother : ∀ {c' : Nat} {call' : Call P} {i : Nat} {rx : StreamableHttpMessageReceiver},
      (s.setPhase c phase).calls[c']? = some call' → call'.phase.stream? = some (i, rx) →
      ∃ call, s.calls[c']? = some call ∧ call'.phase = call.phase := by
    intro c' call' i rx hc' hstream
    obtain ⟨call, hc, -, hphase'⟩ := getElem?_setPhase hc'
    split at hphase'
    · rw [hphase', hphase] at hstream
      cases hstream
    · exact ⟨call, hc, hphase'⟩
  refine h.mono (Passes.setPhase ⟨fun _ _ hc => hc, fun j slot hslot =>
    ⟨slot, hslot, Nat.le_refl _, fun _ hrx => hrx⟩⟩ c phase) ?_ ?_ ?_
  · rintro c' i rx ⟨call', hc', hstream⟩
    obtain ⟨call, hc, hsame⟩ := hother hc' hstream
    exact ⟨call, hc, hsame ▸ hstream⟩
  · intro i c' id hid
    refine hid.imp (fun call' rx hc' hstream => ?_) fun m _ hm hmem => ⟨m, hm, hmem⟩
    obtain ⟨call, hc, hsame⟩ := hother hc' hstream
    exact ⟨call, hc, hsame.symm⟩
  · rintro i c' id rx ⟨call', hc', hstream⟩ hid
    obtain ⟨call, hc, hsame⟩ := hother hc' hstream
    refine hid.imp (fun call₁ _ hc₁ _ => ?_) fun m _ hm hmem => ⟨m, hm, hmem⟩
    obtain rfl := Option.some.inj (hc.symm.trans hc₁)
    exact ⟨call', hc', hsame⟩

/-! ### Calls that send -/

theorem mem_receives {mailboxes : List (Mailbox P)} {i j : Nat} {queued new : Queued P}
    {m' : Mailbox P} (hm' : (receives mailboxes i new)[j]? = some m')
    (hmem : queued ∈ m'.accepted) :
    (∃ m, mailboxes[j]? = some m ∧ queued ∈ m.accepted) ∨ (i = j ∧ queued = new) := by
  obtain ⟨m, hm, rfl⟩ := mailbox_receives hm'
  split at hmem
  · next heq =>
    rcases List.mem_append.mp hmem with hold | hnew
    · exact .inl ⟨m, hm, hold⟩
    · exact .inr ⟨heq, List.mem_singleton.mp hnew⟩
  · exact .inl ⟨m, hm, hmem⟩

theorem receives_mem {mailboxes : List (Mailbox P)} {j : Nat} {queued : Queued P} {m : Mailbox P}
    (hm : mailboxes[j]? = some m) (hmem : queued ∈ m.accepted) (i : Nat) (new : Queued P) :
    ∃ m', (receives mailboxes i new)[j]? = some m' ∧ queued ∈ m'.accepted := by
  obtain ⟨m', hm', -, -, heq | ⟨-, heq⟩⟩ := receives_grows hm i new
  · exact ⟨m', hm', heq ▸ hmem⟩
  · exact ⟨m', hm', heq ▸ List.mem_append_left _ hmem⟩

/-- A handler that sends something else than a message on its channel. -/
theorem Streams.receives (h : Streams s) {i c : Nat} {slot : Slot P} {events : Chan (Queued P)}
    {event : SessionEvent P} (hslot : s.sessions[i]? = some slot)
    (hmailboxes : (s.set i { slot with events }).mailboxes =
      receives s.mailboxes i ⟨event, c⟩)
    (hevent : ∀ message id, event ≠ .clientMessage message (some id)) :
    Streams (s.set i { slot with events }) := by
  refine h.mono (passes_set hslot (Nat.le_refl _) fun _ hrx => hrx) (fun c j rx hrx => hrx) ?_ ?_
  · intro j c' id hid
    cases hid with
    | asked hc hphase hid => exact .asked hc hphase hid
    | pushed hm hmem =>
      rcases mem_receives (hmailboxes ▸ hm) hmem with ⟨m, hm, hmem⟩ | ⟨-, heq⟩
      · exact .pushed hm hmem
      · cases heq
        exact absurd rfl (hevent _ _)
  · intro j c' id rx _ hid
    refine hid.imp (fun call _ hc _ => ⟨call, hc, rfl⟩) fun m queued hm hmem => ?_
    rw [hmailboxes]
    exact receives_mem hm hmem i ⟨event, c⟩

/-- A handler pushes its message on its channel, and answers with the stream. -/
theorem Streams.pushes (h : Streams s) {i c : Nat} {slot : Slot P} {events : Chan (Queued P)}
    {call : Call P} {message : ClientJsonRpcMessage P} {rx : StreamableHttpMessageReceiver}
    (hslot : s.sessions[i]? = some slot) (hc : s.calls[c]? = some call)
    (hphase : call.phase = .pushing i message (some rx))
    (hmailboxes : (s.set i { slot with events }).mailboxes =
      HttpServer.receives s.mailboxes i ⟨.clientMessage message rx.httpRequestId, c⟩) :
    Streams ((s.set i { slot with events }).setPhase c (.done (.sse i rx))) := by
  have hstream : ∀ {c' : Nat} {call' : Call P},
      ((s.set i { slot with events }).setPhase c (.done (.sse i rx))).calls[c']? = some call' →
      ∃ call, s.calls[c']? = some call ∧ call'.phase.stream? = call.phase.stream? := by
    intro c' call' hc'
    obtain ⟨call₁, hc₁, -, hphase'⟩ := getElem?_setPhase hc'
    refine ⟨call₁, hc₁, ?_⟩
    split at hphase'
    · next heq =>
      subst heq
      obtain rfl := Option.some.inj (hc.symm.trans hc₁)
      rw [hphase', hphase]
      rfl
    · rw [hphase']
  have hpasses : Passes s (s.set i { slot with events }) :=
    passes_set hslot (Nat.le_refl _) fun _ hrx => hrx
  refine h.mono (hpasses.setPhase c _) ?_ ?_ ?_
  · rintro c' j rx' ⟨call', hc', hrx'⟩
    obtain ⟨call₁, hc₁, hsame⟩ := hstream hc'
    exact ⟨call₁, hc₁, hsame ▸ hrx'⟩
  · intro j c' id hid
    cases hid with
    | asked hc' hpushing hid =>
      obtain ⟨call₁, hc₁, -, hphase'⟩ := getElem?_setPhase hc'
      split at hphase'
      · rw [hphase'] at hpushing
        cases hpushing
      · exact .asked hc₁ (hphase' ▸ hpushing) hid
    | pushed hm hmem =>
      rcases mem_receives (hmailboxes ▸ hm) hmem with ⟨m, hm, hmem⟩ | ⟨rfl, heq⟩
      · exact .pushed hm hmem
      · simp only [Queued.mk.injEq, SessionEvent.clientMessage.injEq] at heq
        obtain ⟨⟨rfl, hid⟩, rfl⟩ := heq
        exact .asked hc hphase hid.symm
  · intro j c' id rx' _ hid
    cases hid with
    | @asked call₁ message₁ rx₁ hc₁ hpushing hid =>
      by_cases hcc : c = c'
      · subst hcc
        obtain rfl := Option.some.inj (hc.symm.trans hc₁)
        rw [hphase] at hpushing
        cases hpushing
        rw [hid] at hmailboxes
        have hself := receives_self (mailboxes_getElem? hslot)
          (⟨.clientMessage message (some id), c⟩ : Queued P)
        exact .pushed (hmailboxes ▸ hself) (List.mem_append_right _ (List.mem_singleton_self _))
      · exact .asked ((getElem?_setPhase_of_ne hcc).trans hc₁) hpushing hid
    | pushed hm hmem =>
      obtain ⟨m', hm', hmem'⟩ :=
        receives_mem hm hmem i ⟨.clientMessage message rx.httpRequestId, c⟩
      exact .pushed (hmailboxes ▸ hm') hmem'

theorem stream?_of_refused {response : Response P} (h : response.succeeds = false) :
    (Phase.done response).stream? = none := by
  cases response with
  | sse i rx => cases h
  | _ => rfl

/-- Only a handler with a stream pushes on a channel. -/
theorem sends?_quiet {phase : Phase P} {sending : Sending P}
    (h : phase.sends? = some sending)
    (hphase : ∀ i message rx, phase ≠ .pushing i message (some rx)) :
    sending.accepted.stream? = none ∧
      ∀ message id, sending.event ≠ .clientMessage message (some id) := by
  cases phase with
  | pushing i message receiver =>
    cases receiver with
    | none =>
      cases h
      exact ⟨rfl, fun _ _ heq => (by cases heq)⟩
    | some rx => exact absurd rfl (hphase i message rx)
  | establishing | initializing | resuming | closing =>
    cases h
    exact ⟨rfl, fun _ _ heq => (by cases heq)⟩
  | awaitsChannel | awaitsInitialize | registering | awaitsResume | done | dropped => cases h

/-- A handler sends its event. -/
theorem Streams.sends (h : Streams s) {c : Nat} {call : Call P} {sending : Sending P}
    {slot : Slot P} {events : Chan (Queued P)} (hc : s.calls[c]? = some call)
    (hsends : call.phase.sends? = some sending) (hslot : s.sessions[sending.session]? = some slot)
    (haccepted : events.accepted = slot.events.accepted ++ [⟨sending.event, c⟩]) :
    Streams ((s.set sending.session { slot with events }).setPhase c sending.accepted) := by
  have hmailbox : ({ slot with events } : Slot P).mailbox =
      ⟨slot.id, slot.creator, slot.events.accepted ++ [⟨sending.event, c⟩]⟩ := by
    simp [Slot.mailbox, haccepted]
  have hmailboxes := mailboxes_set s hslot hmailbox
  by_cases hpushing : ∃ i message rx, call.phase = .pushing i message (some rx)
  · obtain ⟨i, message, rx, hphase⟩ := hpushing
    rw [hphase] at hsends
    cases hsends
    exact h.pushes hslot hc hphase hmailboxes
  · obtain ⟨hquiet, hevent⟩ := sends?_quiet hsends fun i message rx hphase =>
      hpushing ⟨i, message, rx, hphase⟩
    exact (h.receives hslot hmailboxes hevent).setPhase hquiet

/-! ### Calls that get a stream -/

/-- A call without a stream gets one, of a receiver that no other call has, and of a channel that
nobody owns if it is to push on it. -/
theorem Streams.gains (h : Streams s) {c i : Nat} {call : Call P} {slot : Slot P} {phase : Phase P}
    {rx : StreamableHttpMessageReceiver} (hc : s.calls[c]? = some call)
    (hslot : s.sessions[i]? = some slot) (hstream : phase.stream? = some (i, rx))
    (hcarries : slot.Carries rx) (hfresh : ∀ c' rx', HasStream s c' i rx' → rx'.inner ≠ rx.inner)
    (hpost : call.request.isPost = true → ∃ message id, phase = .pushing i message (some rx) ∧
      rx.httpRequestId = some id)
    (hfree : ∀ message id, phase = .pushing i message (some rx) → rx.httpRequestId = some id →
      slot.established ≤ 2 ^ 64 → id.toNat < slot.established ∧ ∀ c', ¬ Owns s i c' id) :
    Streams (s.setPhase c phase) := by
  have hself : (s.setPhase c phase).calls[c]? = some { call with phase } := by
    simp [State.setPhase, hc]
  -- what the others have they had before
  have hothers : ∀ {c' j : Nat} {rx' : StreamableHttpMessageReceiver},
      HasStream (s.setPhase c phase) c' j rx' →
      (c' = c ∧ j = i ∧ rx' = rx) ∨ (c' ≠ c ∧ HasStream s c' j rx') := by
    rintro c' j rx' ⟨call', hc', hrx'⟩
    by_cases hcc : c = c'
    · subst hcc
      obtain rfl := Option.some.inj (hself.symm.trans hc')
      cases hstream.symm.trans hrx'
      exact .inl ⟨rfl, rfl, rfl⟩
    · exact .inr ⟨Ne.symm hcc, call', (getElem?_setPhase_of_ne hcc).symm.trans hc', hrx'⟩
  have howned : ∀ {j c' : Nat} {id : HttpRequestId}, Owns (s.setPhase c phase) j c' id →
      (c' = c ∧ j = i ∧ rx.httpRequestId = some id ∧
        ∃ message, phase = .pushing i message (some rx)) ∨ Owns s j c' id := by
    intro j c' id hid
    cases hid with
    | @asked call' message rx' hc' hpushing hid =>
      by_cases hcc : c = c'
      · subst hcc
        obtain rfl := Option.some.inj (hself.symm.trans hc')
        rw [show phase = _ from hpushing] at hstream
        cases hstream
        exact .inl ⟨rfl, rfl, hid, message, hpushing⟩
      · exact .inr (.asked ((getElem?_setPhase_of_ne hcc).symm.trans hc') hpushing hid)
    | pushed hm hmem => exact .inr (.pushed hm hmem)
  refine ⟨?_, ?_, ?_, ?_, ?_⟩
  · intro c' j rx' hrx'
    rcases hothers hrx' with ⟨-, rfl, rfl⟩ | ⟨-, hold⟩
    · exact ⟨slot, hslot, hcarries⟩
    · exact h.carries c' j rx' hold
  · intro c₁ c₂ j rx₁ rx₂ hne hrx₁ hrx₂
    rcases hothers hrx₁ with ⟨rfl, rfl, rfl⟩ | ⟨hne₁, hold₁⟩ <;>
      rcases hothers hrx₂ with ⟨rfl, hj, rfl⟩ | ⟨hne₂, hold₂⟩
    · exact absurd rfl hne
    · exact (hfresh c₂ rx₂ hold₂).symm
    · subst hj
      exact hfresh c₁ rx₁ hold₁
    · exact h.separate c₁ c₂ j rx₁ rx₂ hne hold₁ hold₂
  · intro c' j rx' request hrx' hrequest hisPost
    rw [requests_setPhase] at hrequest
    rcases hothers hrx' with ⟨rfl, rfl, rfl⟩ | ⟨hne, hold⟩
    · obtain rfl := Option.some.inj ((request_eq hc).symm.trans hrequest)
      obtain ⟨message, id, hpushing, hid⟩ := hpost hisPost
      exact ⟨id, hid, .asked hself hpushing hid⟩
    · obtain ⟨id, hid, hown⟩ := h.own c' j rx' request hold hrequest hisPost
      refine ⟨id, hid, ?_⟩
      cases hown with
      | asked hc' hpushing hid =>
        exact .asked ((getElem?_setPhase_of_ne hne.symm).trans hc') hpushing hid
      | pushed hm hmem => exact .pushed hm hmem
  · intro j slot₁ c' id hslot₁ hfew hid
    rcases howned hid with ⟨-, rfl, hid, message, hpushing⟩ | hold
    · obtain rfl := Option.some.inj (hslot.symm.trans hslot₁)
      exact (hfree message id hpushing hid hfew).1
    · exact h.lt j slot₁ c' id hslot₁ hfew hold
  · intro j slot₁ c₁ c₂ id hslot₁ hfew hid₁ hid₂
    rcases howned hid₁ with ⟨rfl, rfl, hid, message, hpushing⟩ | hold₁ <;>
      rcases howned hid₂ with ⟨rfl, hj, hid', message', hpushing'⟩ | hold₂
    · rfl
    · obtain rfl := Option.some.inj (hslot.symm.trans hslot₁)
      exact absurd hold₂ ((hfree message id hpushing hid hfew).2 c₂)
    · subst hj
      obtain rfl := Option.some.inj (hslot.symm.trans hslot₁)
      exact absurd hold₁ ((hfree message' id hpushing' hid' hfew).2 c₁)
    · exact h.unique j slot₁ c₁ c₂ id hslot₁ hfew hold₁ hold₂

/-- The loop of a session goes on after it has replied. -/
theorem Slot.replied_spec {slot slot' : Slot P} {events : Chan (Queued P)}
    {event : SessionEvent P} {reply : Reply} (hreply : slot.reply? event = some reply)
    (hact : { slot with events }.act (.httpService event) = some slot') :
    ∃ v v', slot.worker = .running (.running v) ∧ slot'.worker = .running (.running v') ∧
      v.fromHttpService event = .ok (.ok (reply, v')) := by
  unfold reply? at hreply
  split at hreply
  · next v hworker =>
    split at hreply
    · next reply₁ v' hevent =>
      obtain rfl := Option.some.inj hreply
      obtain ⟨session, session', hworker', hstep, rfl⟩ := act_spec hact
      obtain rfl : session = .running v :=
        (Worker.running.inj (hworker'.symm.trans hworker))
      simp only [Session.step, hevent] at hstep
      cases hstep
      exact ⟨v, v', hworker, rfl, hevent⟩
    · cases hreply
  · cases hreply

/-- A receiver that the loop hands out is new. -/
structure NewReceiver (v v' : Vars P) (rx : StreamableHttpMessageReceiver) : Prop where
  inner : rx.inner = v.channels.next
  carries : Session.Carries v' rx.inner rx.httpRequestId

theorem newReceiver_of_resume {config : SessionConfig} {v v' : Vars P} {e : EventId}
    {rx : StreamableHttpMessageReceiver} (hsenders : SendersOk config v.worker v.channels)
    (h : v.fromHttpService (.resume e) = .ok (.ok (.receiver (.ok rx), v'))) :
    NewReceiver v v' rx := by
  obtain ⟨⟨result, worker, channels⟩, hresume, h⟩ := Exec.bind_eq_ok.mp h
  cases h
  obtain ⟨hid, hcarries⟩ := resume_carries hsenders hresume
  exact ⟨resume_inner hresume, hid ▸ hcarries⟩

theorem newReceiver_of_establish {config : SessionConfig} {v v' : Vars P} {reply : Reply}
    (hsenders : SendersOk config v.worker v.channels)
    (h : v.fromHttpService .establishRequestWiseChannel = .ok (.ok (reply, v'))) :
    ∃ rx, reply = .receiver (.ok rx) ∧ rx.httpRequestId = some v.worker.nextHttpRequestId ∧
      NewReceiver v v' rx := by
  cases h
  obtain ⟨id, hid, hcarries⟩ := establish_carries hsenders rfl
  exact ⟨_, rfl, rfl, rfl, hid ▸ hcarries⟩

theorem reply_of_resume {v v' : Vars P} {e : EventId} {reply : Reply}
    (h : v.fromHttpService (.resume e) = .ok (.ok (reply, v'))) :
    ∃ result, reply = .receiver result := by
  obtain ⟨⟨result, worker, channels⟩, -, h⟩ := Exec.bind_eq_ok.mp h
  cases h
  exact ⟨result, rfl⟩

section Replies

variable {i : Nat} {slot slot' : Slot P} {events : Chan (Queued P)} {v v' : Vars P}
  {rx : StreamableHttpMessageReceiver}

theorem NewReceiver.slot_carries (h : NewReceiver v v' rx)
    (hworker' : slot'.worker = .running (.running v')) : slot'.Carries rx := by
  refine ⟨fun hoffered => ?_, fun session v₁ hsession hv₁ => ?_⟩
  · rw [hworker'] at hoffered
    cases hoffered
  · rw [hworker'] at hsession
    cases hsession
    cases hv₁
    exact h.carries

/-- Nobody has a receiver that is new. -/
theorem Streams.ne_inner (h : Streams s) (hrx : NewReceiver v v' rx)
    (hslot : s.sessions[i]? = some slot) (hworker : slot.worker = .running (.running v))
    (c' : Nat) (rx' : StreamableHttpMessageReceiver)
    (hrx' : HasStream (s.set i slot') c' i rx') : rx'.inner ≠ rx.inner := by
  intro heq
  obtain ⟨slot₁, hslot₁, hcarries⟩ := h.carries c' i rx' hrx'
  obtain rfl := Option.some.inj (hslot.symm.trans hslot₁)
  have hlt := (hcarries.2 _ v hworker rfl).lt
  rw [heq, hrx.inner] at hlt
  exact Nat.lt_irrefl _ hlt

/-- The id of a new channel is the number of the channels before it, so nobody owns it. -/
theorem Streams.free_id (h : Streams s) (hsound : slot.Sound)
    (hslot : s.sessions[i]? = some slot) (hworker : slot.worker = .running (.running v))
    (hact : { slot with events }.act (.httpService .establishRequestWiseChannel) = some slot')
    (hfew : slot'.established ≤ 2 ^ 64) :
    v.worker.nextHttpRequestId.toNat < slot'.established ∧
      ∀ c', ¬ Owns s i c' v.worker.nextHttpRequestId := by
  have hruns : Session.Runs .default slot.actions v := hsound.run _ hworker
  have hestablished : slot'.established = slot.established + 1 := (hsound.keeps_streams hact).1
  rw [hestablished] at hfew ⊢
  have hid : v.worker.nextHttpRequestId.toNat = slot.established := by
    rw [hruns.next_eq, UInt64.toNat_ofNat']
    exact Nat.mod_eq_of_lt hfew
  refine ⟨hid ▸ Nat.lt_succ_self _, fun c' howns => ?_⟩
  have hlt := h.lt i slot c' _ hslot (Nat.le_of_succ_le hfew) howns
  rw [hid] at hlt
  exact Nat.lt_irrefl _ hlt

end Replies

/-- The loop of a session takes an event. -/
theorem Streams.takes (h : Streams s) (horderly : Orderly s) {i : Nat} {slot slot' : Slot P}
    {queued : Queued P} (hslot : s.sessions[i]? = some slot)
    (hact : { slot with events := slot.events.receive }.act (.httpService queued.event) =
      some slot') : Streams (s.set i slot') :=
  h.act horderly.sound hslot (Chan.accepted_receive _) hact

/-- The loop of a session replies to the call that waits for it. -/
theorem Streams.replies (h : Streams s) (horderly : Orderly s) {i : Nat} {slot slot' : Slot P}
    {queued : Queued P} {reply : Reply} {call : Call P} (hslot : s.sessions[i]? = some slot)
    (hact : { slot with events := slot.events.receive }.act (.httpService queued.event) =
      some slot')
    (hreply : slot.reply? queued.event = some reply) (hc : s.calls[queued.call]? = some call)
    (hwaits : call.phase.waitsFor i queued.event = true) :
    Streams ((s.set i slot').setPhase queued.call (call.phase.replied reply)) := by
  have hset := h.takes horderly hslot hact
  have hsound := horderly.sound slot (List.mem_of_getElem? hslot)
  have hmailbox : slot'.mailbox = slot.mailbox := by
    rw [Slot.mailbox_act hact]
    simp [Slot.mailbox]
  obtain ⟨v, v', hworker, hworker', hevent⟩ := Slot.replied_spec hreply hact
  have hruns : Session.Runs .default slot.actions v := hsound.run _ hworker
  have hslot' : (s.set i slot').sessions[i]? = some slot' :=
    List.getElem?_set_self (List.getElem?_eq_some_iff.mp hslot).1
  have hphase := horderly.kept.calls _ call hc
  cases hp : call.phase with
  | awaitsChannel session message =>
    rw [hp] at hwaits
    cases he : queued.event with
    | establishRequestWiseChannel =>
      rw [he] at hwaits hevent hact
      obtain rfl : session = i := eq_of_beq hwaits
      obtain ⟨rx, rfl, hid, hnew⟩ := newReceiver_of_establish hruns.senders hevent
      have hstream : (Phase.pushing session message (some rx)).stream? = some (session, rx) := rfl
      refine hset.gains hc hslot' hstream (hnew.slot_carries hworker')
        (h.ne_inner hnew hslot hworker) (fun _ => ⟨message, _, rfl, hid⟩) ?_
      intro message' id _ hid' hfew
      obtain rfl := Option.some.inj (hid.symm.trans hid')
      obtain ⟨hlt, hfree⟩ := h.free_id hsound hslot hworker hact hfew
      exact ⟨hlt, fun c' howns => hfree c' ((owns_set_iff hslot hmailbox).mp howns)⟩
    | _ =>
      rw [he] at hwaits
      cases hwaits
  | awaitsResume session context =>
    rw [hp] at hwaits hphase
    cases he : queued.event with
    | resume lastEventId =>
      rw [he] at hwaits hevent
      obtain rfl : session = i := eq_of_beq hwaits
      obtain ⟨result, rfl⟩ := reply_of_resume hevent
      cases result with
      | error error => exact hset.setPhase rfl
      | ok rx =>
        have hnew := newReceiver_of_resume hruns.senders hevent
        have hstream : (Phase.done (.sse session rx) : Phase P).stream? = some (session, rx) := rfl
        obtain ⟨m, -, -, hget⟩ := hphase
        refine hset.gains hc hslot' hstream (hnew.slot_carries hworker')
          (h.ne_inner hnew hslot hworker) (fun hpost => ?_) fun _ _ hpushing => by cases hpushing
        rw [hget] at hpost
        cases hpost
    | _ =>
      rw [he] at hwaits
      cases hwaits
  | awaitsInitialize session => exact hset.setPhase rfl
  | _ =>
    rw [hp] at hwaits
    cases hwaits

/-! ### Calls that come in -/

theorem handler_quiet (s : State P) (drawn : SessionId) (request : HttpRequest P) :
    (s.handler drawn request).1.stream? = none ∧ (s.handler drawn request).2.calls = s.calls := by
  cases request with
  | post sessionId message =>
    simp only [State.handler, State.postHandler]
    split
    · split
      · exact ⟨rfl, rfl⟩
      · split
        · exact ⟨rfl, rfl⟩
        · split <;> exact ⟨rfl, rfl⟩
    · split <;> exact ⟨rfl, rfl⟩
  | get sessionId lastEventId =>
    refine ⟨?_, rfl⟩
    simp only [State.handler, State.getHandler]
    split
    · rfl
    · split
      · rfl
      · split
        · split <;> rfl
        · rfl
  | delete sessionId =>
    simp only [State.handler, State.deleteHandler]
    split
    · exact ⟨rfl, rfl⟩
    · split
      · exact ⟨rfl, rfl⟩
      · split <;> exact ⟨rfl, rfl⟩

/-- A call that comes in has no stream, and finds the sessions as they are, or creates one. -/
theorem Streams.appends (h : Streams s) (hsessions : s'.sessions = s.sessions ∨
      ∃ id creator, s'.sessions = s.sessions ++ [.create id creator])
    {call : Call P} (hcalls : s'.calls = s.calls ++ [call]) (hcall : call.phase.stream? = none) :
    Streams s' := by
  have hold : ∀ {c : Nat} {call' : Call P} {i : Nat} {rx : StreamableHttpMessageReceiver},
      s'.calls[c]? = some call' → call'.phase.stream? = some (i, rx) →
      s.calls[c]? = some call' := by
    intro c call' i rx hc hstream
    rw [hcalls, List.getElem?_append] at hc
    split at hc
    · exact hc
    · have hmem := List.mem_singleton.mp (List.mem_of_getElem? hc)
      rw [hmem, hcall] at hstream
      cases hstream
  have hnew : ∀ {c : Nat} {call' : Call P}, s.calls[c]? = some call' →
      s'.calls[c]? = some call' := fun hc => hcalls ▸ getElem?_append_of_eq_some hc
  have hmailboxes : ∀ {i : Nat} {m : Mailbox P} {queued : Queued P}, s'.mailboxes[i]? = some m →
      queued ∈ m.accepted → s.mailboxes[i]? = some m := by
    intro i m queued hm hmem
    rcases hsessions with heq | ⟨id, creator, heq⟩
    · rwa [State.mailboxes, heq] at hm
    · rw [State.mailboxes, heq, List.map_append, List.getElem?_append] at hm
      split at hm
      · exact hm
      · -- nothing is in the channel of a new session
        obtain rfl := List.mem_singleton.mp (List.mem_of_getElem? hm)
        simp [Slot.mailbox, Slot.create, Chan.new, Chan.accepted] at hmem
  have hpasses : Passes s s' := by
    refine ⟨fun c request hc => ?_, fun i slot hslot => ?_⟩
    · rw [State.requests, hcalls, List.map_append]
      exact getElem?_append_of_eq_some hc
    · refine ⟨slot, ?_, Nat.le_refl _, fun _ hrx => hrx⟩
      rcases hsessions with heq | ⟨id, creator, heq⟩
      · exact heq ▸ hslot
      · exact heq ▸ getElem?_append_of_eq_some hslot
  refine h.mono hpasses ?_ ?_ ?_
  · rintro c i rx ⟨call', hc, hstream⟩
    exact ⟨call', hold hc hstream, hstream⟩
  · intro i c id hid
    exact hid.imp (fun call _ hc hstream => ⟨call, hold hc hstream, rfl⟩)
      fun m _ hm hmem => ⟨m, hmailboxes hm hmem, hmem⟩
  · intro i c id rx _ hid
    refine hid.imp (fun call _ hc _ => ⟨call, hnew hc, rfl⟩) fun m _ hm hmem => ⟨m, ?_, hmem⟩
    rcases hsessions with heq | ⟨id', creator, heq⟩
    · rwa [State.mailboxes, heq]
    · rw [State.mailboxes, heq, List.map_append]
      exact getElem?_append_of_eq_some hm

theorem streams_step (h : Streams s) (horderly : Orderly s) {a : Action P}
    (hs : step s a = some s') : Streams s' := by
  have hsound := horderly.sound
  cases step_spec hs with
  | @arrives request drawn phase s₁ hhandler =>
    have hsessions := sessions_handler s drawn request
    obtain ⟨hquiet, hcalls⟩ := handler_quiet s drawn request
    rw [hhandler] at hsessions hquiet hcalls
    have hcalls' : s₁.calls ++ [⟨request, phase⟩] = s.calls ++ [⟨request, phase⟩] := by
      rw [show s₁.calls = s.calls from hcalls]
    rcases hsessions with heq | ⟨creator, heq⟩
    · exact h.appends (.inl heq) hcalls' hquiet
    · exact h.appends (.inr ⟨drawn, creator, heq⟩) hcalls' hquiet
  | sends hc hsends hslot hsend =>
    exact h.sends hc hsends hslot
      (Chan.accepted_send (hsound _ (List.mem_of_getElem? hslot)).valid hsend)
  | @refused c call sending slot events _ hsends hslot hsend =>
    have haccepted := Chan.accepted_send (hsound slot (List.mem_of_getElem? hslot)).valid hsend
    have hset : Streams (s.set sending.session { slot with events }) :=
      h.set hslot (by simp [Slot.mailbox, haccepted]) (Nat.le_refl _) fun _ hrx => hrx
    exact hset.setPhase (stream?_of_refused (refused_of_sends? hsends))
  | @unanswered c i call response slot _ hawaits =>
    refine h.setPhase ?_
    cases hp : call.phase <;> rw [hp] at hawaits <;> cases hawaits <;> rfl
  | @registers c i call body slot =>
    have hsame : Streams { s with sessionManager := s.sessionManager.insert slot.id i } :=
      h.of_eq rfl rfl
    exact hsame.setPhase rfl
  | hangsUp => exact h.setPhase rfl
  | serves hslot hworker =>
    exact h.set hslot rfl (Nat.le_refl _) fun rx hrx => absurd hworker hrx.1
  | discards hslot hworker =>
    exact h.set hslot (by simp [Slot.mailbox]) (Nat.le_refl _) fun rx hrx => absurd hworker hrx.1
  | takes hslot _ hact => exact h.takes horderly hslot hact
  | replies hslot _ hact hreply hc hwaits => exact h.replies horderly hslot hact hreply hc hwaits
  | answers hslot hact => exact (h.act hsound hslot rfl hact).setPhase rfl
  | relays hslot hact | abandoned hslot _ hact | acts hslot _ hact =>
    exact h.act hsound hslot rfl hact
  | stopsServing => exact h.of_eq rfl rfl

theorem streams_of_run {as : List (Action P)} (hrun : Transition.Run step State.start as s) :
    Streams s := by
  refine (hrun.invariant (P := fun _ s => Orderly s ∧ Streams s)
    ⟨⟨fun slot hmem => (by cases hmem), kept_start⟩, streams_start⟩ ?_).2
  rintro _ s₁ s₂ a - ⟨horderly, hstreams⟩ hs
  exact ⟨orderly_step horderly hs, streams_step hstreams horderly hs⟩

end Steps

/-! ## What a stream carries -/

/-- A message that was pushed on a channel is that of the POST that has pushed it. -/
theorem Mailbox.Ok.posted {requests : List (HttpRequest P)} {m : Mailbox P} (h : m.Ok requests)
    {queued : Queued P} (hmem : queued ∈ m.accepted) {message : ClientJsonRpcMessage P}
    {id : Option HttpRequestId} (hevent : queued.event = .clientMessage message id) :
    ∃ sessionId, requests[queued.call]? = some (.post sessionId message) := by
  cases haccepted : m.accepted with
  | nil =>
    rw [haccepted] at hmem
    cases hmem
  | cons first later =>
    rw [haccepted] at hmem
    rcases List.mem_cons.mp hmem with rfl | hlater
    · obtain ⟨message', hfirst, -⟩ := h.first queued (by rw [haccepted]; rfl)
      rw [hevent] at hfirst
      cases hfirst
    · obtain ⟨request, hrequest, value, rfl, -⟩ :=
        (h.later queued (by rwa [haccepted])).2.2 message (by rw [hevent]; rfl)
      exact ⟨_, hrequest⟩

/-- In every run of a server: no two calls have the same receiver of a session; a receiver is given
messages of its channel only; and as long as its session has established at most 2^64 channels, all
that the receiver of a POST is given are notifications about requests of the message that this POST
has posted. -/
theorem streams_isolated {as : List (Action P)} {s : State P}
    (hrun : Transition.Run step State.start as s) :
    (∀ c c' i rx rx', c ≠ c' → HasStream s c i rx → HasStream s c' i rx' →
      rx.inner ≠ rx'.inner) ∧
    ∀ (c i : Nat) (rx : StreamableHttpMessageReceiver) (slot : Slot P) (v : Vars P),
      HasStream s c i rx → s.sessions[i]? = some slot → slot.worker = .running (.running v) →
      (∀ m ∈ v.channels.offered rx.inner, m.eventId.httpRequestId = rx.httpRequestId) ∧
      ∀ sessionId message, s.requests[c]? = some (.post sessionId message) →
        slot.established ≤ 2 ^ 64 → ∀ m ∈ v.channels.offered rx.inner,
          ∃ k ∈ messageKeys message, aboutKey? m.message = some k := by
  have horderly := orderly_of_run hrun
  have hstreams := streams_of_run hrun
  refine ⟨hstreams.separate, fun c i rx slot v hrx hslot hworker => ?_⟩
  obtain ⟨slot₁, hslot₁, -, hcarries⟩ := hstreams.carries c i rx hrx
  obtain rfl := Option.some.inj (hslot.symm.trans hslot₁)
  have hoffered := (hcarries _ v hworker rfl).offered
  refine ⟨hoffered, fun sessionId message hpost hfew m hm => ?_⟩
  have hsound := horderly.sound slot (List.mem_of_getElem? hslot)
  have hruns : Session.Runs .default slot.actions v := hsound.run _ hworker
  obtain ⟨h, hid, hown⟩ := hstreams.own c i rx _ hrx hpost rfl
  obtain ⟨message', hposted, hkey⟩ := hruns.about hm h ((hoffered m hm).trans hid)
  -- the message on the channel was pushed by the owner of the channel
  rw [hsound.taken] at hposted
  obtain ⟨queued, htaken, hevent⟩ := List.mem_map.mp hposted
  have hmem : queued ∈ slot.mailbox.accepted := List.mem_of_mem_take htaken
  have hmailbox := mailboxes_getElem? hslot
  have hpushed : Owns s i queued.call h := .pushed hmailbox (by rw [← hevent]; exact hmem)
  obtain rfl := hstreams.unique i slot c queued.call h hslot hfew hown hpushed
  have hok := horderly.kept.mailboxes slot.mailbox (List.mem_of_getElem? hmailbox)
  obtain ⟨sessionId', hpost'⟩ := hok.posted hmem hevent
  cases hpost.symm.trans hpost'
  exact hkey

/-- A request with a progress token. -/
def tokenRequest : ClientJsonRpcMessage bare :=
  .request ⟨.number 1, Meta.staticEmpty.setProgressToken ⟨.number 7⟩⟩

/-- The request is posted, and the service tells of its progress. -/
def progressRun : List (Action bare) :=
  [.arrives (.post none (.request ⟨.number 0, Meta.staticEmpty⟩)) "s", .sends 0, .serves 0,
    .takes 0, .relays 0 (answer 0) true, .registers 0,
    .arrives (.post (some ⟨[115]⟩) tokenRequest) "", .sends 1, .takes 0, .sends 1, .takes 0,
    .acts 0 (.handler (.notification
      ⟨.progressNotification ⟨⟨⟨.number 7⟩, 1, none, none⟩, ⟨none⟩⟩⟩))]

theorem streams_isolated_progressRun : ∃ (s : State bare) (slot : Slot bare) (v : Vars bare)
    (rx : StreamableHttpMessageReceiver) (m : ServerSessionMessage bare),
    Transition.Run step State.start progressRun s ∧ s.sessions[0]? = some slot ∧
    slot.worker = .running (.running v) ∧ HasStream s 1 0 rx ∧
    v.channels.offered rx.inner = [m] ∧ m.eventId.httpRequestId = rx.httpRequestId ∧
    ∃ k ∈ messageKeys tokenRequest, aboutKey? m.message = some k := by
  have hrun : ∃ (s : State bare) (slot : Slot bare) (v : Vars bare) (call : Call bare)
      (rx : StreamableHttpMessageReceiver) (m : ServerSessionMessage bare),
      Transition.Run step State.start progressRun s ∧ s.sessions[0]? = some slot ∧
      slot.worker = .running (.running v) ∧ s.calls[1]? = some call ∧
      call.phase = .done (.sse 0 rx) ∧ call.request = .post (some ⟨[115]⟩) tokenRequest ∧
      slot.established = 1 ∧ v.channels.offered rx.inner = [m] :=
    ⟨_, _, _, _, _, _, Transition.run_of_exec rfl, rfl, rfl, rfl, rfl, rfl, rfl, rfl⟩
  obtain ⟨s, slot, v, call, rx, m, hrun, hslot, hworker, hc, hphase, hpost, hone, hoffered⟩ := hrun
  have hstream : HasStream s 1 0 rx := ⟨call, hc, by rw [hphase]; rfl⟩
  have hrequest : s.requests[1]? = some (.post (some ⟨[115]⟩) tokenRequest) :=
    (request_eq hc).trans (congrArg some hpost)
  have hfew : slot.established ≤ 2 ^ 64 := by
    rw [hone]
    decide
  have hm : m ∈ v.channels.offered rx.inner := hoffered ▸ List.mem_singleton_self m
  obtain ⟨hown, habout⟩ := (streams_isolated hrun).2 1 0 rx slot v hstream hslot hworker
  exact ⟨s, slot, v, rx, m, hrun, hslot, hworker, hstream, hoffered, hown m hm,
    habout _ _ hrequest hfew m hm⟩

end Rmcp.HttpServer
