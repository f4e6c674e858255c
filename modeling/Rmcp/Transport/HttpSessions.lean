import Rmcp.Session.Given
import Rmcp.Transport.HttpServer

/-!
# The sessions of a server

What the calls of an HTTP server make of its sessions. The loop of a session takes what the calls
have put into its channel, in order; the first of it is the message of the call that has created
the session, and no call sends another one like it, or closes a channel by hand. So each session
runs as one session does by itself, and its service is given what was posted to it.

Results:
1. `orderly_of_run`: every session of a server has run by itself, and every call is where its
   request and what it has sent have led it.
-/

namespace Rmcp

namespace HttpServer

open Session

variable {P : Payloads}

/-! ## The worker of a session -/

/-- The worker may take events. -/
def Slot.listens (slot : Slot P) : Bool :=
  match slot.worker with
  | .offered => true
  | .running session => session.vars?.isSome
  | .dropped => false

/-- The worker has run by itself, on the events that it has taken. -/
structure Slot.Sound (slot : Slot P) : Prop where
  valid : slot.events.Valid
  isOpen : slot.listens = true → slot.events.closedAt = none
  idle : (∀ session, slot.worker ≠ .running session) → slot.actions = []
  run : ∀ session, slot.worker = .running session →
    Transition.Run Session.step (.awaitInitialize (start P .default)) slot.actions session
  taken : takenEvents slot.actions = (slot.events.accepted.take slot.events.taken).map (·.event)

/-- What the calls see of a session. -/
structure Mailbox (P : Payloads) where
  id : SessionId
  creator : Nat
  accepted : List (Queued P)

def Slot.mailbox (slot : Slot P) : Mailbox P := ⟨slot.id, slot.creator, slot.events.accepted⟩

section Slots

variable {slot slot' : Slot P}

theorem Slot.act_spec {a : Session.Action P} (h : slot.act a = some slot') :
    ∃ session session', slot.worker = .running session ∧
      Session.step session a = some session' ∧
      slot' =
        { slot with
          worker := .running session'
          events := if session'.vars?.isSome then slot.events else slot.events.close
          actions := slot.actions ++ [a] } := by
  unfold act at h
  split at h
  · next session hworker =>
    obtain ⟨session', hstep, rfl⟩ := Option.map_eq_some_iff.mp h
    exact ⟨session, session', hworker, hstep, rfl⟩
  · cases h

/-- Nothing happens in a session that has ended. -/
theorem vars?_of_step {session session' : Session.State P} {a : Session.Action P}
    (h : Session.step session a = some session') : session.vars?.isSome = true := by
  cases session with
  | awaitInitialize | awaitInitializeResponse | running => rfl
  | quit | panicked => cases a <;> cases h

theorem Slot.mailbox_act {a : Session.Action P} (h : slot.act a = some slot') :
    slot'.mailbox = slot.mailbox := by
  obtain ⟨session, session', -, -, rfl⟩ := act_spec h
  unfold mailbox
  split <;> simp

theorem Slot.sound_create (id : SessionId) (creator : Nat) :
    (Slot.create id creator : Slot P).Sound where
  valid := Chan.valid_new _
  isOpen _ := rfl
  idle _ := rfl
  run _ h := by cases h
  taken := rfl

theorem Slot.Sound.send {queued : Queued P} {ok : Bool} {events : Chan (Queued P)}
    (h : slot.Sound) (hsend : slot.events.send queued = .ok (ok, events)) :
    ({ slot with events } : Slot P).Sound := by
  have haccepted := Chan.accepted_send h.valid hsend
  have hvalid := h.valid.send hsend
  obtain ⟨rfl, -⟩ := Chan.send_eq_ok hsend
  refine ⟨hvalid, h.isOpen, h.idle, h.run, ?_⟩
  rw [haccepted]
  cases ok with
  | false => exact h.taken
  | true =>
    rw [if_pos rfl, List.take_append_of_le_length h.valid.taken_le]
    exact h.taken

/-- A step of the loop, after which it has taken what `events` says. -/
theorem Slot.Sound.step {a : Session.Action P} {events : Chan (Queued P)} (h : slot.Sound)
    (hvalid : events.Valid) (hopen : slot.events.closedAt = none → events.closedAt = none)
    (htaken : takenEvents (slot.actions ++ [a]) =
      (events.accepted.take events.taken).map (·.event))
    (hact : { slot with events }.act a = some slot') : slot'.Sound := by
  obtain ⟨session, session', hworker, hstep, rfl⟩ := act_spec hact
  replace hworker : slot.worker = .running session := hworker
  have hlistens : slot.listens = true := by
    unfold listens
    rw [hworker]
    exact vars?_of_step hstep
  refine ⟨?_, fun hlistens' => ?_, fun hidle => absurd rfl (hidle session'), ?_, ?_⟩
  · show Chan.Valid (if _ then _ else _)
    split
    · exact hvalid
    · exact hvalid.close
  · rw [listens] at hlistens'
    rw [if_pos hlistens']
    exact hopen (h.isOpen hlistens)
  · rintro _ ⟨⟩
    exact (h.run session hworker).snoc hstep
  · rw [htaken]
    split
    · rfl
    · rw [Chan.accepted_close]
      rfl

theorem Slot.Sound.act {a : Session.Action P} (h : slot.Sound) (ha : a.event? = none)
    (hact : slot.act a = some slot') : slot'.Sound := by
  refine h.step h.valid (fun hopen => hopen) ?_ hact
  rw [takenEvents_concat, ha, Option.toList_none, List.append_nil, h.taken]

/-- The loop takes the next event. -/
theorem Slot.Sound.takes {queued : Queued P} (h : slot.Sound)
    (hhead : slot.events.backlog.head? = some queued)
    (hact : { slot with events := slot.events.receive }.act (.httpService queued.event) =
      some slot') : slot'.Sound := by
  obtain ⟨session, session', hworker, hstep, -⟩ := act_spec hact
  have hopen : slot.events.closedAt = none := by
    refine h.isOpen ?_
    unfold listens
    rw [show slot.worker = .running session from hworker]
    exact vars?_of_step hstep
  obtain ⟨hnext, htake⟩ := Chan.receive_of_head hopen hhead
  refine h.step h.valid.receive (fun hopen => ?_) ?_ hact
  · unfold Chan.receive
    split <;> exact hopen
  · rw [takenEvents_concat, hnext, Chan.accepted_receive, htake, List.map_append, h.taken]
    rfl

theorem Slot.Sound.serve (h : slot.Sound) (hworker : slot.worker = .offered) :
    ({ slot with worker := .running (.awaitInitialize (start P .default)) } : Slot P).Sound := by
  have hidle : slot.actions = [] := h.idle fun session hrunning => by
    rw [hworker] at hrunning
    cases hrunning
  have hopen : slot.events.closedAt = none := h.isOpen (by simp [listens, hworker])
  refine ⟨h.valid, fun _ => hopen, fun _ => hidle, ?_, h.taken⟩
  rintro _ ⟨⟩
  rw [hidle]
  exact .nil

theorem Slot.Sound.discard (h : slot.Sound) (hworker : slot.worker = .offered) :
    ({ slot with worker := .dropped, events := slot.events.close } : Slot P).Sound := by
  have hidle : slot.actions = [] := h.idle fun session hrunning => by
    rw [hworker] at hrunning
    cases hrunning
  refine ⟨h.valid.close, fun hlistens => (by cases hlistens), fun _ => hidle,
    fun _ hrunning => (by cases hrunning), ?_⟩
  rw [Chan.accepted_close]
  exact h.taken

end Slots

/-! ## The calls -/

/-- The calls that have pushed a message, in the order of the sessions. -/
def Mailbox.pushes (m : Mailbox P) : List (Nat × ClientJsonRpcMessage P) :=
  m.accepted.filterMap fun queued => queued.event.message?.map fun message => (queued.call, message)

def pushers (mailboxes : List (Mailbox P)) : List Nat :=
  mailboxes.flatMap fun m => m.pushes.map (·.1)

def State.mailboxes (s : State P) : List (Mailbox P) := s.sessions.map Slot.mailbox

def State.requests (s : State P) : List (HttpRequest P) := s.calls.map (·.request)

def HttpRequest.isPost : HttpRequest P → Bool
  | .post .. => true
  | .get .. | .delete _ => false

/-- The request posts `message` to the session `id`. -/
def PostsTo (request : HttpRequest P) (id : SessionId) (message : ClientJsonRpcMessage P) : Prop :=
  ∃ value, request = .post (some value) message ∧ value.toStr = some id

def Response.succeeds : Response P → Bool
  | .status .accepted _ | .sse .. | .json .. => true
  | _ => false

/-- What has led a call to where it is. -/
def PhaseOk (mailboxes : List (Mailbox P)) (c : Nat) (request : HttpRequest P) : Phase P → Prop
  | .establishing i message | .awaitsChannel i message | .pushing i message _ =>
    ∃ m, mailboxes[i]? = some m ∧ m.accepted ≠ [] ∧ PostsTo request m.id message ∧
      c ∉ pushers mailboxes
  | .initializing i message =>
    ∃ m, mailboxes[i]? = some m ∧ m.accepted = [] ∧ m.creator = c ∧
      request = .post none message ∧ c ∉ pushers mailboxes
  | .awaitsInitialize i | .registering i _ =>
    ∃ m, mailboxes[i]? = some m ∧ m.accepted ≠ [] ∧ c ∈ pushers mailboxes
  | .resuming i _ _ | .awaitsResume i _ | .closing i _ =>
    ∃ m, mailboxes[i]? = some m ∧ m.accepted ≠ [] ∧ request.isPost = false
  | .done response =>
    response.succeeds = true → request.isPost = true → c ∈ pushers mailboxes
  | .dropped => True

/-- The first event of a session is that of the call that has created it, and the others are of
calls that have found it. -/
structure Mailbox.Ok (requests : List (HttpRequest P)) (m : Mailbox P) : Prop where
  first : ∀ queued ∈ m.accepted.head?, ∃ message, queued.event = .initializeRequest message ∧
    queued.call = m.creator ∧ requests[m.creator]? = some (.post none message)
  later : ∀ queued ∈ m.accepted.tail, queued.event.initializes = false ∧
    (∀ id, queued.event ≠ .closeRequestWiseChannel id) ∧
    ∀ message ∈ queued.event.message?, ∃ request, requests[queued.call]? = some request ∧
      PostsTo request m.id message

/-- Where the calls and the sessions have come to. -/
structure Kept (s : State P) : Prop where
  calls : ∀ c call, s.calls[c]? = some call → PhaseOk s.mailboxes c call.request call.phase
  mailboxes : ∀ m ∈ s.mailboxes, m.Ok s.requests
  manager : ∀ id i, s.sessionManager.get id = some i →
    ∃ m, s.mailboxes[i]? = some m ∧ m.id = id ∧ m.accepted ≠ []
  pushers_lt : ∀ c ∈ pushers s.mailboxes, c < s.calls.length
  pushers_nodup : (pushers s.mailboxes).Nodup

theorem kept_start : Kept (State.start : State P) where
  calls c call h := by simp [State.start] at h
  mailboxes m h := by simp [State.mailboxes, State.start] at h
  manager id i h := by simp [State.start] at h
  pushers_lt c h := by simp [State.mailboxes, State.start, pushers] at h
  pushers_nodup := List.nodup_nil

/-- A call stays where it is when the sessions get on without it. -/
theorem PhaseOk.mono {mailboxes mailboxes' : List (Mailbox P)} {c : Nat} {request : HttpRequest P}
    {phase : Phase P} (h : PhaseOk mailboxes c request phase)
    (hgrows : ∀ (i : Nat) (m : Mailbox P), mailboxes[i]? = some m → ∃ m' : Mailbox P,
      mailboxes'[i]? = some m' ∧ m'.id = m.id ∧ m'.creator = m.creator ∧
        (m'.accepted = m.accepted ∨ (m'.accepted ≠ [] ∧ (m.creator = c → m.accepted ≠ []))))
    (hpushers : c ∈ pushers mailboxes' ↔ c ∈ pushers mailboxes) :
    PhaseOk mailboxes' c request phase := by
  cases phase with
  | establishing i message | awaitsChannel i message | pushing i message receiver =>
    obtain ⟨m, hm, hne, hposts, hc⟩ := h
    obtain ⟨m', hm', hid, -, haccepted⟩ := hgrows i m hm
    refine ⟨m', hm', ?_, hid ▸ hposts, fun hc' => hc (hpushers.mp hc')⟩
    exact haccepted.elim (fun heq => heq ▸ hne) (·.1)
  | initializing i message =>
    obtain ⟨m, hm, hempty, hcreator, hrequest, hc⟩ := h
    obtain ⟨m', hm', -, hcreator', haccepted⟩ := hgrows i m hm
    refine ⟨m', hm', ?_, hcreator'.trans hcreator, hrequest, fun hc' => hc (hpushers.mp hc')⟩
    exact haccepted.elim (·.trans hempty) fun hnew => absurd hempty (hnew.2 hcreator)
  | awaitsInitialize i | registering i body =>
    obtain ⟨m, hm, hne, hc⟩ := h
    obtain ⟨m', hm', -, -, haccepted⟩ := hgrows i m hm
    refine ⟨m', hm', ?_, hpushers.mpr hc⟩
    exact haccepted.elim (fun heq => heq ▸ hne) (·.1)
  | resuming i _ _ | awaitsResume i _ | closing i _ =>
    obtain ⟨m, hm, hne, hrequest⟩ := h
    obtain ⟨m', hm', -, -, haccepted⟩ := hgrows i m hm
    refine ⟨m', hm', ?_, hrequest⟩
    exact haccepted.elim (fun heq => heq ▸ hne) (·.1)
  | done response => exact fun hsucceeds hpost => hpushers.mpr (h hsucceeds hpost)
  | dropped => trivial

/-! ### Steps that push nothing -/

section Quiet

variable {s s' : State P}

theorem getElem?_setPhase {c c' : Nat} {phase : Phase P} {call' : Call P}
    (h : (s.setPhase c phase).calls[c']? = some call') :
    ∃ call, s.calls[c']? = some call ∧ call'.request = call.request ∧
      call'.phase = if c = c' then phase else call.phase := by
  simp only [State.setPhase, List.getElem?_modify, Option.map_eq_map, Option.map_eq_some_iff] at h
  obtain ⟨call, hcall, rfl⟩ := h
  refine ⟨call, hcall, ?_, ?_⟩ <;> split <;> rfl

@[simp] theorem requests_setPhase (s : State P) (c : Nat) (phase : Phase P) :
    (s.setPhase c phase).requests = s.requests := by
  refine List.ext_getElem? fun c' => ?_
  simp only [State.requests, State.setPhase, List.getElem?_map, List.getElem?_modify]
  cases s.calls[c']? with
  | none => rfl
  | some call =>
    show some (if c = c' then _ else _ : Call P).request = _
    split <;> rfl

/-- Only the phase of one call changes. -/
theorem Kept.setPhase (h : Kept s) {c : Nat} {call : Call P} {phase : Phase P}
    (hc : s.calls[c]? = some call) (hphase : PhaseOk s.mailboxes c call.request phase) :
    Kept (s.setPhase c phase) where
  calls c' call' hcall' := by
    obtain ⟨call₁, hcall₁, hrequest, hphase'⟩ := getElem?_setPhase hcall'
    rw [hrequest, hphase']
    split
    · next heq =>
      subst heq
      obtain rfl := Option.some.inj (hc.symm.trans hcall₁)
      exact hphase
    · exact h.calls c' call₁ hcall₁
  mailboxes := (requests_setPhase s c phase).symm ▸ h.mailboxes
  manager := h.manager
  pushers_lt c' hc' := by
    simpa [State.setPhase] using h.pushers_lt c' hc'
  pushers_nodup := h.pushers_nodup

theorem mailboxes_set_of_eq {i : Nat} {slot slot' : Slot P} (hslot : s.sessions[i]? = some slot)
    (hmailbox : slot'.mailbox = slot.mailbox) : (s.set i slot').mailboxes = s.mailboxes := by
  rw [State.mailboxes, State.set, List.map_set, hmailbox]
  refine List.ext_getElem? fun j => ?_
  rw [List.getElem?_set]
  split
  · next heq =>
    subst heq
    obtain ⟨hi, rfl⟩ := List.getElem?_eq_some_iff.mp hslot
    simp [State.mailboxes, hi]
  · rfl

/-- The worker of a session gets on. -/
theorem Kept.set (h : Kept s) {i : Nat} {slot slot' : Slot P} (hslot : s.sessions[i]? = some slot)
    (hmailbox : slot'.mailbox = slot.mailbox) : Kept (s.set i slot') := by
  have hsame := mailboxes_set_of_eq hslot hmailbox
  refine ⟨?_, ?_, ?_, ?_, ?_⟩
  all_goals rw [hsame]
  · exact h.calls
  · exact h.mailboxes
  · exact h.manager
  · exact h.pushers_lt
  · exact h.pushers_nodup

end Quiet

/-! ### A step that pushes -/

section Pushing

variable {s : State P}

/-- The session `i` gets one more event. -/
def receives (mailboxes : List (Mailbox P)) (i : Nat) (queued : Queued P) : List (Mailbox P) :=
  mailboxes.modify i fun m => { m with accepted := m.accepted ++ [queued] }

def Queued.pusher? (queued : Queued P) : Option Nat :=
  queued.event.message?.map fun _ => queued.call

theorem pushers_receives {mailboxes : List (Mailbox P)} {i : Nat} {m : Mailbox P}
    (hm : mailboxes[i]? = some m) (queued : Queued P) :
    (pushers (receives mailboxes i queued)).Perm (pushers mailboxes ++ queued.pusher?.toList) := by
  obtain ⟨hi, rfl⟩ := List.getElem?_eq_some_iff.mp hm
  have hsplit : mailboxes = mailboxes.take i ++ mailboxes[i] :: mailboxes.drop (i + 1) := by
    rw [List.getElem_cons_drop, List.take_append_drop]
  have hpushes : (⟨mailboxes[i].id, mailboxes[i].creator, mailboxes[i].accepted ++ [queued]⟩ :
      Mailbox P).pushes.map (·.1) = mailboxes[i].pushes.map (·.1) ++ queued.pusher?.toList := by
    unfold Mailbox.pushes Queued.pusher?
    cases hmessage : queued.event.message? <;> simp [hmessage]
  rw [receives, List.modify_eq_take_cons_drop hi]
  conv_rhs => rw [hsplit]
  simp only [pushers, List.flatMap_append, List.flatMap_cons, hpushes, List.append_assoc]
  exact (List.perm_append_comm.append_left _).append_left _

theorem mailbox_receives {mailboxes : List (Mailbox P)} {i j : Nat} {queued : Queued P}
    {m' : Mailbox P} (h : (receives mailboxes i queued)[j]? = some m') :
    ∃ m, mailboxes[j]? = some m ∧ m' = if i = j then
      { m with accepted := m.accepted ++ [queued] } else m := by
  simp only [receives, List.getElem?_modify, Option.map_eq_map, Option.map_eq_some_iff] at h
  obtain ⟨m, hm, rfl⟩ := h
  exact ⟨m, hm, rfl⟩

theorem receives_grows {mailboxes : List (Mailbox P)} {j : Nat} {m : Mailbox P}
    (hm : mailboxes[j]? = some m) (i : Nat) (queued : Queued P) :
    ∃ m' : Mailbox P, (receives mailboxes i queued)[j]? = some m' ∧ m'.id = m.id ∧
      m'.creator = m.creator ∧ (m'.accepted = m.accepted ∨
        (i = j ∧ m'.accepted = m.accepted ++ [queued])) := by
  simp only [receives, List.getElem?_modify, hm, Option.map_eq_map, Option.map_some,
    Option.some.injEq, exists_eq_left']
  split
  · next heq => exact ⟨rfl, rfl, .inr ⟨heq, rfl⟩⟩
  · exact ⟨rfl, rfl, .inl rfl⟩

/-- A call sends its event, and goes on. -/
structure Pushed (s : State P) (c : Nat) (call : Call P) (sending : Sending P) (m : Mailbox P) :
    Prop where
  ok : (⟨m.id, m.creator, m.accepted ++ [⟨sending.event, c⟩]⟩ : Mailbox P).Ok s.requests
  others : m.accepted = [] → m.creator = c
  fresh : ∀ message ∈ sending.event.message?, c ∉ pushers s.mailboxes
  phase : PhaseOk (receives s.mailboxes sending.session ⟨sending.event, c⟩) c call.request
    sending.accepted

theorem Mailbox.Ok.concat {requests : List (HttpRequest P)} {m : Mailbox P}
    (h : m.Ok requests) (hne : m.accepted ≠ []) {queued : Queued P}
    (hinitializes : queued.event.initializes = false)
    (hclose : ∀ id, queued.event ≠ .closeRequestWiseChannel id)
    (hposts : ∀ message ∈ queued.event.message?, ∃ request,
      requests[queued.call]? = some request ∧ PostsTo request m.id message) :
    (⟨m.id, m.creator, m.accepted ++ [queued]⟩ : Mailbox P).Ok requests := by
  refine ⟨?_, fun queued' hmem => ?_⟩
  · rw [List.head?_append_of_ne_nil _ hne]
    exact h.first
  · rw [List.tail_append_of_ne_nil hne] at hmem
    rcases List.mem_append.mp hmem with hold | hnew
    · exact h.later queued' hold
    · obtain rfl := List.mem_singleton.mp hnew
      exact ⟨hinitializes, hclose, hposts⟩

theorem mem_pushers_receives {mailboxes : List (Mailbox P)} {i : Nat} {m : Mailbox P}
    (hm : mailboxes[i]? = some m) (queued : Queued P) (c : Nat) :
    c ∈ pushers (receives mailboxes i queued) ↔ c ∈ pushers mailboxes ∨ c ∈ queued.pusher? := by
  rw [(pushers_receives hm queued).mem_iff, List.mem_append, Option.mem_toList]
  rfl

theorem receives_self {mailboxes : List (Mailbox P)} {i : Nat} {m : Mailbox P}
    (hm : mailboxes[i]? = some m) (queued : Queued P) :
    (receives mailboxes i queued)[i]? =
      some ⟨m.id, m.creator, m.accepted ++ [queued]⟩ := by
  simp [receives, hm]

theorem request_eq {c : Nat} {call : Call P} (hc : s.calls[c]? = some call) :
    s.requests[c]? = some call.request := by
  simp [State.requests, hc]

/-- A call sends an event that is its own. -/
theorem Kept.pushed (h : Kept s) {c : Nat} {call : Call P} {sending : Sending P}
    (hc : s.calls[c]? = some call) (hsends : call.phase.sends? = some sending) :
    ∃ m, s.mailboxes[sending.session]? = some m ∧ Pushed s c call sending m := by
  have hphase := h.calls c call hc
  have hrequest := request_eq hc
  have hok : ∀ {i : Nat} {m : Mailbox P}, s.mailboxes[i]? = some m → m.Ok s.requests :=
    fun hm => h.mailboxes _ (List.mem_of_getElem? hm)
  cases hp : call.phase with
  | establishing i message =>
    rw [hp] at hsends hphase
    cases hsends
    obtain ⟨m, hm, hne, hposts, hfresh⟩ := hphase
    refine ⟨m, hm, ?_, fun hempty => absurd hempty hne, fun _ hmessage => ?_, ?_⟩
    · exact (hok hm).concat hne rfl (fun _ heq => by cases heq) fun _ hmessage => by cases hmessage
    · cases hmessage
    · refine ⟨_, receives_self hm _, List.concat_ne_nil _ _, hposts, fun hmem => ?_⟩
      exact hfresh (((mem_pushers_receives hm _ c).mp hmem).resolve_right fun hnew => by cases hnew)
  | pushing i message receiver =>
    rw [hp] at hsends hphase
    obtain ⟨m, hm, hne, hposts, hfresh⟩ := hphase
    have hpushes : ∀ httpRequestId, c ∈ pushers (receives s.mailboxes i
        ⟨.clientMessage message httpRequestId, c⟩) := fun httpRequestId =>
      (mem_pushers_receives hm _ c).mpr (.inr rfl)
    cases receiver <;> cases hsends
    all_goals
      refine ⟨m, hm, ?_, fun hempty => absurd hempty hne, fun _ _ => hfresh, fun _ _ => hpushes _⟩
      refine (hok hm).concat hne rfl (fun _ heq => by cases heq) fun message' hmessage => ?_
      obtain rfl := Option.some.inj hmessage
      exact ⟨_, hrequest, hposts⟩
  | initializing i message =>
    rw [hp] at hsends hphase
    cases hsends
    obtain ⟨m, hm, hempty, rfl, hpost, hfresh⟩ := hphase
    rw [hpost] at hrequest
    refine ⟨m, hm, ?_, fun _ => rfl, fun _ _ => hfresh, ?_⟩
    · rw [hempty]
      refine ⟨fun queued hmem => ?_, fun queued hmem => by cases hmem⟩
      cases hmem
      exact ⟨message, rfl, rfl, hrequest⟩
    · exact ⟨_, receives_self hm _, List.concat_ne_nil _ _,
        (mem_pushers_receives hm _ _).mpr (.inr rfl)⟩
  | resuming i lastEventId context =>
    rw [hp] at hsends hphase
    cases hsends
    obtain ⟨m, hm, hne, hget⟩ := hphase
    refine ⟨m, hm, ?_, fun hempty => absurd hempty hne, fun _ hmessage => ?_, ?_⟩
    · exact (hok hm).concat hne rfl (fun _ heq => by cases heq) fun _ hmessage => by cases hmessage
    · cases hmessage
    · exact ⟨_, receives_self hm _, List.concat_ne_nil _ _, hget⟩
  | closing i sessionId =>
    rw [hp] at hsends hphase
    cases hsends
    obtain ⟨m, hm, hne, hdelete⟩ := hphase
    refine ⟨m, hm, ?_, fun hempty => absurd hempty hne, fun _ hmessage => ?_, ?_⟩
    · exact (hok hm).concat hne rfl (fun _ heq => by cases heq) fun _ hmessage => by cases hmessage
    · cases hmessage
    · intro _ hpost
      rw [hdelete] at hpost
      cases hpost
  | awaitsChannel | awaitsInitialize | registering | awaitsResume | done | dropped =>
    rw [hp] at hsends
    cases hsends

/-- What a call answers when a channel is closed is no success. -/
theorem refused_of_sends? {phase : Phase P} {sending : Sending P}
    (h : phase.sends? = some sending) : sending.refused.succeeds = false := by
  cases phase with
  | pushing i message receiver => cases receiver <;> cases h <;> rfl
  | establishing | initializing | resuming | closing =>
    cases h
    rfl
  | awaitsChannel | awaitsInitialize | registering | awaitsResume | done | dropped => cases h

theorem Kept.sends (h : Kept s) {c : Nat} {call : Call P} {sending : Sending P} {m : Mailbox P}
    (hc : s.calls[c]? = some call) (hm : s.mailboxes[sending.session]? = some m)
    (hpushed : Pushed s c call sending m) {s' : State P}
    (hmailboxes : s'.mailboxes = receives s.mailboxes sending.session ⟨sending.event, c⟩)
    (hcalls : s'.calls = (s.setPhase c sending.accepted).calls)
    (hmanager : s'.sessionManager = s.sessionManager) : Kept s' := by
  have hrequests : s'.requests = s.requests := by
    rw [State.requests, hcalls]
    exact requests_setPhase s c sending.accepted
  have hpushers := pushers_receives hm ⟨sending.event, c⟩
  have hpusher : ∀ c', c' ∈ (⟨sending.event, c⟩ : Queued P).pusher? →
      c' = c ∧ c ∉ pushers s.mailboxes := by
    intro c' hc'
    obtain ⟨message, hmessage, rfl⟩ := Option.map_eq_some_iff.mp hc'
    exact ⟨rfl, hpushed.fresh message hmessage⟩
  refine ⟨fun c' call' hcall' => ?_, fun m' hm' => ?_, fun id i hget => ?_, fun c' hc' => ?_, ?_⟩
  · rw [hcalls] at hcall'
    obtain ⟨call₁, hcall₁, hrequest, hphase⟩ := getElem?_setPhase hcall'
    rw [hrequest, hphase, hmailboxes]
    split
    · next heq =>
      subst heq
      obtain rfl := Option.some.inj (hc.symm.trans hcall₁)
      exact hpushed.phase
    · next hne =>
      refine (h.calls c' call₁ hcall₁).mono (fun i m₁ hm₁ => ?_) ?_
      · obtain ⟨m', hm', hid, hcreator, haccepted⟩ :=
          receives_grows hm₁ sending.session ⟨sending.event, c⟩
        refine ⟨m', hm', hid, hcreator, haccepted.imp_right ?_⟩
        rintro ⟨rfl, heq⟩
        obtain rfl := Option.some.inj (hm.symm.trans hm₁)
        refine ⟨heq ▸ List.concat_ne_nil _ _, fun hc' hempty => ?_⟩
        -- only the call that has created the session sends its first event
        exact hne ((hpushed.others hempty).symm.trans hc')
      · rw [mem_pushers_receives hm]
        exact or_iff_left fun hnew => hne (hpusher c' hnew).1.symm
  · rw [hrequests]
    rw [hmailboxes] at hm'
    obtain ⟨j, hj⟩ := List.mem_iff_getElem?.mp hm'
    obtain ⟨m₁, hm₁, rfl⟩ := mailbox_receives hj
    split
    · next heq =>
      subst heq
      obtain rfl := Option.some.inj (hm.symm.trans hm₁)
      exact hpushed.ok
    · exact h.mailboxes m₁ (List.mem_of_getElem? hm₁)
  · rw [hmanager] at hget
    obtain ⟨m₁, hm₁, hid, hne⟩ := h.manager id i hget
    rw [hmailboxes]
    obtain ⟨m', hm', hid', -, haccepted⟩ :=
      receives_grows hm₁ sending.session ⟨sending.event, c⟩
    refine ⟨m', hm', hid'.trans hid, ?_⟩
    rcases haccepted with heq | ⟨-, heq⟩
    · exact heq ▸ hne
    · exact heq ▸ List.concat_ne_nil _ _
  · rw [hmailboxes, mem_pushers_receives hm] at hc'
    have hlength : s'.calls.length = s.calls.length := by
      rw [hcalls]
      simp [State.setPhase]
    rw [hlength]
    rcases hc' with hold | hnew
    · exact h.pushers_lt c' hold
    · rw [(hpusher c' hnew).1]
      exact (List.getElem?_eq_some_iff.mp hc).1
  · rw [hmailboxes, hpushers.nodup_iff]
    refine List.nodup_append'.mpr ⟨h.pushers_nodup, ?_, fun c' hold hnew => ?_⟩
    · cases (⟨sending.event, c⟩ : Queued P).pusher? <;> simp
    · obtain ⟨rfl, hfresh⟩ := hpusher c' (Option.mem_toList.mp hnew)
      exact hfresh hold

end Pushing

/-! ### New calls -/

section Arriving

variable {s : State P}

theorem getElem?_concat_cases {α : Type} {l : List α} {a b : α} {i : Nat}
    (h : (l ++ [a])[i]? = some b) : l[i]? = some b ∨ (i = l.length ∧ b = a) := by
  rw [List.getElem?_append] at h
  split at h
  · exact .inl h
  · obtain ⟨hi, rfl⟩ := List.getElem?_eq_some_iff.mp h
    rw [List.length_singleton] at hi
    exact .inr ⟨by omega, List.getElem_singleton _⟩

theorem getElem?_append_of_eq_some {α : Type} {l l' : List α} {a : α} {i : Nat}
    (h : l[i]? = some a) : (l ++ l')[i]? = some a := by
  rw [List.getElem?_append_left (List.getElem?_eq_some_iff.mp h).1]
  exact h

theorem Mailbox.Ok.mono {requests requests' : List (HttpRequest P)} {m : Mailbox P}
    (h : m.Ok requests) : m.Ok (requests ++ requests') := by
  refine ⟨fun queued hmem => ?_, fun queued hmem => ?_⟩
  · obtain ⟨message, hevent, hcall, hrequest⟩ := h.first queued hmem
    exact ⟨message, hevent, hcall, getElem?_append_of_eq_some hrequest⟩
  · obtain ⟨hinitializes, hclose, hposts⟩ := h.later queued hmem
    refine ⟨hinitializes, hclose, fun message hmessage => ?_⟩
    obtain ⟨request, hrequest, hto⟩ := hposts message hmessage
    exact ⟨request, getElem?_append_of_eq_some hrequest, hto⟩

theorem Kept.append_call (h : Kept s) {request : HttpRequest P} {phase : Phase P}
    (hphase : PhaseOk s.mailboxes s.calls.length request phase) :
    Kept { s with calls := s.calls ++ [⟨request, phase⟩] } where
  calls c call hc := by
    rcases getElem?_concat_cases hc with hold | ⟨rfl, rfl⟩
    · exact h.calls c call hold
    · exact hphase
  mailboxes m hm := by
    have hrequests : State.requests { s with calls := s.calls ++ [⟨request, phase⟩] } =
        s.requests ++ [request] := List.map_append
    rw [hrequests]
    exact (h.mailboxes m hm).mono
  manager := h.manager
  pushers_lt c hc := by
    rw [List.length_append]
    exact Nat.lt_add_right 1 (h.pushers_lt c hc)
  pushers_nodup := h.pushers_nodup

/-- `post_handler` creates a session. -/
theorem Kept.append_session (h : Kept s) (id : SessionId) (creator : Nat) :
    Kept { s with sessions := s.sessions ++ [.create id creator] } := by
  have hmailboxes : State.mailboxes { s with sessions := s.sessions ++ [.create id creator] } =
      s.mailboxes ++ [⟨id, creator, []⟩] := List.map_append
  have hpushers : pushers (s.mailboxes ++ [⟨id, creator, []⟩]) = pushers s.mailboxes := by
    simp [pushers, Mailbox.pushes]
  refine ⟨fun c call hc => ?_, fun m hm => ?_, fun id' i hget => ?_, fun c hc => ?_, ?_⟩
  · rw [hmailboxes]
    refine (h.calls c call hc).mono (fun i m hm => ?_) (by rw [hpushers])
    exact ⟨m, getElem?_append_of_eq_some hm, rfl, rfl, .inl rfl⟩
  · rw [hmailboxes] at hm
    rcases List.mem_append.mp hm with hold | hnew
    · exact h.mailboxes m hold
    · obtain rfl := List.mem_singleton.mp hnew
      exact ⟨fun queued hmem => (by cases hmem), fun queued hmem => (by cases hmem)⟩
  · rw [hmailboxes]
    obtain ⟨m, hm, hid, hne⟩ := h.manager id' i hget
    exact ⟨m, getElem?_append_of_eq_some hm, hid, hne⟩
  · rw [hmailboxes, hpushers] at hc
    exact h.pushers_lt c hc
  · rw [hmailboxes, hpushers]
    exact h.pushers_nodup

theorem Kept.remove (h : Kept s) (id : SessionId) :
    Kept { s with sessionManager := s.sessionManager.remove id } := by
  refine ⟨h.calls, h.mailboxes, fun id' i hget => h.manager id' i ?_, h.pushers_lt, h.pushers_nodup⟩
  rw [HashMap.get_remove] at hget
  split at hget
  · cases hget
  · exact hget

theorem Kept.insert (h : Kept s) {id : SessionId} {i : Nat} {m : Mailbox P}
    (hm : s.mailboxes[i]? = some m) (hid : m.id = id) (hne : m.accepted ≠ []) :
    Kept { s with sessionManager := s.sessionManager.insert id i } := by
  refine ⟨h.calls, h.mailboxes, fun id' i' hget => ?_, h.pushers_lt, h.pushers_nodup⟩
  rw [HashMap.get_insert] at hget
  split at hget
  · next heq =>
    obtain rfl := Option.some.inj hget
    exact ⟨m, hm, hid.trans heq.symm, hne⟩
  · exact h.manager id' i' hget

theorem Kept.fresh (h : Kept s) : s.calls.length ∉ pushers s.mailboxes :=
  fun hmem => Nat.lt_irrefl _ (h.pushers_lt _ hmem)

theorem Kept.postHandler (h : Kept s) (drawn : SessionId) (sessionId : Option HeaderValue)
    (message : ClientJsonRpcMessage P) {phase : Phase P} {s' : State P}
    (hs : s.postHandler drawn sessionId message = (phase, s')) :
    Kept s' ∧ s'.calls = s.calls ∧
      PhaseOk s'.mailboxes s.calls.length (.post sessionId message) phase := by
  unfold State.postHandler at hs
  split at hs
  · next value =>
    split at hs
    · cases hs
      exact ⟨h, rfl, fun hsucceeds => by cases hsucceeds⟩
    · next id hid =>
      split at hs
      · cases hs
        exact ⟨h, rfl, fun hsucceeds => by cases hsucceeds⟩
      · next session hget =>
        obtain ⟨m, hm, rfl, hne⟩ := h.manager id session hget
        split at hs <;> cases hs
        all_goals exact ⟨h, rfl, m, hm, hne, ⟨value, rfl, hid⟩, h.fresh⟩
  · split at hs <;> cases hs
    · have hnew := h.append_session drawn s.calls.length
      refine ⟨hnew, rfl, ⟨drawn, s.calls.length, []⟩, ?_, rfl, rfl, rfl, hnew.fresh⟩
      simp [State.mailboxes, Slot.mailbox, Slot.create, Chan.new, Chan.accepted]
    · exact ⟨h, rfl, fun hsucceeds => by cases hsucceeds⟩

theorem Kept.getHandler (h : Kept s) (sessionId lastEventId : Option HeaderValue) :
    PhaseOk s.mailboxes s.calls.length (.get sessionId lastEventId)
      (s.getHandler sessionId lastEventId) := by
  unfold State.getHandler
  split
  · exact fun hsucceeds => by cases hsucceeds
  · next id hid =>
    split
    · exact fun hsucceeds => by cases hsucceeds
    · next session hget =>
      obtain ⟨m, hm, -, hne⟩ := h.manager id session hget
      split
      · split
        · exact ⟨m, hm, hne, rfl⟩
        · exact fun hsucceeds => by cases hsucceeds
      · exact ⟨m, hm, hne, rfl⟩

theorem Kept.deleteHandler (h : Kept s) (sessionId : Option HeaderValue) {phase : Phase P}
    {s' : State P} (hs : s.deleteHandler sessionId = (phase, s')) :
    Kept s' ∧ s'.calls = s.calls ∧
      PhaseOk s'.mailboxes s.calls.length (.delete sessionId) phase := by
  unfold State.deleteHandler at hs
  split at hs
  · cases hs
    exact ⟨h, rfl, fun hsucceeds => by cases hsucceeds⟩
  · split at hs
    · cases hs
      exact ⟨h, rfl, fun hsucceeds => by cases hsucceeds⟩
    · next id hid =>
      split at hs
      · cases hs
        exact ⟨h, rfl, fun hsucceeds => by cases hsucceeds⟩
      · next session hget =>
        cases hs
        obtain ⟨m, hm, -, hne⟩ := h.manager id session hget
        exact ⟨h.remove id, rfl, m, hm, hne, rfl⟩

theorem Kept.arrives (h : Kept s) (request : HttpRequest P) (drawn : SessionId) {phase : Phase P}
    {s' : State P} (hs : s.handler drawn request = (phase, s')) :
    Kept { s' with calls := s'.calls ++ [⟨request, phase⟩] } := by
  have hall : Kept s' ∧ s'.calls = s.calls ∧
      PhaseOk s'.mailboxes s.calls.length request phase := by
    cases request with
    | post sessionId message => exact h.postHandler drawn sessionId message hs
    | get sessionId lastEventId =>
      cases hs
      exact ⟨h, rfl, h.getHandler sessionId lastEventId⟩
    | delete sessionId => exact h.deleteHandler sessionId hs
  obtain ⟨hkept, hcalls, hphase⟩ := hall
  exact hkept.append_call (hcalls ▸ hphase)

end Arriving

/-! ## Every step -/

section Steps

variable {s s' : State P}

/-- The sessions of a server are sound, and its calls are where they should be. -/
structure Orderly (s : State P) : Prop where
  sound : ∀ slot ∈ s.sessions, slot.Sound
  kept : Kept s

theorem mailboxes_getElem? {i : Nat} {slot : Slot P} (h : s.sessions[i]? = some slot) :
    s.mailboxes[i]? = some slot.mailbox := by
  simp [State.mailboxes, h]

theorem sound_set (h : ∀ slot ∈ s.sessions, slot.Sound) {i : Nat} {slot : Slot P}
    (hslot : slot.Sound) : ∀ slot' ∈ (s.set i slot).sessions, slot'.Sound := by
  intro slot' hmem
  rcases List.mem_or_eq_of_mem_set hmem with hold | rfl
  · exact h slot' hold
  · exact hslot

/-- A worker gets on, and no call takes notice. -/
theorem Orderly.set (h : Orderly s) {i : Nat} {slot slot' : Slot P}
    (hslot : s.sessions[i]? = some slot) (hsound : slot'.Sound)
    (hmailbox : slot'.mailbox = slot.mailbox) : Orderly (s.set i slot') :=
  ⟨sound_set h.sound hsound, h.kept.set hslot hmailbox⟩

theorem Orderly.setPhase (h : Orderly s) {c : Nat} {call : Call P} {phase : Phase P}
    (hc : s.calls[c]? = some call) (hphase : PhaseOk s.mailboxes c call.request phase) :
    Orderly (s.setPhase c phase) :=
  ⟨h.sound, h.kept.setPhase hc hphase⟩

/-- The reply of a worker leaves a call where it may be. -/
theorem PhaseOk.replied {mailboxes : List (Mailbox P)} {c : Nat} {request : HttpRequest P}
    {phase : Phase P} (h : PhaseOk mailboxes c request phase) (reply : Reply) :
    PhaseOk mailboxes c request (phase.replied reply) := by
  cases phase with
  | awaitsChannel i message =>
    cases reply with
    | receiver result =>
      cases result with
      | ok receiver => exact h
      | error error => exact fun hsucceeds => by cases hsucceeds
    | nothing | done => exact h
  | awaitsResume i context =>
    cases reply with
    | receiver result =>
      cases result with
      | ok receiver =>
        obtain ⟨m, -, -, hget⟩ := h
        exact fun _ hpost => by rw [hget] at hpost; cases hpost
      | error error => exact fun hsucceeds => by cases hsucceeds
    | nothing | done => exact h
  | awaitsInitialize i => exact fun hsucceeds => by cases hsucceeds
  | _ => exact h

theorem sessions_handler (s : State P) (drawn : SessionId) (request : HttpRequest P) :
    (s.handler drawn request).2.sessions = s.sessions ∨
      ∃ creator, (s.handler drawn request).2.sessions = s.sessions ++ [.create drawn creator] := by
  cases request with
  | post sessionId message =>
    simp only [State.handler, State.postHandler]
    split
    · split
      · exact .inl rfl
      · split
        · exact .inl rfl
        · split <;> exact .inl rfl
    · split
      · exact .inr ⟨_, rfl⟩
      · exact .inl rfl
  | get sessionId lastEventId => exact .inl rfl
  | delete sessionId =>
    simp only [State.handler, State.deleteHandler]
    split
    · exact .inl rfl
    · split
      · exact .inl rfl
      · split <;> exact .inl rfl

theorem Orderly.arrives (h : Orderly s) {request : HttpRequest P} {drawn : SessionId}
    {phase : Phase P} (hhandler : s.handler drawn request = (phase, s')) :
    Orderly { s' with calls := s'.calls ++ [⟨request, phase⟩] } := by
  have hsessions := sessions_handler s drawn request
  rw [hhandler] at hsessions
  refine ⟨fun slot hmem => ?_, h.kept.arrives request drawn hhandler⟩
  rcases hsessions with heq | ⟨creator, heq⟩
  · exact h.sound slot (heq ▸ hmem)
  · rcases List.mem_append.mp (heq ▸ hmem : slot ∈ s.sessions ++ _) with hold | hnew
    · exact h.sound slot hold
    · obtain rfl := List.mem_singleton.mp hnew
      exact Slot.sound_create drawn creator

theorem mailboxes_set (s : State P) {i : Nat} {slot slot' : Slot P}
    (hslot : s.sessions[i]? = some slot) {queued : Queued P}
    (hmailbox : slot'.mailbox =
      ⟨slot.id, slot.creator, slot.events.accepted ++ [queued]⟩) :
    (s.set i slot').mailboxes = receives s.mailboxes i queued := by
  refine List.ext_getElem? fun j => ?_
  obtain ⟨hi, rfl⟩ := List.getElem?_eq_some_iff.mp hslot
  simp only [State.mailboxes, State.set, receives, List.map_set, hmailbox, List.getElem?_set,
    List.getElem?_modify, List.length_map, List.getElem?_map]
  split
  · next heq =>
    subst heq
    simp [hi, Slot.mailbox]
  · cases s.sessions[j]? <;> simp

/-- What the worker of a session takes is in its channel. -/
theorem Orderly.takes (h : Orderly s) {i : Nat} {slot slot' : Slot P} {queued : Queued P}
    (hslot : s.sessions[i]? = some slot) (hhead : slot.events.backlog.head? = some queued)
    (hact : { slot with events := slot.events.receive }.act (.httpService queued.event) =
      some slot') : Orderly (s.set i slot') := by
  have hsound := h.sound slot (List.mem_of_getElem? hslot)
  refine h.set hslot (hsound.takes hhead hact) ((Slot.mailbox_act hact).trans ?_)
  simp [Slot.mailbox]

/-- The worker of a session gets on without an event. -/
theorem Orderly.act (h : Orderly s) {i : Nat} {slot slot' : Slot P} {a : Session.Action P}
    (hslot : s.sessions[i]? = some slot) (ha : a.event? = none)
    (hact : slot.act a = some slot') : Orderly (s.set i slot') :=
  h.set hslot ((h.sound slot (List.mem_of_getElem? hslot)).act ha hact) (Slot.mailbox_act hact)

theorem awaits_of_any {call? : Option (Call P)} {i : Nat}
    (h : call?.any (·.phase.awaitsInitializeOf i) = true) :
    ∃ call, call? = some call ∧ call.phase = .awaitsInitialize i := by
  obtain ⟨call, rfl, hawaits⟩ := (Option.any_eq_true ..).mp h
  refine ⟨call, rfl, ?_⟩
  unfold Phase.awaitsInitializeOf at hawaits
  split at hawaits
  · next hphase => rw [hphase, eq_of_beq hawaits]
  · cases hawaits

theorem orderly_step {a : Action P} (h : Orderly s) (hs : step s a = some s') : Orderly s' := by
  cases step_spec hs with
  | arrives hhandler => exact h.arrives hhandler
  | sends hc hsends hslot hsend =>
    have hsound := h.sound _ (List.mem_of_getElem? hslot)
    have haccepted := Chan.accepted_send hsound.valid hsend
    refine ⟨sound_set h.sound (hsound.send hsend), ?_⟩
    obtain ⟨m, hm, hpushed⟩ := h.kept.pushed hc hsends
    refine h.kept.sends hc hm hpushed (mailboxes_set s hslot ?_) rfl rfl
    simp [Slot.mailbox, haccepted]
  | refused hc hsends hslot hsend =>
    have hsound := h.sound _ (List.mem_of_getElem? hslot)
    have haccepted := Chan.accepted_send hsound.valid hsend
    have hset := h.set hslot (hsound.send hsend) (by simp [Slot.mailbox, haccepted])
    refine hset.setPhase hc fun hsucceeds => ?_
    rw [refused_of_sends? hsends] at hsucceeds
    cases hsucceeds
  | @unanswered c i call response slot hc hawaits hslot =>
    refine h.setPhase hc fun hsucceeds => ?_
    cases hp : call.phase <;> rw [hp] at hawaits <;> cases hawaits <;> cases hsucceeds
  | @registers c i call body slot hc hp hslot =>
    have hphase := h.kept.calls c call hc
    rw [hp] at hphase
    obtain ⟨m, hm, hne, hpusher⟩ := hphase
    obtain rfl := Option.some.inj ((mailboxes_getElem? hslot).symm.trans hm)
    have hkept := h.kept.insert (mailboxes_getElem? hslot) rfl hne
    exact ⟨h.sound, hkept.setPhase hc fun _ _ => hpusher⟩
  | hangsUp hc => exact h.setPhase hc trivial
  | serves hslot hworker =>
    exact h.set hslot ((h.sound _ (List.mem_of_getElem? hslot)).serve hworker) rfl
  | discards hslot hworker =>
    exact h.set hslot ((h.sound _ (List.mem_of_getElem? hslot)).discard hworker)
      (by simp [Slot.mailbox])
  | takes hslot hhead hact => exact h.takes hslot hhead hact
  | @replies i slot slot' queued reply call hslot hhead hact hreply hc =>
    have hset := h.takes hslot hhead hact
    exact hset.setPhase hc ((hset.kept.calls _ call hc).replied reply)
  | relays hslot hact => exact h.act hslot rfl hact
  | answers hslot hact hwaits =>
    have hset := h.act hslot rfl hact
    obtain ⟨call, hc, hphase⟩ := awaits_of_any hwaits
    have hok := hset.kept.calls _ call hc
    rw [hphase] at hok
    exact hset.setPhase hc hok
  | abandoned hslot _ hact => exact h.act hslot rfl hact
  | @acts i slot slot' a hslot hloop hact =>
    have hevent : a.event? = none := by
      cases a <;> first | rfl | cases hloop
    exact h.act hslot hevent hact
  | stopsServing =>
    exact ⟨h.sound, ⟨h.kept.calls, h.kept.mailboxes, h.kept.manager, h.kept.pushers_lt,
      h.kept.pushers_nodup⟩⟩

theorem orderly_of_run {as : List (Action P)} (hrun : Transition.Run step State.start as s) :
    Orderly s :=
  hrun.invariant (P := fun _ s => Orderly s)
    ⟨fun slot hmem => (by cases hmem), kept_start⟩ fun _ h hs => orderly_step h hs

end Steps

end HttpServer

end Rmcp
