import Rmcp.Session.Run

/-!
# What the service of a session is given

The loop of a session takes events and passes their messages on to the service: that of the first
event, which is the initialize request, and those of all client messages. Another initialize
request is ignored.

Results:
1. `given_of_run`: the service is given the messages of the events that the loop has taken.
-/

namespace Rmcp.Session

variable {P : Payloads} {config : SessionConfig}

def Action.event? : Action P → Option (SessionEvent P)
  | .httpService event => some event
  | _ => none

/-- The events that the loop has taken. -/
def takenEvents (as : List (Action P)) : List (SessionEvent P) := as.filterMap Action.event?

def SessionEvent.message? : SessionEvent P → Option (ClientJsonRpcMessage P)
  | .clientMessage message _ | .initializeRequest message => some message
  | _ => none

def SessionEvent.initializes : SessionEvent P → Bool
  | .initializeRequest _ => true
  | _ => false

/-- The message that a step passes on to the service; the loop ignores an initialize request. -/
def State.gives? : State P → Action P → Option (ClientJsonRpcMessage P)
  | .awaitInitialize _, a => a.event?.bind (·.message?)
  | .running _, .httpService (.clientMessage message _) => some message
  | _, _ => none

/-- The channel to the service after it was given `m`, or nothing. -/
def Gives (c : Chan (ClientJsonRpcMessage P)) (m : Option (ClientJsonRpcMessage P))
    (c' : Chan (ClientJsonRpcMessage P)) : Prop :=
  c.Valid → c'.Valid ∧ c'.accepted = c.accepted ++ m.toList

theorem Gives.refl (c : Chan (ClientJsonRpcMessage P)) : Gives c none c :=
  fun hc => ⟨hc, (List.append_nil _).symm⟩

theorem gives_of_send {c c' : Chan (ClientJsonRpcMessage P)} {m : ClientJsonRpcMessage P}
    (h : c.send m = .ok (true, c')) : Gives c (some m) c' :=
  fun hc => ⟨hc.send h, Chan.accepted_send hc h⟩

theorem Vars.gives_environment {s s' : Vars P} {move : Environment}
    (h : s.environment move = some s') : Gives s.toHandler none s'.toHandler := by
  cases move <;> simp only [environment] at h
  case receive | dropReceiver =>
    split at h <;> cases h
    exact .refl _
  case handlerReceives =>
    cases h
    exact fun hc => ⟨hc.receive, by simp⟩
  case handlerDrops =>
    cases h
    exact fun hc => ⟨hc.close, by simp⟩

theorem Vars.gives_fromHttpService {s s' : Vars P} {event : SessionEvent P} {reply : Reply}
    (h : s.fromHttpService event = .ok (.ok (reply, s'))) :
    Gives s.toHandler ((State.running s).gives? (.httpService event)) s'.toHandler := by
  cases event with
  | clientMessage message httpRequestId =>
    obtain ⟨⟨ok, toHandler⟩, hsend, h⟩ := Exec.bind_eq_ok.mp h
    cases ok <;> cases h
    exact gives_of_send hsend
  | establishRequestWiseChannel | closeRequestWiseChannel | initializeRequest =>
    cases h
    exact .refl _
  | resume lastEventId =>
    obtain ⟨⟨result, worker, channels⟩, -, h⟩ := Exec.bind_eq_ok.mp h
    cases h
    exact .refl _
  | close => cases h

theorem Vars.gives_fromHandler {s s' : Vars P} {message : ServerJsonRpcMessage P}
    {result : Except SessionError Unit} (h : s.fromHandler message = .ok (result, s')) :
    Gives s.toHandler none s'.toHandler := by
  obtain ⟨⟨result₁, worker, channels⟩, -, h⟩ := Exec.bind_eq_ok.mp h
  cases h
  exact .refl _

/-- A turn of the loop after which it goes on. -/
theorem turn_of_after {α : Type} {turn : Exec (Except WorkerQuitReason (α × Vars P))} {st : State P}
    {s : Vars P} (h : State.after (turn.map (·.map (·.2))) = some st) (hs : st.vars? = some s) :
    ∃ a, turn = .ok (.ok (a, s)) := by
  have hturn := State.after_vars? h hs
  rcases turn with e | reason | ⟨a, s₁⟩ <;> cases hturn
  exact ⟨a, rfl⟩

theorem step_gives {st st' : State P} {a : Action P} {s' : Vars P} (h : step st a = some st')
    (hs' : st'.vars? = some s') :
    ∃ s, st.vars? = some s ∧ Gives s.toHandler (st.gives? a) s'.toHandler := by
  unfold step at h
  split at h
  case h_1 s request =>
    split at h <;> cases h <;> cases hs'
    next hsend => exact ⟨s, rfl, gives_of_send hsend⟩
  case h_4 s move =>
    obtain ⟨t, ht, rfl⟩ := Option.map_eq_some_iff.mp h
    cases hs'
    exact ⟨s, rfl, Vars.gives_environment ht⟩
  case h_5 =>
    split at h
    · cases h
      cases hs'
    · split at h <;> cases h <;> cases hs'
      exact ⟨s', rfl, .refl _⟩
  case h_7 s move =>
    obtain ⟨t, ht, rfl⟩ := Option.map_eq_some_iff.mp h
    cases hs'
    exact ⟨s, rfl, Vars.gives_environment ht⟩
  case h_8 s event =>
    obtain ⟨reply, hevent⟩ := turn_of_after h hs'
    exact ⟨s, rfl, Vars.gives_fromHttpService hevent⟩
  case h_10 s message =>
    have hturn := State.after_vars? h hs'
    rcases hmessage : s.fromHandler message with e | ⟨result, s₁⟩ <;> rw [hmessage] at hturn <;>
      cases hturn
    exact ⟨s, rfl, Vars.gives_fromHandler hmessage⟩
  case h_13 s move =>
    obtain ⟨t, ht, rfl⟩ := Option.map_eq_some_iff.mp h
    cases hs'
    exact ⟨s, rfl, Vars.gives_environment ht⟩
  all_goals cases h <;> cases hs'

/-- The loop has taken its first event. -/
def State.Begun : State P → List (SessionEvent P) → Prop
  | .awaitInitialize _, events => events = []
  | _, events => events ≠ []

theorem begun_step {st st' : State P} {a : Action P} {s' : Vars P}
    {events : List (SessionEvent P)} (h : step st a = some st') (hs' : st'.vars? = some s')
    (hbegun : st.Begun events) : st'.Begun (events ++ a.event?.toList) := by
  unfold step at h
  split at h
  case h_1 =>
    split at h <;> cases h <;> cases hs'
    exact List.append_ne_nil_of_right_ne_nil _ (List.cons_ne_nil _ _)
  case h_4 =>
    obtain ⟨t, -, rfl⟩ := Option.map_eq_some_iff.mp h
    exact (List.append_nil events).trans hbegun
  case h_5 =>
    split at h
    · cases h
      cases hs'
    · split at h <;> cases h <;> cases hs'
      exact List.append_ne_nil_of_left_ne_nil hbegun _
  case h_7 =>
    obtain ⟨t, -, rfl⟩ := Option.map_eq_some_iff.mp h
    exact List.append_ne_nil_of_left_ne_nil hbegun _
  case h_8 | h_10 =>
    unfold State.after at h
    split at h <;> cases h <;> cases hs'
    exact List.append_ne_nil_of_left_ne_nil hbegun _
  case h_13 =>
    obtain ⟨t, -, rfl⟩ := Option.map_eq_some_iff.mp h
    exact List.append_ne_nil_of_left_ne_nil hbegun _
  all_goals cases h <;> cases hs'

/-- A step passes the message of its event on, unless the loop ignores it. -/
theorem gives?_eq {st st' : State P} {a : Action P} {events : List (SessionEvent P)}
    (h : step st a = some st') (hbegun : st.Begun events)
    (hfirst : ∀ event ∈ (events ++ a.event?.toList).tail, event.initializes = false) :
    st.gives? a = a.event?.bind (·.message?) := by
  cases a with
  | httpService event =>
    cases st with
    | awaitInitialize s => rfl
    | running s =>
      cases event with
      | initializeRequest request =>
        rw [List.tail_append_of_ne_nil hbegun] at hfirst
        have hlater := hfirst _ (List.mem_append_right _ List.mem_cons_self)
        exact absurd hlater (by simp [SessionEvent.initializes])
      | _ => rfl
    | awaitInitializeResponse | quit | panicked => cases h
  | _ => cases st <;> rfl

theorem takenEvents_concat (as : List (Action P)) (a : Action P) :
    takenEvents (as ++ [a]) = takenEvents as ++ a.event?.toList := by
  cases h : a.event? <;> simp [takenEvents, h]

/-- When no initialize request follows the first event, the service is given the messages of the
events that the loop has taken. -/
theorem given_of_run {as : List (Action P)} {st : State P}
    (hrun : Transition.Run step (.awaitInitialize (start P config)) as st)
    (hfirst : ∀ event ∈ (takenEvents as).tail, event.initializes = false) {s : Vars P}
    (hs : st.vars? = some s) :
    s.toHandler.accepted = (takenEvents as).filterMap (·.message?) := by
  suffices hall : st.Begun (takenEvents as) ∧ s.toHandler.Valid ∧
      s.toHandler.accepted = (takenEvents as).filterMap (·.message?) from hall.2.2
  refine hrun.invariant (P := fun as st => (∀ event ∈ (takenEvents as).tail,
    event.initializes = false) → ∀ s, st.vars? = some s → st.Begun (takenEvents as) ∧
      s.toHandler.Valid ∧ s.toHandler.accepted = (takenEvents as).filterMap (·.message?))
    ?_ ?_ hfirst s hs
  · rintro - s hs
    cases hs
    exact ⟨rfl, Chan.valid_new _, rfl⟩
  intro as st st' a _ ih hst hfirst s' hs'
  rw [takenEvents_concat] at hfirst ⊢
  obtain ⟨s, hs, hgives⟩ := step_gives hst hs'
  have hbefore : ∀ event ∈ (takenEvents as).tail, event.initializes = false := by
    intro event hevent
    refine hfirst event ?_
    cases htaken : takenEvents as with
    | nil => simp [htaken] at hevent
    | cons e es =>
      rw [htaken] at hevent
      exact List.mem_append_left _ hevent
  obtain ⟨hbegun, hvalid, haccepted⟩ := ih hbefore s hs
  obtain ⟨hvalid', haccepted'⟩ := hgives hvalid
  refine ⟨begun_step hst hs' hbegun, hvalid', ?_⟩
  rw [haccepted', haccepted, gives?_eq hst hbegun hfirst, List.filterMap_append]
  cases a.event? with
  | none => rfl
  | some event => cases hm : event.message? <;> simp [hm]

end Rmcp.Session
