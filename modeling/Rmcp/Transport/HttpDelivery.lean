import Rmcp.Session.Fresh
import Rmcp.Transport.HttpSessions
import Mathlib.Data.List.Flatten

/-!
# What the services of a server are given

A message that is posted to a server gets to the service of its session once, and in the order in
which it was put into the channel of that session. A client that waits for one answer before it
posts the next message has them in its own order.

Results:
1. `posts_delivered`: what the service of a session is given, and by which calls.
2. `posts_in_order`: the order of two posts, when the first is answered before the second comes in.
3. `routers_stay_consistent`: no answer is refused in a session whose client reuses nothing.
-/

namespace Rmcp.HttpServer

open Session

variable {P : Payloads}

/-! ## What a session is given -/

/-- The first message is of the call that has created the session, and the others are of calls
that post to it. -/
def AllPosted (requests : List (HttpRequest P)) (m : Mailbox P) :
    List (Nat × ClientJsonRpcMessage P) → Prop
  | [] => True
  | (c, message) :: later =>
    c = m.creator ∧ requests[c]? = some (.post none message) ∧
      ∀ p ∈ later, ∃ request, requests[p.1]? = some request ∧ PostsTo request m.id p.2

theorem Mailbox.Ok.allPosted {requests : List (HttpRequest P)} {m : Mailbox P}
    (h : m.Ok requests) : AllPosted requests m m.pushes := by
  unfold Mailbox.pushes
  have hlater := h.later
  cases haccepted : m.accepted with
  | nil => exact trivial
  | cons queued later =>
    rw [haccepted] at hlater
    obtain ⟨message, hevent, hcall, hrequest⟩ := h.first queued (by rw [haccepted]; rfl)
    rw [List.filterMap_cons, hevent]
    refine ⟨hcall, hcall ▸ hrequest, fun p hp => ?_⟩
    obtain ⟨queued', hmem, hp⟩ := List.mem_filterMap.mp hp
    obtain ⟨message', hmessage, rfl⟩ := Option.map_eq_some_iff.mp hp
    exact (hlater queued' hmem).2.2 message' hmessage

/-- The messages that wait in the channel of a session. -/
def Slot.waiting (slot : Slot P) : List (ClientJsonRpcMessage P) :=
  slot.events.backlog.filterMap (·.event.message?)

theorem Mailbox.messages_eq (m : Mailbox P) :
    m.pushes.map (·.2) = m.accepted.filterMap (·.event.message?) := by
  rw [pushes, List.map_filterMap]
  refine List.filterMap_congr fun queued _ => ?_
  cases queued.event.message? <;> rfl

/-- No initialize request follows the first event that the loop has taken. -/
theorem initializes_of_taken {slot : Slot P} {requests : List (HttpRequest P)}
    (hsound : slot.Sound) (hok : slot.mailbox.Ok requests) :
    ∀ event ∈ (takenEvents slot.actions).tail, event.initializes = false := by
  intro event hevent
  rw [hsound.taken, ← List.map_tail] at hevent
  obtain ⟨queued, hmem, rfl⟩ := List.mem_map.mp hevent
  exact (hok.later queued ((List.take_sublist _ _).tail.mem hmem)).1

/-- What the service of a session was given, and what waits for it, is what was pushed. -/
theorem Slot.Sound.given {slot : Slot P} {requests : List (HttpRequest P)} (h : slot.Sound)
    (hok : slot.mailbox.Ok requests) {session : Session.State P} {v : Vars P}
    (hworker : slot.worker = .running session) (hv : session.vars? = some v) :
    v.toHandler.accepted ++ slot.waiting = slot.mailbox.pushes.map (·.2) := by
  rw [given_of_run (h.run session hworker) (initializes_of_taken h hok) hv, h.taken,
    Mailbox.messages_eq, List.filterMap_map]
  calc (slot.events.accepted.take slot.events.taken).filterMap (·.event.message?) ++ slot.waiting
      = (slot.events.accepted.take slot.events.taken ++
          slot.events.accepted.drop slot.events.taken).filterMap (·.event.message?) := by
        rw [List.filterMap_append]
        rfl
    _ = slot.events.accepted.filterMap (·.event.message?) := by rw [List.take_append_drop]

/-- In every run of a server: a call pushes one message at most, to one session; a post that
succeeds has pushed its own; and as long as the loop of a session goes on, its service was given
what the calls have pushed to it, in order, but what still waits in the channel. -/
theorem posts_delivered {as : List (Action P)} {s : State P}
    (hrun : Transition.Run step State.start as s) :
    (pushers s.mailboxes).Nodup ∧
      (∀ c call response, s.calls[c]? = some call → call.phase = .done response →
        response.succeeds = true → call.request.isPost = true → c ∈ pushers s.mailboxes) ∧
      ∀ slot ∈ s.sessions, AllPosted s.requests slot.mailbox slot.mailbox.pushes ∧
        ∀ session v, slot.worker = .running session → session.vars? = some v →
          Transition.Run Session.step (.awaitInitialize (Session.start P .default)) slot.actions
              session ∧
            v.toHandler.accepted ++ slot.waiting = slot.mailbox.pushes.map (·.2) := by
  have horderly := orderly_of_run hrun
  refine ⟨horderly.kept.pushers_nodup, fun c call response hc hphase hsucceeds hpost => ?_,
    fun slot hslot => ?_⟩
  · have hok := horderly.kept.calls c call hc
    rw [hphase] at hok
    exact hok hsucceeds hpost
  · have hsound := horderly.sound slot hslot
    have hok := horderly.kept.mailboxes slot.mailbox (List.mem_map_of_mem hslot)
    exact ⟨hok.allPosted, fun session v hworker hv =>
      ⟨hsound.run session hworker, hsound.given hok hworker hv⟩⟩

/-- A client opens a session, and posts a request to it. -/
def requestedRun : List (Action bare) :=
  [.arrives (.post none (.request ⟨.number 0, Meta.staticEmpty⟩)) "s", .sends 0, .serves 0,
    .takes 0, .relays 0 (answer 0) true, .registers 0,
    .arrives (.post (some ⟨[115]⟩) (.request ⟨.number 1, Meta.staticEmpty⟩)) "", .sends 1,
    .takes 0, .sends 1]

/-- It posts an answer as well, which waits in the channel when the loop takes the request. -/
def answeringRun : List (Action bare) :=
  [.arrives (.post (some ⟨[115]⟩) (.response ⟨.number 0, ()⟩)) "", .sends 2, .takes 0]

theorem posts_delivered_requestedRun : ∃ (s : State bare) (slot : Slot bare) (v : Vars bare),
    Transition.Run step State.start (requestedRun ++ answeringRun) s ∧ slot ∈ s.sessions ∧
    slot.worker = .running (.running v) ∧ slot.mailbox.pushes.map (·.1) = [0, 1, 2] ∧
    slot.waiting.length = 1 ∧
    v.toHandler.accepted ++ slot.waiting = slot.mailbox.pushes.map (·.2) := by
  have hrun : ∃ (s : State bare) (slot : Slot bare) (v : Vars bare),
      Transition.Run step State.start (requestedRun ++ answeringRun) s ∧
      s.sessions = [slot] ∧ slot.worker = .running (.running v) ∧
      slot.mailbox.pushes.map (·.1) = [0, 1, 2] ∧ slot.waiting.length = 1 :=
    ⟨_, _, _, Transition.run_of_exec rfl, rfl, rfl, by decide, by decide⟩
  obtain ⟨s, slot, v, hrun, hsessions, hworker, hpushes, hwaiting⟩ := hrun
  have hslot : slot ∈ s.sessions := by rw [hsessions]; exact List.mem_singleton_self slot
  obtain ⟨-, hgiven⟩ := ((posts_delivered hrun).2.2 slot hslot).2 _ v hworker rfl
  exact ⟨s, slot, v, hrun, hslot, hworker, hpushes, hwaiting, hgiven⟩

/-! ## The order of the posts -/

section Order

variable {s s' : State P}

/-- The sessions stay where they are, and what was put into their channels stays as well. -/
def Grows (mailboxes mailboxes' : List (Mailbox P)) : Prop :=
  ∀ (i : Nat) (m : Mailbox P), mailboxes[i]? = some m →
    ∃ m' : Mailbox P, mailboxes'[i]? = some m' ∧ m.accepted <+: m'.accepted

theorem Grows.refl (mailboxes : List (Mailbox P)) : Grows mailboxes mailboxes :=
  fun _ m hm => ⟨m, hm, List.prefix_rfl⟩

theorem Grows.trans {mailboxes₁ mailboxes₂ mailboxes₃ : List (Mailbox P)}
    (h : Grows mailboxes₁ mailboxes₂) (h' : Grows mailboxes₂ mailboxes₃) :
    Grows mailboxes₁ mailboxes₃ := by
  intro i m₁ hm₁
  obtain ⟨m₂, hm₂, hle⟩ := h i m₁ hm₁
  obtain ⟨m₃, hm₃, hle'⟩ := h' i m₂ hm₂
  exact ⟨m₃, hm₃, hle.trans hle'⟩

theorem grows_append (mailboxes : List (Mailbox P)) (m : Mailbox P) :
    Grows mailboxes (mailboxes ++ [m]) :=
  fun _ m' hm' => ⟨m', getElem?_append_of_eq_some hm', List.prefix_rfl⟩

theorem grows_receives (mailboxes : List (Mailbox P)) (i : Nat) (queued : Queued P) :
    Grows mailboxes (receives mailboxes i queued) := by
  intro j m hm
  obtain ⟨m', hm', -, -, heq | ⟨-, heq⟩⟩ := receives_grows hm i queued
  · exact ⟨m', hm', heq ▸ List.prefix_rfl⟩
  · exact ⟨m', hm', heq ▸ List.prefix_append _ _⟩

theorem grows_set {i : Nat} {slot slot' : Slot P} (hslot : s.sessions[i]? = some slot)
    (hmailbox : slot'.mailbox = slot.mailbox) : Grows s.mailboxes (s.set i slot').mailboxes :=
  mailboxes_set_of_eq hslot hmailbox ▸ .refl _

theorem grows_step (h : Orderly s) {a : Action P} (hs : step s a = some s') :
    Grows s.mailboxes s'.mailboxes := by
  cases step_spec hs with
  | @arrives request drawn phase s₁ hhandler =>
    have hsessions := sessions_handler s drawn request
    rw [hhandler] at hsessions
    show Grows s.mailboxes s₁.mailboxes
    rcases hsessions with heq | ⟨creator, heq⟩
    · rw [State.mailboxes, State.mailboxes, heq]
      exact .refl _
    · rw [State.mailboxes, State.mailboxes, heq, List.map_append]
      exact grows_append _ _
  | @sends c call sending slot events _ _ hslot hsend =>
    have haccepted := Chan.accepted_send (h.sound slot (List.mem_of_getElem? hslot)).valid hsend
    have hmailbox : ({ slot with events } : Slot P).mailbox =
        ⟨slot.id, slot.creator, slot.events.accepted ++ [⟨sending.event, c⟩]⟩ := by
      simp [Slot.mailbox, haccepted]
    exact mailboxes_set s hslot hmailbox ▸ grows_receives _ _ _
  | refused _ _ hslot hsend =>
    have haccepted := Chan.accepted_send (h.sound _ (List.mem_of_getElem? hslot)).valid hsend
    exact grows_set hslot (by simp [Slot.mailbox, haccepted])
  | unanswered | registers | hangsUp | stopsServing => exact .refl _
  | serves hslot | discards hslot => exact grows_set hslot (by simp [Slot.mailbox])
  | takes hslot _ hact | replies hslot _ hact =>
    exact grows_set hslot ((Slot.mailbox_act hact).trans (by simp [Slot.mailbox]))
  | relays hslot hact | answers hslot hact | abandoned hslot _ hact | acts hslot _ hact =>
    exact grows_set hslot (Slot.mailbox_act hact)

theorem grows_of_run (h : Orderly s) {as : List (Action P)} (hrun : Transition.Run step s as s') :
    Grows s.mailboxes s'.mailboxes := by
  refine (hrun.invariant (P := fun _ s' => Orderly s' ∧ Grows s.mailboxes s'.mailboxes)
    ⟨h, .refl _⟩ ?_).2
  intro _ s₁ s₂ a _ ⟨horderly, hgrows⟩ hs
  exact ⟨orderly_step horderly hs, hgrows.trans (grows_step horderly hs)⟩

/-- A call pushes to one session only. -/
theorem mailbox_unique {mailboxes : List (Mailbox P)} (h : (pushers mailboxes).Nodup) {c i j : Nat}
    {m m' : Mailbox P} (hm : mailboxes[i]? = some m) (hm' : mailboxes[j]? = some m')
    (hc : c ∈ m.pushes.map (·.1)) (hc' : c ∈ m'.pushes.map (·.1)) : i = j := by
  by_contra hne
  have hdisjoint := (List.nodup_flatMap.mp h).2
  obtain ⟨hi, rfl⟩ := List.getElem?_eq_some_iff.mp hm
  obtain ⟨hj, rfl⟩ := List.getElem?_eq_some_iff.mp hm'
  rcases Nat.lt_or_gt_of_ne hne with hlt | hlt
  · exact List.pairwise_iff_getElem.mp hdisjoint i j hi hj hlt hc hc'
  · exact List.pairwise_iff_getElem.mp hdisjoint j i hj hi hlt hc' hc

theorem pushes_prefix {m m' : Mailbox P} (h : m.accepted <+: m'.accepted) :
    m.pushes <+: m'.pushes :=
  h.filterMap _

/-- When a post has succeeded before another one comes in, and both are of the same session, then
its message is before that of the other one. The service gets it first, too: given the other one,
it has been given all that was pushed before. -/
theorem posts_in_order {as bs : List (Action P)} {s₁ s : State P}
    (hrun : Transition.Run step State.start as s₁) (hlater : Transition.Run step s₁ bs s)
    {c c' : Nat} {call : Call P} {response : Response P} (hc : s₁.calls[c]? = some call)
    (hphase : call.phase = .done response) (hsucceeds : response.succeeds = true)
    (hpost : call.request.isPost = true) (hc' : s₁.calls.length ≤ c') {slot : Slot P}
    (hslot : slot ∈ s.sessions) {message message' : ClientJsonRpcMessage P}
    (hmem : (c, message) ∈ slot.mailbox.pushes) (hmem' : (c', message') ∈ slot.mailbox.pushes) :
    [(c, message), (c', message')].Sublist slot.mailbox.pushes ∧
    ∃ before after, slot.mailbox.pushes = before ++ (c', message') :: after ∧
      (c, message) ∈ before ∧
      ∀ session v, slot.worker = .running session → session.vars? = some v →
        before.length < v.toHandler.accepted.length →
          before.map (·.2) ++ [message'] <+: v.toHandler.accepted := by
  have h₁ := orderly_of_run hrun
  have hs := orderly_of_run (hrun.append hlater)
  have hpushed : c ∈ pushers s₁.mailboxes := by
    have hok := h₁.kept.calls c call hc
    rw [hphase] at hok
    exact hok hsucceeds hpost
  obtain ⟨m₁, hm₁, hcm₁⟩ := List.mem_flatMap.mp hpushed
  obtain ⟨i, hi⟩ := List.mem_iff_getElem?.mp hm₁
  obtain ⟨m, hm, hprefix⟩ := grows_of_run h₁ hlater i m₁ hi
  obtain ⟨later, hpushes⟩ := pushes_prefix hprefix
  -- the session to which the first call has pushed is the one in question
  have hsame : m = slot.mailbox := by
    obtain ⟨j, hj⟩ := List.mem_iff_getElem?.mp hslot
    have hj' := mailboxes_getElem? hj
    have hcm : c ∈ m.pushes.map (·.1) := by
      rw [← hpushes, List.map_append]
      exact List.mem_append_left _ hcm₁
    obtain rfl := mailbox_unique hs.kept.pushers_nodup hm hj' hcm (List.mem_map_of_mem hmem)
    exact Option.some.inj (hm.symm.trans hj')
  subst hsame
  have hnodup : (slot.mailbox.pushes.map (·.1)).Nodup :=
    (List.nodup_flatMap.mp hs.kept.pushers_nodup).1 _ (List.mem_map_of_mem hslot)
  rw [← hpushes] at hmem hmem' hnodup
  rw [List.map_append] at hnodup
  have hbefore : (c, message) ∈ m₁.pushes :=
    (List.mem_append.mp hmem).resolve_right fun hmem =>
      List.disjoint_of_nodup_append hnodup hcm₁ (List.mem_map_of_mem hmem)
  have hafter : (c', message') ∈ later := by
    refine (List.mem_append.mp hmem').resolve_left fun hmem => ?_
    have hlt : c' < s₁.calls.length :=
      h₁.kept.pushers_lt c' (List.mem_flatMap.mpr ⟨m₁, hm₁, List.mem_map_of_mem hmem⟩)
    exact absurd hlt (Nat.not_lt.mpr hc')
  refine ⟨hpushes ▸ (List.singleton_sublist.mpr hbefore).append
    (List.singleton_sublist.mpr hafter), ?_⟩
  obtain ⟨between, after, rfl⟩ := List.append_of_mem hafter
  rw [← List.append_assoc] at hpushes
  refine ⟨m₁.pushes ++ between, after, hpushes.symm, List.mem_append_left _ hbefore, ?_⟩
  intro session v hworker hv hgot
  have hok := hs.kept.mailboxes slot.mailbox (List.mem_map_of_mem hslot)
  have hgiven := (hs.sound slot hslot).given hok hworker hv
  have hall : (m₁.pushes ++ between).map (·.2) ++ [message'] <+: slot.mailbox.pushes.map (·.2) := by
    rw [← hpushes]
    simp
  refine List.prefix_of_prefix_length_le hall (hgiven ▸ List.prefix_append _ _) ?_
  rw [List.length_append, List.length_map, List.length_singleton]
  exact hgot

/-- The request was answered with a stream before the answer was posted. -/
theorem posts_in_order_requestedRun : ∃ (s₁ s : State bare) (slot : Slot bare)
    (message message' : ClientJsonRpcMessage bare),
    Transition.Run step State.start requestedRun s₁ ∧ Transition.Run step s₁ answeringRun s ∧
    [(1, message), (2, message')].Sublist slot.mailbox.pushes ∧
    ∃ before after, slot.mailbox.pushes = before ++ (2, message') :: after ∧
      (1, message) ∈ before ∧
      ∀ session v, slot.worker = .running session → session.vars? = some v →
        before.length < v.toHandler.accepted.length →
          before.map (·.2) ++ [message'] <+: v.toHandler.accepted := by
  have hrun : ∃ (s₁ s : State bare) (call : Call bare) (receiver : StreamableHttpMessageReceiver)
      (slot : Slot bare) (message message' : ClientJsonRpcMessage bare),
      Transition.Run step State.start requestedRun s₁ ∧ Transition.Run step s₁ answeringRun s ∧
      s₁.calls[1]? = some call ∧ call.phase = .done (.sse 0 receiver) ∧
      call.request.isPost = true ∧ s₁.calls.length = 2 ∧ s.sessions = [slot] ∧
      slot.mailbox.pushes[1]? = some (1, message) ∧
      slot.mailbox.pushes[2]? = some (2, message') :=
    ⟨_, _, _, _, _, _, _, Transition.run_of_exec rfl, Transition.run_of_exec rfl, rfl, rfl, rfl,
      rfl, rfl, rfl, rfl⟩
  obtain ⟨s₁, s, call, receiver, slot, message, message', hrun, hlater, hc, hphase, hpost, hcalls,
    hsessions, hmem, hmem'⟩ := hrun
  have hslot : slot ∈ s.sessions := by rw [hsessions]; exact List.mem_singleton_self slot
  exact ⟨s₁, s, slot, message, message', hrun, hlater, posts_in_order hrun hlater hc hphase rfl
    hpost hcalls.le hslot (List.mem_of_getElem? hmem) (List.mem_of_getElem? hmem')⟩

end Order

/-! ## The routers -/

/-- The ids and the progress tokens that were pushed to a session. -/
def Mailbox.keys (m : Mailbox P) : List ResourceKey := (m.pushes.map (·.2)).flatMap messageKeys

/-- What the calls of a server put into the channel of a session closes no channel of it. -/
theorem Mailbox.Ok.closes_nothing {requests : List (HttpRequest P)} {m : Mailbox P}
    (h : m.Ok requests) {queued : Queued P} (hmem : queued ∈ m.accepted) (id : HttpRequestId) :
    queued.event ≠ .closeRequestWiseChannel id := by
  cases haccepted : m.accepted with
  | nil =>
    rw [haccepted] at hmem
    cases hmem
  | cons first later =>
    rw [haccepted] at hmem
    rcases List.mem_cons.mp hmem with rfl | hlater
    · obtain ⟨message, hevent, -⟩ := h.first queued (by rw [haccepted]; rfl)
      rw [hevent]
      exact fun heq => (by cases heq)
    · exact (h.later queued (by rwa [haccepted])).2.1 id

/-- When no id and no progress token is pushed to a session twice, its routers stay consistent, and
its loop refuses no message of the handler. -/
theorem routers_stay_consistent {as : List (Action P)} {s : State P}
    (hrun : Transition.Run step State.start as s) {slot : Slot P} (hslot : slot ∈ s.sessions)
    (hkeys : slot.mailbox.keys.Nodup)
    (hfew : slot.mailbox.accepted.countP (·.event.establishes) ≤ 2 ^ 64) {v : Vars P}
    (hworker : slot.worker = .running (.running v)) :
    RouterConsistent v.worker ∧ ∀ message result v',
      v.fromHandler message = .ok (result, v') → result = .ok () := by
  have horderly := orderly_of_run hrun
  have hsound := horderly.sound slot hslot
  have hok := horderly.kept.mailboxes slot.mailbox (List.mem_map_of_mem hslot)
  have htaken : (takenEvents slot.actions).Sublist (slot.mailbox.accepted.map (·.event)) := by
    rw [hsound.taken]
    exact (List.take_sublist _ _).map _
  have hruns : Session.Runs .default slot.actions v := hsound.run _ hworker
  refine hruns.delivers (safeAll_routerTrace ?_ ?_ fun h hmem => ?_)
  · refine ((actionKeys_sublist slot.actions).trans ?_).nodup hkeys
    rw [Mailbox.keys, Mailbox.messages_eq]
    have hmessages := (htaken.filterMap (·.message?)).flatMap messageKeys
    rwa [List.filterMap_map] at hmessages
  · rw [countP_establishes]
    refine Nat.le_trans htaken.countP_le ?_
    rwa [List.countP_map]
  · have hevent : .closeRequestWiseChannel h ∈ takenEvents slot.actions :=
      List.mem_filterMap.mpr ⟨_, hmem, rfl⟩
    obtain ⟨queued, hqueued, heq⟩ := List.mem_map.mp (htaken.mem hevent)
    exact hok.closes_nothing hqueued h heq

theorem routers_stay_consistent_requestedRun : ∃ (s : State bare) (v : Vars bare),
    Transition.Run step State.start (requestedRun ++ answeringRun) s ∧
    v.worker.resourceRouter.get (.mcpRequestId (.number 1)) = some 0 ∧
    RouterConsistent v.worker := by
  have hrun : ∃ (s : State bare) (slot : Slot bare) (v : Vars bare),
      Transition.Run step State.start (requestedRun ++ answeringRun) s ∧
      s.sessions = [slot] ∧ slot.worker = .running (.running v) ∧
      slot.mailbox.keys = [.mcpRequestId (.number 0), .mcpRequestId (.number 1)] ∧
      slot.mailbox.accepted.countP (·.event.establishes) = 1 ∧
      v.worker.resourceRouter.get (.mcpRequestId (.number 1)) = some 0 :=
    ⟨_, _, _, Transition.run_of_exec rfl, rfl, rfl, rfl, rfl, rfl⟩
  obtain ⟨s, slot, v, hrun, hsessions, hworker, hkeys, hcount, hroute⟩ := hrun
  have hslot : slot ∈ s.sessions := by rw [hsessions]; exact List.mem_singleton_self slot
  have hnodup : slot.mailbox.keys.Nodup := by rw [hkeys]; decide
  have hfew : slot.mailbox.accepted.countP (·.event.establishes) ≤ 2 ^ 64 := by
    rw [hcount]
    decide
  exact ⟨s, v, hrun, hroute, (routers_stay_consistent hrun hslot hnodup hfew hworker).1⟩

end Rmcp.HttpServer
