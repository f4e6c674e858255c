import Rmcp.Service.Conversation
import Mathlib.Algebra.GroupWithZero.Nat

/-!
# A conversation settles

Every move that is not a new call takes some request, notification or answer one place further,
or ends something. So a conversation that is left to itself comes to rest, after no more moves
than the work that it had; and while both loops run, there is nothing that can keep it from going
on before all of it is done. No two things wait for each other.

Results:
1. `work_decreases`: every move that is not a new call leaves less work.
2. `idle_of_stuck`: when nothing can go on, nothing is left to do.
3. `conversation_settles`: no caller waits in a conversation that has settled, except one whose
   handler was aborted.
-/

namespace Rmcp.Service

variable {R : ServiceRole} {E : Type}

/-! ## Work -/

section Sums

variable {α : Type} {l : List α} {i : Nat} {a : α}

theorem sum_map_eraseIdx (f : α → Nat) (h : l[i]? = some a) :
    ((l.eraseIdx i).map f).sum + f a = (l.map f).sum := by
  obtain ⟨hi, rfl⟩ := List.getElem?_eq_some_iff.mp h
  have hperm := ((List.getElem_cons_eraseIdx_perm hi).map f).sum_nat
  rw [List.map_cons, List.sum_cons] at hperm
  omega

theorem sum_map_set (f : α → Nat) (h : l[i]? = some a) (b : α) :
    ((l.set i b).map f).sum + f a = (l.map f).sum + f b := by
  obtain ⟨hi, -⟩ := List.getElem?_eq_some_iff.mp h
  have hset := ((List.set_perm_cons_eraseIdx hi b).map f).sum_nat
  have herase := sum_map_eraseIdx f h
  rw [List.map_cons, List.sum_cons] at hset
  omega

end Sums

/-- What a message makes for the side that it comes to: a request is handled, and its answer is
queued, sent and received. -/
def messageWork {Req Resp Not : Type} : JsonRpcMessage Req Resp Not → Nat
  | .request _ => 8
  | _ => 1

/-- A send that has not reached the transport has its message to hand over. -/
def SendProgress.work (crossing : Nat) : SendProgress E → Nat
  | .spawned => crossing + 3
  | .accepted => 2
  | .finished _ => 1

def SendTask.work (task : SendTask R E) : Nat := task.progress.work (messageWork task.message)

def responseWork (task : TxJsonRpcMessage R × SendProgress E) : Nat :=
  task.2.work (messageWork task.1)

/-- The work of a loop, and of what runs beside it. -/
def Serve.work (s : Serve R E) : Nat :=
  13 * s.callers.length + 12 * s.peerRx.length + (s.sendTaskSet.map SendTask.work).sum +
    7 * s.handlers.length + 6 * s.responding.length + 5 * s.sinkProxyRx.length +
    (s.responseSends.map responseWork).sum + if s.quit = none then 1 else 0

/-- What an event makes for the loop. -/
def Event.work : Event R E → Nat
  | .proxyMessage m => messageWork m.message + 3
  | .toSink m => if m.answeredId.isSome then messageWork m + 3 else 0
  | .peerMessage m => if m.request?.isSome then 7 else 0
  | .sendTaskResult _ => 0

theorem turn_work (s : Serve R E) (e : Event R E) : (s.turn e).work = s.work + e.work := by
  have hspec := s.turn_spec e
  have htasks := s.turn_tasks e
  have hout := s.turn_output e
  have hwork : e.work = (e.spawns.map SendTask.work).sum +
      7 * (e.starts? s.nextToken).toList.length +
      ((e.answer?.toList.map (·, (.spawned : SendProgress E))).map responseWork).sum := by
    cases e with
    | proxyMessage m => simp [Event.work, Event.spawns, Event.starts?, Event.answer?, SendTask.work,
        SendProgress.work]
    | toSink m =>
      by_cases h : m.answeredId.isSome <;>
        simp [Event.work, Event.spawns, Event.starts?, Event.answer?, h, responseWork,
          SendProgress.work]
    | peerMessage m => cases m <;> rfl
    | sendTaskResult result => rfl
  simp only [Serve.work, hspec.callers_eq, hspec.peerRx_eq, htasks.sendTaskSet_eq,
    hout.handlers_eq, hspec.responding_eq, hspec.sinkProxyRx_eq, hout.responseSends_eq,
    hspec.quit_eq, hwork, List.map_append, List.sum_append, List.length_append]
  omega

/-- What comes from outside: a new call, or the end of the service. -/
def Action.isCall : Action R E → Bool
  | .requestCalled _ _ | .notificationCalled _ | .loopCancelled => true
  | _ => false

theorem messageWork_message (m : PeerSinkMessage R) : messageWork m.message ≤ 8 := by
  cases m.message <;> simp [messageWork]

theorem messageWork_of_answeredId {m : TxJsonRpcMessage R} (h : m.answeredId.isSome) :
    messageWork m = 1 := by
  cases m with
  | response | error => rfl
  | _ => cases h

theorem length_eraseIdx_add_one {α : Type} {l : List α} {i : Nat} (h : i < l.length) :
    (l.eraseIdx i).length + 1 = l.length := by
  rw [List.length_eraseIdx_of_lt h]
  omega

theorem lt_length_of_getElem? {α : Type} {l : List α} {i : Nat} {a : α} (h : l[i]? = some a) :
    i < l.length := (List.getElem?_eq_some_iff.mp h).1

/-- A move beside the loop that is not a call leaves less work, with what it hands over. -/
theorem background_work {s s' : Serve R E} {a : Action R E} (h : BackgroundStep s a s')
    (hcall : a.isCall = false) {new : List (TxJsonRpcMessage R)}
    (hnew : s'.accepted = s.accepted ++ new) :
    s'.work + (new.map messageWork).sum < s.work := by
  cases h with
  | requestCalled | notificationCalled | loopCancelled => cases hcall
  | @sendAccepted i task htask hspawned =>
    obtain rfl := List.append_cancel_left hnew
    have hset := sum_map_set SendTask.work htask { task with progress := .accepted }
    simp only [SendTask.work, hspawned, SendProgress.work] at hset
    simp only [Serve.work, List.map_cons, List.map_nil, List.sum_cons, List.sum_nil]
    omega
  | @responseAccepted i task htask hspawned =>
    obtain rfl := List.append_cancel_left hnew
    have hset := sum_map_set responseWork htask (task.1, .accepted)
    simp only [responseWork, hspawned, SendProgress.work] at hset
    simp only [Serve.work, List.map_cons, List.map_nil, List.sum_cons, List.sum_nil]
    omega
  | @sendFinished i task result htask haccepted =>
    obtain rfl := List.append_right_eq_self.mp hnew.symm
    have hset := sum_map_set SendTask.work htask { task with progress := .finished result }
    simp only [SendTask.work, haccepted, SendProgress.work] at hset
    simp only [Serve.work, List.map_nil, List.sum_nil]
    omega
  | @responseFinished i task result htask haccepted =>
    obtain rfl := List.append_right_eq_self.mp hnew.symm
    have herase := sum_map_eraseIdx responseWork htask
    simp only [responseWork, haccepted, SendProgress.work] at herase
    simp only [Serve.work, List.map_nil, List.sum_nil]
    omega
  | requestQueued hcaller =>
    obtain rfl := List.append_right_eq_self.mp hnew.symm
    have hlength := length_eraseIdx_add_one (lt_length_of_getElem? hcaller)
    simp only [Serve.work, List.length_append, List.length_cons, List.length_nil, List.map_nil,
      List.sum_nil]
    omega
  | requestAbandoned hcaller =>
    obtain rfl := List.append_right_eq_self.mp hnew.symm
    have hlength := length_eraseIdx_add_one hcaller
    simp only [Serve.work, List.map_nil, List.sum_nil]
    omega
  | handlerReturns hi =>
    obtain rfl := List.append_right_eq_self.mp hnew.symm
    have hlength := length_eraseIdx_add_one (lt_length_of_getElem? hi)
    simp only [Serve.work, List.length_append, List.length_cons, List.length_nil, List.map_nil,
      List.sum_nil]
    omega
  | handlerAborts hi =>
    obtain rfl := List.append_right_eq_self.mp hnew.symm
    have hlength := length_eraseIdx_add_one hi
    simp only [Serve.work, List.map_nil, List.sum_nil]
    omega
  | responseQueued hanswer =>
    obtain rfl := List.append_right_eq_self.mp hnew.symm
    have hlength := length_eraseIdx_add_one (lt_length_of_getElem? hanswer)
    simp only [Serve.work, List.length_append, List.length_cons, List.length_nil, List.map_nil,
      List.sum_nil]
    omega

/-- A turn of the loop leaves less work as well, apart from what it makes of a message of the
peer. -/
theorem loop_work {s s' : Serve R E} {a : Action R E} (h : LoopStep s a s') (hopen : s.quit = none)
    (hbatch : s.batchMessages = []) :
    s'.work < s.work + (a.received?.toList.map messageWork).sum := by
  cases h with
  | batchMessage hmore =>
    rw [hbatch] at hmore
    cases hmore
  | @received m _ =>
    rw [turn_work]
    show s.work + (if m.request?.isSome then 7 else 0) < s.work + ([m].map messageWork).sum
    cases m <;> simp [JsonRpcMessage.request?, messageWork]
  | @toSink m sinkProxyRx _ hqueue =>
    have hanswer : Event.work (.toSink m : Event R E) ≤ 4 := by
      show (if m.answeredId.isSome then messageWork m + 3 else 0) ≤ 4
      split
      · next hanswers => rw [messageWork_of_answeredId hanswers]
      · exact Nat.zero_le _
    rw [turn_work]
    simp only [Serve.work, hqueue, List.length_cons]
    omega
  | @proxied m peerRx _ hqueue =>
    have hmessage : Event.work (.proxyMessage m : Event R E) ≤ 11 :=
      Nat.add_le_add_right (messageWork_message m) 3
    rw [turn_work]
    simp only [Serve.work, hqueue, List.length_cons]
    omega
  | @sendJoined task message job result _ htask =>
    have herase := sum_map_eraseIdx SendTask.work htask
    rw [turn_work]
    simp only [SendTask.work, SendProgress.work] at herase
    simp only [Serve.work, Event.work]
    omega
  | inputClosed | joinFailed | cancelled =>
    simp only [Serve.work, hopen, if_true, reduceCtorEq, if_false]
    omega

/-- What one side does, with what it takes from the other one and what it hands over. -/
theorem step_work {s s' : Serve R E} {a : Action R E} (h : step s a = some s')
    (hcall : a.isCall = false) (hbatch : s.batchMessages = []) {new : List (TxJsonRpcMessage R)}
    (hnew : s'.accepted = s.accepted ++ new) :
    s'.work + (new.map messageWork).sum < s.work + (a.received?.toList.map messageWork).sum := by
  rcases background_or_loop h with hbackground | ⟨-, hopen, hloop⟩
  · have hwork := background_work (background_step hbackground) hcall hnew
    omega
  · obtain rfl := List.append_right_eq_self.mp (hnew.symm.trans (loop_accepted hloop))
    exact loop_work (loop_step hloop) hopen hbatch

/-! ## What can go on -/

/-- Whether an action takes something one place further. The others are calls, and ends. -/
def Action.advances : Action R E → Bool
  | .requestQueued _ | .handlerReturns _ _ | .responseQueued _ | .sendAccepted _
  | .sendFinished _ _ | .responseAccepted _ | .responseFinished _ _ | .toSink | .proxied
  | .sendJoined _ => true
  | _ => false

/-- Nothing is on its way. -/
structure Serve.Idle (s : Serve R E) : Prop where
  callers : s.callers = []
  peerRx : s.peerRx = []
  sendTaskSet : s.sendTaskSet = []
  handlers : s.handlers = []
  responding : s.responding = []
  sinkProxyRx : s.sinkProxyRx = []
  responseSends : s.responseSends = []

/-- The task of a response ends when its send is done. -/
theorem Runs.responseSends_running {first token : UInt32} {as : List (Action R E)} {s : Serve R E}
    (hrun : Runs first token as s) :
    ∀ task ∈ s.responseSends, ∀ result, task.2 ≠ .finished result := by
  refine hrun.invariant
    (P := fun _ s => ∀ task ∈ s.responseSends, ∀ result, task.2 ≠ .finished result) ?_ ?_
  · intro task hmem
    cases hmem
  intro as s s' a _ h hstep task hmem result
  rcases background_or_loop hstep with hbackground | ⟨-, -, hloop⟩
  · cases background_step hbackground with
    | responseAccepted =>
      rcases List.mem_or_eq_of_mem_set hmem with hold | rfl
      · exact h task hold result
      · simp
    | responseFinished => exact h task (List.mem_of_mem_eraseIdx hmem) result
    | _ => exact h task hmem result
  · rcases loop_turn hloop with ⟨e, s₀, htaken, rfl⟩ | ⟨reason, rfl⟩
    · have hsends : s₀.responseSends = s.responseSends := by cases htaken <;> rfl
      rw [(s₀.turn_output e).responseSends_eq, hsends] at hmem
      rcases List.mem_append.mp hmem with hold | hnew
      · exact h task hold result
      · obtain ⟨m, -, rfl⟩ := List.mem_map.mp hnew
        simp
    · exact h task hmem result

/-- While the loop runs, a queue with room is never waited for in vain, and a queue that has none
is one that the loop can take from. -/
theorem Serve.idle_of_stuck {s : Serve R E} (hopen : s.quit = none) (hbatch : s.batchMessages = [])
    (hsends : ∀ task ∈ s.responseSends, ∀ result, task.2 ≠ .finished result)
    (hstuck : ∀ a, a.advances = true → step s a = none) : s.Idle := by
  have hsink : s.sinkProxyRx = [] := by
    cases h : s.sinkProxyRx with
    | nil => rfl
    | cons m rest => simpa [step, background, loop, hopen, hbatch, h] using hstuck .toSink rfl
  have hpeer : s.peerRx = [] := by
    cases h : s.peerRx with
    | nil => rfl
    | cons m rest => simpa [step, background, loop, hopen, hbatch, h] using hstuck .proxied rfl
  refine ⟨?_, hpeer, ?_, ?_, ?_, hsink, ?_⟩
  · cases h : s.callers with
    | nil => rfl
    | cons m rest =>
      simpa [step, background, hopen, h, hpeer, clientChannelBufferSize] using
        hstuck (.requestQueued 0) rfl
  · cases h : s.sendTaskSet with
    | nil => rfl
    | cons task rest =>
      obtain ⟨message, job, progress⟩ := task
      cases progress with
      | spawned => simpa [step, background, h] using hstuck (.sendAccepted 0) rfl
      | accepted => simpa [step, background, h] using hstuck (.sendFinished 0 (.ok ())) rfl
      | finished result =>
        simpa [step, background, loop, hopen, hbatch, h] using hstuck (.sendJoined 0) rfl
  · cases h : s.handlers with
    | nil => rfl
    | cons handler rest =>
      simpa [step, background, h] using hstuck (.handlerReturns 0 (.error ⟨0, "", none⟩)) rfl
  · cases h : s.responding with
    | nil => rfl
    | cons m rest =>
      simpa [step, background, hopen, h, hsink, sinkProxyBufferSize] using
        hstuck (.responseQueued 0) rfl
  · cases h : s.responseSends with
    | nil => rfl
    | cons task rest =>
      obtain ⟨message, progress⟩ := task
      cases progress with
      | spawned => simpa [step, background, h] using hstuck (.responseAccepted 0) rfl
      | accepted => simpa [step, background, h] using hstuck (.responseFinished 0 (.ok ())) rfl
      | finished result =>
        exact absurd rfl (hsends (message, .finished result) (by simp [h]) result)

theorem Serve.Idle.step {s : Serve R E} (h : s.Idle) {a : Action R E} (ha : a.advances = true) :
    Service.step s a = none := by
  cases a with
  | requestQueued | handlerReturns | responseQueued | sendAccepted | sendFinished
  | responseAccepted | responseFinished =>
    simp [Service.step, background, loop, h.callers, h.handlers, h.responding, h.sendTaskSet,
      h.responseSends]
  | toSink | proxied | sendJoined =>
    simp [Service.step, background, loop, h.peerRx, h.sinkProxyRx, h.sendTaskSet]
  | _ => cases ha

/-! ## Two sides -/

namespace Conversation

variable {l : Link} {first token first' token' : UInt32}

def Action.isCall : Action l E → Bool
  | .near a => a.isCall
  | .far a => a.isCall
  | .nearReceives | .farReceives => false

/-- The work of both sides, and what is in flight between them. -/
def work (s : Conversation l E) : Nat :=
  s.near.work + s.far.work + (s.toFar.map messageWork).sum + (s.toNear.map messageWork).sum

theorem work_swap (s : Conversation l E) : s.swap.work = s.work := by
  show s.far.work + s.near.work + (s.toNear.map messageWork).sum +
    (s.toFar.map messageWork).sum = s.work
  unfold work
  omega

theorem Joined.batchMessages_eq {s : Conversation l E} (h : Joined first token first' token' s) :
    s.near.batchMessages = [] := by
  obtain ⟨as, hnear⟩ := h.near
  obtain ⟨as', hfar⟩ := h.far
  exact Runs.batchMessages_eq hnear fun m hm =>
    Runs.isBatch_of_sent hfar (h.swap.sent_of_inbound hm)

theorem work_of_moves {s : Conversation l E} {a : Service.Action l.near E}
    {near : Serve l.near E} {toFar : List (TxJsonRpcMessage l.near)}
    (h : Joined first token first' token' s) (hcall : a.isCall = false)
    (hs : moves s.near s.toFar a = some (near, toFar)) :
    work { s with near, toFar } < s.work := by
  obtain ⟨hstep, hown, new, rfl, hnew⟩ := moves_spec hs
  have hwork := step_work hstep hcall h.batchMessages_eq hnew
  rw [hown] at hwork
  simp only [work, List.map_append, List.sum_append]
  simp only [Option.toList_none, List.map_nil, List.sum_nil] at hwork
  omega

theorem work_of_takes {s : Conversation l E} {closed : Bool} {near : Serve l.near E}
    {toNear : List (TxJsonRpcMessage l.far)} (h : Joined first token first' token' s)
    (hs : takes s.near s.toNear closed = some (near, toNear)) :
    work { s with near, toNear } < s.work := by
  obtain ⟨message, hstep, hqueue⟩ := takes_spec hs
  have hcall : (Action.ofTransport message : Service.Action l.near E).isCall = false := by
    cases message <;> rfl
  have hnone : near.accepted = s.near.accepted ++ [] := by
    rw [List.append_nil]
    exact (step_ofTransport hstep).1
  have hwork := step_work hstep hcall h.batchMessages_eq hnone
  rw [received?_ofTransport] at hwork
  simp only [work, hqueue, List.map_append, List.sum_append]
  simp only [List.map_nil, List.sum_nil] at hwork
  omega

/-- Every move that is not a new call leaves less work. -/
theorem work_decreases {s s' : Conversation l E} {a : Action l E}
    (h : Joined first token first' token' s) (hcall : a.isCall = false)
    (hs : s.step a = some s') : s'.work < s.work := by
  cases a with
  | near a =>
    obtain ⟨⟨near, toFar⟩, hmoves, rfl⟩ := Option.map_eq_some_iff.mp hs
    exact work_of_moves h hcall hmoves
  | far a =>
    obtain ⟨⟨far, toNear⟩, hmoves, rfl⟩ := Option.map_eq_some_iff.mp hs
    have hwork := work_of_moves h.swap hcall hmoves
    rw [work_swap] at hwork
    exact work_swap _ ▸ hwork
  | nearReceives =>
    obtain ⟨⟨near, toNear⟩, htakes, rfl⟩ := Option.map_eq_some_iff.mp hs
    exact work_of_takes h htakes
  | farReceives =>
    obtain ⟨⟨far, toFar⟩, htakes, rfl⟩ := Option.map_eq_some_iff.mp hs
    have hwork := work_of_takes h.swap htakes
    rw [work_swap] at hwork
    exact work_swap _ ▸ hwork

def Action.advances : Action l E → Bool
  | .near a => a.advances
  | .far a => a.advances
  | .nearReceives | .farReceives => true

theorem advances_swap (a : Action l E) : a.swap.advances = a.advances := by
  cases a <;> rfl

/-- A move that advances is one of the loop's own. -/
theorem moves_of_advances {loop loop' : Serve R E} {out : List (TxJsonRpcMessage R)}
    {a : Service.Action R E} (ha : a.advances = true) (hstep : Service.step loop a = some loop') :
    (moves loop out a).isSome = true := by
  have hown : a.isOfTransport = false := by
    cases a with
    | received | inputClosed => cases ha
    | _ => rfl
  simp [moves, hown, hstep]

/-- Nothing that the near side does goes on, and nothing reaches it. -/
theorem near_idle_of_stuck {s : Conversation l E} (h : Joined first token first' token' s)
    (hopen : s.near.quit = none) (hstuck : ∀ a, a.advances = true → s.step a = none) :
    s.near.Idle ∧ s.toNear = [] := by
  obtain ⟨as, hnear⟩ := h.near
  have hbatch := h.batchMessages_eq
  constructor
  · refine s.near.idle_of_stuck hopen hbatch (Runs.responseSends_running hnear) fun a ha => ?_
    by_contra hne
    obtain ⟨near, hstep⟩ := Option.ne_none_iff_exists'.mp hne
    have hsome : (moves s.near s.toFar a).isSome = true := moves_of_advances ha hstep
    have hnone := hstuck (.near a) ha
    rw [step, Option.map_eq_none_iff] at hnone
    rw [hnone] at hsome
    cases hsome
  · cases hqueue : s.toNear with
    | nil => rfl
    | cons m rest =>
      obtain ⟨near, hstep, -⟩ := step_received s.near m hopen hbatch
      have hnone := hstuck .nearReceives rfl
      simp [step, takes, hqueue, hstep] at hnone

/-- When nothing can go on, nothing is on its way. -/
theorem idle_of_stuck {s : Conversation l E} (h : Joined first token first' token' s)
    (hnear : s.near.quit = none) (hfar : s.far.quit = none)
    (hstuck : ∀ a, a.advances = true → s.step a = none) :
    (s.near.Idle ∧ s.toNear = []) ∧ s.far.Idle ∧ s.toFar = [] := by
  refine ⟨near_idle_of_stuck h hnear hstuck, near_idle_of_stuck h.swap hfar fun a ha => ?_⟩
  have hswap : s.step a.swap = (s.swap.step a).map swap := step_swap s.swap a
  rw [hstuck a.swap ((advances_swap a).trans ha)] at hswap
  exact Option.map_eq_none_iff.mp hswap.symm

theorem step_of_idle {s : Conversation l E} (hnear : s.near.Idle) (hfar : s.far.Idle)
    (htoFar : s.toFar = []) (htoNear : s.toNear = []) (hnearOpen : s.near.quit = none)
    (hfarOpen : s.far.quit = none) {a : Action l E} (ha : a.advances = true) : s.step a = none := by
  cases a with
  | near a => simp [step, moves, hnear.step ha]
  | far a => simp [step, moves, hfar.step ha]
  | nearReceives => simp [step, takes, htoNear, hfarOpen]
  | farReceives => simp [step, takes, htoFar, hnearOpen]

/-! ## Aborted handlers -/

theorem handled_of_step {s s' : Serve R E} {a : Service.Action R E}
    (hs : Service.step s a = some s') (ha : ∀ i, a ≠ .handlerAborts i) :
    s'.handled.length + (received s.history).length =
      s.handled.length + (received s'.history).length := by
  rcases background_or_loop hs with hbackground | ⟨-, -, hloop⟩
  · have hhistory := (background_moved hbackground).beside.history_eq
    rw [hhistory]
    cases background_step hbackground with
    | handlerReturns hi =>
      have hlength := length_eraseIdx_add_one (lt_length_of_getElem? hi)
      simp only [Serve.handled, List.length_append, List.length_map, List.length_cons,
        List.length_nil]
      omega
    | handlerAborts => exact absurd rfl (ha _)
    | _ => rfl
  · rcases loop_cases hloop with ⟨e, s₀, htaken, hturn⟩ | ⟨reason, rfl⟩
    · have hlength : s'.handled.length = s₀.handled.length + e.receives?.toList.length := by
        have hhandlers := congrArg List.length hturn.handlers_eq
        simp only [Serve.handled, List.length_append, List.length_map, hturn.returned_eq]
          at hhandlers ⊢
        omega
      have hkept : s₀.handled = s.handled := by cases htaken <;> rfl
      rw [hturn.history_eq, received_concat, htaken.kept.history_eq, hlength, hkept,
        List.length_append]
      omega
    · rfl

/-- Without an aborted handler there is one for each request, or it has returned. -/
theorem aborted_of_run {as : List (Action l E)} {s : Conversation l E}
    (hrun : Transition.Run step (start first token first' token') as s)
    (has : ∀ i, .far (.handlerAborts i) ∉ as) : s.far.aborted = [] := by
  have hlength : s.far.handled.length = (received s.far.history).length := by
    refine hrun.invariant (P := fun as s => (∀ i, .far (.handlerAborts i) ∉ as) →
      s.far.handled.length = (received s.far.history).length) (fun _ => rfl) ?_ has
    intro as s s' a _ ih hs has
    have ih := ih fun i hmem => has i (List.mem_append_left _ hmem)
    cases a with
    | near b =>
      obtain ⟨⟨near, toFar⟩, hmoves, rfl⟩ := Option.map_eq_some_iff.mp hs
      exact ih
    | nearReceives =>
      obtain ⟨⟨near, toNear⟩, htakes, rfl⟩ := Option.map_eq_some_iff.mp hs
      exact ih
    | far b =>
      obtain ⟨⟨far, toNear⟩, hmoves, rfl⟩ := Option.map_eq_some_iff.mp hs
      have hstep := handled_of_step (moves_spec hmoves).1 fun i hb => has i (by simp [hb])
      exact Nat.add_right_cancel (hstep.trans (by rw [ih, Nat.add_comm]))
    | farReceives =>
      obtain ⟨⟨far, toFar⟩, htakes, rfl⟩ := Option.map_eq_some_iff.mp hs
      obtain ⟨message, hstep, -⟩ := takes_spec htakes
      have hstep := handled_of_step hstep fun i hb => by cases message <;> cases hb
      exact Nat.add_right_cancel (hstep.trans (by rw [ih, Nat.add_comm]))
  obtain ⟨as, hfar⟩ := (joined_of_run hrun).far
  have hall := (Runs.handled_perm hfar).length_eq
  rw [List.length_append] at hall
  exact List.eq_nil_of_length_eq_zero (by omega)

/-! ## Runs -/

/-- When nothing is on its way and both loops are idle, the callers that still wait are those whose
handler was aborted. -/
theorem waiting_of_idle {as : List (Action l E)} {s : Conversation l E}
    (hrun : Transition.Run step (start first token first' token') as s)
    (hidle : s.near.Idle) (hidle' : s.far.Idle) (htoFar : s.toFar = []) (htoNear : s.toNear = [])
    (hcalls : s.near.requestCalls < 2 ^ 32) :
    (∀ id responder, s.near.localResponderPool.get id = some responder → id ∈ s.far.aborted) ∧
      ((∀ i, .far (.handlerAborts i) ∉ as) → ∀ id, s.near.localResponderPool.get id = none) := by
  have haborted : ∀ id responder, s.near.localResponderPool.get id = some responder →
      id ∈ s.far.aborted := by
    intro id responder hget
    obtain ⟨⟨request, hstored⟩, hunanswered⟩ := unanswered_of_waiting hrun hcalls hget
    obtain ⟨place, hplace⟩ := exists_place hrun hstored hunanswered
    -- every other place is empty
    cases place with
    | aborted => exact hplace
    | unsent =>
      simp [callsAt, Serve.unsentMessages, hidle.sendTaskSet, hidle.responseSends] at hplace
    | crossing => simp [callsAt, htoFar] at hplace
    | running => simp [callsAt, hidle'.handlers] at hplace
    | responding => simp [callsAt, hidle'.responding] at hplace
    | inSink => simp [callsAt, hidle'.sinkProxyRx] at hplace
    | answerUnsent =>
      simp [callsAt, Serve.unsentMessages, hidle'.sendTaskSet, hidle'.responseSends] at hplace
    | answerCrossing => simp [callsAt, htoNear] at hplace
  refine ⟨haborted, fun hnone id => ?_⟩
  cases hget : s.near.localResponderPool.get id with
  | none => rfl
  | some responder =>
    have hid := haborted id responder hget
    rw [aborted_of_run hrun hnone] at hid
    cases hid

/-- A conversation that is left to itself makes no more moves than it has work. When nothing in it
can go on, and both loops still run, nothing is on its way, and on neither side a caller waits,
except one whose handler was aborted. -/
theorem conversation_settles {as more : List (Action l E)} {s s' : Conversation l E}
    (hrun : Transition.Run step (start first token first' token') as s)
    (hmore : Transition.Run step s more s') (hquiet : ∀ a ∈ more, a.isCall = false) :
    more.length ≤ s.work ∧
    (s'.near.quit = none → s'.far.quit = none → (∀ a, a.advances = true → s'.step a = none) →
      s'.near.Idle ∧ s'.far.Idle ∧ s'.toFar = [] ∧ s'.toNear = [] ∧
      (s'.near.requestCalls < 2 ^ 32 →
        (∀ id responder, s'.near.localResponderPool.get id = some responder →
          id ∈ s'.far.aborted) ∧
        ((∀ i, .far (.handlerAborts i) ∉ as ++ more) →
          ∀ id, s'.near.localResponderPool.get id = none)) ∧
      (s'.far.requestCalls < 2 ^ 32 →
        (∀ id responder, s'.far.localResponderPool.get id = some responder →
          id ∈ s'.near.aborted) ∧
        ((∀ i, .near (.handlerAborts i) ∉ as ++ more) →
          ∀ id, s'.far.localResponderPool.get id = none))) := by
  constructor
  · have hwork : more.length + s'.work ≤ s.work := by
      refine hmore.invariant (P := fun more s' => (∀ a ∈ more, a.isCall = false) →
        more.length + s'.work ≤ s.work) (fun _ => by simp) ?_ hquiet
      intro more t t' a hmore ih hs hquiet
      have ih := ih fun b hb => hquiet b (List.mem_append_left _ hb)
      have hless := work_decreases (joined_of_run (hrun.append hmore)) (hquiet a (by simp)) hs
      rw [List.length_append, List.length_singleton]
      omega
    omega
  · intro hnear hfar hstuck
    have hall := hrun.append hmore
    obtain ⟨⟨hidle, htoNear⟩, hidle', htoFar⟩ :=
      idle_of_stuck (joined_of_run hall) hnear hfar hstuck
    refine ⟨hidle, hidle', htoFar, htoNear,
      fun hcalls => waiting_of_idle hall hidle hidle' htoFar htoNear hcalls, fun hcalls => ?_⟩
    obtain ⟨haborted, hnone⟩ :=
      waiting_of_idle (run_swap hall) hidle' hidle htoNear htoFar hcalls
    refine ⟨haborted, fun hnever => hnone fun i hmem => ?_⟩
    obtain ⟨a, ha, hswap⟩ := List.mem_map.mp hmem
    cases a with
    | near b =>
      cases hswap
      exact hnever i ha
    | far | nearReceives | farReceives => cases hswap

/-- The handler of the call that has crossed returns, and everything that is left is done. -/
def settlingRun : List (Action bareLink Unit) :=
  [.far (.handlerReturns 0 (.ok ())), .far (.responseQueued 0), .far .toSink,
    .far (.responseAccepted 0), .nearReceives, .far (.responseFinished 0 (.ok ())),
    .near (.sendFinished 0 (.ok ())), .near (.sendJoined 0)]

theorem conversation_settles_settlingRun : ∃ s s' : Conversation bareLink Unit,
    Transition.Run step (start 0 0 0 0) crossedRun s ∧ Transition.Run step s settlingRun s' ∧
    s.work = 11 ∧ (∀ a, a.advances = true → s'.step a = none) ∧ settlingRun.length ≤ s.work ∧
    ∀ id, s'.near.localResponderPool.get id = none := by
  have hrun : ∃ s s' : Conversation bareLink Unit,
      Transition.Run step (start 0 0 0 0) crossedRun s ∧ Transition.Run step s settlingRun s' ∧
      s.work = 11 ∧ s'.near.Idle ∧ s'.far.Idle ∧ s'.toFar = [] ∧ s'.toNear = [] ∧
      s'.near.quit = none ∧ s'.far.quit = none ∧ s'.near.requestCalls = 1 :=
    ⟨_, _, Transition.run_of_exec rfl, Transition.run_of_exec rfl, rfl,
      ⟨rfl, rfl, rfl, rfl, rfl, rfl, rfl⟩, ⟨rfl, rfl, rfl, rfl, rfl, rfl, rfl⟩, rfl, rfl, rfl, rfl,
      rfl⟩
  obtain ⟨s, s', hrun, hmore, hwork, hidle, hidle', htoFar, htoNear, hnear, hfar, hcalls⟩ := hrun
  have hstuck : ∀ a, a.advances = true → s'.step a = none := fun a ha =>
    step_of_idle hidle hidle' htoFar htoNear hnear hfar ha
  obtain ⟨hlength, hsettled⟩ := conversation_settles hrun hmore (by simp [settlingRun,
    Action.isCall, Service.Action.isCall])
  obtain ⟨-, -, -, -, hwaiting, -⟩ := hsettled hnear hfar hstuck
  refine ⟨s, s', hrun, hmore, hwork, hstuck, hlength, (hwaiting (by omega)).2 ?_⟩
  simp [crossedRun, settlingRun]

end Conversation

end Rmcp.Service
