import Rmcp.Service.Turn
import Rmcp.Support.Since

/-!
# Whether a cancellation overtakes its request

Messages of callers go through one queue, and the loop takes them up in order. But it spawns
each transport send as a task of its own, and the transport accepts messages in the order in
which these tasks are first polled. So a request and its cancellation keep their order when
the request is accepted before the loop takes up the cancellation, and may change places
otherwise.

The tasks do not say which message of the queue they were spawned for. A run is traced with
these messages beside it, which nothing of the loop reads.

Results:
1. `Ordered.step`: what a step keeps when cancellations are taken up after their requests are
   accepted.
2. `cancellation_never_overtakes`: in such a run no cancellation overtakes its request.
3. `cancellation_overtakes`: a run in which one does.
-/

namespace Rmcp.Service

variable {R : ServiceRole} {E : Type}

/-! ## The messages of the queue -/

namespace PeerSinkMessage

def requestId? : PeerSinkMessage R → Option RequestId
  | .request _ id _ => some id
  | .notification _ _ => none

/-- The request that it cancels. -/
def cancels? : PeerSinkMessage R → Option RequestId
  | .request _ _ _ => none
  | .notification n _ =>
    match R.tryIntoCancelled n with
    | .ok cancelled => some cancelled.params.requestId
    | .error _ => none

theorem job_of_requestId? {m : PeerSinkMessage R} {r : RequestId} (h : m.requestId? = some r) :
    m.job = .request r := by
  cases m with
  | request req id responder =>
    cases h
    rfl
  | notification n responder => cases h

/-- Only notifications cancel. -/
theorem exists_notification_of_cancels? {m : PeerSinkMessage R} {r : RequestId}
    (h : m.cancels? = some r) : ∃ n responder, m = .notification n responder := by
  cases m with
  | request req id responder => cases h
  | notification n responder => exact ⟨n, responder, rfl⟩

end PeerSinkMessage

/-! ## Traced runs -/

/-- A loop, and for each task of its send task set the message that it was spawned for. -/
structure Traced (R : ServiceRole) (E : Type) where
  serve : Serve R E
  origins : List (PeerSinkMessage R)

/-- What happens to a message of the queue. -/
inductive Mark (R : ServiceRole)
  | queued (m : PeerSinkMessage R)
  | taken (m : PeerSinkMessage R)
  | accepted (m : PeerSinkMessage R)

namespace Traced

def start (first token : UInt32) : Traced R E := ⟨.start first token, []⟩

def nextOrigins (t : Traced R E) : Action R E → List (PeerSinkMessage R)
  | .proxied => t.origins ++ t.serve.peerRx.head?.toList
  | .sendJoined task => t.origins.eraseIdx task
  | _ => t.origins

def step (t : Traced R E) (a : Action R E) : Option (Traced R E) :=
  (Service.step t.serve a).map fun serve => ⟨serve, t.nextOrigins a⟩

def marks (t : Traced R E) : Action R E → List (Mark R)
  | .requestQueued caller => t.serve.callers[caller]?.toList.map .queued
  | .notificationCalled notification =>
    [.queued (.notification notification t.serve.notificationCalls)]
  | .proxied => t.serve.peerRx.head?.toList.map .taken
  | .sendAccepted task => t.origins[task]?.toList.map .accepted
  | _ => []

end Traced

/-- What happens to the messages of the queue in a run. -/
def sendLog (first token : UInt32) (as : List (Action R E)) : List (Mark R) :=
  Transition.observe Traced.step Traced.marks (Traced.start first token) as

def queuedMessages (log : List (Mark R)) : List (PeerSinkMessage R) :=
  log.filterMap fun
    | .queued m => some m
    | .taken _ | .accepted _ => none

def takenMessages (log : List (Mark R)) : List (PeerSinkMessage R) :=
  log.filterMap fun
    | .taken m => some m
    | .queued _ | .accepted _ => none

/-- The transport accepts a cancellation only after each request that it names and that was
queued before it. -/
def NeverOvertakes (log : List (Mark R)) : Prop :=
  ∀ m₁ m₂ r, m₁.requestId? = some r → m₂.cancels? = some r →
    [m₁, m₂].Sublist (queuedMessages log) →
    ∀ before after, log = before ++ .accepted m₂ :: after → .accepted m₁ ∈ before

/-- When the loop takes up a cancellation, no send of the request that it names waits to be
polled. -/
def Serve.TakesUpAfter (s : Serve R E) (a : Action R E) : Prop :=
  a = .proxied → ∀ m r, s.peerRx.head? = some m → m.cancels? = some r →
    ∀ task ∈ s.sendTaskSet, task.job = .request r → task.progress ≠ .spawned

/-! ## What a step does to the sends -/

/-- What a step does to the queue and the send tasks, and its marks. -/
inductive SendStep (t : Traced R E) : List (Mark R) → Traced R E → Prop
  | queuedRequest {t' : Traced R E} {m : PeerSinkMessage R} :
      m ∈ t.serve.callers → t'.serve.peerRx = t.serve.peerRx ++ [m] →
      t'.serve.notificationCalls = t.serve.notificationCalls →
      t'.serve.sendTaskSet = t.serve.sendTaskSet → t'.origins = t.origins →
      SendStep t [.queued m] t'
  | queuedNotification {t' : Traced R E} {notification : R.Not} :
      t'.serve.peerRx =
        t.serve.peerRx ++ [.notification notification t.serve.notificationCalls] →
      t'.serve.notificationCalls = t.serve.notificationCalls + 1 →
      t'.serve.sendTaskSet = t.serve.sendTaskSet → t'.origins = t.origins →
      SendStep t [.queued (.notification notification t.serve.notificationCalls)] t'
  | taken {t' : Traced R E} {m : PeerSinkMessage R} :
      t.serve.peerRx = m :: t'.serve.peerRx →
      t'.serve.notificationCalls = t.serve.notificationCalls →
      t'.serve.sendTaskSet = t.serve.sendTaskSet ++ [⟨m.message, m.job, .spawned⟩] →
      t'.origins = t.origins ++ [m] → SendStep t [.taken m] t'
  | accepted {t' : Traced R E} {i : Nat} {m : PeerSinkMessage R} {task : SendTask R E} :
      t.origins[i]? = some m → t.serve.sendTaskSet[i]? = some task → task.progress = .spawned →
      t'.serve.peerRx = t.serve.peerRx →
      t'.serve.notificationCalls = t.serve.notificationCalls →
      t'.serve.sendTaskSet = t.serve.sendTaskSet.set i { task with progress := .accepted } →
      t'.origins = t.origins → SendStep t [.accepted m] t'
  | finished {t' : Traced R E} {i : Nat} {task : SendTask R E} (result : Except E Unit) :
      t.serve.sendTaskSet[i]? = some task → task.progress = .accepted →
      t'.serve.peerRx = t.serve.peerRx →
      t'.serve.notificationCalls = t.serve.notificationCalls →
      t'.serve.sendTaskSet =
        t.serve.sendTaskSet.set i { task with progress := .finished result } →
      t'.origins = t.origins → SendStep t [] t'
  | joined {t' : Traced R E} {i : Nat} {task : SendTask R E} :
      t.serve.sendTaskSet[i]? = some task → task.progress ≠ .spawned →
      t'.serve.peerRx = t.serve.peerRx →
      t'.serve.notificationCalls = t.serve.notificationCalls →
      t'.serve.sendTaskSet = t.serve.sendTaskSet.eraseIdx i → t'.origins = t.origins.eraseIdx i →
      SendStep t [] t'
  | other {t' : Traced R E} :
      t'.serve.peerRx = t.serve.peerRx →
      t'.serve.notificationCalls = t.serve.notificationCalls →
      t'.serve.sendTaskSet = t.serve.sendTaskSet → t'.origins = t.origins → SendStep t [] t'

/-- The traced messages are those of the tasks. -/
def Traced.Aligned (t : Traced R E) : Prop :=
  t.origins.map (·.job) = t.serve.sendTaskSet.map (·.job)

theorem background_sends {t : Traced R E} {s' : Serve R E} {a : Action R E}
    (haligned : t.Aligned) (h : t.serve.background a = some s') :
    SendStep t (t.marks a) ⟨s', t.nextOrigins a⟩ := by
  cases background_step h with
  | requestQueued hcaller =>
    simp only [Traced.marks, hcaller]
    exact .queuedRequest (List.mem_of_getElem? hcaller) rfl rfl rfl rfl
  | notificationCalled => exact .queuedNotification rfl rfl rfl rfl
  | sendAccepted htask hspawned =>
    have hlength := congrArg List.length haligned
    simp only [List.length_map] at hlength
    obtain ⟨hi, -⟩ := List.getElem?_eq_some_iff.mp htask
    have horigin := List.getElem?_eq_getElem (hlength ▸ hi : _ < t.origins.length)
    simp only [Traced.marks, horigin]
    exact .accepted horigin htask hspawned rfl rfl rfl rfl
  | sendFinished htask haccepted => exact .finished _ htask haccepted rfl rfl rfl rfl
  | _ => exact .other rfl rfl rfl rfl

/-- A turn with an event that is not taken from the queue spawns no send of the task set. -/
theorem Serve.turn_sends (s : Serve R E) {e : Event R E} (he : e.spawns = []) :
    (s.turn e).peerRx = s.peerRx ∧ (s.turn e).notificationCalls = s.notificationCalls ∧
      (s.turn e).sendTaskSet = s.sendTaskSet := by
  have htasks := s.turn_tasks e
  refine ⟨(s.turn_spec e).peerRx_eq, htasks.notificationCalls_eq, ?_⟩
  rw [htasks.sendTaskSet_eq, he, List.append_nil]

theorem SendStep.turn {t : Traced R E} {s₀ : Serve R E} {e : Event R E} (he : e.spawns = [])
    (hqueue : s₀.peerRx = t.serve.peerRx)
    (hcalls : s₀.notificationCalls = t.serve.notificationCalls)
    (hset : s₀.sendTaskSet = t.serve.sendTaskSet) : SendStep t [] ⟨s₀.turn e, t.origins⟩ := by
  obtain ⟨hqueue', hcalls', hset'⟩ := s₀.turn_sends he
  exact .other (hqueue'.trans hqueue) (hcalls'.trans hcalls) (hset'.trans hset) rfl

theorem loop_sends {t : Traced R E} {s' : Serve R E} {a : Action R E}
    (h : t.serve.loop a = some s') : SendStep t (t.marks a) ⟨s', t.nextOrigins a⟩ := by
  cases loop_step h with
  | batchMessage | received | toSink => exact .turn rfl rfl rfl rfl
  | @proxied m peerRx _ hpeer =>
    have htasks := ({ t.serve with peerRx } : Serve R E).turn_tasks (.proxyMessage m)
    have hqueue : _ = peerRx :=
      (({ t.serve with peerRx } : Serve R E).turn_spec (.proxyMessage m)).peerRx_eq
    simp only [Traced.marks, Traced.nextOrigins, hpeer]
    exact .taken (hpeer.trans (congrArg _ hqueue.symm)) htasks.notificationCalls_eq
      htasks.sendTaskSet_eq rfl
  | @sendJoined i message job result _ htask =>
    obtain ⟨hqueue, hcalls, hset⟩ :=
      ({ t.serve with sendTaskSet := t.serve.sendTaskSet.eraseIdx i } : Serve R E).turn_sends
        (e := .sendTaskResult (job.done result)) rfl
    exact .joined htask (by simp) hqueue hcalls hset rfl
  | inputClosed | joinFailed | cancelled => exact .other rfl rfl rfl rfl

theorem Traced.step_sends {t t' : Traced R E} {a : Action R E} (haligned : t.Aligned)
    (h : t.step a = some t') : SendStep t (t.marks a) t' := by
  obtain ⟨s', hstep, rfl⟩ := Option.map_eq_some_iff.mp h
  rcases background_or_loop hstep with hbackground | ⟨-, -, hloop⟩
  · exact background_sends haligned hbackground
  · exact loop_sends hloop

/-! ## Order -/

theorem pair_sublist_append {α : Type} {l l' : List α} {a b : α}
    (h : [a, b].Sublist (l ++ l')) :
    [a, b].Sublist l ∨ (a ∈ l ∧ b ∈ l') ∨ [a, b].Sublist l' := by
  obtain ⟨l₁, l₂, heq, hl₁, hl₂⟩ := List.sublist_append_iff.mp h
  rcases l₁ with _ | ⟨x, _ | ⟨y, l₁⟩⟩
  · rw [List.nil_append] at heq
    exact .inr (.inr (heq ▸ hl₂))
  · obtain ⟨rfl, rfl⟩ := List.cons_eq_cons.mp heq
    exact .inr (.inl ⟨List.singleton_sublist.mp hl₁, List.singleton_sublist.mp hl₂⟩)
  · simp only [List.cons_append, List.cons.injEq, List.nil_eq, List.append_eq_nil_iff] at heq
    obtain ⟨rfl, rfl, rfl, rfl⟩ := heq
    exact .inl hl₁

theorem pair_sublist_concat {α : Type} {l : List α} {a b c : α} (h : [a, b].Sublist (l ++ [c])) :
    [a, b].Sublist l ∨ (a ∈ l ∧ b = c) := by
  rcases pair_sublist_append h with hl | ⟨ha, hb⟩ | hc
  · exact .inl hl
  · exact .inr ⟨ha, List.mem_singleton.mp hb⟩
  · exact absurd hc.length_le (by simp)

/-- The messages of the queue are taken up in order, and a cancellation when its requests are
accepted. -/
structure Ordered (log : List (Mark R)) (t : Traced R E) : Prop where
  aligned : t.Aligned
  fifo : queuedMessages log = takenMessages log ++ t.serve.peerRx
  fresh : ∀ n responder, .notification n responder ∈ queuedMessages log →
    responder < t.serve.notificationCalls
  once : ∀ m r, m.cancels? = some r → ¬ [m, m].Sublist (queuedMessages log)
  origin_taken : ∀ m ∈ t.origins, m ∈ takenMessages log
  accepted_taken : ∀ m, .accepted m ∈ log → m ∈ takenMessages log
  pending : ∀ m ∈ takenMessages log, .accepted m ∈ log ∨
    ∃ (i : Nat) (task : SendTask R E), t.origins[i]? = some m ∧
      t.serve.sendTaskSet[i]? = some task ∧ task.progress = .spawned
  after : ∀ m₁ m₂ r, m₁.requestId? = some r → m₂.cancels? = some r →
    [m₁, m₂].Sublist (takenMessages log) → .accepted m₁ ∈ log
  never : NeverOvertakes log

theorem ordered_start (first token : UInt32) :
    Ordered [] (Traced.start first token : Traced R E) := by
  constructor <;> simp [Traced.Aligned, Traced.start, Serve.start, queuedMessages, takenMessages,
    NeverOvertakes]

section Steps

variable {log : List (Mark R)} {t t' : Traced R E}

/-- An entry that accepts nothing leaves the accepted messages where they are. -/
theorem NeverOvertakes.concat (h : NeverOvertakes log) {e : Mark R} (he : ∀ m, e ≠ .accepted m)
    (hnew : ∀ m₁ m₂ r, m₁.requestId? = some r → m₂.cancels? = some r →
      [m₁, m₂].Sublist (queuedMessages (log ++ [e])) → .accepted m₂ ∈ log →
      [m₁, m₂].Sublist (queuedMessages log)) : NeverOvertakes (log ++ [e]) := by
  intro m₁ m₂ r h₁ h₂ hsub before after heq
  rcases History.concat_eq_split.mp heq with ⟨-, -, rfl⟩ | ⟨after', -, rfl⟩
  · exact absurd rfl (he m₂)
  · exact h m₁ m₂ r h₁ h₂ (hnew m₁ m₂ r h₁ h₂ hsub (by simp)) before after' rfl

/-- A message is queued; a cancellation is a new one. -/
theorem Ordered.queued (h : Ordered log t) {m : PeerSinkMessage R}
    (hnew : ∀ r, m.cancels? = some r → m ∉ queuedMessages log)
    (hfresh : ∀ n responder, m = .notification n responder →
      responder < t'.serve.notificationCalls)
    (hqueue : t'.serve.peerRx = t.serve.peerRx ++ [m])
    (hcalls : t.serve.notificationCalls ≤ t'.serve.notificationCalls)
    (hset : t'.serve.sendTaskSet = t.serve.sendTaskSet) (horigins : t'.origins = t.origins) :
    Ordered (log ++ [.queued m]) t' := by
  have hqueued : queuedMessages (log ++ [.queued m]) = queuedMessages log ++ [m] := by
    simp [queuedMessages]
  have htaken : takenMessages (log ++ [.queued m]) = takenMessages log := by
    simp [takenMessages]
  have haccepted : ∀ m', .accepted m' ∈ log ++ [.queued m] ↔ .accepted m' ∈ log := by simp
  constructor
  case aligned =>
    rw [Traced.Aligned, hset, horigins]
    exact h.aligned
  case fifo => rw [hqueued, htaken, hqueue, h.fifo, List.append_assoc]
  case fresh =>
    intro n responder hmem
    rw [hqueued] at hmem
    rcases List.mem_append.mp hmem with hold | hnew
    · exact (h.fresh n responder hold).trans_le hcalls
    · exact hfresh n responder (List.mem_singleton.mp hnew).symm
  case once =>
    intro m' r hr hsub
    rw [hqueued] at hsub
    rcases pair_sublist_concat hsub with hold | ⟨hmem, rfl⟩
    · exact h.once m' r hr hold
    · exact hnew r hr hmem
  case origin_taken =>
    rw [htaken, horigins]
    exact h.origin_taken
  case accepted_taken =>
    intro m' hm'
    rw [htaken]
    exact h.accepted_taken m' ((haccepted m').mp hm')
  case pending =>
    rw [htaken, hset, horigins]
    exact fun m' hm' => (h.pending m' hm').imp_left (haccepted m').mpr
  case after =>
    rw [htaken]
    exact fun m₁ m₂ r h₁ h₂ hsub => (haccepted m₁).mpr (h.after m₁ m₂ r h₁ h₂ hsub)
  case never =>
    refine h.never.concat nofun fun m₁ m₂ r h₁ h₂ hsub hdone => ?_
    rw [hqueued] at hsub
    rcases pair_sublist_concat hsub with hold | ⟨-, rfl⟩
    · exact hold
    · -- the new cancellation was not accepted before it was queued
      refine absurd ?_ (hnew r h₂)
      rw [h.fifo]
      exact List.mem_append_left _ (h.accepted_taken m₂ hdone)

/-- The loop takes up a message; the requests that a cancellation names are accepted. -/
theorem Ordered.taken (h : Ordered log t) {m : PeerSinkMessage R}
    (hafter : ∀ r, m.cancels? = some r →
      ∀ task ∈ t.serve.sendTaskSet, task.job = .request r → task.progress ≠ .spawned)
    (hqueue : t.serve.peerRx = m :: t'.serve.peerRx)
    (hcalls : t'.serve.notificationCalls = t.serve.notificationCalls)
    (hset : t'.serve.sendTaskSet = t.serve.sendTaskSet ++ [⟨m.message, m.job, .spawned⟩])
    (horigins : t'.origins = t.origins ++ [m]) : Ordered (log ++ [.taken m]) t' := by
  have hqueued : queuedMessages (log ++ [.taken m]) = queuedMessages log := by
    simp [queuedMessages]
  have htaken : takenMessages (log ++ [.taken m]) = takenMessages log ++ [m] := by
    simp [takenMessages]
  have haccepted : ∀ m', .accepted m' ∈ log ++ [.taken m] ↔ .accepted m' ∈ log := by simp
  have hlength : t.origins.length = t.serve.sendTaskSet.length := by
    simpa using congrArg List.length h.aligned
  constructor
  case aligned =>
    rw [Traced.Aligned, hset, horigins, List.map_append, List.map_append, h.aligned]
    rfl
  case fifo =>
    rw [hqueued, htaken, h.fifo, hqueue, List.append_assoc]
    rfl
  case fresh =>
    rw [hqueued, hcalls]
    exact h.fresh
  case once =>
    rw [hqueued]
    exact h.once
  case origin_taken =>
    intro m' hm'
    rw [horigins] at hm'
    rw [htaken]
    rcases List.mem_append.mp hm' with hold | hnew
    · exact List.mem_append_left _ (h.origin_taken m' hold)
    · exact List.mem_append_right _ hnew
  case accepted_taken =>
    intro m' hm'
    rw [htaken]
    exact List.mem_append_left _ (h.accepted_taken m' ((haccepted m').mp hm'))
  case pending =>
    intro m' hm'
    rw [htaken] at hm'
    rw [hset, horigins]
    rcases List.mem_append.mp hm' with hold | hnew
    · rcases h.pending m' hold with hdone | ⟨i, task, horigin, htask, hspawned⟩
      · exact .inl ((haccepted m').mpr hdone)
      · obtain ⟨hi, -⟩ := List.getElem?_eq_some_iff.mp horigin
        refine .inr ⟨i, task, ?_, ?_, hspawned⟩
        · rw [List.getElem?_append_left hi, horigin]
        · rw [List.getElem?_append_left (hlength ▸ hi), htask]
    · obtain rfl := List.mem_singleton.mp hnew
      refine .inr ⟨t.origins.length, ⟨m'.message, m'.job, .spawned⟩,
        List.getElem?_concat_length, ?_, rfl⟩
      rw [hlength]
      exact List.getElem?_concat_length
  case after =>
    intro m₁ m₂ r h₁ h₂ hsub
    rw [htaken] at hsub
    rw [haccepted]
    rcases pair_sublist_concat hsub with hold | ⟨hmem, rfl⟩
    · exact h.after m₁ m₂ r h₁ h₂ hold
    · rcases h.pending m₁ hmem with hdone | ⟨i, task, horigin, htask, hspawned⟩
      · exact hdone
      · -- its send would be one that still waits
        have hjob : task.job = m₁.job := by
          have hi := congrArg (·[i]?) h.aligned
          simpa [horigin, htask] using hi.symm
        rw [PeerSinkMessage.job_of_requestId? h₁] at hjob
        exact absurd hspawned (hafter r h₂ task (List.mem_of_getElem? htask) hjob)
  case never =>
    refine h.never.concat nofun fun m₁ m₂ r _ _ hsub _ => ?_
    rwa [hqueued] at hsub

theorem map_job_set {l : List (SendTask R E)} {i : Nat} {task : SendTask R E}
    (htask : l[i]? = some task) (progress : SendProgress E) :
    (l.set i { task with progress }).map (·.job) = l.map (·.job) := by
  have hjob : (l.map (·.job))[i]? = some task.job := by simp [htask]
  obtain ⟨hi, hjob⟩ := List.getElem?_eq_some_iff.mp hjob
  rw [List.map_set]
  exact hjob ▸ List.set_getElem_self hi

/-- The transport accepts a message. -/
theorem Ordered.accepted (h : Ordered log t) {i : Nat} {m : PeerSinkMessage R}
    {task : SendTask R E} (horigin : t.origins[i]? = some m)
    (htask : t.serve.sendTaskSet[i]? = some task)
    (hqueue : t'.serve.peerRx = t.serve.peerRx)
    (hcalls : t'.serve.notificationCalls = t.serve.notificationCalls)
    (hset : t'.serve.sendTaskSet = t.serve.sendTaskSet.set i { task with progress := .accepted })
    (horigins : t'.origins = t.origins) : Ordered (log ++ [.accepted m]) t' := by
  have hqueued : queuedMessages (log ++ [.accepted m]) = queuedMessages log := by
    simp [queuedMessages]
  have htaken : takenMessages (log ++ [.accepted m]) = takenMessages log := by
    simp [takenMessages]
  have haccepted : ∀ m', .accepted m' ∈ log → .accepted m' ∈ log ++ [.accepted m] :=
    fun m' hm' => List.mem_append_left _ hm'
  have hm : m ∈ takenMessages log := h.origin_taken m (List.mem_of_getElem? horigin)
  constructor
  case aligned =>
    rw [Traced.Aligned, hset, horigins, h.aligned]
    exact (map_job_set htask _).symm
  case fifo => rw [hqueued, htaken, h.fifo, hqueue]
  case fresh =>
    rw [hqueued, hcalls]
    exact h.fresh
  case once =>
    rw [hqueued]
    exact h.once
  case origin_taken =>
    rw [htaken, horigins]
    exact h.origin_taken
  case accepted_taken =>
    intro m' hm'
    rw [htaken]
    rcases List.mem_append.mp hm' with hold | hnew
    · exact h.accepted_taken m' hold
    · cases List.mem_singleton.mp hnew
      exact hm
  case pending =>
    intro m' hm'
    rw [htaken] at hm'
    rw [hset, horigins]
    rcases h.pending m' hm' with hdone | ⟨j, task', horigin', htask', hspawned⟩
    · exact .inl (haccepted m' hdone)
    · by_cases hij : i = j
      · subst hij
        obtain rfl := Option.some.inj (horigin.symm.trans horigin')
        exact .inl (by simp)
      · exact .inr ⟨j, task', horigin', by rw [List.getElem?_set_ne hij, htask'], hspawned⟩
  case after =>
    rw [htaken]
    exact fun m₁ m₂ r h₁ h₂ hsub => haccepted m₁ (h.after m₁ m₂ r h₁ h₂ hsub)
  case never =>
    intro m₁ m₂ r h₁ h₂ hsub before after heq
    rw [hqueued] at hsub
    rcases History.concat_eq_split.mp heq with ⟨-, rfl, hlast⟩ | ⟨after', -, rfl⟩
    · cases hlast
      -- the cancellation is queued once, so it was taken up after the request
      refine h.after m₁ m r h₁ h₂ ?_
      have honce : m ∉ t.serve.peerRx := by
        intro hwaits
        refine h.once m r h₂ ?_
        rw [h.fifo]
        exact (List.singleton_sublist.mpr hm).append (List.singleton_sublist.mpr hwaits)
      rw [h.fifo] at hsub
      rcases pair_sublist_append hsub with htaken | ⟨-, hwaits⟩ | hwaits
      · exact htaken
      · exact absurd hwaits honce
      · exact absurd (hwaits.subset (by simp)) honce
    · exact h.never m₁ m₂ r h₁ h₂ hsub before after' rfl

/-- A task goes on or ends that does not wait to be polled any more, and nothing else. -/
theorem Ordered.quiet (h : Ordered log t) (haligned : t'.Aligned)
    (hqueue : t'.serve.peerRx = t.serve.peerRx)
    (hcalls : t'.serve.notificationCalls = t.serve.notificationCalls)
    (horigins : ∀ m ∈ t'.origins, m ∈ t.origins)
    (hwaits : ∀ (i : Nat) (m : PeerSinkMessage R) (task : SendTask R E), t.origins[i]? = some m →
      t.serve.sendTaskSet[i]? = some task → task.progress = .spawned →
      ∃ j : Nat, t'.origins[j]? = some m ∧ t'.serve.sendTaskSet[j]? = some task) : Ordered log t' :=
  { h with
    aligned := haligned
    fifo := hqueue ▸ h.fifo
    fresh := hcalls ▸ h.fresh
    origin_taken := fun m hm => h.origin_taken m (horigins m hm)
    pending := by
      intro m hm
      rcases h.pending m hm with hdone | ⟨i, task, horigin, htask, hspawned⟩
      · exact .inl hdone
      · obtain ⟨j, horigin', htask'⟩ := hwaits i m task horigin htask hspawned
        exact .inr ⟨j, task, horigin', htask', hspawned⟩ }

theorem Ordered.finished (h : Ordered log t) {i : Nat} {task : SendTask R E}
    {result : Except E Unit} (htask : t.serve.sendTaskSet[i]? = some task)
    (haccepted : task.progress = .accepted) (hqueue : t'.serve.peerRx = t.serve.peerRx)
    (hcalls : t'.serve.notificationCalls = t.serve.notificationCalls)
    (hset : t'.serve.sendTaskSet =
      t.serve.sendTaskSet.set i { task with progress := .finished result })
    (horigins : t'.origins = t.origins) : Ordered log t' := by
  refine h.quiet ?_ hqueue hcalls (fun m hm => horigins ▸ hm) fun j m task' horigin htask' hspawned =>
    ⟨j, horigins ▸ horigin, ?_⟩
  · rw [Traced.Aligned, hset, horigins, h.aligned]
    exact (map_job_set htask _).symm
  · have hij : i ≠ j := by
      rintro rfl
      obtain rfl := Option.some.inj (htask.symm.trans htask')
      rw [haccepted] at hspawned
      cases hspawned
    rw [hset, List.getElem?_set_ne hij, htask']

theorem Ordered.joined (h : Ordered log t) {i : Nat} {task : SendTask R E}
    (htask : t.serve.sendTaskSet[i]? = some task) (hdone : task.progress ≠ .spawned)
    (hqueue : t'.serve.peerRx = t.serve.peerRx)
    (hcalls : t'.serve.notificationCalls = t.serve.notificationCalls)
    (hset : t'.serve.sendTaskSet = t.serve.sendTaskSet.eraseIdx i)
    (horigins : t'.origins = t.origins.eraseIdx i) : Ordered log t' := by
  refine h.quiet ?_ hqueue hcalls
    (fun m hm => (List.eraseIdx_sublist ..).subset (horigins ▸ hm))
    fun j m task' horigin htask' hspawned => ?_
  · rw [Traced.Aligned, hset, horigins, ← List.eraseIdx_map, ← List.eraseIdx_map, h.aligned]
  · have hij : i ≠ j := by
      rintro rfl
      obtain rfl := Option.some.inj (htask.symm.trans htask')
      exact hdone hspawned
    rw [hset, horigins]
    rcases Nat.lt_or_gt_of_ne hij with hlt | hgt
    · -- the tasks after the one that is gone move up
      obtain ⟨j, rfl⟩ := Nat.exists_eq_add_of_lt hlt
      refine ⟨i + j, ?_, ?_⟩
      · rw [List.getElem?_eraseIdx_of_ge (Nat.le_add_right i j), horigin]
      · rw [List.getElem?_eraseIdx_of_ge (Nat.le_add_right i j), htask']
    · refine ⟨j, ?_, ?_⟩
      · rw [List.getElem?_eraseIdx_of_lt hgt, horigin]
      · rw [List.getElem?_eraseIdx_of_lt hgt, htask']

theorem Ordered.step {marks : List (Mark R)} (h : Ordered log t)
    (hcallers : ∀ m ∈ t.serve.callers, ∃ r, m.requestId? = some r)
    (hafter : ∀ m, marks = [.taken m] → ∀ r, m.cancels? = some r →
      ∀ task ∈ t.serve.sendTaskSet, task.job = .request r → task.progress ≠ .spawned)
    (hstep : SendStep t marks t') : Ordered (log ++ marks) t' := by
  cases hstep with
  | @queuedRequest _ m hm hqueue hcalls hset horigins =>
    obtain ⟨r, hr⟩ := hcallers m hm
    refine h.queued (fun r' hr' => ?_) (fun n responder heq => ?_) hqueue hcalls.ge hset horigins
    · obtain ⟨n, responder, rfl⟩ := PeerSinkMessage.exists_notification_of_cancels? hr'
      cases hr
    · rw [heq] at hr
      cases hr
  | @queuedNotification _ notification hqueue hcalls hset horigins =>
    refine h.queued (fun r hr hold => ?_) (fun n responder heq => ?_) hqueue
      (hcalls ▸ Nat.le_succ _) hset horigins
    · exact absurd (h.fresh _ _ hold) (Nat.lt_irrefl _)
    · cases heq
      rw [hcalls]
      exact Nat.lt_succ_self _
  | taken hqueue hcalls hset horigins =>
    exact h.taken (hafter _ rfl) hqueue hcalls hset horigins
  | accepted horigin htask _ hqueue hcalls hset horigins =>
    exact h.accepted horigin htask hqueue hcalls hset horigins
  | finished result htask haccepted hqueue hcalls hset horigins =>
    rw [List.append_nil]
    exact h.finished htask haccepted hqueue hcalls hset horigins
  | joined htask hdone hqueue hcalls hset horigins =>
    rw [List.append_nil]
    exact h.joined htask hdone hqueue hcalls hset horigins
  | other hqueue hcalls hset horigins =>
    rw [List.append_nil]
    refine h.quiet ?_ hqueue hcalls (fun m hm => horigins ▸ hm) fun i m task horigin htask _ =>
      ⟨i, horigins ▸ horigin, hset ▸ htask⟩
    rw [Traced.Aligned, hset, horigins]
    exact h.aligned

end Steps

/-! ## Runs -/

/-- What waits for room in the queue are requests. -/
theorem Runs.callers {first token : UInt32} {as : List (Action R E)} {s : Serve R E}
    (hrun : Runs first token as s) : ∀ m ∈ s.callers, ∃ r, m.requestId? = some r := by
  refine hrun.invariant (P := fun _ s => ∀ m ∈ s.callers, ∃ r, m.requestId? = some r) nofun ?_
  intro as s s' a _ h hstep
  rcases step_cases hstep with hmoved | ⟨e, s₀, htaken, hturn⟩ | ⟨reason, rfl⟩
  · cases hmoved with
    | called request options =>
      intro m hm
      rcases List.mem_append.mp hm with hold | hnew
      · exact h m hold
      · rw [List.mem_singleton.mp hnew]
        exact ⟨_, rfl⟩
    | queued => exact fun m hm => h m ((List.eraseIdx_sublist ..).subset hm)
    | abandoned => exact fun m hm => h m ((List.eraseIdx_sublist ..).subset hm)
    | _ => exact h
  · rw [hturn.callers_eq]
    cases htaken <;> exact h
  · exact h

/-- As long as the loop takes up no cancellation while a send of the request that it names
waits to be polled, no cancellation overtakes its request. -/
theorem cancellation_never_overtakes {first token : UInt32} {as : List (Action R E)}
    {s : Serve R E} (hrun : Runs first token as s)
    (hafter : Transition.Always step Serve.TakesUpAfter (Serve.start first token) as) :
    NeverOvertakes (sendLog first token as) := by
  suffices htraced : ∃ t : Traced R E,
      Transition.Run Traced.step (Traced.start first token) as t ∧ t.serve = s ∧
        Ordered (sendLog first token as) t by
    obtain ⟨t, -, -, hordered⟩ := htraced
    exact hordered.never
  refine hrun.invariant_always (P := fun as s => ∃ t : Traced R E,
    Transition.Run Traced.step (Traced.start first token) as t ∧ t.serve = s ∧
      Ordered (sendLog first token as) t) hafter
    ⟨_, .nil, rfl, ordered_start first token⟩ ?_
  rintro as s s' a hrun ⟨t, htraced, rfl, hordered⟩ htakes hstep
  have ht : t.step a = some ⟨s', t.nextOrigins a⟩ := by simp [Traced.step, hstep]
  refine ⟨_, htraced.snoc ht, rfl, ?_⟩
  rw [sendLog, htraced.observe_concat ht]
  refine hordered.step (Runs.callers hrun) (fun m hmarks r hr task htask hjob => ?_)
    (Traced.step_sends hordered.aligned ht)
  cases a <;> simp only [Traced.marks, reduceCtorEq, List.cons.injEq, and_true] at hmarks
  case requestQueued caller => cases t.serve.callers[caller]? <;> simp at hmarks
  case sendAccepted i => cases t.origins[i]? <;> simp at hmarks
  case proxied =>
    have hhead : t.serve.peerRx.head? = some m := by
      cases hqueue : t.serve.peerRx <;> simp_all
    exact htakes rfl m r hhead hr task htask hjob

/-- A request is called, and its cancellation is queued after it. -/
def cancelledCall : List (Action bareClient Unit) :=
  [.requestCalled Meta.staticEmpty ⟨none⟩, .requestQueued 0,
    .notificationCalled (.cancelledNotification ⟨⟨.number 0, none⟩, ⟨none⟩⟩)]

/-- The transport accepts the request before the loop takes up the cancellation. -/
def orderedRun : List (Action bareClient Unit) :=
  cancelledCall ++ [.proxied, .sendAccepted 0, .proxied, .sendAccepted 1]

theorem cancellation_never_overtakes_orderedRun : ∃ s : Serve bareClient Unit,
    Runs 0 0 orderedRun s ∧ s.accepted.length = 2 ∧ NeverOvertakes (sendLog 0 0 orderedRun) := by
  have hrun : ∃ s : Serve bareClient Unit, Runs 0 0 orderedRun s ∧ s.accepted.length = 2 :=
    ⟨_, Transition.run_of_exec rfl, rfl⟩
  have hafter : Transition.Always step Serve.TakesUpAfter (Serve.start 0 0) orderedRun := by
    refine Transition.always_cons nofun rfl (Transition.always_cons nofun rfl
      (Transition.always_cons nofun rfl (Transition.always_cons ?_ rfl
        (Transition.always_cons nofun rfl (Transition.always_cons ?_ rfl
          (Transition.always_cons nofun rfl trivial))))))
    · rintro - m r hm hr
      cases hm
      cases hr
    · rintro - m r hm hr task htask -
      obtain rfl := List.mem_singleton.mp htask
      exact nofun
  obtain ⟨s, hrun, haccepted⟩ := hrun
  exact ⟨s, hrun, haccepted, cancellation_never_overtakes hrun hafter⟩

/-- The task of the cancellation is polled first. -/
def overtakingRun : List (Action bareClient Unit) :=
  cancelledCall ++ [.proxied, .proxied, .sendAccepted 1]

theorem cancellation_overtakes : ∃ s : Serve bareClient Unit,
    Runs 0 0 overtakingRun s ∧ ¬ NeverOvertakes (sendLog 0 0 overtakingRun) := by
  have hrun : ∃ (s : Serve bareClient Unit) (m₁ m₂ : PeerSinkMessage bareClient),
      Runs 0 0 overtakingRun s ∧ m₁.requestId? = some (.number 0) ∧
      m₂.cancels? = some (.number 0) ∧
      sendLog 0 0 overtakingRun =
        [.queued m₁, .queued m₂, .taken m₁, .taken m₂, .accepted m₂] :=
    ⟨_, _, _, Transition.run_of_exec rfl, rfl, rfl, rfl⟩
  obtain ⟨s, m₁, m₂, hrun, h₁, h₂, hlog⟩ := hrun
  refine ⟨s, hrun, fun hnever => ?_⟩
  rw [hlog] at hnever
  have hbefore := hnever m₁ m₂ (.number 0) h₁ h₂ (.refl _)
    [.queued m₁, .queued m₂, .taken m₁, .taken m₂] [] rfl
  simp at hbefore

end Rmcp.Service
