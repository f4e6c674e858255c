import Rmcp.Service.Batches
import Rmcp.Transport.Framing

/-!
# Lines that do not deserialize

The reader of `AsyncRwTransport` yields the results of the codec in order. `receive` turns an
error into `None`, and the loop takes `None` for the end of the input. So the first line that
does not deserialize ends the session, although the codec has gone on to the next line and
the readers of other transports skip such a message.

Results:
1. `LineServe.read_error`: the loop can always come to the first bad line.
2. `reads_on_iff`: the lists of lines that the loop reads to the end.
3. `bad_line_ends_session`: a run with a bad line.
-/

namespace Rmcp

/-! ## The transport -/

/-- `AsyncRwTransport::receive`: `next.and_then(|e| e.ok())`, and what is left to read. -/
def AsyncRwTransport.receive {T F : Type} (read : List (LineResult T F)) :
    Option T × List (LineResult T F) :=
  (read.head?.bind Except.toOption, read.tail)

namespace Service

variable {R : ServiceRole} {E F : Type}

/-! ## A loop over a transport -/

/-- A loop, and the results that its reader has still to yield before the end of the input. -/
structure LineServe (R : ServiceRole) (E F : Type) where
  serve : Serve R E
  read : List (LineResult (RxJsonRpcMessage R) F)

/-- The loop reads from its transport, or something else happens. -/
inductive LineAction (R : ServiceRole) (E : Type)
  | receive
  | other (a : Action R E)

/-- The actions that come from the transport. -/
def Action.reads : Action R E → Bool
  | .received _ | .inputClosed => true
  | _ => false

namespace LineServe

def step (s : LineServe R E F) : LineAction R E → Option (LineServe R E F)
  | .receive =>
    match AsyncRwTransport.receive s.read with
    | (some m, read) => (Service.step s.serve (.received m)).map (⟨·, read⟩)
    | (none, read) => (Service.step s.serve .inputClosed).map (⟨·, read⟩)
  | .other a => if a.reads then none else (Service.step s.serve a).map (⟨·, s.read⟩)

/-- A loop that has just started, and the lines that its peer sends. -/
def start (first token : UInt32) (parse : List UInt8 → Except F (RxJsonRpcMessage R))
    (lines : List (List UInt8)) : LineServe R E F :=
  ⟨.start first token, lines.map (JsonRpcMessageCodec.lineResult parse
    JsonRpcMessageCodec.defaultMaxLength)⟩

end LineServe

/-- The messages of the results that are not errors. -/
def messages (read : List (LineResult (RxJsonRpcMessage R) F)) : List (RxJsonRpcMessage R) :=
  read.filterMap Except.toOption

/-- Every run processes the messages of the lines in order, and does not end before the last
line is read. -/
structure ReadsOn (start : LineServe R E F) : Prop where
  inOrder : ∀ as s, Transition.Run LineServe.step start as s →
    s.serve.inbound ++ messages s.read = messages start.read
  goesOn : ∀ as s s', Transition.Run LineServe.step start as s → s.read ≠ [] →
    s.step .receive = some s' → s'.serve.quit = none

/-! ## What a step does to the input -/

/-- What a step adds to the processed messages. -/
def Action.received? : Action R E → Option (RxJsonRpcMessage R)
  | .received m => some m
  | _ => none

theorem step_inbound {s s' : Serve R E} {a : Action R E} (h : step s a = some s') :
    s'.inbound = s.inbound ++ a.received?.toList := by
  rcases background_or_loop h with hbackground | ⟨-, -, hloop⟩
  · have hnone : a.received? = none := by
      cases a <;> first | rfl | cases hbackground
    rw [hnone, (background_moved hbackground).beside.inbound_eq]
    exact (List.append_nil _).symm
  · cases loop_step hloop with
    | received => exact (Serve.turn_spec _ _).inbound_eq
    | inputClosed | joinFailed | cancelled => exact (List.append_nil _).symm
    | _ => exact (Serve.turn_spec _ _).inbound_eq.trans (List.append_nil _).symm

/-- Reading a message leaves the messages of its batch. -/
theorem step_received (s : Serve R E) (m : RxJsonRpcMessage R) (hopen : s.quit = none)
    (hbatch : s.batchMessages = []) :
    ∃ s', step s (.received m) = some s' ∧ s'.quit = none ∧
      s'.batchMessages = (Event.peerMessage m : Event R E).batchItems := by
  have hspec := ({ s with inbound := s.inbound ++ [m] } : Serve R E).turn_spec (.peerMessage m)
  refine ⟨_, ?_, hspec.quit_eq.trans hopen, ?_⟩
  · simp only [step, Serve.background, hopen, Serve.loop, hbatch, ↓reduceIte]
  · rw [hspec.batchMessages_eq]
    exact congrArg (· ++ _) hbatch

theorem step_received_open {s s' : Serve R E} {m : RxJsonRpcMessage R}
    (h : step s (.received m) = some s') : s'.quit = none := by
  rcases background_or_loop h with hbackground | ⟨-, hopen, hloop⟩
  · cases hbackground
  · cases loop_step hloop with
    | received => exact (Serve.turn_spec _ _).quit_eq.trans hopen

/-- The messages of a batch are no batches. -/
theorem batchItems_of_batch {m m' : RxJsonRpcMessage R}
    (h : m' ∈ (Event.peerMessage m : Event R E).batchItems) :
    (Event.peerMessage m' : Event R E).batchItems = [] := by
  have hsingle : m' ∈ singles m := by
    rw [← Event.singles_eq (E := E)]
    exact List.mem_append_right _ h
  exact Event.batchItems_of_not_isBatch (Event.not_isBatch_of_mem_singles hsingle)

/-! ## Reading up to a bad line -/

namespace LineServe

/-- The messages of a batch can all be taken up. -/
theorem settle {bs : List (RxJsonRpcMessage R)} {s : LineServe R E F}
    (hopen : s.serve.quit = none) (hbatch : s.serve.batchMessages = bs)
    (hitems : ∀ m ∈ bs, (Event.peerMessage m : Event R E).batchItems = []) :
    ∃ as s', Transition.Run step s as s' ∧ s'.serve.quit = none ∧
      s'.serve.batchMessages = [] ∧ s'.read = s.read := by
  induction bs generalizing s with
  | nil => exact ⟨[], s, .nil, hopen, hbatch, rfl⟩
  | cons m bs ih =>
    have hspec := ({ s.serve with batchMessages := bs } : Serve R E).turn_spec (.peerMessage m)
    have hrest := hspec.batchMessages_eq
    rw [hitems m List.mem_cons_self, List.append_nil] at hrest
    have hstep : s.step (.other .batchMessage) =
        some ⟨({ s.serve with batchMessages := bs } : Serve R E).turn (.peerMessage m), s.read⟩ := by
      simp [step, Action.reads, Service.step, Serve.background, hopen, Serve.loop, hbatch]
    obtain ⟨as, s', hrun, hdone⟩ := ih (s := ⟨_, s.read⟩) (hspec.quit_eq.trans hopen)
      hrest fun m' hm' => hitems m' (List.mem_cons_of_mem _ hm')
    have hfirst : Transition.Run step s [.other .batchMessage] _ := .single hstep
    exact ⟨_, s', hfirst.append hrun, hdone⟩

/-- The loop can come to the first bad line. -/
theorem read_error {read : List (LineResult (RxJsonRpcMessage R) F)} {s : LineServe R E F}
    (hopen : s.serve.quit = none) (hbatch : s.serve.batchMessages = []) (hread : s.read = read)
    {e : JsonRpcMessageCodecError F} (hbad : .error e ∈ read) :
    ∃ as s' e' rest, Transition.Run step s as s' ∧ s'.serve.quit = none ∧
      s'.serve.batchMessages = [] ∧ s'.read = .error e' :: rest := by
  induction read generalizing s with
  | nil => cases hbad
  | cons result read ih =>
    cases result with
    | error e' => exact ⟨[], s, e', read, .nil, hopen, hbatch, hread⟩
    | ok m =>
      obtain ⟨s₁, hstep, hopen₁, hbatch₁⟩ := step_received s.serve m hopen hbatch
      have hreceive : s.step .receive = some ⟨s₁, read⟩ := by
        simp [step, AsyncRwTransport.receive, hread, Except.toOption, hstep]
      obtain ⟨as₁, s₂, hrun₁, hopen₂, hbatch₂, hread₂⟩ := settle (s := ⟨s₁, read⟩) hopen₁ hbatch₁
        fun m' hm' => batchItems_of_batch hm'
      have hbad' : .error e ∈ read := by simpa using hbad
      obtain ⟨as₂, s₃, e', rest, hrun₂, hdone⟩ := ih hopen₂ hbatch₂ hread₂ hbad'
      have hfirst : Transition.Run step s [.receive] ⟨s₁, read⟩ := .single hreceive
      exact ⟨_, s₃, e', rest, (hfirst.append hrun₁).append hrun₂, hdone⟩

/-- A bad line is the end of the input for the loop. -/
theorem step_error {s : LineServe R E F} (hopen : s.serve.quit = none)
    (hbatch : s.serve.batchMessages = []) {e : JsonRpcMessageCodecError F}
    {rest : List (LineResult (RxJsonRpcMessage R) F)} (hread : s.read = .error e :: rest) :
    s.step .receive = some ⟨{ s.serve with quit := some .closed }, rest⟩ := by
  simp [step, AsyncRwTransport.receive, hread, Except.toOption, Service.step, Serve.background,
    hopen, Serve.loop, hbatch]

/-! ## Reading on -/

theorem messages_receive (read : List (LineResult (RxJsonRpcMessage R) F)) :
    (AsyncRwTransport.receive read).1.toList ++ messages read.tail = messages read := by
  rcases read with _ | ⟨e | m, read⟩ <;> rfl

theorem step_receive {s s' : LineServe R E F} (h : s.step .receive = some s') :
    s'.read = s.read.tail ∧
      s'.serve.inbound = s.serve.inbound ++ (AsyncRwTransport.receive s.read).1.toList := by
  simp only [step] at h
  split at h
  · next m read hreceive =>
    obtain ⟨serve, hserve, rfl⟩ := Option.map_eq_some_iff.mp h
    have htail : s.read.tail = read := congrArg Prod.snd hreceive
    rw [hreceive, htail]
    exact ⟨rfl, step_inbound hserve⟩
  · next read hreceive =>
    obtain ⟨serve, hserve, rfl⟩ := Option.map_eq_some_iff.mp h
    have htail : s.read.tail = read := congrArg Prod.snd hreceive
    rw [hreceive, htail]
    exact ⟨rfl, step_inbound hserve⟩

/-- What is processed and what is left to read are the messages of the input, and what is left
is the end of it. -/
theorem run_read {s₀ s : LineServe R E F} {as : List (LineAction R E)}
    (hrun : Transition.Run step s₀ as s) (hstart : s₀.serve.inbound = []) :
    s.serve.inbound ++ messages s.read = messages s₀.read ∧ s.read <:+ s₀.read := by
  refine hrun.invariant (P := fun _ s => s.serve.inbound ++ messages s.read = messages s₀.read ∧
    s.read <:+ s₀.read) ⟨by rw [hstart, List.nil_append], List.suffix_refl _⟩ ?_
  rintro as s s' a - ⟨hinbound, hsuffix⟩ hstep
  cases a with
  | receive =>
    obtain ⟨htail, hreceived⟩ := step_receive hstep
    rw [htail, hreceived, List.append_assoc, messages_receive]
    exact ⟨hinbound, (List.tail_suffix _).trans hsuffix⟩
  | other a =>
    simp only [step] at hstep
    split at hstep
    · cases hstep
    · next hother =>
      obtain ⟨serve, hserve, rfl⟩ := Option.map_eq_some_iff.mp hstep
      have hnone : a.received? = none := by
        cases a <;> first | rfl | exact absurd rfl hother
      rw [step_inbound hserve, hnone, Option.toList_none, List.append_nil]
      exact ⟨hinbound, hsuffix⟩

end LineServe

/-- The loop reads a list of lines to the end exactly when all of them deserialize. -/
theorem reads_on_iff (first token : UInt32) (parse : List UInt8 → Except F (RxJsonRpcMessage R))
    (lines : List (List UInt8)) :
    ReadsOn (LineServe.start first token parse lines : LineServe R E F) ↔
      ∀ line ∈ lines, ∃ m, JsonRpcMessageCodec.lineResult parse
        JsonRpcMessageCodec.defaultMaxLength line = .ok m := by
  constructor
  · intro h line hline
    cases hresult : JsonRpcMessageCodec.lineResult parse JsonRpcMessageCodec.defaultMaxLength
      line with
    | ok m => exact ⟨m, rfl⟩
    | error e =>
      have hbad : .error e ∈ (LineServe.start first token parse lines : LineServe R E F).read :=
        List.mem_map.mpr ⟨line, hline, hresult⟩
      obtain ⟨as, s, e', rest, hrun, hopen, hbatch, hread⟩ :=
        LineServe.read_error (s := LineServe.start first token parse lines) rfl rfl rfl hbad
      have hclosed := h.goesOn as s _ hrun (by simp [hread]) (LineServe.step_error hopen hbatch hread)
      cases hclosed
  · intro hgood
    refine ⟨fun as s hrun => (LineServe.run_read hrun rfl).1, fun as s s' hrun hleft hstep => ?_⟩
    obtain ⟨-, hsuffix⟩ := LineServe.run_read hrun rfl
    obtain ⟨result, read, hread⟩ := List.exists_cons_of_ne_nil hleft
    have hmem : result ∈ s.read := by simp [hread]
    obtain ⟨line, hline, hresult⟩ := List.mem_map.mp (hsuffix.subset hmem)
    obtain ⟨m, hm⟩ := hgood line hline
    rw [hm] at hresult
    subst hresult
    simp only [LineServe.step, AsyncRwTransport.receive, hread, List.head?_cons, Option.bind_some,
      List.tail_cons, Except.toOption, Option.map_eq_some_iff] at hstep
    obtain ⟨serve, hserve, rfl⟩ := hstep
    exact step_received_open hserve

/-- A client whose lines are requests, but for the empty line. -/
def parseRequest (line : List UInt8) : Except Unit (RxJsonRpcMessage bareClient) :=
  if line = [] then .error () else .ok (.request ⟨.number 0, .staticEmpty⟩)

/-- A bad line stands between two requests. The loop quits when it reads it, and the second
request is never processed. -/
theorem bad_line_ends_session : ∃ s s' : LineServe bareClient Unit Unit,
    Transition.Run LineServe.step (LineServe.start 0 0 parseRequest [[1], [], [2]]) [.receive] s ∧
    s.step .receive = some s' ∧ s'.serve.quit = some .closed ∧
    ¬ ReadsOn (LineServe.start 0 0 parseRequest [[1], [], [2]] : LineServe bareClient Unit Unit) := by
  have hrun : ∃ s s' : LineServe bareClient Unit Unit,
      Transition.Run LineServe.step (LineServe.start 0 0 parseRequest [[1], [], [2]]) [.receive] s ∧
      s.step .receive = some s' ∧ s'.serve.quit = some .closed ∧ s.read.length = 2 :=
    ⟨_, _, Transition.run_of_exec rfl, rfl, rfl, rfl⟩
  obtain ⟨s, s', hrun, hstep, hclosed, hlength⟩ := hrun
  refine ⟨s, s', hrun, hstep, hclosed, fun h => ?_⟩
  have hopen := h.goesOn [.receive] s s' hrun (List.ne_nil_of_length_eq_add_one hlength) hstep
  rw [hclosed] at hopen
  cases hopen

end Service

end Rmcp
