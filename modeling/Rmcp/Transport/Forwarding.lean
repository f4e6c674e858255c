import Rmcp.Transport.ClientWorker

/-!
# What the worker forwards of its sources

The messages that the worker has read from a source have been handed to the handler, are on
the way to it, or are held by the task that reads the source, in this order. And as long as a
source has not come to its end, something reads it, with two exceptions: the event stream that
answers the initialize request is dropped after its first event, and a cancelled task drops
its stream.

Results:
1. `Sound`, `sound_step`: the invariant, and that every other step keeps it.
2. `forwards_all_iff`: the worker forwards all that its sources bring exactly when neither of
   the two happens.
3. `initialize_stream_dropped`: a run where the first of them happens.
-/

namespace Rmcp.ClientWorker

open Transition (exec Always)

variable {S : Setup} {E E' : Type}

/-! ## Sources -/

/-- The messages of one source. -/
def ofSource {M : Type} (k : Nat) (tagged : List (Nat × M)) : List M :=
  (tagged.filter fun message => message.1 = k).map Prod.snd

@[simp] theorem ofSource_nil {M : Type} (k : Nat) : ofSource k ([] : List (Nat × M)) = [] := rfl

@[simp] theorem ofSource_append {M : Type} (k : Nat) (l l' : List (Nat × M)) :
    ofSource k (l ++ l') = ofSource k l ++ ofSource k l' := by
  simp [ofSource]

@[simp] theorem ofSource_cons_self {M : Type} (k : Nat) (m : M) (l : List (Nat × M)) :
    ofSource k ((k, m) :: l) = m :: ofSource k l := by
  simp [ofSource]

theorem ofSource_cons_of_ne {M : Type} {j k : Nat} (h : j ≠ k) (m : M) (l : List (Nat × M)) :
    ofSource k ((j, m) :: l) = ofSource k l := by
  simp [ofSource, h]

/-- The message that the task holds and waits to send. -/
def Source.held (source : Source S E) : List (ServerJsonRpcMessage S.P) :=
  match source.task with
  | some (.sending _ message) => [message]
  | _ => []

def Source.IsRead (source : Source S E) : Prop :=
  match source.task with
  | some (.reading _) | some (.sending _ _) => True
  | some (.finished _) | none => False

/-- The source that the worker itself reads, for its first event. -/
def Phase.expected : Phase S E → Option Nat
  | .expectInitialized source _ => some source
  | _ => none

/-- The message that the worker is about to hand to the handler. -/
def Phase.pending : Phase S E → List (Nat × ServerJsonRpcMessage S.P)
  | .sendToHandler source message _ => [(source, message)]
  | _ => []

namespace State

/-- The messages that have been handed to the handler, and those on their way. -/
def handedOn (s : State S E) : List (Nat × ServerJsonRpcMessage S.P) :=
  s.forwarded ++ (s.phase.pending ++ s.sseWorker)

def messagesOf (s : State S E) (k : Nat) : List (ServerJsonRpcMessage S.P) :=
  (s.sources[k]?).elim [] Source.messages

def heldOf (s : State S E) (k : Nat) : List (ServerJsonRpcMessage S.P) :=
  (s.sources[k]?).elim [] Source.held

/-- What has been forwarded is an interleaving of prefixes of the sources, what is missing of
them is on its way, and every source is read until it has come to its end. -/
structure ForwardsAll (s : State S E) : Prop where
  in_order : ∀ k, ofSource k s.forwarded <+: s.messagesOf k
  accounted : ∀ k, ofSource k s.handedOn ++ s.heldOf k = s.messagesOf k
  is_read : ∀ k source, s.sources[k]? = some source → source.ended = false →
    source.IsRead ∨ s.phase.expected = some k

end State

/-- `expect_initialized` takes the initialize response off an event stream. -/
def DropsStream (s : State S E') (a : Action S E) : Prop :=
  ∃ k sessionId sse message, s.phase = .expectInitialized k (some sessionId) ∧
    a = .firstEvent (some (.ok sse)) ∧ S.fromStr (sse.data.getD "") = .ok message

/-- A stream task takes the branch of its `select!` that drops the stream. -/
def CancelsTask (a : Action S E) : Prop := ∃ k, a = .taskCancelled k

/-! ## The invariant -/

/-- The messages that were read from the sources are those that were handed on, and those that
the tasks hold. -/
def Accounts (handedOn : List (Nat × ServerJsonRpcMessage S.P)) (sources : List (Source S E)) :
    Prop :=
  ∀ k, ofSource k handedOn ++ (sources[k]?).elim [] Source.held =
    (sources[k]?).elim [] Source.messages

/-- A source is read by its task or by the worker, and not by both, or has ended. -/
structure Tended (phase : Phase S E) (k : Nat) (source : Source S E) : Prop where
  ended_iff : source.ended = true ↔ ¬ (source.IsRead ∨ phase.expected = some k)
  expected : phase.expected = some k → source.task = none

structure Sound (s : State S E) : Prop where
  accounts : Accounts s.handedOn s.sources
  tended : ∀ k source, s.sources[k]? = some source → Tended s.phase k source
  expected_lt : ∀ k, s.phase.expected = some k → k < s.sources.length

section Accounts

variable {handedOn handedOn' : List (Nat × ServerJsonRpcMessage S.P)} {sources : List (Source S E)}
  {source : Source S E} {k : Nat}

/-- Nothing is handed on of a source that there is not. -/
theorem Accounts.ofSource_length (h : Accounts handedOn sources) :
    ofSource sources.length handedOn = [] := by
  simpa using h sources.length

/-- One more source, with what has been handed on of it at once. -/
theorem Accounts.give (h : Accounts handedOn sources)
    (hnew : ofSource sources.length handedOn' ++ source.held = source.messages)
    (hother : ∀ k, k ≠ sources.length → ofSource k handedOn' = ofSource k handedOn) :
    Accounts handedOn' (sources ++ [source]) := by
  intro k
  by_cases hk : k = sources.length
  · subst hk
    simpa using hnew
  · rw [hother k hk]
    have hget : (sources ++ [source])[k]? = sources[k]? := by
      rcases Nat.lt_or_gt_of_ne hk with hlt | hgt
      · exact List.getElem?_append_left hlt
      · rw [List.getElem?_eq_none (by simp; omega), List.getElem?_eq_none (by omega)]
    rw [hget]
    exact h k

/-- A source changes, with what has been handed on of it. -/
theorem Accounts.set {old : Source S E} (h : Accounts handedOn sources)
    (hold : sources[k]? = some old)
    (hset : ofSource k handedOn' ++ source.held = source.messages)
    (hother : ∀ j, j ≠ k → ofSource j handedOn' = ofSource j handedOn) :
    Accounts handedOn' (sources.set k source) := by
  intro j
  by_cases hj : j = k
  · subst hj
    have hlt : j < sources.length := (List.getElem?_eq_some_iff.mp hold).1
    simpa [hlt] using hset
  · rw [hother j hj, List.getElem?_set_ne (Ne.symm hj)]
    exact h j

end Accounts

section Sound

variable {s s' : State S E} {source : Source S E} {k : Nat}

theorem Tended.congr {phase phase' : Phase S E} (h : Tended phase k source)
    (hexpected : phase'.expected = some k ↔ phase.expected = some k) : Tended phase' k source :=
  ⟨by rw [hexpected]; exact h.ended_iff, fun he => h.expected (hexpected.mp he)⟩

/-- Neither the sources nor what is handed on of them changes. -/
theorem Sound.of_same (h : Sound s) (hhanded : s'.handedOn = s.handedOn)
    (hsources : s'.sources = s.sources) (hexpected : s'.phase.expected = s.phase.expected) :
    Sound s' := by
  refine ⟨?_, fun k source hk => ?_, ?_⟩
  · rw [hhanded, hsources]
    exact h.accounts
  · rw [hsources] at hk
    exact (h.tended k source hk).congr (by rw [hexpected])
  · rw [hexpected, hsources]
    exact h.expected_lt

theorem Sound.give (h : Sound s) (hsources : s'.sources = s.sources ++ [source])
    (hnew : ofSource s.sources.length s'.handedOn ++ source.held = source.messages)
    (hother : ∀ k, k ≠ s.sources.length → ofSource k s'.handedOn = ofSource k s.handedOn)
    (hexpected : ∀ k, k < s.sources.length →
      (s'.phase.expected = some k ↔ s.phase.expected = some k))
    (hbound : ∀ k, s'.phase.expected = some k → k ≤ s.sources.length)
    (htended : Tended s'.phase s.sources.length source) : Sound s' := by
  refine ⟨?_, fun k source' hk => ?_, fun k hk => ?_⟩
  · rw [hsources]
    exact h.accounts.give hnew hother
  · rw [hsources] at hk
    rcases Nat.lt_or_ge k s.sources.length with hlt | hge
    · rw [List.getElem?_append_left hlt] at hk
      exact (h.tended k source' hk).congr (hexpected k hlt)
    · have hlt := (List.getElem?_eq_some_iff.mp hk).1
      have hkl : k = s.sources.length := by
        simp only [List.length_append, List.length_singleton] at hlt
        omega
      subst hkl
      simp only [List.getElem?_concat_length, Option.some.injEq] at hk
      exact hk ▸ htended
  · rw [hsources, List.length_append, List.length_singleton]
    exact Nat.lt_succ_of_le (hbound k hk)

theorem Sound.set {old : Source S E} (h : Sound s) (hold : s.sources[k]? = some old)
    (hsources : s'.sources = s.sources.set k source)
    (hset : ofSource k s'.handedOn ++ source.held = source.messages)
    (hother : ∀ j, j ≠ k → ofSource j s'.handedOn = ofSource j s.handedOn)
    (hexpected : s'.phase.expected = s.phase.expected) (htended : Tended s'.phase k source) :
    Sound s' := by
  refine ⟨?_, fun j source' hj => ?_, ?_⟩
  · rw [hsources]
    exact h.accounts.set hold hset hother
  · rw [hsources] at hj
    by_cases hjk : j = k
    · subst hjk
      have hlt : j < s.sources.length := (List.getElem?_eq_some_iff.mp hold).1
      rw [List.getElem?_set_self hlt, Option.some.injEq] at hj
      exact hj ▸ htended
    · rw [List.getElem?_set_ne (Ne.symm hjk)] at hj
      exact (h.tended j source' hj).congr (by rw [hexpected])
  · rw [hexpected, hsources, List.length_set]
    exact h.expected_lt

theorem sound_init : Sound (init S E) := by
  refine ⟨fun _ => rfl, fun k source hk => ?_, fun k hk => ?_⟩ <;> cases hk

theorem Sound.forwardsAll (h : Sound s) : s.ForwardsAll := by
  refine ⟨fun k => ?_, h.accounts, fun k source hk hended => ?_⟩
  · refine ⟨ofSource k (s.phase.pending ++ s.sseWorker) ++ s.heldOf k, ?_⟩
    have hk := h.accounts k
    rw [State.handedOn, ofSource_append] at hk
    rw [← List.append_assoc]
    exact hk
  · by_contra hread
    have htrue := (h.tended k source hk).ended_iff.mpr hread
    rw [hended] at htrue
    cases htrue

end Sound

/-! ## The steps -/

/-- The worker is neither about to hand a message on nor reading a source itself. -/
structure Phase.Idle (phase : Phase S E) : Prop where
  pending : phase.pending = []
  expected : phase.expected = none

section Parts

variable {s s' : State S E}

theorem Sound.called {R : Type} (h : Sound s) (request : Request S.P) (c : Called E R) :
    Sound (s.called request c) := h.of_same rfl rfl rfl

theorem Sound.respond (h : Sound s) (responder : Nat)
    (result : Except (StreamableHttpError E) Unit) : Sound (s.respond responder result) :=
  h.of_same rfl rfl rfl

theorem Sound.goto {phase : Phase S E} (h : Sound s) (hfrom : s.phase.Idle) (hto : phase.Idle) :
    Sound (s.goto phase) := by
  refine h.of_same ?_ rfl (hto.expected.trans hfrom.expected.symm)
  simp [State.handedOn, State.goto, hfrom.pending, hto.pending]

theorem Sound.spawn (h : Sound s) (hidle : s.phase.Idle) (stream : S.Stream) :
    Sound (s.spawn stream) := by
  have hlength := h.accounts.ofSource_length
  have hnone : ∀ k, (s.spawn stream).phase.expected ≠ some k := by
    intro k hk
    rw [State.spawn, State.give, hidle.expected] at hk
    cases hk
  refine h.give rfl ?_ (fun _ _ => rfl) (fun _ _ => Iff.rfl) (fun k hk => absurd hk (hnone k))
    ⟨?_, fun hk => absurd hk (hnone _)⟩
  · exact (List.append_nil _).trans hlength
  · simp [Source.IsRead]

/-- A reply that is one message is about to be handed on. -/
theorem Sound.reply {message : ServerJsonRpcMessage S.P} {resume : Resume} (h : Sound s)
    (hidle : s.phase.Idle) (hsources : s'.sources = s.sources ++ [⟨[message], true, none⟩])
    (hphase : s'.phase = .sendToHandler s.sources.length message resume)
    (hforwarded : s'.forwarded = s.forwarded) (hsseWorker : s'.sseWorker = s.sseWorker) :
    Sound s' := by
  have hhanded : s'.handedOn = s.forwarded ++ ([(s.sources.length, message)] ++ s.sseWorker) := by
    rw [State.handedOn, hphase, hforwarded, hsseWorker]
    rfl
  have hbefore : s.handedOn = s.forwarded ++ s.sseWorker := by
    rw [State.handedOn, hidle.pending, List.nil_append]
  have hlength := h.accounts.ofSource_length
  rw [hbefore, ofSource_append, List.append_eq_nil_iff] at hlength
  refine h.give hsources ?_ (fun k hk => ?_) (fun k _ => ?_) (fun k hk => ?_) ⟨?_, fun _ => rfl⟩
  · simp [hhanded, hlength, Source.held]
  · rw [hhanded, hbefore]
    simp [ofSource_cons_of_ne (Ne.symm hk)]
  · rw [hphase, hidle.expected]
    simp [Phase.expected]
  · rw [hphase] at hk
    cases hk
  · rw [hphase]
    simp [Source.IsRead, Phase.expected]

end Parts

/-- The worker has quit, and its tasks with it. -/
structure Quit (s : State S E) : Prop where
  hasQuit : s.phase.hasQuit = true
  aborted : ∀ (k : Nat) (source : Source S E), s.sources[k]? = some source → source.task = none

/-- The invariant is about a worker that runs. -/
def Kept (s : State S E) : Prop := Quit s ∨ s.phase.hasQuit = false ∧ Sound s

section Steps

variable {s s' : State S E'}

theorem kept_quit (s : State S E') (reason : WorkerQuitReason E') : Kept (s.quit reason) := by
  refine .inl ⟨rfl, fun k source hk => ?_⟩
  simp only [State.quit, List.getElem?_map, Option.map_eq_some_iff] at hk
  obtain ⟨-, -, rfl⟩ := hk
  rfl

theorem kept_recv (h : Sound s) (hs : s.recv = some s') : Kept s' := by
  unfold State.recv at hs
  split at hs
  next message responder fromHandler hqueue =>
    have hrest : Sound { s with fromHandler } := h.of_same rfl rfl rfl
    split at hs
    next hphase =>
      have hidle : s.phase.Idle := by rw [hphase]; exact ⟨rfl, rfl⟩
      cases hs
      exact .inr ⟨rfl, (hrest.respond responder (.ok ())).goto hidle ⟨rfl, rfl⟩⟩
    next hphase =>
      have hidle : s.phase.Idle := by rw [hphase]; exact ⟨rfl, rfl⟩
      cases hs
      exact .inr ⟨rfl, hrest.goto hidle ⟨rfl, rfl⟩⟩
    next hphase =>
      have hidle : s.phase.Idle := by rw [hphase]; exact ⟨rfl, rfl⟩
      cases hs
      exact .inr ⟨rfl, hrest.goto hidle ⟨rfl, rfl⟩⟩
    next => cases hs
  next =>
    split at hs
    · cases hs
      exact kept_quit s _
    · cases hs

theorem kept_expectInitialized (h : Sound s) (hidle : s.phase.Idle)
    (response : StreamableHttpPostResponse S) : Kept (s.expectInitialized response) := by
  cases response with
  | accepted => exact kept_quit s _
  | json message sessionId =>
    cases sessionId with
    | none => exact kept_quit _ _
    | some sessionId => exact .inr ⟨rfl, h.reply hidle rfl rfl rfl rfl⟩
  | sse stream sessionId =>
    have hlength := h.accounts.ofSource_length
    have hhanded : (s.expectInitialized (.sse stream sessionId)).handedOn = s.handedOn := by
      rw [State.handedOn, State.handedOn, hidle.pending]
      rfl
    refine .inr ⟨rfl, h.give rfl ?_ (fun k _ => by rw [hhanded]) (fun k hk => ?_)
      (fun k hk => ?_) ⟨?_, fun _ => rfl⟩⟩
    · rw [hhanded, hlength]
      rfl
    · rw [hidle.expected]
      simp only [State.expectInitialized, State.goto, Phase.expected, Option.some.injEq,
        reduceCtorEq, iff_false]
      omega
    · obtain rfl : s.sources.length = k := Option.some.inj hk
      exact Nat.le_refl _
    · simp [State.expectInitialized, State.goto, Phase.expected]

theorem kept_posted {client : StreamableHttpClient S E E'}
    {answer : Answer E (StreamableHttpPostResponse S)} (h : Sound s)
    (hs : s.posted client answer = some s') : Kept s' := by
  unfold State.posted at hs
  split at hs
  next message hphase =>
    have hidle : s.phase.Idle := by rw [hphase]; exact ⟨rfl, rfl⟩
    simp only [] at hs
    split at hs
    · cases hs
      exact kept_quit _ _
    · cases hs
      exact kept_expectInitialized (h.called _ _) hidle _
  next message responder hphase =>
    have hidle : s.phase.Idle := by rw [hphase]; exact ⟨rfl, rfl⟩
    simp only [] at hs
    split at hs
    · cases hs
      exact kept_quit _ _
    · split at hs
      · cases hs
        exact kept_quit _ _
      · cases hs
        exact .inr ⟨rfl, ((h.called _ _).respond responder _).goto hidle ⟨rfl, rfl⟩⟩
  next message responder hphase =>
    have hidle : s.phase.Idle := by rw [hphase]; exact ⟨rfl, rfl⟩
    have hcalled := h.called (.postMessage message s.sessionId) (client.postMessage none answer)
    simp only [] at hs
    split at hs <;> cases hs
    · exact .inr ⟨rfl, (hcalled.respond responder _).goto hidle ⟨rfl, rfl⟩⟩
    · exact .inr ⟨rfl, (hcalled.respond responder _).goto hidle ⟨rfl, rfl⟩⟩
    · exact .inr ⟨rfl, hcalled.reply hidle rfl rfl rfl rfl⟩
    · exact .inr ⟨rfl, ((hcalled.spawn hidle _).respond responder _).goto hidle ⟨rfl, rfl⟩⟩
  next => cases hs

/-- A stream that answers the initialize request is dropped when its first event is taken for
the response; otherwise the worker quits. -/
theorem kept_firstEvent {event : Option (Except String Sse)}
    (hkeeps : ¬ DropsStream s (.firstEvent event : Action S E)) (hs : s.firstEvent event = some s') :
    Kept s' := by
  unfold State.firstEvent at hs
  split at hs
  next k sessionId hphase =>
    split at hs
    · cases hs
      exact kept_quit _ _
    · cases hs
      exact kept_quit _ _
    next sse =>
      split at hs
      · cases hs
        exact kept_quit _ _
      next message hmessage =>
        cases hs
        cases sessionId with
        | none => exact kept_quit _ _
        | some sessionId => exact absurd ⟨k, sessionId, sse, message, hphase, rfl, hmessage⟩ hkeeps
  next => cases hs

theorem kept_gotStream {client : StreamableHttpClient S E E'} {answer : Answer E S.Stream}
    (h : Sound s) (hs : s.gotStream client answer = some s') : Kept s' := by
  unfold State.gotStream at hs
  split at hs
  next hphase =>
    have hidle : s.phase.Idle := by rw [hphase]; exact ⟨rfl, rfl⟩
    have hcalled := h.called (.getStream s.sessionId none) (client.getStream none answer)
    simp only [] at hs
    split at hs <;> cases hs
    · exact .inr ⟨rfl, (hcalled.spawn hidle _).goto hidle ⟨rfl, rfl⟩⟩
    · exact .inr ⟨rfl, hcalled.goto hidle ⟨rfl, rfl⟩⟩
    · exact kept_quit _ _
  next => cases hs

theorem kept_sendToHandler (h : Sound s) (hs : s.sendToHandler = some s') : Kept s' := by
  unfold State.sendToHandler at hs
  split at hs
  next source message resume hphase =>
    split at hs
    · cases hs
      exact kept_quit _ _
    split at hs
    · have hhanded : s.forwarded ++ [(source, message)] ++ s.sseWorker = s.handedOn := by
        simp [State.handedOn, hphase, Phase.pending]
      have hexpected : s.phase.expected = none := by rw [hphase]; rfl
      cases resume <;> cases hs <;> exact .inr ⟨rfl, h.of_same hhanded rfl hexpected.symm⟩
    · cases hs
  next => cases hs

theorem kept_recvServerMessage (h : Sound s) (hs : s.recvServerMessage = some s') : Kept s' := by
  unfold State.recvServerMessage at hs
  split at hs
  next source message sseWorker hphase hqueue =>
    cases hs
    refine .inr ⟨rfl, h.of_same ?_ rfl ?_⟩
    · simp [State.handedOn, State.goto, hphase, hqueue, Phase.pending]
    · rw [hphase]
      rfl
  next => cases hs

theorem kept_joined {k : Nat} (h : Sound s) (hs : s.joined k = some s') : Kept s' := by
  unfold State.joined at hs
  split at hs
  next messages ended result hphase hsource =>
    cases hs
    have hk := h.accounts k
    rw [hsource] at hk
    have htended := h.tended k _ hsource
    refine .inr ⟨?_, h.set hsource rfl hk (fun _ _ => rfl) rfl ⟨htended.ended_iff, fun _ => rfl⟩⟩
    rw [State.setSource, hphase]
    rfl
  next => cases hs

theorem kept_polled {k : Nat} {messages : List (ServerJsonRpcMessage S.P)} {ended : Bool}
    {stream stream' : SseAutoReconnectStream S.Stream} (h : Sound s)
    (hsource : s.sources[k]? = some ⟨messages, ended, some (.reading stream)⟩)
    (polled : Polled (ServerJsonRpcMessage S.P) (StreamableHttpError E')) :
    Sound (s.polled k ⟨messages, ended, none⟩ stream' polled) := by
  have hk : ofSource k s.handedOn ++ [] = messages := by
    have hk := h.accounts k
    rw [hsource] at hk
    exact hk
  obtain ⟨hended, hexpected⟩ := h.tended k _ hsource
  have hopen : ended = false := by
    simpa [Source.IsRead] using hended
  have hnot : s.phase.expected ≠ some k := by
    intro he
    cases hexpected he
  have hend : ∀ result, Sound (s.setSource k ⟨messages, true, some (.finished result)⟩) :=
    fun result => h.set hsource rfl hk (fun _ _ => rfl) rfl
      ⟨by simp [Source.IsRead, State.setSource, hnot], fun he => absurd he hnot⟩
  have hread : Sound (s.setSource k ⟨messages, ended, some (.reading stream')⟩) :=
    h.set hsource rfl hk (fun _ _ => rfl) rfl
      ⟨by simp [Source.IsRead, hopen], fun he => absurd he hnot⟩
  obtain _ | _ | _ | e | message := polled
  · exact hread
  · exact hread
  · exact hend _
  · exact hend _
  · refine h.set hsource rfl ?_ (fun _ _ => rfl) rfl
      ⟨by simp [Source.IsRead, hopen], fun he => absurd he hnot⟩
    rw [← hk, List.append_nil]
    rfl

theorem kept_turn {client : StreamableHttpClient S E E'} {k : Nat} {event : Event S E}
    (hrunning : s.phase.hasQuit = false) (h : Sound s) (hs : s.turn client k event = some s') : Kept s' := by
  unfold State.turn at hs
  split at hs
  next messages ended stream hsource =>
    obtain ⟨⟨stream', polled⟩, -, rfl⟩ := Option.map_eq_some_iff.mp hs
    have hawaited : Sound (s.awaited client stream event).1 := by
      cases event with
      | retried answer => exact h.called _ _
      | _ => exact h
    have hsources : (s.awaited client stream event).1.sources = s.sources := by
      cases event <;> rfl
    have hphase : ∀ source, ((s.awaited client stream event).1.polled k source stream' polled).phase =
        s.phase := by
      intro source
      cases event <;> obtain _ | _ | _ | _ | _ := polled <;> rfl
    refine .inr ⟨?_, kept_polled hawaited (by rw [hsources]; exact hsource) polled⟩
    exact (congrArg Phase.hasQuit (hphase _)).trans hrunning
  next => cases hs

/-- The message that a task held is at the end of the channel now. -/
theorem kept_taskSends {k : Nat} (hrunning : s.phase.hasQuit = false) (h : Sound s)
    (hs : s.taskSends k = some s') : Kept s' := by
  unfold State.taskSends at hs
  split at hs
  next messages ended stream message hsource =>
    split at hs
    · cases hs
      have hk : ofSource k s.handedOn ++ [message] = messages := by
        have hk := h.accounts k
        rw [hsource] at hk
        exact hk
      have hhanded : s.forwarded ++ (s.phase.pending ++ (s.sseWorker ++ [(k, message)])) =
          s.handedOn ++ [(k, message)] := by
        simp [State.handedOn]
      have htended := h.tended k _ hsource
      refine .inr ⟨hrunning, h.set hsource rfl ?_ (fun j hj => ?_) rfl
        ⟨htended.ended_iff, fun he => absurd (htended.expected he) (by simp)⟩⟩
      · have happend : ofSource k (s.handedOn ++ [(k, message)]) ++ [] = messages := by
          simpa using hk
        rw [← hhanded] at happend
        exact happend
      · have happend : ofSource j (s.handedOn ++ [(k, message)]) = ofSource j s.handedOn := by
          simp [ofSource_cons_of_ne (Ne.symm hj)]
        rw [← hhanded] at happend
        exact happend
    · cases hs
  next => cases hs

theorem kept_step {client : StreamableHttpClient S E E'} {a : Action S E}
    (hrunning : s.phase.hasQuit = false) (h : Sound s)
    (hkeeps : ¬ DropsStream s a) (hcancels : ¬ CancelsTask a) (hs : step client s a = some s') :
    Kept s' := by
  cases a with
  | handlerSends | handlerReads | dropSenders | deleteStarts =>
    obtain ⟨-, ⟨⟩⟩ := Option.ite_none_right_eq_some.mp hs
    exact .inr ⟨hrunning, h.of_same rfl rfl rfl⟩
  | dropTransport | cancel =>
    cases hs
    exact .inr ⟨hrunning, h.of_same rfl rfl rfl⟩
  | recv => exact kept_recv h hs
  | posted answer => exact kept_posted h hs
  | firstEvent event => exact kept_firstEvent hkeeps hs
  | gotStream answer => exact kept_gotStream h hs
  | sendToHandler => exact kept_sendToHandler h hs
  | observeCancel =>
    simp only [step] at hs
    split at hs
    · obtain ⟨-, ⟨⟩⟩ := Option.ite_none_right_eq_some.mp hs
      exact kept_quit s _
    · cases hs
  | recvServerMessage => exact kept_recvServerMessage h hs
  | joined k => exact kept_joined h hs
  | turn k event => exact kept_turn hrunning h hs
  | taskSends k => exact kept_taskSends hrunning h hs
  | taskCancelled k => exact absurd ⟨k, rfl⟩ hcancels
  | deleted answer =>
    simp only [step] at hs
    split at hs
    · cases hs
      exact .inr ⟨hrunning, h.of_same rfl rfl rfl⟩
    · cases hs

theorem quit_drops_nothing {client : StreamableHttpClient S E E'} {a : Action S E} (h : Quit s)
    (hs : step client s a = some s') : ¬ DropsStream s a ∧ ¬ CancelsTask a := by
  constructor
  · rintro ⟨k, sessionId, sse, message, hphase, -⟩
    have hquit := h.hasQuit
    rw [hphase] at hquit
    cases hquit
  · rintro ⟨k, rfl⟩
    simp only [step, State.taskCancelled] at hs
    split at hs
    next hsource => cases h.aborted k _ hsource
    next => cases hs

/-- Nothing that is left running brings the worker or its tasks back. -/
theorem quit_step {client : StreamableHttpClient S E E'} {a : Action S E} (h : Quit s)
    (hs : step client s a = some s') : Quit s' := by
  obtain ⟨hquit, haborted⟩ := h
  have hphase : ∃ reason, s.phase = .quit reason := by
    cases hp : s.phase with
    | quit reason => exact ⟨reason, rfl⟩
    | _ =>
      rw [hp] at hquit
      cases hquit
  obtain ⟨reason, hphase⟩ := hphase
  cases a with
  | handlerSends | handlerReads | dropSenders | deleteStarts =>
    obtain ⟨-, ⟨⟩⟩ := Option.ite_none_right_eq_some.mp hs
    exact ⟨hquit, haborted⟩
  | dropTransport | cancel =>
    cases hs
    exact ⟨hquit, haborted⟩
  | recv =>
    simp only [step, State.recv, hphase, Phase.receives, Bool.and_false] at hs
    split at hs <;> cases hs
  | posted answer => simp [step, State.posted, hphase] at hs
  | firstEvent event => simp [step, State.firstEvent, hphase] at hs
  | gotStream answer => simp [step, State.gotStream, hphase] at hs
  | sendToHandler => simp [step, State.sendToHandler, hphase] at hs
  | observeCancel => simp [step, hphase] at hs
  | recvServerMessage => simp [step, State.recvServerMessage, hphase] at hs
  | joined k => simp [step, State.joined, hphase] at hs
  | turn k event =>
    simp only [step, State.turn] at hs
    split at hs
    next hsource => cases haborted k _ hsource
    next => cases hs
  | taskSends k =>
    simp only [step, State.taskSends] at hs
    split at hs
    next hsource => cases haborted k _ hsource
    next => cases hs
  | taskCancelled k => exact absurd ⟨k, rfl⟩ (quit_drops_nothing ⟨hquit, haborted⟩ hs).2
  | deleted answer =>
    simp only [step] at hs
    split at hs
    · cases hs
      exact ⟨hquit, haborted⟩
    · cases hs

/-! ## The two steps that drop a stream -/

/-- The source is still there, and nothing reads it any more. -/
theorem dropped_firstEvent {client : StreamableHttpClient S E E'} {a : Action S E}
    (hdrops : DropsStream s a) (hs : step client s a = some s') (h : Sound s) :
    s'.phase.hasQuit = false ∧ ¬ s'.ForwardsAll := by
  obtain ⟨k, sessionId, sse, message, hphase, rfl, hmessage⟩ := hdrops
  simp only [step, State.firstEvent, hphase, hmessage, Option.some.injEq] at hs
  subst hs
  refine ⟨rfl, fun hall => ?_⟩
  have hlt : k < s.sources.length := h.expected_lt k (by rw [hphase]; rfl)
  have hget : (s.sources.set k ⟨[message], false, none⟩)[k]? = some ⟨[message], false, none⟩ :=
    List.getElem?_set_self hlt
  rcases hall.is_read k _ hget rfl with hread | hexpected
  · exact hread
  · cases hexpected

theorem dropped_taskCancelled {client : StreamableHttpClient S E E'} {a : Action S E}
    (hcancels : CancelsTask a) (hs : step client s a = some s') (h : Sound s)
    (hrunning : s.phase.hasQuit = false) : s'.phase.hasQuit = false ∧ ¬ s'.ForwardsAll := by
  obtain ⟨k, rfl⟩ := hcancels
  simp only [step, State.taskCancelled] at hs
  split at hs
  next messages ended stream hsource =>
    obtain ⟨-, ⟨⟩⟩ := Option.ite_none_right_eq_some.mp hs
    have htended := h.tended k _ hsource
    have hlt : k < s.sources.length := (List.getElem?_eq_some_iff.mp hsource).1
    refine ⟨hrunning, fun hall => ?_⟩
    have hopen : ended = false := by
      simpa [Source.IsRead] using htended.ended_iff
    have hget : (s.setSource k ⟨messages, ended, some (.finished (.ok ()))⟩).sources[k]? =
        some ⟨messages, ended, some (.finished (.ok ()))⟩ := List.getElem?_set_self hlt
    rcases hall.is_read k _ hget hopen with hread | hexpected
    · exact hread
    · cases htended.expected hexpected
  next => cases hs

end Steps

/-! ## The run -/

variable {client : StreamableHttpClient S E E'} {as : List (Action S E)} {s : State S E'}

/-- In every state that is reached before the worker quits it forwards all that its sources
bring, exactly when no step of the run drops a stream: the initialize response never comes off
an event stream, and no stream task takes its cancellation branch. -/
theorem forwards_all_iff (hrun : Transition.Run (step client) (init S E') as s) :
    (∀ bs t, bs <+: as → exec (step client) (init S E') bs = some t → t.phase.hasQuit = false →
        t.ForwardsAll) ↔
      Always (step client) (fun s a => ¬ DropsStream s a ∧ ¬ CancelsTask a) (init S E') as := by
  rw [Transition.always_reached_iff]
  have hinit : Sound (init S E') := sound_init
  refine (and_iff_right fun _ => hinit.forwardsAll).trans ?_
  refine hrun.always_iff (P := fun _ s => Kept s) (.inr ⟨rfl, hinit⟩) ?_
  rintro - s s' a - (hquit | ⟨hrunning, hsound⟩) hs
  · have hquit' := quit_step hquit hs
    refine ⟨iff_of_true ?_ (quit_drops_nothing hquit hs), fun _ => .inl hquit'⟩
    intro t ht hrunning
    rw [hs] at ht
    cases ht
    rw [hquit'.hasQuit] at hrunning
    cases hrunning
  · refine ⟨⟨fun hall => ⟨fun hdrops => ?_, fun hcancels => ?_⟩, fun hkeeps t ht hrunning' => ?_⟩,
      fun hkeeps => kept_step hrunning hsound hkeeps.1 hkeeps.2 hs⟩
    · obtain ⟨hrunning', hnot⟩ := dropped_firstEvent hdrops hs hsound
      exact hnot (hall s' hs hrunning')
    · obtain ⟨hrunning', hnot⟩ := dropped_taskCancelled hcancels hs hsound hrunning
      exact hnot (hall s' hs hrunning')
    · rw [hs] at ht
      cases ht
      rcases kept_step hrunning hsound hkeeps.1 hkeeps.2 hs with hquit | ⟨-, hsound'⟩
      · rw [hquit.hasQuit] at hrunning'
        cases hrunning'
      · exact hsound'.forwardsAll

/-- An event that carries the response to the initialize request. -/
def responseEvent : Sse := ⟨some "message", some initializeText, none, none⟩

/-- The common stream brings one message, and ends. -/
def commonMessageRun : List (Action plainSetup Unit) :=
  handshakeRun ++
    [.gotStream ⟨.ok "token", .ok 1⟩, .turn 1 (.item (some (.ok responseEvent))), .taskSends 1,
      .turn 1 (.item none), .recvServerMessage, .sendToHandler, .joined 1]

theorem forwards_all_iff_commonMessageRun :
    ∃ s, Transition.Run (step (direct plainSetup Unit)) (init plainSetup Unit) commonMessageRun s ∧
      s.forwarded.map Prod.fst = [0, 1] ∧
      ((∀ bs t, bs <+: commonMessageRun →
          exec (step (direct plainSetup Unit)) (init plainSetup Unit) bs = some t →
          t.phase.hasQuit = false → t.ForwardsAll) ↔
        Always (step (direct plainSetup Unit)) (fun s a => ¬ DropsStream s a ∧ ¬ CancelsTask a)
          (init plainSetup Unit) commonMessageRun) := by
  have hrun : ∃ s, Transition.Run (step (direct plainSetup Unit)) (init plainSetup Unit)
      commonMessageRun s ∧ s.forwarded.map Prod.fst = [0, 1] :=
    ⟨_, Transition.run_of_exec rfl, rfl⟩
  obtain ⟨s, hrun, hforwarded⟩ := hrun
  exact ⟨s, hrun, hforwarded, forwards_all_iff hrun⟩

/-- The server answers the initialize request with an event stream. -/
def streamedRun : List (Action plainSetup Unit) :=
  initializeRun (.sse 0 (some "session")) ++ .firstEvent (some (.ok responseEvent)) ::
    initializedRun ++ [.gotStream ⟨.ok "token", .ok 1⟩]

/-- The worker serves the handler, and no event of that stream is ever read again. -/
theorem initialize_stream_dropped :
    ∃ s, Transition.Run (step (direct plainSetup Unit)) (init plainSetup Unit) streamedRun s ∧
      s.phase = .select ∧ (s.sources[0]?).map Source.ended = some false ∧
      (∀ event, step (direct plainSetup Unit) s (.turn 0 event) = none) ∧
      (∀ event, step (direct plainSetup Unit) s (.firstEvent event) = none) ∧
      ¬ ∀ bs t, bs <+: streamedRun →
        exec (step (direct plainSetup Unit)) (init plainSetup Unit) bs = some t →
        t.phase.hasQuit = false → t.ForwardsAll := by
  have hrun : ∃ s, exec (step (direct plainSetup Unit)) (init plainSetup Unit) streamedRun =
      some s ∧ s.phase = .select ∧ ∃ messages, s.sources[0]? = some ⟨messages, false, none⟩ :=
    ⟨_, rfl, rfl, _, rfl⟩
  obtain ⟨s, hexec, hphase, messages, hsource⟩ := hrun
  refine ⟨s, Transition.run_of_exec hexec, hphase, by rw [hsource]; rfl, fun event => ?_,
    fun event => ?_, fun hall => ?_⟩
  · simp [step, State.turn, hsource]
  · simp [step, State.firstEvent, hphase]
  · have hforwards := hall streamedRun s List.prefix_rfl hexec (by rw [hphase]; rfl)
    rcases hforwards.is_read 0 _ hsource rfl with hread | hexpected
    · exact hread
    · rw [hphase] at hexpected
      cases hexpected

end Rmcp.ClientWorker
