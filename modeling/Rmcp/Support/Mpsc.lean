import Mathlib.Logic.Function.Basic
import Mathlib.Tactic.Common

/-!
# Bounded channels

Multi-producer channels with one receiver each, as a task sees them that only sends. A
channel keeps every value that was ever offered to it, how many of those its receiver has
taken, and how many had been offered when the receiver was dropped. A send to a channel
whose receiver is gone is refused. A send to a full channel waits.

`Exec` is what a piece of a task does: it returns, it waits, or it panics. What waits has
no effect until it goes through.

Results:
1. `Mpsc.offered_send`: a send that returns appends its value to the channel it is made on,
   and changes nothing else.
2. `Mpsc.send_eq_error`: a send waits exactly when its channel is full and the receiver held.
3. `Mpsc.sendAll_fresh`: sends into a new channel go through, in order, while there is room.
-/

universe u v

/-- Why a task does not return. -/
inductive Stop
  | waits
  | panics
deriving DecidableEq

/-- The outcome of a piece of a task. -/
abbrev Exec (α : Type u) := Except Stop α

namespace Exec

variable {α β : Type u}

theorem bind_eq_ok {x : Exec α} {f : α → Exec β} {b : β} :
    (x >>= f) = .ok b ↔ ∃ a, x = .ok a ∧ f a = .ok b := by
  cases x with
  | error e =>
    constructor
    · intro h
      cases h
    · rintro ⟨a, ha, -⟩
      cases ha
  | ok a =>
    constructor
    · exact fun h => ⟨a, rfl, h⟩
    · rintro ⟨a', ha, h⟩
      cases ha
      exact h

theorem bind_eq_error {x : Exec α} {f : α → Exec β} {e : Stop} :
    (x >>= f) = .error e ↔ x = .error e ∨ ∃ a, x = .ok a ∧ f a = .error e := by
  cases x with
  | error e' =>
    constructor
    · intro h
      cases h
      exact .inl rfl
    · rintro (h | ⟨a, ha, -⟩)
      · cases h
        rfl
      · cases ha
  | ok a =>
    constructor
    · exact fun h => .inr ⟨a, rfl, h⟩
    · rintro (h | ⟨a', ha, h⟩)
      · cases h
      · cases ha
        exact h

theorem map_eq_error {x : Exec α} {f : α → β} {e : Stop} :
    x.map f = .error e ↔ x = .error e := by
  cases x <;> simp [Except.map]

@[simp] theorem bind_ok (a : α) (f : α → Exec β) : ((.ok a : Exec α) >>= f) = f a := rfl

end Exec

/-! ## One channel -/

/-- A bounded channel with its history. -/
structure Chan (α : Type u) where
  capacity : Nat
  /-- Every value given to a sender, accepted or refused, in order. -/
  offered : List α
  /-- How many values the receiver has taken. -/
  taken : Nat
  /-- How many values had been offered when the receiver was dropped. -/
  closedAt : Option Nat

namespace Chan

variable {α : Type u}

def new (capacity : Nat) : Chan α := ⟨capacity, [], 0, none⟩

/-- The values that got into the channel. -/
def accepted (c : Chan α) : List α :=
  match c.closedAt with
  | none => c.offered
  | some n => c.offered.take n

/-- The values the receiver has not taken yet. -/
def backlog (c : Chan α) : List α := c.accepted.drop c.taken

/-- The room that is left. -/
def available (c : Chan α) : Nat := c.capacity - c.backlog.length

/-- A send need not wait: there is room, or the receiver is gone. -/
def HasRoom (c : Chan α) : Prop := c.closedAt = none → 0 < c.available

/-- Send a value: whether it was accepted, and the channel afterwards. -/
def send (c : Chan α) (a : α) : Exec (Bool × Chan α) :=
  match c.closedAt with
  | some _ => .ok (false, { c with offered := c.offered ++ [a] })
  | none =>
    if c.available = 0 then .error .waits
    else .ok (true, { c with offered := c.offered ++ [a] })

/-- The receiver takes the next value, if it is there and there is one. -/
def receive (c : Chan α) : Chan α :=
  if c.closedAt = none ∧ 0 < c.backlog.length then { c with taken := c.taken + 1 } else c

/-- The receiver is dropped; what it has not taken is lost. -/
def close (c : Chan α) : Chan α :=
  { c with closedAt := some (c.closedAt.getD c.offered.length) }

theorem accepted_subset (c : Chan α) : c.accepted ⊆ c.offered := by
  unfold accepted
  split
  · exact List.Subset.refl _
  · exact List.take_subset _ _

@[simp] theorem available_new (capacity : Nat) : (new capacity : Chan α).available = capacity := by
  simp [available, backlog, accepted, new]

@[simp] theorem available_close_new (capacity : Nat) :
    (new capacity : Chan α).close.available = capacity := by
  simp [available, backlog, accepted, new, close]

@[simp] theorem capacity_receive (c : Chan α) : c.receive.capacity = c.capacity := by
  unfold receive
  split <;> rfl

@[simp] theorem offered_receive (c : Chan α) : c.receive.offered = c.offered := by
  unfold receive
  split <;> rfl

theorem send_eq_ok {c c' : Chan α} {a : α} {ok : Bool} (h : c.send a = .ok (ok, c')) :
    c' = { c with offered := c.offered ++ [a] } ∧ (ok = true ↔ c.closedAt = none) := by
  unfold send at h
  split at h
  · next hclosed =>
    cases h
    exact ⟨rfl, by simp [hclosed]⟩
  · next hopen =>
    split at h
    · cases h
    · cases h
      exact ⟨rfl, by simp [hopen]⟩

theorem send_eq_error {c : Chan α} {a : α} {e : Stop} :
    c.send a = .error e ↔ e = .waits ∧ ¬ c.HasRoom := by
  unfold send HasRoom
  cases c.closedAt with
  | some n => simp
  | none =>
    by_cases hfull : c.available = 0
    · simp [hfull, eq_comm]
    · simp [hfull, Nat.pos_of_ne_zero]

/-- A channel that nothing was sent on has room. -/
theorem hasRoom_of_offered_nil {c : Chan α} (hoffered : c.offered = [])
    (hcapacity : 0 < c.capacity) : c.HasRoom := by
  intro _
  have haccepted : c.accepted = [] := List.subset_nil.mp (hoffered ▸ c.accepted_subset)
  simpa [available, backlog, haccepted] using hcapacity

theorem send_open {c : Chan α} {a : α} (hopen : c.closedAt = none) (hroom : 0 < c.available) :
    c.send a = .ok (true, { c with offered := c.offered ++ [a] }) := by
  have hne : c.available ≠ 0 := by omega
  simp [send, hopen, hne]

/-- The history of a channel fits together. -/
structure Valid (c : Chan α) : Prop where
  taken_le : c.taken ≤ c.accepted.length
  closed_le : ∀ n, c.closedAt = some n → n ≤ c.offered.length

theorem valid_new (capacity : Nat) : (new capacity : Chan α).Valid :=
  ⟨Nat.zero_le _, by simp [new]⟩

theorem accepted_send {c c' : Chan α} {a : α} {ok : Bool} (hc : c.Valid)
    (h : c.send a = .ok (ok, c')) : c'.accepted = if ok then c.accepted ++ [a] else c.accepted := by
  obtain ⟨rfl, hok⟩ := send_eq_ok h
  cases hclosed : c.closedAt with
  | none => simp [accepted, hclosed, hok.mpr hclosed]
  | some n =>
    have hrefused : ok = false := by simpa [hclosed] using hok
    simp [accepted, hclosed, hrefused, List.take_append_of_le_length (hc.closed_le n hclosed)]

@[simp] theorem accepted_receive (c : Chan α) : c.receive.accepted = c.accepted := by
  unfold receive
  split <;> rfl

@[simp] theorem accepted_close (c : Chan α) : c.close.accepted = c.accepted := by
  unfold close accepted
  cases hclosed : c.closedAt <;> simp

theorem Valid.send {c c' : Chan α} {a : α} {ok : Bool} (hc : c.Valid)
    (h : c.send a = .ok (ok, c')) : c'.Valid := by
  have haccepted := accepted_send hc h
  obtain ⟨rfl, -⟩ := send_eq_ok h
  refine ⟨?_, fun n hn => ?_⟩
  · rw [haccepted]
    refine Nat.le_trans hc.taken_le ?_
    cases ok <;> simp
  · rw [List.length_append]
    exact Nat.le_trans (hc.closed_le n hn) (Nat.le_add_right _ _)

theorem Valid.close {c : Chan α} (hc : c.Valid) : c.close.Valid := by
  refine ⟨c.accepted_close.symm ▸ hc.taken_le, fun n hn => ?_⟩
  obtain rfl := Option.some.inj hn
  show c.closedAt.getD c.offered.length ≤ c.offered.length
  cases hclosed : c.closedAt with
  | none => exact Nat.le_refl _
  | some n => exact hc.closed_le n hclosed

/-- What the receiver of an open channel takes is the first value that it has not taken. -/
theorem receive_of_head {c : Chan α} {a : α} (hopen : c.closedAt = none)
    (ha : c.backlog.head? = some a) : c.receive.taken = c.taken + 1 ∧
      c.accepted.take (c.taken + 1) = c.accepted.take c.taken ++ [a] := by
  have hget : c.accepted[c.taken]? = some a := by
    rwa [backlog, List.head?_drop] at ha
  have hne : 0 < c.backlog.length := List.length_pos_iff.mpr fun hnil => by simp [hnil] at ha
  refine ⟨by simp [receive, hopen, hne], ?_⟩
  rw [List.take_add_one, hget, Option.toList_some]

theorem Valid.receive {c : Chan α} (hc : c.Valid) : c.receive.Valid := by
  unfold Chan.receive
  split
  · next hopen =>
    refine ⟨?_, hc.closed_le⟩
    have hlength := hopen.2
    rw [backlog, List.length_drop] at hlength
    show c.taken + 1 ≤ c.accepted.length
    omega
  · exact hc

end Chan

/-! ## All channels of a system -/

/-- The channels that have been created, numbered in order. A sender and a receiver are
known by the number of their channel. -/
structure Mpsc (α : Type u) where
  next : Nat
  chan : Nat → Chan α

namespace Mpsc

variable {α : Type u}

def empty : Mpsc α := ⟨0, fun _ => .new 0⟩

/-- Replace one channel. -/
def set (m : Mpsc α) (i : Nat) (c : Chan α) : Mpsc α :=
  { m with chan := Function.update m.chan i c }

/-- Create a channel; its number stands for both ends. -/
def channel (m : Mpsc α) (capacity : Nat) : Nat × Mpsc α :=
  (m.next, { next := m.next + 1, chan := Function.update m.chan m.next (.new capacity) })

def send (m : Mpsc α) (tx : Nat) (a : α) : Exec (Bool × Mpsc α) := do
  let (ok, c) ← (m.chan tx).send a
  return (ok, m.set tx c)

/-- Send values in order up to the first that is refused, which is returned. -/
def sendAll (m : Mpsc α) (tx : Nat) : List α → Exec (Except α Unit × Mpsc α)
  | [] => .ok (.ok (), m)
  | a :: as => do
    let (ok, m) ← m.send tx a
    if ok then m.sendAll tx as else return (.error a, m)

def receive (m : Mpsc α) (rx : Nat) : Mpsc α := m.set rx (m.chan rx).receive

def close (m : Mpsc α) (rx : Nat) : Mpsc α := m.set rx (m.chan rx).close

/-- Everything offered to channel `i`. -/
def offered (m : Mpsc α) (i : Nat) : List α := (m.chan i).offered

@[simp] theorem next_set (m : Mpsc α) (i : Nat) (c : Chan α) : (m.set i c).next = m.next := rfl

theorem chan_set (m : Mpsc α) (i j : Nat) (c : Chan α) :
    (m.set i c).chan j = if j = i then c else m.chan j := by
  simp [set, Function.update_apply]

theorem chan_channel (m : Mpsc α) (capacity j : Nat) :
    (m.channel capacity).2.chan j = if j = m.next then .new capacity else m.chan j := by
  simp [channel, Function.update_apply]

theorem offered_channel (m : Mpsc α) (capacity i : Nat) :
    (m.channel capacity).2.offered i = if i = m.next then [] else m.offered i := by
  unfold offered
  rw [chan_channel]
  split <;> rfl

theorem offered_set (m : Mpsc α) (i j : Nat) (c : Chan α) :
    (m.set i c).offered j = if j = i then c.offered else m.offered j := by
  simp only [offered, chan_set]
  split <;> rfl

@[simp] theorem offered_receive (m : Mpsc α) (rx i : Nat) :
    (m.receive rx).offered i = m.offered i := by
  unfold receive
  rw [offered_set]
  split
  · next h =>
    rw [h]
    exact Chan.offered_receive _
  · rfl

@[simp] theorem offered_close (m : Mpsc α) (rx i : Nat) :
    (m.close rx).offered i = m.offered i := by
  unfold close
  rw [offered_set]
  split
  · next h =>
    rw [h]
    rfl
  · rfl

/-- A send that returns appends to its own channel only. -/
theorem send_eq_ok {m m' : Mpsc α} {tx : Nat} {a : α} {ok : Bool}
    (h : m.send tx a = .ok (ok, m')) :
    m' = m.set tx { m.chan tx with offered := m.offered tx ++ [a] } := by
  obtain ⟨⟨ok', c⟩, hsend, hret⟩ := Exec.bind_eq_ok.mp h
  obtain ⟨rfl, -⟩ := Chan.send_eq_ok hsend
  cases hret
  rfl

theorem send_eq_error {m : Mpsc α} {tx : Nat} {a : α} {e : Stop} :
    m.send tx a = .error e ↔ e = .waits ∧ ¬ (m.chan tx).HasRoom := by
  rw [← Chan.send_eq_error (a := a), send, Exec.bind_eq_error]
  refine or_iff_left ?_
  rintro ⟨r, -, ⟨⟩⟩

theorem offered_send {m m' : Mpsc α} {tx : Nat} {a : α} {ok : Bool}
    (h : m.send tx a = .ok (ok, m')) (i : Nat) :
    m'.offered i = if i = tx then m.offered tx ++ [a] else m.offered i := by
  rw [send_eq_ok h, offered_set]

theorem next_send {m m' : Mpsc α} {tx : Nat} {a : α} {ok : Bool}
    (h : m.send tx a = .ok (ok, m')) : m'.next = m.next := by
  rw [send_eq_ok h, next_set]

theorem next_sendAll {m m' : Mpsc α} {tx : Nat} {as : List α} {r : Except α Unit}
    (h : m.sendAll tx as = .ok (r, m')) : m'.next = m.next := by
  induction as generalizing m with
  | nil =>
    cases h
    rfl
  | cons a as ih =>
    obtain ⟨⟨ok, m₁⟩, hsend, hrest⟩ := Exec.bind_eq_ok.mp h
    cases ok with
    | false =>
      cases hrest
      exact next_send hsend
    | true => exact (ih hrest).trans (next_send hsend)

theorem offered_sendAll_of_ne {m m' : Mpsc α} {tx i : Nat} {as : List α} {r : Except α Unit}
    (h : m.sendAll tx as = .ok (r, m')) (hi : i ≠ tx) : m'.offered i = m.offered i := by
  induction as generalizing m with
  | nil =>
    cases h
    rfl
  | cons a as ih =>
    obtain ⟨⟨ok, m₁⟩, hsend, hrest⟩ := Exec.bind_eq_ok.mp h
    have hoffered : m₁.offered i = m.offered i := (offered_send hsend i).trans (if_neg hi)
    cases ok with
    | false =>
      cases hrest
      exact hoffered
    | true => exact (ih hrest).trans hoffered

/-- Sending neither resizes a channel nor takes anything from it. -/
theorem chan_send {m m' : Mpsc α} {tx : Nat} {a : α} {ok : Bool}
    (h : m.send tx a = .ok (ok, m')) (i : Nat) :
    (m'.chan i).capacity = (m.chan i).capacity ∧ (m'.chan i).taken = (m.chan i).taken := by
  rw [send_eq_ok h, chan_set]
  split
  · next heq => exact ⟨heq ▸ rfl, heq ▸ rfl⟩
  · exact ⟨rfl, rfl⟩

theorem chan_sendAll {m m' : Mpsc α} {tx : Nat} {as : List α} {r : Except α Unit}
    (h : m.sendAll tx as = .ok (r, m')) (i : Nat) :
    (m'.chan i).capacity = (m.chan i).capacity ∧ (m'.chan i).taken = (m.chan i).taken := by
  induction as generalizing m with
  | nil =>
    cases h
    exact ⟨rfl, rfl⟩
  | cons a as ih =>
    obtain ⟨⟨ok, m₁⟩, hsend, hrest⟩ := Exec.bind_eq_ok.mp h
    have hfirst := chan_send hsend i
    cases ok with
    | false =>
      cases hrest
      exact hfirst
    | true =>
      obtain ⟨hcapacity, htaken⟩ := ih hrest
      exact ⟨hcapacity.trans hfirst.1, htaken.trans hfirst.2⟩

/-- Sends into an open channel go through while there is room. -/
theorem sendAll_open {m : Mpsc α} {tx : Nat} {as : List α} (hopen : (m.chan tx).closedAt = none)
    (htaken : (m.chan tx).taken = 0)
    (hroom : (m.offered tx).length + as.length ≤ (m.chan tx).capacity) :
    ∃ m', m.sendAll tx as = .ok (.ok (), m') ∧ m'.offered tx = m.offered tx ++ as := by
  induction as generalizing m with
  | nil => exact ⟨m, rfl, by simp⟩
  | cons a as ih =>
    have havail : 0 < (m.chan tx).available := by
      simp only [List.length_cons, offered] at hroom
      simp only [Chan.available, Chan.backlog, Chan.accepted, hopen, htaken, List.drop_zero]
      omega
    have hsend : m.send tx a =
        .ok (true, m.set tx { m.chan tx with offered := m.offered tx ++ [a] }) := by
      unfold send
      rw [Chan.send_open hopen havail]
      rfl
    obtain ⟨m', hall, hoffered⟩ :=
      ih (m := m.set tx { m.chan tx with offered := m.offered tx ++ [a] })
        (by simp [chan_set, hopen]) (by simp [chan_set, htaken])
        (by simp only [offered_set, chan_set, ↓reduceIte, List.length_append, List.length_cons,
              List.length_nil] at hroom ⊢
            omega)
    refine ⟨m', ?_, ?_⟩
    · simp only [sendAll, hsend, Exec.bind_ok, ↓reduceIte, hall]
    · simp [hoffered, offered_set]

/-- Sends into a new channel go through while there is room. -/
theorem sendAll_fresh (m : Mpsc α) {capacity : Nat} {as : List α} (hroom : as.length ≤ capacity) :
    ∃ m', (m.channel capacity).2.sendAll m.next as = .ok (.ok (), m') ∧
      m'.offered m.next = as := by
  have hchan : (m.channel capacity).2.chan m.next = .new capacity := by simp [chan_channel]
  obtain ⟨m', hall, hoffered⟩ := @sendAll_open _ (m.channel capacity).2 m.next as
    (by rw [hchan]; rfl) (by rw [hchan]; rfl)
    (by rw [offered, hchan]; simpa [Chan.new] using hroom)
  refine ⟨m', hall, ?_⟩
  rw [hoffered, offered, hchan]
  rfl

end Mpsc
