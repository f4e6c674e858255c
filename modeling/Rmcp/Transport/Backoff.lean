import Rmcp.Transport.Retrying

/-!
# Exact delays

`ExponentialBackoff::retry` with the arithmetic of the machine. The power is a `u32`: in a debug
build it panics when it gets too large, and in a release build it wraps around. The product is a
`Duration`, and panics in either build.

A stream without a bound on its attempts gets to every count, so to the thirty-second one, where
the power is too large.

Results:
1. `Duration.checkedMul_eq_some`: the product is exact when there is one.
2. `reaches_of_accepts`: the counts that a stream gets to while the policy does not refuse.
3. `ExactBackoff.retry_asMillis`: in a release build this is the policy of the stream's model.
4. `backoff_safe_iff`: the delays are exact, and do not shrink, exactly for a policy with a bound
   of at most 32 attempts.
5. `default_backoff_overflows`: the default policy has none.
-/

namespace Rmcp

/-! ## Durations -/

/-- `NANOS_PER_SEC`. -/
def nanosPerSec : Nat := 1000000000

structure Duration where
  secs : Nat
  nanos : Nat
  secs_lt : secs < UInt64.size
  nanos_lt : nanos < nanosPerSec
deriving DecidableEq

namespace Duration

def asNanos (d : Duration) : Nat := d.secs * nanosPerSec + d.nanos

def asMillis (d : Duration) : Nat := d.secs * 1000 + d.nanos / 1000000

def ofSecs (secs : UInt64) : Duration := ⟨secs.toNat, 0, secs.toNat_lt, by decide⟩

/-- The seconds are compared first. -/
instance : LE Duration := ⟨fun d d' => d.secs < d'.secs ∨ (d.secs = d'.secs ∧ d.nanos ≤ d'.nanos)⟩

/-- The nanoseconds are multiplied in a `u64`, which is large enough for them. -/
def checkedMul (d : Duration) (factor : Nat) : Option Duration :=
  let totalNanos := d.nanos * factor
  let extraSecs := totalNanos / nanosPerSec
  if h : d.secs * factor + extraSecs < UInt64.size then
    some ⟨d.secs * factor + extraSecs, totalNanos % nanosPerSec, h, Nat.mod_lt _ (by decide)⟩
  else none

theorem le_iff {d d' : Duration} : d ≤ d' ↔ d.asNanos ≤ d'.asNanos := by
  have hlt := d.nanos_lt
  have hlt' := d'.nanos_lt
  change d.secs < d'.secs ∨ (d.secs = d'.secs ∧ d.nanos ≤ d'.nanos) ↔ _
  simp only [asNanos, nanosPerSec] at hlt hlt' ⊢
  omega

theorem checkedMul_asNanos {d d' : Duration} {factor : Nat} (h : d.checkedMul factor = some d') :
    d'.asNanos = d.asNanos * factor := by
  simp only [checkedMul] at h
  split at h
  · cases h
    have hcarry := Nat.div_add_mod (d.nanos * factor) nanosPerSec
    simp only [asNanos, Nat.add_mul, Nat.mul_right_comm d.secs]
    rw [Nat.mul_comm] at hcarry
    omega
  · cases h

/-- There is a product when it fits. -/
theorem checkedMul_of_lt {d : Duration} {factor : Nat}
    (h : d.asNanos * factor < UInt64.size * nanosPerSec) : ∃ d', d.checkedMul factor = some d' := by
  have hcarry := Nat.div_mul_le_self (d.nanos * factor) nanosPerSec
  have hfits : d.secs * factor + d.nanos * factor / nanosPerSec < UInt64.size := by
    refine Nat.lt_of_mul_lt_mul_right (a := nanosPerSec) (Nat.lt_of_le_of_lt ?_ h)
    simp only [asNanos, Nat.add_mul, Nat.mul_right_comm d.secs]
    omega
  exact ⟨_, dif_pos hfits⟩

end Duration

/-! ## The policy -/

inductive Build
  | debug
  | release
deriving DecidableEq

/-- `u32::pow`. -/
def Build.pow : Build → Nat → Nat → Option Nat
  | .debug, base, exponent =>
    if base ^ exponent < UInt32.size then some (base ^ exponent) else none
  | .release, base, exponent => some (base ^ exponent % UInt32.size)

/-- What overflows when `retry` panics. -/
inductive Overflow
  | pow
  | duration
deriving DecidableEq

/-- `ExponentialBackoff` with a base duration to the nanosecond. -/
structure ExactBackoff where
  maxTimes : Option Nat
  baseDuration : Duration
deriving DecidableEq

namespace ExactBackoff

/-- The count is cast to a `u32`, which drops its high bits. -/
def retry (p : ExactBackoff) (build : Build) (currentTimes : Nat) :
    Except Overflow (Option Duration) :=
  if p.maxTimes.any (· ≤ currentTimes) then .ok none
  else
    match build.pow 2 (currentTimes % UInt32.size) with
    | none => .error .pow
    | some factor =>
      match p.baseDuration.checkedMul factor with
      | none => .error .duration
      | some interval => .ok (some interval)

/-- `ExponentialBackoff::default`. -/
def default : ExactBackoff := ⟨none, .ofSecs 1⟩

/-- The policy with its base duration in whole milliseconds. -/
def inMillis (p : ExactBackoff) : ExponentialBackoff := ⟨p.maxTimes, p.baseDuration.asMillis⟩

/-- Within the bound, the power and the product decide. -/
theorem retry_within {p : ExactBackoff} {build : Build} {currentTimes : Nat}
    (hbound : ¬ p.maxTimes.any (· ≤ currentTimes)) :
    p.retry build currentTimes =
      match build.pow 2 (currentTimes % UInt32.size) with
      | none => .error .pow
      | some factor =>
        match p.baseDuration.checkedMul factor with
        | none => .error .duration
        | some interval => .ok (some interval) :=
  if_neg hbound

theorem retry_eq_none {p : ExactBackoff} {b : Build} {currentTimes : Nat} :
    p.retry b currentTimes = .ok none ↔ p.maxTimes.any (· ≤ currentTimes) := by
  constructor
  · intro h
    by_contra hbound
    rw [retry_within hbound] at h
    split at h
    · cases h
    · split at h <;> cases h
  · exact fun hbound => if_pos hbound

/-- Both refuse the same attempts, whatever the arithmetic of the build is. -/
theorem inMillis_eq_none {p : ExactBackoff} {b : Build} {currentTimes : Nat} :
    p.inMillis.retry currentTimes = none ↔ p.retry b currentTimes = .ok none := by
  rw [retry_eq_none]
  by_cases hbound : p.maxTimes.any (· ≤ currentTimes)
  · exact iff_of_true (if_pos hbound) hbound
  · refine iff_of_false ?_ hbound
    have hsome : p.inMillis.retry currentTimes = some _ := if_neg hbound
    rw [hsome]
    exact Option.some_ne_none _

/-- A delay is the base duration times the power. -/
theorem retry_asNanos {p : ExactBackoff} {build : Build} {currentTimes : Nat} {interval : Duration}
    (h : p.retry build currentTimes = .ok (some interval)) :
    ∃ factor, build.pow 2 (currentTimes % UInt32.size) = some factor ∧
      interval.asNanos = p.baseDuration.asNanos * factor := by
  have hbound : ¬ p.maxTimes.any (· ≤ currentTimes) := by
    intro hbound
    rw [retry_eq_none.mpr hbound] at h
    cases h
  rw [retry_within hbound] at h
  split at h
  · cases h
  · next factor hpow =>
    split at h
    · cases h
    · next hmul =>
      cases h
      exact ⟨factor, hpow, Duration.checkedMul_asNanos hmul⟩

/-- With a base duration of whole milliseconds they also pause equally long, in a release build. -/
theorem retry_asMillis {p : ExactBackoff} {currentTimes : Nat} {interval : Duration}
    (hwhole : p.baseDuration.nanos % 1000000 = 0)
    (h : p.retry .release currentTimes = .ok (some interval)) :
    p.inMillis.retry currentTimes = some interval.asMillis := by
  obtain ⟨factor, hpow, hnanos⟩ := retry_asNanos h
  have hsome : p.inMillis.retry currentTimes = some (p.baseDuration.asMillis * factor) := by
    have hbound : ¬ p.maxTimes.any (· ≤ currentTimes) := by
      rw [← retry_eq_none (b := .release), h]
      simp
    rw [← Option.some.inj hpow]
    exact if_neg hbound
  have hmillis : ∀ d : Duration, d.asMillis = d.asNanos / 1000000 := by
    intro d
    simp only [Duration.asMillis, Duration.asNanos, nanosPerSec]
    omega
  have hexact : p.baseDuration.asNanos = 1000000 * p.baseDuration.asMillis := by
    simp only [Duration.asMillis, Duration.asNanos, nanosPerSec]
    omega
  rw [hsome, hmillis interval, hnanos, hexact, Nat.mul_assoc, Nat.mul_div_cancel_left _ (by decide)]

end ExactBackoff

/-! ## The counts that a stream gets to -/

namespace SseAutoReconnectStream

variable {S M E : Type}

/-- A stream asks its policy with `currentTimes`: an attempt fails after so many. -/
def Reaches (retryPolicy : SseRetryPolicy) (fromStr : String → Option M) (stream : S) (e : E)
    (currentTimes : Nat) : Prop :=
  ∃ (as : List (Awaited S E)) (s s' : SseAutoReconnectStream S) (retryTimes : Nat),
    Runs retryPolicy fromStr stream as s ∧ s.state = .retrying retryTimes ∧
      step retryPolicy fromStr s (.retried (.error e)) = some s' ∧ currentTimes = retryTimes + 1

/-- While the policy does not refuse, the count goes on. -/
theorem reaches_of_accepts {retryPolicy : SseRetryPolicy} (fromStr : String → Option M) (stream : S)
    (e : E) {retryTimes : Nat}
    (haccepts : ∀ n, n ≤ retryTimes → retryPolicy n ≠ none) :
    Reaches retryPolicy fromStr stream e (retryTimes + 1) := by
  have hruns : ∃ (as : List (Awaited S E)) (s : SseAutoReconnectStream S),
      Runs retryPolicy fromStr stream as s ∧ s.state = .retrying retryTimes := by
    induction retryTimes with
    | zero =>
      exact ⟨_, _, .snoc (a := .item (some (.error e))) .nil rfl, rfl⟩
    | succ retryTimes ih =>
      obtain ⟨as, s, hrun, hstate⟩ := ih fun n hn => haccepts n (Nat.le_succ_of_le hn)
      obtain ⟨interval, hinterval⟩ :=
        Option.ne_none_iff_exists'.mp (haccepts (retryTimes + 1) (Nat.le_refl _))
      -- the attempt fails, and the pause passes
      have hfails : step retryPolicy fromStr s (.retried (.error e)) = some
          { s with state := .waitingNextRetry (s.interval interval) (retryTimes + 1) } := by
        simp [step, pollNext, hstate, hinterval]
      exact ⟨_, _, .snoc (a := .slept) (.snoc hrun hfails) rfl, rfl⟩
  obtain ⟨as, s, hrun, hstate⟩ := hruns
  obtain ⟨s', hfails⟩ : ∃ s', step retryPolicy fromStr s (.retried (.error e)) = some s' := by
    cases hpolicy : retryPolicy (retryTimes + 1) with
    | none => exact ⟨{ s with state := .terminated }, by simp [step, pollNext, hstate, hpolicy]⟩
    | some interval =>
      exact ⟨{ s with state := .waitingNextRetry (s.interval interval) (retryTimes + 1) },
        by simp [step, pollNext, hstate, hpolicy]⟩
  exact ⟨as, s, s', retryTimes, hrun, hstate, hfails, rfl⟩

end SseAutoReconnectStream

/-! ## When the delays are exact -/

namespace ExactBackoff

/-- `retry` refuses, or its delay is the base duration times the power of two; no arithmetic
overflows. -/
def ComputesDelay (p : ExactBackoff) (currentTimes : Nat) : Prop :=
  p.retry .debug currentTimes = .ok none ∨
    ∃ interval, p.retry .debug currentTimes = .ok (some interval) ∧
      interval.asNanos = p.baseDuration.asNanos * 2 ^ currentTimes

/-- In neither build is the next delay shorter. -/
def NeverShrinks (p : ExactBackoff) (currentTimes : Nat) : Prop :=
  ∀ build interval interval', p.retry build currentTimes = .ok (some interval) →
    p.retry build (currentTimes + 1) = .ok (some interval') → interval ≤ interval'

/-- The delays are right at every count that a stream gets to. -/
def Safe {S M E : Type} (p : ExactBackoff) (fromStr : String → Option M) (stream : S) (e : E) :
    Prop :=
  ∀ currentTimes,
    SseAutoReconnectStream.Reaches p.inMillis.retry fromStr stream e currentTimes →
      p.ComputesDelay currentTimes ∧ p.NeverShrinks currentTimes

theorem pow_of_lt {build : Build} {currentTimes : Nat} (h : currentTimes < 32) :
    build.pow 2 (currentTimes % UInt32.size) = some (2 ^ currentTimes) := by
  have hsmall : currentTimes % UInt32.size = currentTimes :=
    Nat.mod_eq_of_lt (Nat.lt_trans h (by decide))
  have hpow : 2 ^ currentTimes < UInt32.size := Nat.pow_lt_pow_right (by decide) h
  rw [hsmall]
  cases build with
  | debug => exact if_pos hpow
  | release => exact congrArg some (Nat.mod_eq_of_lt hpow)

/-- Multiplied by a `u32`, one hour stays within the range of `Duration`. -/
theorem retry_of_lt {p : ExactBackoff} (hbase : p.baseDuration ≤ .ofSecs 3600) {b : Build}
    {currentTimes : Nat} (hbound : ¬ p.maxTimes.any (· ≤ currentTimes)) (h : currentTimes < 32) :
    ∃ interval, p.retry b currentTimes = .ok (some interval) ∧
      interval.asNanos = p.baseDuration.asNanos * 2 ^ currentTimes := by
  have hfits : p.baseDuration.asNanos * 2 ^ currentTimes < UInt64.size * nanosPerSec :=
    calc p.baseDuration.asNanos * 2 ^ currentTimes
      _ ≤ (Duration.ofSecs 3600).asNanos * UInt32.size :=
        Nat.mul_le_mul (Duration.le_iff.mp hbase)
          (Nat.le_of_lt (Nat.pow_lt_pow_right (by decide) h))
      _ < UInt64.size * nanosPerSec := by decide
  obtain ⟨interval, hmul⟩ := Duration.checkedMul_of_lt hfits
  refine ⟨interval, ?_, Duration.checkedMul_asNanos hmul⟩
  rw [retry_within hbound, pow_of_lt h]
  simp only [hmul]

theorem safe_of_bound {S M E : Type} {p : ExactBackoff} (hbase : p.baseDuration ≤ .ofSecs 3600)
    {maxTimes : Nat} (hmax : p.maxTimes = some maxTimes) (hle : maxTimes ≤ 32)
    (fromStr : String → Option M) (stream : S) (e : E) : p.Safe fromStr stream e := by
  have hlt : ∀ {currentTimes}, ¬ p.maxTimes.any (· ≤ currentTimes) → currentTimes < 32 := by
    intro currentTimes hbound
    simp only [hmax, Option.any_some, decide_eq_true_eq] at hbound
    omega
  intro currentTimes _
  refine ⟨?_, fun build interval interval' h h' => ?_⟩
  · by_cases hbound : p.maxTimes.any (· ≤ currentTimes)
    · exact .inl (retry_eq_none.mpr hbound)
    · exact .inr (retry_of_lt hbase hbound (hlt hbound))
  · have hwithin : ∀ {n d}, p.retry build n = .ok (some d) → ¬ p.maxTimes.any (· ≤ n) := by
      intro n d h
      rw [← retry_eq_none (b := build), h]
      simp
    obtain ⟨d, hd, hnanos⟩ :=
      retry_of_lt hbase (b := build) (hwithin h) (hlt (hwithin h))
    obtain ⟨d', hd', hnanos'⟩ :=
      retry_of_lt hbase (b := build) (hwithin h') (hlt (hwithin h'))
    cases h.symm.trans hd
    cases h'.symm.trans hd'
    rw [Duration.le_iff, hnanos, hnanos']
    exact Nat.mul_le_mul_left _ (Nat.pow_le_pow_right (by decide) (Nat.le_succ _))

/-- At the thirty-second failure the power of two is too large. -/
theorem not_safe_of_unbounded {S M E : Type} {p : ExactBackoff}
    (hbound : ¬ p.maxTimes.any (· ≤ 32)) (fromStr : String → Option M) (stream : S) (e : E) :
    ¬ p.Safe fromStr stream e := by
  intro hsafe
  have hreaches : SseAutoReconnectStream.Reaches p.inMillis.retry fromStr stream e (31 + 1) := by
    refine SseAutoReconnectStream.reaches_of_accepts fromStr stream e fun n hn hnone => hbound ?_
    obtain ⟨maxTimes, hmax, hle⟩ := (Option.any_eq_true ..).mp
      (retry_eq_none.mp ((inMillis_eq_none (b := .debug)).mp hnone))
    have hle := of_decide_eq_true hle
    simp only [hmax, Option.any_some, decide_eq_true_eq]
    omega
  have hpow : Build.debug.pow 2 (32 % UInt32.size) = none := by decide
  rcases (hsafe 32 hreaches).1 with hnone | ⟨interval, hsome, -⟩
  · exact hbound (retry_eq_none.mp hnone)
  · obtain ⟨factor, hfactor, -⟩ := retry_asNanos hsome
    rw [hpow] at hfactor
    cases hfactor

/-- With a base duration of at most an hour, the delays are exact and never shrink exactly when the
policy allows at most 32 attempts. -/
theorem backoff_safe_iff {S M E : Type} (p : ExactBackoff)
    (hbase : p.baseDuration ≤ .ofSecs 3600) (fromStr : String → Option M) (stream : S) (e : E) :
    p.Safe fromStr stream e ↔ ∃ maxTimes, p.maxTimes = some maxTimes ∧ maxTimes ≤ 32 := by
  constructor
  · intro hsafe
    by_contra hnone
    refine not_safe_of_unbounded (fun hbound => hnone ?_) fromStr stream e hsafe
    obtain ⟨maxTimes, hmax, hle⟩ := (Option.any_eq_true ..).mp hbound
    exact ⟨maxTimes, hmax, of_decide_eq_true hle⟩
  · rintro ⟨maxTimes, hmax, hle⟩
    exact safe_of_bound hbase hmax hle fromStr stream e

open SseAutoReconnectStream (anyText)

theorem backoff_safe_iff_thirtyTwo :
    (⟨some 32, .ofSecs 3600⟩ : ExactBackoff).Safe anyText 0 () :=
  (backoff_safe_iff ⟨some 32, .ofSecs 3600⟩ (.inr ⟨rfl, Nat.le_refl _⟩) anyText 0 ()).mpr
    ⟨32, rfl, Nat.le_refl _⟩

/-- The default policy does not stop: after 32 failures a debug build panics, and a release build
does not pause at all. -/
theorem default_backoff_overflows :
    SseAutoReconnectStream.Reaches default.inMillis.retry anyText 0 () 32 ∧
    default.retry .debug 32 = .error .pow ∧
    default.retry .release 31 = .ok (some (.ofSecs 2147483648)) ∧
    default.retry .release 32 = .ok (some (.ofSecs 0)) ∧
    ¬ default.ComputesDelay 32 ∧ ¬ default.NeverShrinks 31 ∧
    ¬ default.Safe anyText 0 () := by
  have hdebug : default.retry .debug 32 = .error .pow := rfl
  have hbefore : default.retry .release 31 = .ok (some (.ofSecs 2147483648)) := rfl
  have hzero : default.retry .release 32 = .ok (some (.ofSecs 0)) := rfl
  have hreaches : SseAutoReconnectStream.Reaches default.inMillis.retry anyText 0 () 32 :=
    SseAutoReconnectStream.reaches_of_accepts anyText 0 () fun _ _ => Option.some_ne_none _
  have hdelay : ¬ default.ComputesDelay 32 := by
    rintro (h | ⟨interval, h, -⟩) <;> cases hdebug.symm.trans h
  refine ⟨hreaches, hdebug, hbefore, hzero, hdelay, fun hshrinks => ?_, fun hsafe => ?_⟩
  · exact absurd (Duration.le_iff.mp (hshrinks .release _ _ hbefore hzero)) (by decide)
  · exact hdelay (hsafe 32 hreaches).1

end ExactBackoff

end Rmcp
