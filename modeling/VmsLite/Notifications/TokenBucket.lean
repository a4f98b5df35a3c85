import Mathlib.Algebra.Order.Floor.Ring
import Mathlib.Algebra.Order.Ring.Rat
import Mathlib.Data.Rat.Floor
import Mathlib.Logic.Function.Basic
import Mathlib.Tactic.Linarith

/-!
# The rate limit of alerts

`TokenBucketRateLimiter.tryAcquire`: a cooldown between the alerts of a key, and a bucket of tokens
that is refilled at whole multiples of an interval. In every window of time at most `C + ⌊L / I⌋ +
1` alerts of a key pass (`keepsAlertRate`). Times are whole milliseconds; the refill interval is
taken to be one too.
-/

set_option autoImplicit false

namespace VmsLite.Notifications

/-- The two denials of the rate limiter. -/
inductive DenialReason
  | cooldown | exhausted
  deriving DecidableEq, Repr

/-- The reason of a denial as a caller reads it. -/
def DenialReason.message (reason : DenialReason) (key : String) (waitSeconds : ℤ) : String :=
  match reason with
  | .cooldown => s!"Anti-spam cooldown active for {key} (wait {waitSeconds}s)"
  | .exhausted => s!"Token bucket capacity exhausted for {key} (wait {waitSeconds}s for refill)"

inductive AcquireResult
  | allowed
  | denied (waitSeconds : ℤ) (reason : DenialReason)
  deriving DecidableEq, Repr

structure BucketState where
  tokens : ℤ
  lastRefillTimestamp : ℤ
  lastAcquiredTimestamp : ℤ
  deriving DecidableEq, Repr

/-- The options of a limiter, with a whole interval of refill. -/
structure TokenBucketRateLimiter where
  capacity : ℤ
  refillIntervalMs : ℤ
  defaultCooldownMs : ℚ
  capacity_pos : 1 ≤ capacity
  refillInterval_pos : 0 < refillIntervalMs

abbrev Buckets := String → Option BucketState

namespace TokenBucketRateLimiter

variable (limiter : TokenBucketRateLimiter)

def cooldownMs (cooldownOverrideSeconds : Option ℚ) : ℚ :=
  (cooldownOverrideSeconds.map (· * 1000)).getD limiter.defaultCooldownMs

/-- The tokens that time has brought. -/
def refill (state : BucketState) (now : ℤ) : BucketState :=
  let elapsedSinceRefill := now - state.lastRefillTimestamp
  if limiter.refillIntervalMs ≤ elapsedSinceRefill then
    let tokens := state.tokens + elapsedSinceRefill / limiter.refillIntervalMs
    { state with
      tokens := if tokens ≤ limiter.capacity then tokens else limiter.capacity
      lastRefillTimestamp := now - elapsedSinceRefill % limiter.refillIntervalMs }
  else state

/-- The bucket of a first event. -/
def opened (now : ℤ) : BucketState where
  tokens := limiter.capacity - 1
  lastRefillTimestamp := now
  lastAcquiredTimestamp := now

/-- What a call makes of a bucket after the cooldown. -/
def consume (state : BucketState) (now : ℤ) : BucketState × AcquireResult :=
  if state.tokens < 1 then
    let msUntilRefill := limiter.refillIntervalMs - (now - state.lastRefillTimestamp)
    (state, .denied ⌈((if 1 ≤ msUntilRefill then msUntilRefill else 1 : ℤ) : ℚ) / 1000⌉ .exhausted)
  else ({ state with tokens := state.tokens - 1, lastAcquiredTimestamp := now }, .allowed)

/-- What a call makes of the bucket of its key. -/
def acquire (cooldownMs : ℚ) (now : ℤ) : Option BucketState → BucketState × AcquireResult
  | none => (limiter.opened now, .allowed)
  | some state =>
    let elapsedSinceLast : ℚ := (now - state.lastAcquiredTimestamp : ℤ)
    if elapsedSinceLast < cooldownMs then
      (state, .denied ⌈(cooldownMs - elapsedSinceLast) / 1000⌉ .cooldown)
    else limiter.consume (limiter.refill state now) now

def tryAcquire (buckets : Buckets) (key : String) (cooldownOverrideSeconds : Option ℚ) (now : ℤ) :
    Buckets × AcquireResult :=
  let (state, result) :=
    limiter.acquire (limiter.cooldownMs cooldownOverrideSeconds) now (buckets key)
  (Function.update buckets key (some state), result)

end TokenBucketRateLimiter

/-! ### Sequences of calls -/

structure AlertCall where
  key : String
  time : ℤ
  deriving DecidableEq, Repr

/-- Calls at nondecreasing times. -/
structure CallSequence where
  calls : List AlertCall
  nondecreasing : calls.Pairwise fun earlier later ↦ earlier.time ≤ later.time

namespace TokenBucketRateLimiter

variable (limiter : TokenBucketRateLimiter) (cooldownOverrideSeconds : Option ℚ)

/-- The calls with what each of them is answered. -/
def outcomes : Buckets → List AlertCall → List (AlertCall × AcquireResult)
  | _, [] => []
  | buckets, call :: calls =>
    let attempt := limiter.tryAcquire buckets call.key cooldownOverrideSeconds call.time
    (call, attempt.2) :: outcomes attempt.1 calls

/-- The buckets after some calls. -/
def after (buckets : Buckets) (calls : List AlertCall) : Buckets :=
  calls.foldl (fun buckets call ↦
    (limiter.tryAcquire buckets call.key cooldownOverrideSeconds call.time).1)
    buckets

/-- The times of the calls of a key that were allowed. -/
def allowedTimes (key : String) (calls : List AlertCall) : List ℤ :=
  ((limiter.outcomes cooldownOverrideSeconds (fun _ ↦ none) calls).filter fun outcome ↦
    outcome.1.key = key ∧ outcome.2 = .allowed).map fun outcome ↦ outcome.1.time

/-- A key passes an alert once in a cooldown and at a bounded rate, a denial names a time after
which it is over, and the calls of other keys make no difference. -/
structure KeepsAlertRate (sequence : CallSequence) : Prop where
  spaced : ∀ key, (limiter.allowedTimes cooldownOverrideSeconds key sequence.calls).Pairwise
    fun earlier later ↦ limiter.cooldownMs cooldownOverrideSeconds ≤ (later - earlier : ℤ)
  bounded : ∀ (key : String) (start length : ℚ), 0 ≤ length →
    (((limiter.allowedTimes cooldownOverrideSeconds key sequence.calls).filter fun time : ℤ ↦
      start ≤ (time : ℚ) ∧ (time : ℚ) ≤ start + length).length : ℤ) ≤
        limiter.capacity + ⌊length / limiter.refillIntervalMs⌋ + 1
  waits : ∀ (key : String) (now : ℤ) (waitSeconds : ℤ) (reason : DenialReason) (later : Buckets),
    (∀ call ∈ sequence.calls, call.time ≤ now) →
      limiter.tryAcquire (limiter.after cooldownOverrideSeconds (fun _ ↦ none) sequence.calls) key
        cooldownOverrideSeconds now = (later, .denied waitSeconds reason) →
        0 < waitSeconds ∧ ∀ other,
          (limiter.tryAcquire later key cooldownOverrideSeconds (now + 1000 * waitSeconds)).2 ≠
            .denied other reason
  apart : ∀ key, (limiter.outcomes cooldownOverrideSeconds (fun _ ↦ none) sequence.calls).filter
      (fun outcome ↦ outcome.1.key = key) =
    limiter.outcomes cooldownOverrideSeconds (fun _ ↦ none)
      (sequence.calls.filter fun call ↦ call.key = key)

/-! ### One key -/

/-- The times of the calls that a bucket allows. -/
def allowedFrom (cooldownMs : ℚ) : Option BucketState → List ℤ → List ℤ
  | _, [] => []
  | bucket, now :: times =>
    let attempt := limiter.acquire cooldownMs now bucket
    if attempt.2 = .allowed then now :: allowedFrom cooldownMs (some attempt.1) times
    else allowedFrom cooldownMs (some attempt.1) times

/-- A bucket has no more tokens than it holds, and its last refill and last call are not in the
future. -/
structure Sound (state : BucketState) (now : ℤ) : Prop where
  nonneg : 0 ≤ state.tokens
  capped : state.tokens ≤ limiter.capacity
  refilled : state.lastRefillTimestamp ≤ now
  acquired : state.lastAcquiredTimestamp ≤ now

variable {limiter} {state : BucketState} {now : ℤ} {cooldown : ℚ}

theorem Sound.later (hsound : limiter.Sound state now) {later : ℤ} (hle : now ≤ later) :
    limiter.Sound state later :=
  ⟨hsound.nonneg, hsound.capped, hsound.refilled.trans hle, hsound.acquired.trans hle⟩

theorem Sound.all_later (hsound : limiter.Sound state now) {times : List ℤ}
    (hfirst : ∀ time ∈ times, now ≤ time) :
    ∀ found, some state = some found → ∀ time ∈ times, limiter.Sound found time := by
  rintro _ ⟨⟩ time htime
  exact hsound.later (hfirst time htime)

/-- A refill keeps the phase: the time since the last one is less than an interval, and a token more
for each interval that it moves on. -/
theorem refill_spec (hsound : limiter.Sound state now) :
    limiter.Sound (limiter.refill state now) now ∧
      now - (limiter.refill state now).lastRefillTimestamp < limiter.refillIntervalMs ∧
        ∃ intervals : ℤ, (limiter.refill state now).lastRefillTimestamp =
            state.lastRefillTimestamp + intervals * limiter.refillIntervalMs ∧
          (limiter.refill state now).tokens ≤ state.tokens + intervals := by
  have hpositive := limiter.refillInterval_pos
  have hcapacity := limiter.capacity_pos
  unfold refill
  dsimp only
  split_ifs with helapsed hcap
  · have hdivision := Int.mul_ediv_add_emod (now - state.lastRefillTimestamp)
      limiter.refillIntervalMs
    have hremainder := Int.emod_lt_of_pos (now - state.lastRefillTimestamp) hpositive
    have hnonneg := Int.emod_nonneg (now - state.lastRefillTimestamp) hpositive.ne'
    have hquotient : 0 ≤ (now - state.lastRefillTimestamp) / limiter.refillIntervalMs :=
      Int.ediv_nonneg (by have := hsound.refilled; omega) hpositive.le
    refine ⟨⟨?_, hcap, ?_, hsound.acquired⟩, ?_, _, ?_, le_rfl⟩
    · exact add_nonneg hsound.nonneg hquotient
    · dsimp only
      omega
    · dsimp only
      omega
    · dsimp only
      rw [mul_comm]
      omega
  · have hdivision := Int.mul_ediv_add_emod (now - state.lastRefillTimestamp)
      limiter.refillIntervalMs
    have hremainder := Int.emod_lt_of_pos (now - state.lastRefillTimestamp) hpositive
    have hnonneg := Int.emod_nonneg (now - state.lastRefillTimestamp) hpositive.ne'
    refine ⟨⟨?_, le_rfl, ?_, hsound.acquired⟩, ?_,
      (now - state.lastRefillTimestamp) / limiter.refillIntervalMs, ?_, ?_⟩
    · dsimp only
      omega
    · dsimp only
      omega
    · dsimp only
      omega
    · dsimp only
      rw [mul_comm]
      omega
    · dsimp only
      omega
  · exact ⟨hsound, by omega, 0, by omega, by omega⟩

/-- What a call makes of a bucket that is there. -/
theorem acquire_cases (state : BucketState) (now : ℤ) (cooldown : ℚ) :
    (((now - state.lastAcquiredTimestamp : ℤ) : ℚ) < cooldown ∧
      limiter.acquire cooldown now (some state) = (state, .denied
        ⌈(cooldown - ((now - state.lastAcquiredTimestamp : ℤ) : ℚ)) / 1000⌉ .cooldown)) ∨
    (cooldown ≤ ((now - state.lastAcquiredTimestamp : ℤ) : ℚ) ∧
      limiter.acquire cooldown now (some state) =
          limiter.consume (limiter.refill state now) now) := by
  by_cases hcooldown : ((now - state.lastAcquiredTimestamp : ℤ) : ℚ) < cooldown
  · exact Or.inl ⟨hcooldown, if_pos hcooldown⟩
  · exact Or.inr ⟨not_lt.mp hcooldown, if_neg hcooldown⟩

theorem consume_of_lt (hempty : state.tokens < 1) :
    ∃ waitSeconds, limiter.consume state now = (state, .denied waitSeconds .exhausted) :=
  ⟨_, if_pos hempty⟩

theorem consume_of_le (htoken : 1 ≤ state.tokens) : limiter.consume state now =
    ({ state with tokens := state.tokens - 1, lastAcquiredTimestamp := now }, .allowed) :=
  if_neg (not_lt.mpr htoken)

/-- A bucket right after a call that was allowed: it has been refilled, and a token is gone. -/
structure Fresh (limiter : TokenBucketRateLimiter) (spent : BucketState) (now : ℤ) : Prop where
  sound : limiter.Sound spent now
  acquired : spent.lastAcquiredTimestamp = now
  recent : now - spent.lastRefillTimestamp < limiter.refillIntervalMs
  fewer : spent.tokens ≤ limiter.capacity - 1

/-- The bucket after a call that is allowed, beside the one before. -/
structure Spends (limiter : TokenBucketRateLimiter) (state spent : BucketState) (now : ℤ) :
    Prop where
  fresh : limiter.Fresh spent now
  intervals : ∃ intervals : ℤ, spent.lastRefillTimestamp =
      state.lastRefillTimestamp + intervals * limiter.refillIntervalMs ∧
    spent.tokens + 1 ≤ state.tokens + intervals

/-- The bucket after a call that is denied: it may have been refilled. -/
structure Waits (limiter : TokenBucketRateLimiter) (state later : BucketState) (now : ℤ) :
    Prop where
  sound : limiter.Sound later now
  acquired : later.lastAcquiredTimestamp = state.lastAcquiredTimestamp
  intervals : ∃ intervals : ℤ, later.lastRefillTimestamp =
      state.lastRefillTimestamp + intervals * limiter.refillIntervalMs ∧
    later.tokens ≤ state.tokens + intervals

theorem refill_lastAcquired :
    (limiter.refill state now).lastAcquiredTimestamp = state.lastAcquiredTimestamp := by
  unfold refill
  dsimp only
  split_ifs <;> rfl

/-- A call is allowed after the cooldown and at the price of a token, or it is denied. -/
theorem acquire_spec (hsound : limiter.Sound state now) (cooldown : ℚ) :
    (cooldown ≤ ((now - state.lastAcquiredTimestamp : ℤ) : ℚ) ∧
      ∃ spent, limiter.acquire cooldown now (some state) = (spent, .allowed) ∧
        limiter.Spends state spent now) ∨
    ∃ later waitSeconds reason,
      limiter.acquire cooldown now (some state) = (later, .denied waitSeconds reason) ∧
        limiter.Waits state later now := by
  obtain ⟨hrefilled, hrecent, intervals, hphase, htokens⟩ := refill_spec hsound
  rcases acquire_cases state now cooldown with ⟨hcooldown, hacquire⟩ | ⟨hcooldown, hacquire⟩
  · exact Or.inr ⟨_, _, _, hacquire, hsound, rfl, 0, by omega, by omega⟩
  · by_cases htoken : 1 ≤ (limiter.refill state now).tokens
    · rw [consume_of_le htoken] at hacquire
      refine Or.inl ⟨hcooldown, _, hacquire,
        ⟨⟨?_, ?_, hrefilled.refilled, le_rfl⟩, rfl, hrecent, ?_⟩, intervals, hphase, ?_⟩
      · dsimp only
        omega
      · have hcapped := hrefilled.capped
        dsimp only
        omega
      · have hcapped := hrefilled.capped
        dsimp only
        omega
      · dsimp only
        omega
    · obtain ⟨waitSeconds, hconsume⟩ := @consume_of_lt limiter _ now (not_le.mp htoken)
      rw [hconsume] at hacquire
      exact Or.inr ⟨_, _, _, hacquire, hrefilled, refill_lastAcquired, intervals, hphase, htokens⟩

section Allowed

variable {spent later : BucketState} {times : List ℤ} {result : AcquireResult}

theorem allowedFrom_allowed {bucket : Option BucketState}
    (hacquire : limiter.acquire cooldown now bucket = (spent, .allowed)) :
    limiter.allowedFrom cooldown bucket (now :: times) =
      now :: limiter.allowedFrom cooldown (some spent) times := by
  simp only [allowedFrom, hacquire, if_true]

theorem allowedFrom_denied {waitSeconds : ℤ} {reason : DenialReason}
    (hacquire : limiter.acquire cooldown now (some state) = (later, .denied waitSeconds reason)) :
    limiter.allowedFrom cooldown (some state) (now :: times) =
      limiter.allowedFrom cooldown (some later) times := by
  simp only [allowedFrom, hacquire, reduceCtorEq, if_false]

theorem mem_allowedFrom {bucket : Option BucketState} {time : ℤ}
    (hmem : time ∈ limiter.allowedFrom cooldown bucket times) : time ∈ times := by
  induction times generalizing bucket with
  | nil => cases hmem
  | cons now times ih =>
    unfold allowedFrom at hmem
    dsimp only at hmem
    split_ifs at hmem
    · rcases List.mem_cons.mp hmem with rfl | hrest
      · exact List.mem_cons_self
      · exact List.mem_cons_of_mem _ (ih hrest)
    · exact List.mem_cons_of_mem _ (ih hmem)

/-- A call that is allowed comes a cooldown after the last one that was. -/
theorem cooldown_le_of_mem (hsound : limiter.Sound state now)
    (hsorted : (now :: times).Pairwise (· ≤ ·))
    {time : ℤ} (hmem : time ∈ limiter.allowedFrom cooldown (some state) times) :
    cooldown ≤ ((time - state.lastAcquiredTimestamp : ℤ) : ℚ) := by
  induction times generalizing state now with
  | nil => cases hmem
  | cons next times ih =>
    obtain ⟨hfirst, hrest⟩ := List.pairwise_cons.mp hsorted
    have hnext := hsound.later (hfirst next List.mem_cons_self)
    rcases acquire_spec hnext cooldown with ⟨hcooldown, spent, hacquire, hspends⟩ |
        ⟨later, waitSeconds, reason, hacquire, hwaits⟩
    · rw [allowedFrom_allowed hacquire] at hmem
      have hle : next ≤ time := by
        rcases List.mem_cons.mp hmem with rfl | hlater
        · exact le_rfl
        · exact (List.pairwise_cons.mp hrest).1 time (mem_allowedFrom hlater)
      exact hcooldown.trans (by exact_mod_cast by omega)
    · rw [allowedFrom_denied hacquire] at hmem
      rw [← hwaits.acquired]
      exact ih hwaits.sound hrest hmem

/-- The intervals up to a time, split where a bucket was refilled. -/
theorem intervals_split {intervals last before after : ℤ}
    (hphase : after = before + intervals * limiter.refillIntervalMs) :
    (last - before) / limiter.refillIntervalMs =
      (last - after) / limiter.refillIntervalMs + intervals := by
  have hsplit : last - before = last - after + intervals * limiter.refillIntervalMs := by omega
  rw [hsplit, Int.add_mul_ediv_right _ _ limiter.refillInterval_pos.ne']

/-- Up to a time a bucket allows as many calls as it has tokens and there are intervals of
refill. -/
theorem length_until_le (hsound : limiter.Sound state now)
    (hsorted : (now :: times).Pairwise (· ≤ ·))
    {last : ℤ} (hlast : now ≤ last) :
    (((limiter.allowedFrom cooldown (some state) times).filter fun time ↦ time ≤ last).length : ℤ) ≤
      state.tokens + (last - state.lastRefillTimestamp) / limiter.refillIntervalMs := by
  have hzero : ∀ {state : BucketState} {now : ℤ}, limiter.Sound state now → now ≤ last →
      0 ≤ state.tokens + (last - state.lastRefillTimestamp) / limiter.refillIntervalMs := by
    intro state now hsound hlast
    have hrefilled := hsound.refilled
    exact add_nonneg hsound.nonneg (Int.ediv_nonneg (by omega) limiter.refillInterval_pos.le)
  induction times generalizing state now with
  | nil => exact hzero hsound hlast
  | cons next times ih =>
    obtain ⟨hfirst, hrest⟩ := List.pairwise_cons.mp hsorted
    have hnext := hsound.later (hfirst next List.mem_cons_self)
    by_cases hwithin : next ≤ last
    · rcases acquire_spec hnext cooldown with ⟨-, spent, hacquire, hspends⟩ |
          ⟨later, waitSeconds, reason, hacquire, hwaits⟩
      · obtain ⟨intervals, hphase, htokens⟩ := hspends.intervals
        have hcount := ih hspends.fresh.sound hrest hwithin
        rw [allowedFrom_allowed hacquire, List.filter_cons_of_pos (by simpa using hwithin),
          List.length_cons, intervals_split hphase]
        push_cast
        omega
      · obtain ⟨intervals, hphase, htokens⟩ := hwaits.intervals
        have hcount := ih hwaits.sound hrest hwithin
        rw [allowedFrom_denied hacquire, intervals_split hphase]
        omega
    · -- the calls that are left are all after the last time
      have hnone : (limiter.allowedFrom cooldown (some state) (next :: times)).filter
          (fun time ↦ time ≤ last) = [] := by
        refine List.filter_eq_nil_iff.mpr fun time hmem ↦ ?_
        have hle : next ≤ time := by
          rcases List.mem_cons.mp (mem_allowedFrom hmem) with rfl | hlater
          · exact le_rfl
          · exact (List.pairwise_cons.mp hrest).1 time hlater
        simpa using (not_le.mp hwithin).trans_le hle
      rw [hnone]
      exact hzero hsound hlast

/-- A window of time that begins at a call that is allowed. -/
theorem length_window_le (hfresh : limiter.Fresh spent now) {start : Option BucketState}
    (hacquire : limiter.acquire cooldown now start = (spent, .allowed))
    (hsorted : (now :: times).Pairwise (· ≤ ·)) {first last : ℤ} (hfirst : first ≤ now)
    (hlast : now ≤ last) :
    (((limiter.allowedFrom cooldown start (now :: times)).filter fun time ↦
      first ≤ time ∧ time ≤ last).length : ℤ) ≤
        limiter.capacity + (last - first) / limiter.refillIntervalMs + 1 := by
  have hpositive := limiter.refillInterval_pos
  have hsub : ((limiter.allowedFrom cooldown (some spent) times).filter fun time ↦
      first ≤ time ∧ time ≤ last).length ≤
        ((limiter.allowedFrom cooldown (some spent) times).filter fun time ↦ time ≤
            last).length := by
    refine List.Sublist.length_le (List.monotone_filter_right _ fun time htime ↦ ?_)
    simp only [decide_eq_true_eq] at htime ⊢
    exact htime.2
  have hcount := @length_until_le limiter spent now cooldown times hfresh.sound hsorted last hlast
  have hfewer := hfresh.fewer
  have hrecent := hfresh.recent
  -- less than an interval has gone by since the last refill
  have hintervals : (last - spent.lastRefillTimestamp) / limiter.refillIntervalMs ≤
      (last - first) / limiter.refillIntervalMs + 1 := by
    have hone : (last - first) / limiter.refillIntervalMs + 1 =
        (last - first + limiter.refillIntervalMs) / limiter.refillIntervalMs :=
      (Int.add_ediv_of_dvd_right dvd_rfl).trans (by rw [Int.ediv_self hpositive.ne']) |>.symm
    rw [hone]
    exact Int.ediv_le_ediv hpositive (by omega)
  rw [allowedFrom_allowed hacquire, List.filter_cons_of_pos (by simp [hfirst, hlast]),
    List.length_cons]
  push_cast
  omega

theorem fresh_opened (limiter : TokenBucketRateLimiter) (now : ℤ) :
    limiter.Fresh (limiter.opened now) now := by
  have hcapacity := limiter.capacity_pos
  refine ⟨⟨?_, ?_, le_rfl, le_rfl⟩, rfl, ?_, le_rfl⟩
  · unfold opened
    dsimp only
    omega
  · unfold opened
    dsimp only
    omega
  · unfold opened
    dsimp only
    rw [sub_self]
    exact limiter.refillInterval_pos

/-- The windows of a bucket. -/
theorem length_between_le {bucket : Option BucketState}
    (hsound : ∀ state, bucket = some state → ∀ time ∈ times, limiter.Sound state time)
    (hsorted : times.Pairwise (· ≤ ·)) {first last : ℤ} (hwindow : first ≤ last) :
    (((limiter.allowedFrom cooldown bucket times).filter fun time ↦
      first ≤ time ∧ time ≤ last).length : ℤ) ≤
        limiter.capacity + (last - first) / limiter.refillIntervalMs + 1 := by
  induction times generalizing bucket with
  | nil =>
    have hcapacity := limiter.capacity_pos
    have hnonneg : 0 ≤ (last - first) / limiter.refillIntervalMs :=
      Int.ediv_nonneg (by omega) limiter.refillInterval_pos.le
    simp only [allowedFrom, List.filter_nil, List.length_nil]
    omega
  | cons next times ih =>
    obtain ⟨hfirst, hrest⟩ := List.pairwise_cons.mp hsorted
    have hallowed : ∀ spent, limiter.acquire cooldown next bucket = (spent, .allowed) →
        limiter.Fresh spent next →
          (((limiter.allowedFrom cooldown bucket (next :: times)).filter fun time ↦
            first ≤ time ∧ time ≤ last).length : ℤ) ≤
              limiter.capacity + (last - first) / limiter.refillIntervalMs + 1 := by
      intro spent hacquire hfresh
      by_cases hinside : first ≤ next ∧ next ≤ last
      · exact length_window_le hfresh hacquire hsorted hinside.1 hinside.2
      · rw [allowedFrom_allowed hacquire, List.filter_cons_of_neg (by simpa using hinside)]
        exact ih (hfresh.sound.all_later hfirst) hrest
    cases bucket with
    | none => exact hallowed _ rfl (fresh_opened limiter next)
    | some state =>
      rcases acquire_spec (hsound state rfl next List.mem_cons_self) cooldown with
          ⟨-, spent, hacquire, hspends⟩ | ⟨later, waitSeconds, reason, hacquire, hwaits⟩
      · exact hallowed spent hacquire hspends.fresh
      · rw [allowedFrom_denied hacquire]
        exact ih (hwaits.sound.all_later hfirst) hrest

/-- The calls that a bucket allows are a cooldown apart. -/
theorem pairwise_allowedFrom {bucket : Option BucketState}
    (hsound : ∀ state, bucket = some state → ∀ time ∈ times, limiter.Sound state time)
    (hsorted : times.Pairwise (· ≤ ·)) : (limiter.allowedFrom cooldown bucket times).Pairwise
      fun earlier later ↦ cooldown ≤ ((later - earlier : ℤ) : ℚ) := by
  induction times generalizing bucket with
  | nil => exact List.Pairwise.nil
  | cons next times ih =>
    obtain ⟨hfirst, hrest⟩ := List.pairwise_cons.mp hsorted
    have hallowed : ∀ spent, limiter.acquire cooldown next bucket = (spent, .allowed) →
        limiter.Fresh spent next → (limiter.allowedFrom cooldown bucket (next :: times)).Pairwise
          fun earlier later ↦ cooldown ≤ ((later - earlier : ℤ) : ℚ) := by
      intro spent hacquire hfresh
      rw [allowedFrom_allowed hacquire]
      refine List.pairwise_cons.mpr ⟨fun time htime ↦ ?_,
        ih (hfresh.sound.all_later hfirst) hrest⟩
      have hapart := cooldown_le_of_mem hfresh.sound hsorted htime
      rw [hfresh.acquired] at hapart
      exact hapart
    cases bucket with
    | none => exact hallowed _ rfl (fresh_opened limiter next)
    | some state =>
      rcases acquire_spec (hsound state rfl next List.mem_cons_self) cooldown with
          ⟨-, spent, hacquire, hspends⟩ | ⟨later, waitSeconds, reason, hacquire, hwaits⟩
      · exact hallowed spent hacquire hspends.fresh
      · rw [allowedFrom_denied hacquire]
        exact ih (hwaits.sound.all_later hfirst) hrest

end Allowed

/-! ### The keys apart -/

section Keys

variable {cooldownOverrideSeconds} {buckets : Buckets} {key : String} {calls : List AlertCall}

theorem tryAcquire_other {other : String} (hne : other ≠ key) :
    (limiter.tryAcquire buckets key cooldownOverrideSeconds now).1 other = buckets other :=
  Function.update_of_ne hne _ _

theorem tryAcquire_self : (limiter.tryAcquire buckets key cooldownOverrideSeconds now).1 key =
    some (limiter.acquire (limiter.cooldownMs cooldownOverrideSeconds) now (buckets key)).1 :=
  Function.update_self ..

theorem tryAcquire_result : (limiter.tryAcquire buckets key cooldownOverrideSeconds now).2 =
    (limiter.acquire (limiter.cooldownMs cooldownOverrideSeconds) now (buckets key)).2 := rfl

/-- The outcomes of a key are those of its calls alone. -/
theorem filter_outcomes {others : Buckets} (hsame : buckets key = others key) :
    (limiter.outcomes cooldownOverrideSeconds buckets calls).filter
      (fun outcome ↦ outcome.1.key = key) =
      limiter.outcomes cooldownOverrideSeconds others (calls.filter fun call ↦ call.key = key) := by
  induction calls generalizing buckets others with
  | nil => rfl
  | cons call calls ih =>
    by_cases hkey : call.key = key
    · subst hkey
      have hresult : (limiter.tryAcquire buckets call.key cooldownOverrideSeconds call.time).2 =
          (limiter.tryAcquire others call.key cooldownOverrideSeconds call.time).2 := by
        rw [tryAcquire_result, tryAcquire_result, hsame]
      rw [List.filter_cons_of_pos (by simp)]
      simp only [outcomes]
      rw [List.filter_cons_of_pos (by simp), hresult]
      refine congrArg _ (ih ?_)
      rw [tryAcquire_self, tryAcquire_self, hsame]
    · rw [List.filter_cons_of_neg (by simpa using hkey)]
      simp only [outcomes]
      rw [List.filter_cons_of_neg (by simpa using hkey)]
      exact ih ((tryAcquire_other (Ne.symm hkey)).trans hsame)

theorem allowedFrom_outcomes :
    ((limiter.outcomes cooldownOverrideSeconds buckets calls).filter fun outcome ↦
      outcome.1.key = key ∧ outcome.2 = .allowed).map (fun outcome ↦ outcome.1.time) =
      limiter.allowedFrom (limiter.cooldownMs cooldownOverrideSeconds) (buckets key)
        ((calls.filter fun call ↦ call.key = key).map AlertCall.time) := by
  induction calls generalizing buckets with
  | nil => rfl
  | cons call calls ih =>
    simp only [outcomes]
    by_cases hkey : call.key = key
    · subst hkey
      have hrest := @ih (limiter.tryAcquire buckets call.key cooldownOverrideSeconds call.time).1
      rw [tryAcquire_self] at hrest
      have hcalls : (call :: calls).filter (fun other ↦ other.key = call.key) =
          call :: calls.filter fun other ↦ other.key = call.key := List.filter_cons_of_pos (by simp)
      rw [hcalls, List.map_cons, tryAcquire_result]
      unfold allowedFrom
      dsimp only
      split_ifs with hallowed
      · rw [List.filter_cons_of_pos (by simp [hallowed]), List.map_cons, hrest]
      · rw [List.filter_cons_of_neg (by simp [hallowed]), hrest]
    · have hcalls : (call :: calls).filter (fun other ↦ other.key = key) =
          calls.filter fun other ↦ other.key = key := List.filter_cons_of_neg (by simpa using hkey)
      rw [hcalls, List.filter_cons_of_neg (by simp [hkey]), ih, tryAcquire_other (Ne.symm hkey)]

/-- Whatever a call is answered, its bucket is sound. -/
theorem sound_acquire {bucket : Option BucketState}
    (hsound : ∀ state, bucket = some state → limiter.Sound state now) :
    limiter.Sound (limiter.acquire cooldown now bucket).1 now := by
  cases bucket with
  | none => exact (fresh_opened limiter now).sound
  | some state =>
    rcases acquire_spec (hsound state rfl) cooldown with
        ⟨-, spent, hacquire, hspends⟩ | ⟨later, waitSeconds, reason, hacquire, hwaits⟩
    · rw [hacquire]
      exact hspends.fresh.sound
    · rw [hacquire]
      exact hwaits.sound

/-- After calls at nondecreasing times every bucket is sound. -/
theorem sound_after (hsorted : calls.Pairwise fun earlier later ↦ earlier.time ≤ later.time)
    (hnow : ∀ call ∈ calls, call.time ≤ now)
    (hcalls : ∀ key state, buckets key = some state → ∀ call ∈ calls, limiter.Sound state call.time)
    (hbuckets : ∀ key state, buckets key = some state → limiter.Sound state now) (key : String)
    (state : BucketState) (hstate : limiter.after cooldownOverrideSeconds buckets calls key =
      some state) :
    limiter.Sound state now := by
  induction calls generalizing buckets with
  | nil => exact hbuckets key state hstate
  | cons call calls ih =>
    obtain ⟨hfirst, hrest⟩ := List.pairwise_cons.mp hsorted
    have hacquired := @sound_acquire limiter call.time (limiter.cooldownMs cooldownOverrideSeconds)
      (buckets call.key) fun state hstate ↦ hcalls call.key state hstate call List.mem_cons_self
    have hlater : ∀ other found,
        (limiter.tryAcquire buckets call.key cooldownOverrideSeconds call.time).1 other =
          some found →
          other = call.key ∧ limiter.Sound found call.time ∨ buckets other = some found := by
      intro other found hfound
      by_cases hkey : other = call.key
      · subst hkey
        rw [tryAcquire_self] at hfound
        obtain rfl := Option.some.inj hfound
        exact Or.inl ⟨rfl, hacquired⟩
      · rw [tryAcquire_other hkey] at hfound
        exact Or.inr hfound
    refine ih hrest (fun other hother ↦ hnow other (List.mem_cons_of_mem _ hother)) ?_ ?_ hstate
    · intro other found hfound next hnext
      rcases hlater other found hfound with ⟨-, hsound⟩ | hold
      · exact hsound.later (hfirst next hnext)
      · exact hcalls other found hold next (List.mem_cons_of_mem _ hnext)
    · intro other found hfound
      rcases hlater other found hfound with ⟨-, hsound⟩ | hold
      · exact hsound.later (hnow call List.mem_cons_self)
      · exact hbuckets other found hold

end Keys

/-! ### Waiting -/

section Wait

variable {later : BucketState} {waitSeconds : ℤ} {reason : DenialReason}

/-- The seconds of a wait are at least the milliseconds that are missing. -/
theorem le_ceil_seconds (missing : ℚ) : missing ≤ 1000 * (⌈missing / 1000⌉ : ℤ) := by
  have hceil := Int.le_ceil (missing / 1000)
  rw [div_le_iff₀ (by norm_num)] at hceil
  linarith

theorem ceil_seconds_pos {missing : ℚ} (hpositive : 0 < missing) : 0 < ⌈missing / 1000⌉ :=
  Int.ceil_pos.mpr (div_pos hpositive (by norm_num))

/-- A bucket that has been full for an interval of refill has a token. -/
theorem one_le_refill (hnonneg : 0 ≤ state.tokens)
    (hinterval : limiter.refillIntervalMs ≤ now - state.lastRefillTimestamp) :
    1 ≤ (limiter.refill state now).tokens := by
  have hcapacity := limiter.capacity_pos
  have hquotient : 1 ≤ (now - state.lastRefillTimestamp) / limiter.refillIntervalMs :=
    (Int.le_ediv_iff_mul_le limiter.refillInterval_pos).mpr (by omega)
  unfold refill
  dsimp only
  rw [if_pos hinterval]
  dsimp only
  split_ifs
  · omega
  · exact hcapacity

/-- A denial names a time after which it is over. -/
theorem wait_spec (hsound : limiter.Sound state now)
    (hacquire : limiter.acquire cooldown now (some state) = (later, .denied waitSeconds reason)) :
    0 < waitSeconds ∧ ∀ other,
      (limiter.acquire cooldown (now + 1000 * waitSeconds) (some later)).2 ≠ .denied
          other reason := by
  rcases acquire_cases state now cooldown with ⟨hcooldown, hdenied⟩ | ⟨hcooldown, hconsume⟩
  · obtain ⟨rfl, hresult⟩ := Prod.ext_iff.mp (hacquire.symm.trans hdenied)
    obtain ⟨hwait, rfl⟩ := AcquireResult.denied.inj hresult
    refine ⟨?_, fun other ↦ ?_⟩
    · rw [hwait]
      exact ceil_seconds_pos (sub_pos.mpr hcooldown)
    · have hpast : cooldown ≤
          ((now + 1000 * waitSeconds - later.lastAcquiredTimestamp : ℤ) : ℚ) := by
        have hceil := le_ceil_seconds (cooldown - ((now - later.lastAcquiredTimestamp : ℤ) : ℚ))
        rw [← hwait] at hceil
        push_cast at hceil ⊢
        linarith
      rcases acquire_cases later (now + 1000 * waitSeconds) cooldown with ⟨hlt, -⟩ | ⟨-, hagain⟩
      · exact absurd hpast (not_le.mpr hlt)
      · rw [hagain]
        unfold consume
        dsimp only
        split_ifs <;> simp
  · obtain ⟨hrefilled, hrecent, -⟩ := refill_spec hsound
    by_cases htoken : 1 ≤ (limiter.refill state now).tokens
    · rw [consume_of_le htoken] at hconsume
      cases hacquire.symm.trans hconsume
    · have hwait : limiter.consume (limiter.refill state now) now =
        (limiter.refill state now, .denied
          ⌈((limiter.refillIntervalMs - (now - (limiter.refill state now).lastRefillTimestamp) :
            ℤ) : ℚ) /
            1000⌉ .exhausted) := by
        unfold consume
        rw [if_pos (not_le.mp htoken)]
        dsimp only
        rw [if_pos (by omega)]
      obtain ⟨rfl, hresult⟩ := Prod.ext_iff.mp (hacquire.symm.trans (hconsume.trans hwait))
      obtain ⟨hseconds, rfl⟩ := AcquireResult.denied.inj hresult
      have hmissing : (0 : ℚ) <
          ((limiter.refillIntervalMs - (now - (limiter.refill state now).lastRefillTimestamp) : ℤ) :
              ℚ) := by
        exact_mod_cast sub_pos.mpr hrecent
      refine ⟨?_, fun other ↦ ?_⟩
      · rw [hseconds]
        exact ceil_seconds_pos hmissing
      · have hinterval : limiter.refillIntervalMs ≤
            now + 1000 * waitSeconds - (limiter.refill state now).lastRefillTimestamp := by
          have hceil := le_ceil_seconds
            ((limiter.refillIntervalMs - (now - (limiter.refill state now).lastRefillTimestamp) :
              ℤ) : ℚ)
          rw [← hseconds] at hceil
          have hwhole : limiter.refillIntervalMs -
              (now - (limiter.refill state now).lastRefillTimestamp) ≤ 1000 * waitSeconds := by
            exact_mod_cast hceil
          omega
        rcases acquire_cases (limiter.refill state now) (now + 1000 * waitSeconds) cooldown with
            ⟨-, hagain⟩ | ⟨-, hagain⟩
        · rw [hagain]
          simp
        · rw [hagain, consume_of_le (one_le_refill hrefilled.nonneg hinterval)]
          simp

end Wait

end TokenBucketRateLimiter

end VmsLite.Notifications
