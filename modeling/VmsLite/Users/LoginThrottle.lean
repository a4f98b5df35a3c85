import Mathlib.Data.List.Induction
import Mathlib.Logic.Function.Basic
import VmsLite.Data.AssociationList
import VmsLite.Users.Login

/-!
# The throttle of logins

`LoginThrottle` for any addresses and names, with the pruning of its map. A counter here is what is
kept under one key of the map. An answer is truthful just when no full window that is over stands in
its way (`isTruthful_iff`): such a window ends the look at the counters, and its seconds are not
positive.
-/

set_option autoImplicit false

namespace VmsLite.Users

open Login

/-- The limits of a throttle, and the `toLowerCase` of strings. -/
structure LoginThrottle where
  maxPerUser : ℕ := Login.maxPerUser
  maxPerIp : ℕ := Login.maxPerIp
  windowMs : ℤ := Login.windowMs
  toLowerCase : String → String
  windowMs_pos : 0 < windowMs := by decide

abbrev Failures := List (String × ThrottleWindow)

namespace LoginThrottle

variable (throttle : LoginThrottle)

def userKey (ip username : String) : String := "u:" ++ ip ++ ":" ++ throttle.toLowerCase username

def ipKey (ip : String) : String := "ip:" ++ ip

def isOver (now : ℤ) (entry : ThrottleWindow) : Bool := throttle.windowMs ≤ now - entry.windowStart

def prune (now : ℤ) (failures : Failures) : Failures :=
  if failures.length < 10000 then failures
  else failures.filter fun stored ↦ !throttle.isOver now stored.2

/-- The window of a counter after one more failure. -/
def counted (now : ℤ) : Option ThrottleWindow → ThrottleWindow
  | some entry =>
    if throttle.isOver now entry then { count := 1, windowStart := now }
    else { entry with count := entry.count + 1 }
  | none => { count := 1, windowStart := now }

def countFailure (now : ℤ) (key : String) (failures : Failures) : Failures :=
  (key, throttle.counted now (failures.lookup key)) :: failures.filter fun stored ↦ stored.1 ≠ key

def recordFailure (ip username : String) (now : ℤ) (failures : Failures) : Failures :=
  throttle.countFailure now (ipKey ip)
    (throttle.countFailure now (throttle.userKey ip username) failures)

def recordSuccess (ip username : String) (failures : Failures) : Failures :=
  failures.filter fun stored ↦ stored.1 ≠ throttle.userKey ip username

/-- The seconds that a full counter is given. -/
def blockedFor (max : ℕ) (now : ℤ) (entry : Option ThrottleWindow) : Option ℤ :=
  (entry.filter fun entry ↦ max ≤ entry.count).map fun entry ↦
    ceilSeconds (entry.windowStart + throttle.windowMs - now)

/-- The answer from the windows of the two counters. -/
def retryAfter (now : ℤ) (user address : Option ThrottleWindow) : ℤ :=
  match throttle.blockedFor throttle.maxPerUser now user with
  | some seconds => seconds
  | none => (throttle.blockedFor throttle.maxPerIp now address).getD 0

/-- Seconds until the caller may retry, or 0 when allowed. -/
def retryAfterSeconds (ip username : String) (now : ℤ) (failures : Failures) : ℤ × Failures :=
  let pruned := throttle.prune now failures
  (throttle.retryAfter now (pruned.lookup (throttle.userKey ip username))
  (pruned.lookup (ipKey ip)), pruned)

/-! ### Sequences of calls -/

inductive ThrottleRequest
  | recordFailure (ip username : String)
  | recordSuccess (ip username : String)
  | retryAfterSeconds (ip username : String)
  deriving DecidableEq, Repr

structure ThrottleCall where
  request : ThrottleRequest
  time : ℤ
  deriving DecidableEq, Repr

/-- Calls at nondecreasing times. -/
structure ThrottleCalls where
  calls : List ThrottleCall
  nondecreasing : calls.Pairwise fun earlier later ↦ earlier.time ≤ later.time

def step (failures : Failures) (call : ThrottleCall) : Failures :=
  match call.request with
  | .recordFailure ip username => throttle.recordFailure ip username call.time failures
  | .recordSuccess ip username => throttle.recordSuccess ip username failures
  | .retryAfterSeconds ip username => (throttle.retryAfterSeconds ip username call.time failures).2

def after (calls : List ThrottleCall) : Failures := calls.foldl throttle.step []

/-! ### What the counters are -/

/-- The windows of all counters: the latest window of each, whether it is over or not. -/
abbrev Counters := String → Option ThrottleWindow

/-- What a call means for a counter. Nothing is forgotten here. -/
def count (counters : Counters) (call : ThrottleCall) : Counters := fun key ↦
  match call.request with
  | .recordFailure ip username =>
    if key = throttle.userKey ip username ∨ key = ipKey ip then
      some (throttle.counted call.time (counters key))
    else counters key
  | .recordSuccess ip username => if key = throttle.userKey ip username then none else counters key
  | .retryAfterSeconds .. => counters key

def counters (calls : List ThrottleCall) : Counters := calls.foldl throttle.count fun _ ↦ none

/-- A counter has reached its limit within its still-running window. -/
def IsBlocking (max : ℕ) (now : ℤ) (entry : Option ThrottleWindow) : Prop :=
  ∃ window, entry = some window ∧ max ≤ window.count ∧ now - window.windowStart < throttle.windowMs

/-- The seconds until the window of a counter ends that is blocking now. -/
def IsWait (max : ℕ) (now : ℤ) (entry : Option ThrottleWindow) (answer : ℤ) : Prop :=
  ∃ window, entry = some window ∧ max ≤ window.count ∧ now - window.windowStart <
    throttle.windowMs ∧
    answer = ceilSeconds (window.windowStart + throttle.windowMs - now)

/-- An answer that tells how it stands with the two counters. -/
structure IsTrue (now : ℤ) (user address : Option ThrottleWindow) (answer : ℤ) : Prop where
  zero : answer = 0 ↔
    ¬ throttle.IsBlocking throttle.maxPerUser now user ∧
      ¬ throttle.IsBlocking throttle.maxPerIp now address
  wait : throttle.IsBlocking throttle.maxPerUser now user ∨
    throttle.IsBlocking throttle.maxPerIp now address → 0 < answer ∧
      (throttle.IsWait throttle.maxPerUser now user answer ∨
        throttle.IsWait throttle.maxPerIp now address answer)
  nonneg : 0 ≤ answer

/-- Every answer is true of the counters, and is what a throttle that never prunes answers. -/
def IsTruthful (calls : ThrottleCalls) : Prop :=
  ∀ before ip username now, before ++ [⟨.retryAfterSeconds ip username, now⟩] <+: calls.calls →
    throttle.IsTrue now (throttle.counters before (throttle.userKey ip username))
      (throttle.counters before (ipKey ip))
      (throttle.retryAfterSeconds ip username now (throttle.after before)).1 ∧
    (throttle.retryAfterSeconds ip username now (throttle.after before)).1 =
      throttle.retryAfter now (throttle.counters before (throttle.userKey ip username))
        (throttle.counters before (ipKey ip))

/-- The window of a full counter has been over for less than a second, if it is over. -/
def IsRecent (max : ℕ) (now : ℤ) (entry : Option ThrottleWindow) : Prop :=
  ∀ window, entry = some window → max ≤ window.count →
    now - window.windowStart - throttle.windowMs < 1000

/-- No full window that is over stands in the way of an answer. -/
structure IsClear (now : ℤ) (user address : Option ThrottleWindow) : Prop where
  userRecent : throttle.IsRecent throttle.maxPerUser now user
  /-- A full window of the name, when it is over, does not hide a blocking address. -/
  hidden : (∃ window, user = some window ∧ throttle.maxPerUser ≤ window.count ∧
    throttle.windowMs ≤ now - window.windowStart) →
      ¬ throttle.IsBlocking throttle.maxPerIp now address
  addressRecent : (∀ window, user = some window → window.count < throttle.maxPerUser) →
    throttle.IsRecent throttle.maxPerIp now address

/-- Every question is asked where no full window that is over stands in its way. -/
def AsksClear (calls : ThrottleCalls) : Prop :=
  ∀ before ip username now, before ++ [⟨.retryAfterSeconds ip username, now⟩] <+: calls.calls →
    throttle.IsClear now (throttle.counters before (throttle.userKey ip username))
      (throttle.counters before (ipKey ip))

end LoginThrottle

/-! ### Seconds -/

theorem ceilSeconds_pos_iff {ms : ℤ} : 0 < ceilSeconds ms ↔ 0 < ms := by
  unfold ceilSeconds
  omega

theorem ceilSeconds_eq_zero_iff {ms : ℤ} : ceilSeconds ms = 0 ↔ -1000 < ms ∧ ms ≤ 0 := by
  unfold ceilSeconds
  omega

theorem ceilSeconds_nonneg_iff {ms : ℤ} : 0 ≤ ceilSeconds ms ↔ -1000 < ms := by
  unfold ceilSeconds
  omega

namespace LoginThrottle

variable {throttle : LoginThrottle} {now : ℤ} {user address : Option ThrottleWindow}

/-! ### The answer from two windows -/

section Answer

theorem blockedFor_some {max : ℕ} {window : ThrottleWindow} (hfull : max ≤ window.count) :
    throttle.blockedFor max now (some window) =
      some (ceilSeconds (window.windowStart + throttle.windowMs - now)) := by
  unfold blockedFor
  rw [Option.filter_some_pos (by simpa using hfull)]
  rfl

theorem blockedFor_none {max : ℕ} {entry : Option ThrottleWindow}
    (hroom : ∀ window, entry = some window → window.count < max) :
    throttle.blockedFor max now entry = none := by
  unfold blockedFor
  cases entry with
  | none => rfl
  | some window =>
    rw [Option.filter_some_neg (by simpa using hroom window rfl)]
    rfl

theorem not_isBlocking {max : ℕ} {entry : Option ThrottleWindow}
    (hroom : ∀ window, entry = some window → window.count < max) :
    ¬ throttle.IsBlocking max now entry := by
  rintro ⟨window, hentry, hfull, -⟩
  exact absurd hfull (Nat.not_le.mpr (hroom window hentry))

theorem isBlocking_some {max : ℕ} {window : ThrottleWindow} (hfull : max ≤ window.count) :
    throttle.IsBlocking max now (some window) ↔ now - window.windowStart < throttle.windowMs := by
  constructor
  · rintro ⟨same, hsame, -, hrunning⟩
    obtain rfl := Option.some.inj hsame
    exact hrunning
  · exact fun hrunning ↦ ⟨window, rfl, hfull, hrunning⟩

/-- A counter with room, or a full window. -/
theorem room_or_full (max : ℕ) (entry : Option ThrottleWindow) :
    (∀ window, entry = some window → window.count < max) ∨
      ∃ window, entry = some window ∧ max ≤ window.count := by
  cases entry with
  | none => exact Or.inl nofun
  | some window =>
    by_cases hfull : max ≤ window.count
    · exact Or.inr ⟨window, rfl, hfull⟩
    · refine Or.inl fun same hsame ↦ ?_
      obtain rfl := Option.some.inj hsame
      exact Nat.not_le.mp hfull

/-- The answer when the counter of the name is full. -/
theorem isTrue_of_full {window : ThrottleWindow} (hfull : throttle.maxPerUser ≤ window.count) :
    throttle.IsTrue now (some window) address
        (ceilSeconds (window.windowStart + throttle.windowMs - now)) ↔
      throttle.IsClear now (some window) address := by
  by_cases hrunning : now - window.windowStart < throttle.windowMs
  · have hblocks : throttle.IsBlocking throttle.maxPerUser now (some window) :=
      (isBlocking_some hfull).mpr hrunning
    have hpositive : 0 < ceilSeconds (window.windowStart + throttle.windowMs - now) :=
      ceilSeconds_pos_iff.mpr (by omega)
    refine iff_of_true ⟨?_, fun _ ↦
      ⟨hpositive, Or.inl ⟨window, rfl, hfull, hrunning, rfl⟩⟩, by omega⟩
      ⟨fun same hsame _ ↦ ?_, ?_, fun hroom ↦ ?_⟩
    · exact iff_of_false (by omega) fun hnone ↦ hnone.1 hblocks
    · obtain rfl := Option.some.inj hsame
      omega
    · rintro ⟨same, hsame, -, hover⟩
      obtain rfl := Option.some.inj hsame
      omega
    · exact absurd hfull (Nat.not_le.mpr (hroom window rfl))
  · -- the window is over: what it answers is not positive
    have hfree : ¬ throttle.IsBlocking throttle.maxPerUser now (some window) :=
      fun hblocks ↦ hrunning ((isBlocking_some hfull).mp hblocks)
    have hnegative : ¬ 0 < ceilSeconds (window.windowStart + throttle.windowMs - now) := by
      rw [ceilSeconds_pos_iff]
      omega
    constructor
    · intro htrue
      have haddress : ¬ throttle.IsBlocking throttle.maxPerIp now address :=
        fun hblocks ↦ hnegative (htrue.wait (Or.inr hblocks)).1
      have hrecent := ceilSeconds_nonneg_iff.mp htrue.nonneg
      refine ⟨fun same hsame _ ↦ ?_, fun _ ↦ haddress, fun hroom ↦ ?_⟩
      · obtain rfl := Option.some.inj hsame
        omega
      · exact absurd hfull (Nat.not_le.mpr (hroom window rfl))
    · intro hclear
      have haddress := hclear.hidden ⟨window, rfl, hfull, by omega⟩
      have hrecent := hclear.userRecent window rfl hfull
      have hzero : ceilSeconds (window.windowStart + throttle.windowMs - now) = 0 :=
        ceilSeconds_eq_zero_iff.mpr (by omega)
      refine ⟨iff_of_true hzero ⟨hfree, haddress⟩, ?_, by omega⟩
      rintro (hblocks | hblocks)
      · exact absurd hblocks hfree
      · exact absurd hblocks haddress

/-- The answer when the counter of the name has room. -/
theorem isTrue_of_room (hroom : ∀ window, user = some window → window.count < throttle.maxPerUser) :
    throttle.IsTrue now user address
        ((throttle.blockedFor throttle.maxPerIp now address).getD 0) ↔
      throttle.IsClear now user address := by
  have hfree : ¬ throttle.IsBlocking throttle.maxPerUser now user := not_isBlocking hroom
  have hclear : throttle.IsClear now user address ↔
      throttle.IsRecent throttle.maxPerIp now address := by
    refine ⟨fun hclear ↦ hclear.addressRecent hroom, fun hrecent ↦ ⟨?_, ?_, fun _ ↦ hrecent⟩⟩
    · exact fun window hwindow hfull ↦ absurd hfull (Nat.not_le.mpr (hroom window hwindow))
    · rintro ⟨window, hwindow, hfull, -⟩
      exact absurd hfull (Nat.not_le.mpr (hroom window hwindow))
  rw [hclear]
  rcases room_or_full throttle.maxPerIp address with haddress | ⟨window, rfl, hfull⟩
  · have hnone : ¬ throttle.IsBlocking throttle.maxPerIp now address := not_isBlocking haddress
    rw [blockedFor_none haddress]
    refine iff_of_true ⟨iff_of_true rfl ⟨hfree, hnone⟩, ?_, le_rfl⟩ fun window hwindow hfull ↦ ?_
    · rintro (hblocks | hblocks)
      · exact absurd hblocks hfree
      · exact absurd hblocks hnone
    · exact absurd hfull (Nat.not_le.mpr (haddress window hwindow))
  · rw [blockedFor_some hfull, Option.getD_some]
    by_cases hrunning : now - window.windowStart < throttle.windowMs
    · have hblocks : throttle.IsBlocking throttle.maxPerIp now (some window) :=
        (isBlocking_some hfull).mpr hrunning
      have hpositive : 0 < ceilSeconds (window.windowStart + throttle.windowMs - now) :=
        ceilSeconds_pos_iff.mpr (by omega)
      refine iff_of_true ⟨iff_of_false (by omega) fun hnone ↦ hnone.2 hblocks,
        fun _ ↦ ⟨hpositive, Or.inr ⟨window, rfl, hfull, hrunning, rfl⟩⟩, by omega⟩ ?_
      intro same hsame _
      obtain rfl := Option.some.inj hsame
      omega
    · have hnone : ¬ throttle.IsBlocking throttle.maxPerIp now (some window) :=
        fun hblocks ↦ hrunning ((isBlocking_some hfull).mp hblocks)
      constructor
      · intro htrue same hsame _
        obtain rfl := Option.some.inj hsame
        have hrecent := ceilSeconds_nonneg_iff.mp htrue.nonneg
        omega
      · intro hrecent
        have hwithin := hrecent window rfl hfull
        have hzero : ceilSeconds (window.windowStart + throttle.windowMs - now) = 0 :=
          ceilSeconds_eq_zero_iff.mpr (by omega)
        refine ⟨iff_of_true hzero ⟨hfree, hnone⟩, ?_, by omega⟩
        rintro (hblocks | hblocks)
        · exact absurd hblocks hfree
        · exact absurd hblocks hnone

/-- What two windows answer is true of them just when no full window that is over is in the way. -/
theorem isTrue_retryAfter :
    throttle.IsTrue now user address (throttle.retryAfter now user address) ↔
    throttle.IsClear now user address := by
  unfold retryAfter
  rcases room_or_full throttle.maxPerUser user with hroom | ⟨window, rfl, hfull⟩
  · rw [blockedFor_none hroom]
    exact isTrue_of_room hroom
  · rw [blockedFor_some hfull]
    exact isTrue_of_full hfull

/-! ### Pruning -/

/-- The windows that end after an instant. -/
def endsAfter (throttle : LoginThrottle) (cut : ℤ) (entry : ThrottleWindow) : Bool :=
  cut < entry.windowStart + throttle.windowMs

theorem filter_endsAfter {cut : ℤ} (window : ThrottleWindow) :
    (some window).filter (throttle.endsAfter cut) = some window ∧
        cut < window.windowStart + throttle.windowMs ∨
      (some window).filter (throttle.endsAfter cut) = none ∧
        window.windowStart + throttle.windowMs ≤ cut := by
  by_cases hends : cut < window.windowStart + throttle.windowMs
  · exact Or.inl ⟨Option.filter_some_pos (by simpa [endsAfter] using hends), hends⟩
  · exact Or.inr ⟨Option.filter_some_neg (by simpa [endsAfter] using hends), by omega⟩

theorem room_filter {max : ℕ} {entry : Option ThrottleWindow} (kept : ThrottleWindow → Bool)
    (hroom : ∀ window, entry = some window → window.count < max) :
    ∀ window, entry.filter kept = some window → window.count < max :=
  fun window hwindow ↦ hroom window (Option.eq_some_of_filter_eq_some hwindow)

theorem blockedFor_missing (max : ℕ) : throttle.blockedFor max now none = none := rfl

/-- What is over for less than a second answers zero, as what is missing does. -/
theorem blockedFor_pruned {cut : ℤ} (hcut : cut ≤ now)
    (hrecent : throttle.IsRecent throttle.maxPerIp now address) :
    (throttle.blockedFor throttle.maxPerIp now (address.filter (throttle.endsAfter cut))).getD 0 =
      (throttle.blockedFor throttle.maxPerIp now address).getD 0 := by
  rcases room_or_full throttle.maxPerIp address with hroom | ⟨window, rfl, hfull⟩
  · rw [blockedFor_none hroom, blockedFor_none (room_filter _ hroom)]
  · rcases @filter_endsAfter throttle cut window with ⟨hkept, -⟩ | ⟨hdropped, hover⟩
    · rw [hkept]
    · have hwithin := hrecent window rfl hfull
      rw [hdropped, blockedFor_missing, blockedFor_some hfull, Option.getD_some]
      exact (ceilSeconds_eq_zero_iff.mpr (by omega)).symm

/-- Without the windows that were over at an earlier instant the answer is the same, where nothing
is in the way. -/
theorem retryAfter_pruned (hclear : throttle.IsClear now user address) {cut : ℤ}
    (hcut : cut ≤ now) :
    throttle.retryAfter now (user.filter (throttle.endsAfter cut))
        (address.filter (throttle.endsAfter cut)) = throttle.retryAfter now user address := by
  unfold retryAfter
  rcases room_or_full throttle.maxPerUser user with hroom | ⟨window, rfl, hfull⟩
  · rw [blockedFor_none hroom, blockedFor_none (room_filter _ hroom)]
    exact blockedFor_pruned hcut (hclear.addressRecent hroom)
  · rw [blockedFor_some hfull]
    rcases @filter_endsAfter throttle cut window with ⟨hkept, -⟩ | ⟨hdropped, hover⟩
    · rw [hkept, blockedFor_some hfull]
    · -- the window of the name is gone: it answered zero, and so does what is left of the address
      have hwithin := hclear.userRecent window rfl hfull
      have hfree := hclear.hidden ⟨window, rfl, hfull, by omega⟩
      have hzero : ceilSeconds (window.windowStart + throttle.windowMs - now) = 0 :=
        ceilSeconds_eq_zero_iff.mpr (by omega)
      rw [hdropped, blockedFor_missing, hzero]
      rcases room_or_full throttle.maxPerIp address with hroom | ⟨other, rfl, hother⟩
      · exact congrArg (·.getD 0) (blockedFor_none (room_filter _ hroom))
      · rcases @filter_endsAfter throttle cut other with ⟨hkept, hends⟩ | ⟨hgone, -⟩
        · rw [isBlocking_some hother] at hfree
          rw [hkept, blockedFor_some hother]
          exact ceilSeconds_eq_zero_iff.mpr (by omega)
        · rw [hgone]
          rfl

end Answer

/-! ### The map and the counters -/

/-- The map has one entry for each key, and it has what the counters are but for windows that were
over at an earlier instant. -/
structure Agrees (throttle : LoginThrottle) (failures : Failures) (counters : Counters) (cut : ℤ) :
    Prop where
  nodup : (failures.map Prod.fst).Nodup
  lookup : ∀ key, failures.lookup key = (counters key).filter (throttle.endsAfter cut)

section Agreement

variable {failures : Failures} {counters : Counters} {cut : ℤ}

theorem userKey_ne_ipKey (ip username other : String) :
    throttle.userKey ip username ≠ ipKey other := by
  intro hsame
  have hchars := congrArg String.toList hsame
  simp [userKey, ipKey] at hchars

/-- Pruning moves the cut to the present, or leaves it. -/
theorem Agrees.prune (hagrees : throttle.Agrees failures counters cut) (hcut : cut ≤ now) :
    ∃ later, later ≤ now ∧ throttle.Agrees (throttle.prune now failures) counters later := by
  unfold LoginThrottle.prune
  split_ifs with hfew
  · exact ⟨cut, hcut, hagrees⟩
  · refine ⟨now, le_rfl, hagrees.nodup.sublist (List.filter_sublist.map _), fun key ↦ ?_⟩
    have hlookup := @Data.lookup_filter_value _ _ _ failures key hagrees.nodup
      fun entry ↦ !throttle.isOver now entry
    rw [hlookup, hagrees.lookup, Option.filter_filter]
    refine congrArg (fun kept ↦ (counters key).filter kept) (funext fun entry ↦ ?_)
    rw [Bool.eq_iff_iff]
    simp only [isOver, endsAfter, Bool.and_eq_true, Bool.not_eq_true', decide_eq_false_iff_not,
      decide_eq_true_eq]
    omega

/-- A failure is counted in the same window, whether windows that are over are there or not. -/
theorem counted_filter (hcut : cut ≤ now) (entry : Option ThrottleWindow) :
    throttle.counted now (entry.filter (throttle.endsAfter cut)) = throttle.counted now entry := by
  cases entry with
  | none => rfl
  | some window =>
    rcases @filter_endsAfter throttle cut window with ⟨hkept, -⟩ | ⟨hdropped, hover⟩
    · rw [hkept]
    · have hisOver : throttle.isOver now window = true := decide_eq_true (by omega)
      rw [hdropped]
      simp only [counted, hisOver, if_true]

theorem endsAfter_counted (hcut : cut ≤ now) (entry : Option ThrottleWindow) :
    throttle.endsAfter cut (throttle.counted now entry) = true := by
  have hpositive := throttle.windowMs_pos
  refine decide_eq_true ?_
  cases entry with
  | none =>
    dsimp only [counted]
    omega
  | some window =>
    by_cases hover : throttle.windowMs ≤ now - window.windowStart
    · have hisOver : throttle.isOver now window = true := decide_eq_true hover
      simp only [counted, hisOver, if_true]
      omega
    · have hisOver : throttle.isOver now window = false := decide_eq_false hover
      simp only [counted, hisOver, Bool.false_eq_true, if_false]
      omega

theorem Agrees.countFailure (hagrees : throttle.Agrees failures counters cut) (hcut : cut ≤ now)
    (key : String) : throttle.Agrees (throttle.countFailure now key failures)
      (Function.update counters key (some (throttle.counted now (counters key)))) cut where
  nodup := by
    unfold LoginThrottle.countFailure
    rw [List.map_cons, List.nodup_cons]
    refine ⟨fun hmem ↦ ?_, hagrees.nodup.sublist (List.filter_sublist.map _)⟩
    obtain ⟨entry, hentry, hkey⟩ := List.mem_map.mp hmem
    exact of_decide_eq_true (List.mem_filter.mp hentry).2 hkey
  lookup := by
    intro other
    unfold LoginThrottle.countFailure
    by_cases hsame : other = key
    · subst hsame
      rw [List.lookup_cons_self, Function.update_self, hagrees.lookup, counted_filter hcut,
        Option.filter_some_pos (endsAfter_counted hcut _)]
    · rw [List.lookup_cons, beq_false_of_ne hsame, Function.update_of_ne hsame, ← hagrees.lookup]
      exact Data.lookup_filter_ne hsame

theorem Agrees.recordSuccess (hagrees : throttle.Agrees failures counters cut) (key : String) :
    throttle.Agrees (failures.filter fun stored ↦ stored.1 ≠ key)
      (Function.update counters key none)
      cut where
  nodup := hagrees.nodup.sublist (List.filter_sublist.map _)
  lookup := by
    intro other
    by_cases hsame : other = key
    · subst hsame
      rw [Function.update_self]
      exact Data.lookup_filter_self
    · rw [Function.update_of_ne hsame, ← hagrees.lookup]
      exact Data.lookup_filter_ne hsame

/-- A failure is counted for the name and for the address. -/
theorem count_recordFailure (ip username : String) : throttle.count counters
      ⟨.recordFailure ip username, now⟩ =
    Function.update (Function.update counters (throttle.userKey ip username)
        (some (throttle.counted now (counters (throttle.userKey ip username)))))
      (ipKey ip) (some (throttle.counted now (counters (ipKey ip)))) := by
  funext key
  unfold LoginThrottle.count
  dsimp only
  by_cases haddress : key = ipKey ip
  · subst haddress
    rw [if_pos (Or.inr rfl), Function.update_self]
  · rw [Function.update_of_ne haddress]
    by_cases huser : key = throttle.userKey ip username
    · subst huser
      rw [if_pos (Or.inl rfl), Function.update_self]
    · rw [if_neg (not_or.mpr ⟨huser, haddress⟩), Function.update_of_ne huser]

theorem count_recordSuccess (ip username : String) :
    throttle.count counters ⟨.recordSuccess ip username, now⟩ =
      Function.update counters (throttle.userKey ip username) none := by
  funext key
  unfold LoginThrottle.count
  dsimp only
  by_cases huser : key = throttle.userKey ip username
  · subst huser
    rw [if_pos rfl, Function.update_self]
  · rw [if_neg huser, Function.update_of_ne huser]

/-- Every call keeps the agreement. -/
theorem Agrees.step (hagrees : throttle.Agrees failures counters cut) {call : ThrottleCall}
    (hcut : cut ≤ call.time) : ∃ later, later ≤ call.time ∧
      throttle.Agrees (throttle.step failures call) (throttle.count counters call) later := by
  obtain ⟨request, now⟩ := call
  cases request with
  | recordFailure ip username =>
    refine ⟨cut, hcut, ?_⟩
    have hne : ipKey ip ≠ throttle.userKey ip username := (userKey_ne_ipKey ip username ip).symm
    have hboth := (hagrees.countFailure hcut (throttle.userKey ip username)).countFailure
      hcut (ipKey ip)
    rw [Function.update_of_ne hne] at hboth
    rw [count_recordFailure]
    exact hboth
  | recordSuccess ip username =>
    refine ⟨cut, hcut, ?_⟩
    rw [count_recordSuccess]
    exact hagrees.recordSuccess _
  | retryAfterSeconds ip username => exact hagrees.prune hcut

end Agreement

/-! ### Every sequence of calls -/

/-- After calls at nondecreasing times the map agrees with the counters. -/
theorem agrees_after {calls : List ThrottleCall}
    (hsorted : calls.Pairwise fun earlier later ↦ earlier.time ≤ later.time)
    (hnow : ∀ call ∈ calls, call.time ≤ now) :
    ∃ cut, cut ≤ now ∧ throttle.Agrees (throttle.after calls) (throttle.counters calls) cut := by
  induction calls using List.reverseRecOn generalizing now with
  | nil => exact ⟨now, le_rfl, List.nodup_nil, fun _ ↦ rfl⟩
  | append_singleton calls call ih =>
    obtain ⟨hbefore, -, hlast⟩ := List.pairwise_append.mp hsorted
    obtain ⟨cut, hcut, hagrees⟩ :=
      ih hbefore fun earlier hearlier ↦ hlast earlier hearlier call List.mem_cons_self
    obtain ⟨later, hlater, hstep⟩ := hagrees.step hcut
    refine ⟨later, le_trans hlater (hnow call (List.mem_append_right _ List.mem_cons_self)), ?_⟩
    unfold after counters at hstep ⊢
    rw [List.foldl_append, List.foldl_append]
    exact hstep

/-- One answer. -/
theorem answer_iff {calls : List ThrottleCall} {ip username : String}
    (hsorted : (calls ++ [(⟨.retryAfterSeconds ip username, now⟩ : ThrottleCall)]).Pairwise
      fun earlier later ↦ earlier.time ≤ later.time) :
    (throttle.IsTrue now (throttle.counters calls (throttle.userKey ip username))
        (throttle.counters calls (ipKey ip))
        (throttle.retryAfterSeconds ip username now (throttle.after calls)).1 ∧
      (throttle.retryAfterSeconds ip username now (throttle.after calls)).1 =
        throttle.retryAfter now (throttle.counters calls (throttle.userKey ip username))
          (throttle.counters calls (ipKey ip))) ↔
      throttle.IsClear now (throttle.counters calls (throttle.userKey ip username))
        (throttle.counters calls (ipKey ip)) := by
  obtain ⟨hbefore, -, hlast⟩ := List.pairwise_append.mp hsorted
  obtain ⟨cut, hcut, hagrees⟩ := @agrees_after throttle now calls hbefore fun call hcall ↦
    hlast call hcall _ List.mem_cons_self
  obtain ⟨later, hlater, hpruned⟩ := hagrees.prune hcut
  have hanswer : (throttle.retryAfterSeconds ip username now (throttle.after calls)).1 =
      throttle.retryAfter now
        ((throttle.counters calls (throttle.userKey ip username)).filter (throttle.endsAfter later))
        ((throttle.counters calls (ipKey ip)).filter (throttle.endsAfter later)) := by
    rw [← hpruned.lookup, ← hpruned.lookup]
    rfl
  constructor
  · rintro ⟨htrue, hsame⟩
    rw [hsame] at htrue
    exact isTrue_retryAfter.mp htrue
  · intro hclear
    have hsame := hanswer.trans (retryAfter_pruned hclear hlater)
    refine ⟨?_, hsame⟩
    rw [hsame]
    exact isTrue_retryAfter.mpr hclear

/-- The throttle of the login route, as the requests of one address use it. -/
def ofClient (client : Client) : LoginThrottle where
  toLowerCase := client.toLowerCase

section Route

variable (client : Client) (world : Login.World)

theorem failures_prune :
    world.prune.failures = (ofClient client).prune world.now world.failures := by
  unfold Login.World.prune LoginThrottle.prune
  split_ifs <;> rfl

theorem failures_countFailure (key : String) : (world.countFailure key).failures =
    (ofClient client).countFailure world.now key world.failures := by
  have hcounted : world.counted key =
      (ofClient client).counted world.now (world.failures.lookup key) := by
    unfold Login.World.counted counted
    cases world.failures.lookup key with
    | none => rfl
    | some entry =>
      have hsame : (ofClient client).isOver world.now entry = world.isOver entry := rfl
      dsimp only
      rw [hsame]
      cases hover : world.isOver entry with
      | true => rw [Option.filter_some_neg (by simp [hover]), if_pos rfl]
      | false => rw [Option.filter_some_pos (by simp [hover]), if_neg Bool.false_ne_true]
  unfold Login.World.countFailure countFailure
  rw [hcounted]

theorem failures_recordFailure (username : String) :
    (world.recordFailure client username).failures =
    (ofClient client).recordFailure client.ip username world.now world.failures := by
  have hcount : (world.recordFailure client username).failures =
      ((world.countFailure (client.key (client.userCounter username))).countFailure
        (client.key .address)).failures := rfl
  rw [hcount, failures_countFailure client, failures_countFailure client]
  rfl

theorem failures_recordSuccess (username : String) :
    (world.recordSuccess client username).failures =
    (ofClient client).recordSuccess client.ip username world.failures := rfl

end Route

/-! ### Fifteen minutes and two seconds after five failures -/

def defaultThrottle : LoginThrottle where
  toLowerCase := String.toLower

/-- Five failures of a name at once, and the question two seconds after their window. -/
def staleWindow : ThrottleCalls where
  calls := List.replicate 5 ⟨.recordFailure "10.0.0.7" "alice", 0⟩ ++
    [⟨.retryAfterSeconds "10.0.0.7" "alice", 902000⟩]
  nondecreasing := by decide

end LoginThrottle

end VmsLite.Users
