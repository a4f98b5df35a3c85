import VmsLite.Async.Stock
import VmsLite.Data.AssociationList
import VmsLite.Users.Login
import VmsLite.Users.SequentialSessions

/-!
# Brute force

A login consults the throttle before a slow verification and counts a failure after it. What is
between the two in the meantime is not counted, so that many requests at once get past a limit. A
full counter whose window is over moreover ends the look at the counters: the one of the address is
then not asked. In every run whose failures are counted in time, no window of a counter has more
failures than it allows (`bruteForceBounded`).
-/

set_option autoImplicit false

namespace VmsLite.Users.Login

open VmsLite.Async Program

/-! ### The claim -/

/-- The windows of a counter, the latest first: a failure opens one unless it falls into the
latest. -/
def addFailure (windows : List ThrottleWindow) (time : ℤ) : List ThrottleWindow :=
  match windows with
  | [] => [{ count := 1, windowStart := time }]
  | latest :: earlier =>
    if windowMs ≤ time - latest.windowStart then
      { count := 1, windowStart := time } :: latest :: earlier
    else { latest with count := latest.count + 1 } :: earlier

def throttleWindows (times : List ℤ) : List ThrottleWindow := times.foldl addFailure []

/-- The failures of a name since its last success. -/
def addUserAttempt (client : Client) (name : String) (times : List ℤ) (attempt : Attempt) :
    List ℤ :=
  if client.toLowerCase attempt.username = name then
    if attempt.succeeded then [] else times ++ [attempt.time]
  else times

/-- The failures that a counter is about: of its name since its last success, or all. -/
def failureTimes (client : Client) : Counter → List Attempt → List ℤ
  | .user name, attempts => attempts.foldl (addUserAttempt client name) []
  | .address, attempts => (attempts.filter (!·.succeeded)).map (·.time)

/-- No window of a name or of the address has more failures than it allows. -/
def Bounded (client : Client) (attempts : List Attempt) : Prop :=
  ∀ counter, ∀ window ∈ throttleWindows (failureTimes client counter attempts),
    window.count ≤ counter.max

/-! ### Counters -/

section Counters

variable (client : Client) (world : World)

theorem key_injective {first second : Counter} (hkey : client.key first = client.key second) :
    first = second := by
  have hne : ∀ name, client.key (.user name) ≠ client.key .address := by
    intro name hsame
    have hchars := congrArg String.toList hsame
    simp [Client.key] at hchars
  cases first with
  | user name =>
    cases second with
    | user other =>
      have hchars := congrArg String.toList hkey
      simp only [Client.key, String.toList_append, List.append_cancel_left_eq] at hchars
      rw [String.toList_inj.mp hchars]
    | address => exact absurd hkey (hne name)
  | address =>
    cases second with
    | user other => exact absurd hkey.symm (hne other)
    | address => rfl

/-- The failures of a window that is not over. -/
def openCount (entry : Option ThrottleWindow) (now : ℤ) : ℕ :=
  (entry.filter fun entry ↦ !decide (windowMs ≤ now - entry.windowStart)).elim 0
    ThrottleWindow.count

/-- The failures in the window of a counter. -/
def current (counter : Counter) : ℕ :=
  openCount (world.failures.lookup (client.key counter)) world.now

/-- Whether a login counts its failure for a counter. -/
def concerns (username : String) (counter : Counter) : Bool :=
  counter = .address || counter = client.userCounter username

end Counters

/-! ### Windows -/

section Windows

theorem throttleWindows_concat (times : List ℤ) (time : ℤ) :
    throttleWindows (times ++ [time]) = addFailure (throttleWindows times) time := by
  unfold throttleWindows
  rw [List.foldl_append, List.foldl_cons, List.foldl_nil]

variable (client : Client) (attempts : List Attempt) (username : String) (time : ℤ)

theorem failureTimes_failure (counter : Counter) :
    failureTimes client counter (attempts ++ [{ username, succeeded := false, time }]) =
      if concerns client username counter then failureTimes client counter attempts ++ [time]
      else failureTimes client counter attempts := by
  cases counter with
  | address =>
    show ((attempts ++ [_]).filter _).map _ = _
    rw [List.filter_append, List.map_append]
    rfl
  | user name =>
    have hconcerns : concerns client username (.user name) = true ↔
        client.toLowerCase username = name := by
      simp [concerns, Client.userCounter, eq_comm]
    simp only [hconcerns]
    show (attempts ++ [_]).foldl (addUserAttempt client name) [] = _
    rw [List.foldl_append, List.foldl_cons, List.foldl_nil]
    rfl

theorem failureTimes_success (counter : Counter) :
    failureTimes client counter (attempts ++ [{ username, succeeded := true, time }]) =
      if counter = client.userCounter username then [] else failureTimes client counter
          attempts := by
  cases counter with
  | address =>
    show ((attempts ++ [_]).filter _).map _ = _
    rw [List.filter_append, List.map_append, if_neg nofun]
    exact List.append_nil _
  | user name =>
    have hsame : Counter.user name = client.userCounter username ↔
        client.toLowerCase username = name := by
      simp [Client.userCounter, eq_comm]
    simp only [hsame]
    show (attempts ++ [_]).foldl (addUserAttempt client name) [] = _
    rw [List.foldl_append, List.foldl_cons, List.foldl_nil]
    rfl

end Windows

/-! ### The store of the throttle -/

/-- What the throttle has stored of a counter is its latest window; what it has forgotten is
over. -/
structure Agrees (client : Client) (world : World) (counter : Counter) : Prop where
  stored : ∀ entry, world.failures.lookup (client.key counter) = some entry →
    ∃ earlier, throttleWindows (failureTimes client counter world.attempts) = entry :: earlier
  missing : world.failures.lookup (client.key counter) = none → ∀ latest earlier,
    throttleWindows (failureTimes client counter world.attempts) = latest :: earlier →
      windowMs ≤ world.now - latest.windowStart

/-- The store has one entry for each key, and agrees with the windows, which are all bounded. -/
structure Sound (client : Client) (world : World) : Prop where
  nodup : (world.failures.map Prod.fst).Nodup
  agrees : ∀ counter, Agrees client world counter
  bounded : Bounded client world.attempts

/-- The window of a counter after one more failure. -/
theorem Agrees.addFailure {client : Client} {world : World} {counter : Counter}
    (hagrees : Agrees client world counter) :
    ∃ earlier, addFailure (throttleWindows (failureTimes client counter world.attempts)) world.now =
        world.counted (client.key counter) :: earlier ∧
      (∀ window ∈ earlier,
        window ∈ throttleWindows (failureTimes client counter world.attempts)) ∧
      (world.counted (client.key counter)).count = current client world counter + 1 := by
  unfold World.counted current openCount World.isOver
  cases hlookup : world.failures.lookup (client.key counter) with
  | none =>
    cases hwindows : throttleWindows (failureTimes client counter world.attempts) with
    | nil => exact ⟨[], rfl, nofun, rfl⟩
    | cons latest earlier =>
      have hover := hagrees.missing hlookup latest earlier hwindows
      refine ⟨latest :: earlier, ?_, fun _ ↦ id, rfl⟩
      unfold Login.addFailure
      dsimp only
      rw [if_pos hover]
      rfl
  | some entry =>
    obtain ⟨earlier, hwindows⟩ := hagrees.stored entry hlookup
    rw [hwindows]
    unfold Login.addFailure
    dsimp only
    by_cases hover : windowMs ≤ world.now - entry.windowStart
    · have hfilter : (some entry).filter (fun entry ↦
          !decide (windowMs ≤ world.now - entry.windowStart)) = none :=
        Option.filter_some_neg (by simpa using hover)
      rw [hfilter, if_pos hover]
      exact ⟨entry :: earlier, rfl, fun _ ↦ id, rfl⟩
    · have hfilter : (some entry).filter (fun entry ↦
          !decide (windowMs ≤ world.now - entry.windowStart)) = some entry :=
        Option.filter_some_pos (by simpa using hover)
      rw [hfilter, if_neg hover]
      exact ⟨earlier, rfl, fun _ ↦ List.mem_cons_of_mem _, rfl⟩

/-! ### What the calls do to the counters -/

section Calls

variable {client : Client} {world : World}

theorem openCount_le (entry : ThrottleWindow) (now : ℤ) :
    openCount (some entry) now ≤ entry.count := by
  unfold openCount
  by_cases hover : windowMs ≤ now - entry.windowStart
  · rw [Option.filter_some_neg (by simpa using hover)]
    exact Nat.zero_le _
  · rw [Option.filter_some_pos (by simpa using hover)]
    exact Nat.le_refl _

theorem lookup_countFailure (key other : String) :
    (world.countFailure key).failures.lookup other =
      if other = key then some (world.counted key) else world.failures.lookup other := by
  unfold World.countFailure
  dsimp only
  split_ifs with hsame
  · subst hsame
    exact List.lookup_cons_self
  · rw [List.lookup_cons, beq_false_of_ne hsame]
    exact Data.lookup_filter_ne hsame

theorem nodup_countFailure (key : String) (hnodup : (world.failures.map Prod.fst).Nodup) :
    ((world.countFailure key).failures.map Prod.fst).Nodup := by
  unfold World.countFailure
  dsimp only
  rw [List.map_cons, List.nodup_cons]
  refine ⟨fun hmem ↦ ?_, hnodup.sublist (List.filter_sublist.map _)⟩
  obtain ⟨entry, hentry, hkey⟩ := List.mem_map.mp hmem
  exact of_decide_eq_true (List.mem_filter.mp hentry).2 hkey

/-- Counting a failure for a name does not touch the counter of the address. -/
theorem counted_address (username : String) :
    (world.countFailure (client.key (client.userCounter username))).counted (client.key .address) =
      world.counted (client.key .address) := by
  have hne : client.key .address ≠ client.key (client.userCounter username) :=
    fun hsame ↦ nomatch key_injective client hsame
  have hlookup := @lookup_countFailure world (client.key (client.userCounter username))
    (client.key .address)
  rw [if_neg hne] at hlookup
  unfold World.counted
  rw [hlookup]
  rfl

theorem lookup_recordFailure (username : String) (counter : Counter) :
    (world.recordFailure client username).failures.lookup (client.key counter) =
      if concerns client username counter then some (world.counted (client.key counter))
      else world.failures.lookup (client.key counter) := by
  show ((world.countFailure _).countFailure _).failures.lookup _ = _
  rw [lookup_countFailure, lookup_countFailure, counted_address]
  by_cases haddress : counter = .address
  · subst haddress
    rw [if_pos rfl]
    rfl
  · have hkey : client.key counter ≠ client.key .address :=
      fun hsame ↦ haddress (key_injective client hsame)
    rw [if_neg hkey]
    by_cases huser : counter = client.userCounter username
    · subst huser
      rw [if_pos rfl, if_pos (by simp [concerns])]
    · have hother : client.key counter ≠ client.key (client.userCounter username) :=
        fun hsame ↦ huser (key_injective client hsame)
      rw [if_neg hother, if_neg (by simp [concerns, haddress, huser])]

theorem lookup_recordSuccess (username : String) (counter : Counter) :
    (world.recordSuccess client username).failures.lookup (client.key counter) =
      if counter = client.userCounter username then none
      else world.failures.lookup (client.key counter) := by
  show (world.failures.filter _).lookup _ = _
  split_ifs with hsame
  · subst hsame
    exact Data.lookup_filter_self
  · exact Data.lookup_filter_ne fun hkey ↦ hsame (key_injective client hkey)

theorem lookup_prune (hnodup : (world.failures.map Prod.fst).Nodup) (key : String) :
    world.prune.failures.lookup key = world.failures.lookup key ∨
      world.prune.failures.lookup key =
        (world.failures.lookup key).filter fun entry ↦ !world.isOver entry := by
  unfold World.prune
  split_ifs
  · exact Or.inl rfl
  · exact Or.inr (Data.lookup_filter_value hnodup fun entry ↦ !world.isOver entry)

theorem prune_same : world.prune.attempts = world.attempts ∧ world.prune.now = world.now := by
  unfold World.prune
  split_ifs <;> exact ⟨rfl, rfl⟩

/-- Pruning forgets only windows that are over. -/
theorem sound_prune (hsound : Sound client world) : Sound client world.prune := by
  obtain ⟨hattempts, hnow⟩ := @prune_same world
  refine ⟨?_, fun counter ↦ ?_, hattempts ▸ hsound.bounded⟩
  · unfold World.prune
    split_ifs
    · exact hsound.nodup
    · exact hsound.nodup.sublist (List.filter_sublist.map _)
  · have hagrees := hsound.agrees counter
    rcases lookup_prune hsound.nodup (client.key counter) with hsame | hfiltered
    · refine ⟨fun entry hentry ↦ ?_, fun hnone ↦ ?_⟩
      · rw [hattempts]
        exact hagrees.stored entry (hsame ▸ hentry)
      · rw [hattempts, hnow]
        exact hagrees.missing (hsame ▸ hnone)
    · refine ⟨fun entry hentry ↦ ?_, fun hnone latest earlier hwindows ↦ ?_⟩
      · rw [hattempts]
        rw [hfiltered] at hentry
        exact hagrees.stored entry (Option.eq_some_of_filter_eq_some hentry)
      · rw [hattempts] at hwindows
        rw [hnow]
        cases hlookup : world.failures.lookup (client.key counter) with
        | none => exact hagrees.missing hlookup latest earlier hwindows
        | some entry =>
          obtain ⟨older, hstored⟩ := hagrees.stored entry hlookup
          obtain ⟨rfl, -⟩ := List.cons.inj (hwindows.symm.trans hstored)
          rw [hfiltered, hlookup] at hnone
          have hover := Option.filter_some_eq_none.mp hnone
          simpa [World.isOver] using hover

theorem current_prune (hsound : Sound client world) (counter : Counter) :
    current client world.prune counter = current client world counter := by
  unfold current openCount
  rw [(@prune_same world).2]
  rcases lookup_prune hsound.nodup (client.key counter) with hsame | hfiltered
  · rw [hsame]
  · rw [hfiltered, Option.filter_filter]
    refine congrArg (fun entry : Option ThrottleWindow ↦ entry.elim 0 ThrottleWindow.count) ?_
    refine congrArg (fun keeps ↦ (world.failures.lookup (client.key counter)).filter keeps) ?_
    funext entry
    exact Bool.and_self _

/-- Counting a failure keeps the bounds where there is room for it. -/
theorem sound_recordFailure (hsound : Sound client world) (username : String)
    (hroom : ∀ counter, concerns client username counter = true →
      0 < counter.max - current client world counter) :
    Sound client (world.recordFailure client username) := by
  have hattempts : (world.recordFailure client username).attempts =
      world.attempts ++ [{ username, succeeded := false, time := world.now }] := rfl
  refine ⟨?_, fun counter ↦ ?_, fun counter window hwindow ↦ ?_⟩
  · exact nodup_countFailure _ (nodup_countFailure _ hsound.nodup)
  · have hlookup := @lookup_recordFailure client world username counter
    by_cases hconcerns : concerns client username counter = true
    · rw [if_pos hconcerns] at hlookup
      obtain ⟨earlier, hwindows, -, -⟩ := (hsound.agrees counter).addFailure
      refine ⟨fun entry hentry ↦ ⟨earlier, ?_⟩, fun hnone ↦ ?_⟩
      · rw [hattempts, failureTimes_failure, if_pos hconcerns, throttleWindows_concat, hwindows,
          ← Option.some.inj (hlookup.symm.trans hentry)]
      · rw [hlookup] at hnone
        cases hnone
    · rw [if_neg hconcerns] at hlookup
      have hagrees := hsound.agrees counter
      refine ⟨fun entry hentry ↦ ?_, fun hnone ↦ ?_⟩
      · rw [hattempts, failureTimes_failure, if_neg hconcerns]
        exact hagrees.stored entry (hlookup ▸ hentry)
      · rw [hattempts, failureTimes_failure, if_neg hconcerns]
        exact hagrees.missing (hlookup ▸ hnone)
  · rw [hattempts, failureTimes_failure] at hwindow
    split_ifs at hwindow with hconcerns
    · obtain ⟨earlier, hwindows, hold, hcount⟩ := (hsound.agrees counter).addFailure
      rw [throttleWindows_concat, hwindows] at hwindow
      rcases List.mem_cons.mp hwindow with rfl | hearlier
      · have hleft := hroom counter hconcerns
        omega
      · exact hsound.bounded counter window (hold window hearlier)
    · exact hsound.bounded counter window hwindow

theorem current_recordFailure (hsound : Sound client world) (username : String)
    (counter : Counter) : current client (world.recordFailure client username) counter ≤
      current client world counter + if concerns client username counter then 1 else 0 := by
  unfold current
  rw [lookup_recordFailure]
  split_ifs
  · obtain ⟨-, -, -, hcount⟩ := (hsound.agrees counter).addFailure
    exact Nat.le_trans (openCount_le _ _) (Nat.le_of_eq hcount)
  · exact Nat.le_refl _

/-- A success clears the counter of its name. -/
theorem sound_recordSuccess (hsound : Sound client world) (username : String) :
    Sound client (world.recordSuccess client username) := by
  have hattempts : (world.recordSuccess client username).attempts =
      world.attempts ++ [{ username, succeeded := true, time := world.now }] := rfl
  refine ⟨hsound.nodup.sublist (List.filter_sublist.map _), fun counter ↦ ?_,
    fun counter window hwindow ↦ ?_⟩
  · have hlookup := @lookup_recordSuccess client world username counter
    have hagrees := hsound.agrees counter
    split_ifs at hlookup with hsame
    · refine ⟨fun entry hentry ↦ ?_, fun _ latest earlier hwindows ↦ ?_⟩
      · rw [hlookup] at hentry
        cases hentry
      · rw [hattempts, failureTimes_success, if_pos hsame] at hwindows
        cases hwindows
    · refine ⟨fun entry hentry ↦ ?_, fun hnone ↦ ?_⟩
      · rw [hattempts, failureTimes_success, if_neg hsame]
        exact hagrees.stored entry (hlookup ▸ hentry)
      · rw [hattempts, failureTimes_success, if_neg hsame]
        exact hagrees.missing (hlookup ▸ hnone)
  · rw [hattempts, failureTimes_success] at hwindow
    split_ifs at hwindow
    · cases hwindow
    · exact hsound.bounded counter window hwindow

theorem current_recordSuccess (username : String) (counter : Counter) :
    current client (world.recordSuccess client username) counter ≤
        current client world counter := by
  unfold current
  rw [lookup_recordSuccess]
  split_ifs
  · exact Nat.zero_le _
  · exact Nat.le_refl _

/-- As time passes, more windows are over. -/
theorem sound_of_later {later : World} (hsound : Sound client world)
    (hfailures : later.failures = world.failures) (hattempts : later.attempts = world.attempts)
    (hnow : world.now ≤ later.now) : Sound client later := by
  refine ⟨hfailures ▸ hsound.nodup, fun counter ↦ ?_, hattempts ▸ hsound.bounded⟩
  have hagrees := hsound.agrees counter
  refine ⟨fun entry hentry ↦ ?_, fun hnone latest earlier hwindows ↦ ?_⟩
  · rw [hattempts]
    exact hagrees.stored entry (hfailures ▸ hentry)
  · rw [hattempts] at hwindows
    have hover := hagrees.missing (hfailures ▸ hnone) latest earlier hwindows
    omega

theorem current_of_later {later : World} (hfailures : later.failures = world.failures)
    (hnow : world.now ≤ later.now) (counter : Counter) :
    current client later counter ≤ current client world counter := by
  unfold current
  rw [hfailures]
  cases world.failures.lookup (client.key counter) with
  | none => exact Nat.le_refl _
  | some entry =>
    unfold openCount
    by_cases hover : windowMs ≤ later.now - entry.windowStart
    · rw [Option.filter_some_neg (by simpa using hover)]
      exact Nat.zero_le _
    · have hbefore : ¬ windowMs ≤ world.now - entry.windowStart := by omega
      refine Nat.le_of_eq ?_
      rw [Option.filter_some_pos (by simpa using hover),
        Option.filter_some_pos (by simpa using hbefore)]

end Calls

/-! ### The stock -/

/-- The failures that a look at a counter leaves. -/
def failuresLeft : (call : Call) → Reply call → Counter → Option ℕ
  | .failuresGet looked, reply, counter =>
    if looked = counter then some (counter.max - openCount reply.1 reply.2) else none
  | _, _, _ => none

/-- Whether a call counts a failure for a counter. -/
def countsFailure (client : Client) : Call → Counter → Bool
  | .recordFailure username, counter => concerns client username counter
  | _, _ => false

/-- The failures that each counter still allows in its window. -/
def failuresAllowed (client : Client) : Stock Counter (machine client) where
  left := fun counter world ↦ counter.max - current client world counter
  measured := failuresLeft
  takes := fun call _ _ counter ↦ countsFailure client call counter
  mayTake := countsFailure client
  sound := Sound client
  mayTake_of_takes := id
  measured_le := by
    intro call outcome world counter count hsound hmeasured
    cases call with
    | failuresGet looked =>
      have hsome : (if looked = counter then some (counter.max -
          openCount (world.failures.lookup (client.key looked)) world.now) else none) =
            some count := hmeasured
      split_ifs at hsome with hsame
      subst hsame
      exact Nat.le_of_eq (Option.some.inj hsome).symm
    | _ => cases hmeasured
  left_le := by
    intro call outcome world counter hsound
    have hle : current client (answer client call outcome world).2 counter ≤
        current client world counter + if countsFailure client call counter then 1 else 0 := by
      cases call with
      | session call =>
        have hnow : world.now ≤ (answer client (.session call) outcome world).2.now :=
          Int.le_of_eq (now_answer call outcome world.session).symm
        exact @current_of_later client world (answer client (.session call) outcome world).2 rfl
          hnow
          counter
      | prune => exact Nat.le_of_eq (current_prune hsound counter)
      | recordFailure username => exact current_recordFailure hsound username counter
      | recordSuccess username => exact current_recordSuccess username counter
      | _ => exact Nat.le_refl _
    show counter.max - current client world counter ≤
      counter.max - current client (answer client call outcome world).2 counter +
        if countsFailure client call counter then 1 else 0
    omega
  sound_answer := by
    intro call outcome world hsound htakes
    cases call with
    | session call =>
      have hnow : world.now ≤ (answer client (.session call) outcome world).2.now :=
        Int.le_of_eq (now_answer call outcome world.session).symm
      exact sound_of_later hsound rfl rfl hnow
    | prune => exact sound_prune hsound
    | recordFailure username => exact sound_recordFailure hsound username htakes
    | recordSuccess username => exact sound_recordSuccess hsound username
    | failuresGet counter => exact hsound
    | findUserByName username => exact hsound
    | audit action => exact hsound
    | sign payload => exact sound_of_later hsound rfl rfl (Int.le_refl _)

/-! ### The requests -/

section Requests

variable {client : Client} {known : Counter → Option ℕ}

theorem max_pos (counter : Counter) : 0 < counter.max := by
  cases counter with
  | user name => show 0 < 5; decide
  | address => show 0 < 20; decide

theorem ceilSeconds_pos_iff (ms : ℤ) : 0 < ceilSeconds ms ↔ 0 < ms := by
  unfold ceilSeconds
  omega

/-- A look at a counter says that it is blocked, or leaves the request free. -/
theorem blockedFor_follows (counter : Counter) (hfree : Stock.Free known) :
    (blockedFor counter).Follows (failuresAllowed client).checking
      (fun blocked known ↦ Stock.Free known ∨ ∃ seconds, blocked = some seconds ∧ 0 < seconds)
      (fun _ _ ↦ True) known := by
  refine ⟨(failuresAllowed client).permits_of_free hfree _, fun reply _ ↦ ?_⟩
  obtain ⟨entry, now⟩ := reply
  show Stock.Free (fun other ↦ (if counter = other then
      some (other.max - openCount entry now) else none).or (known other)) ∨ _
  by_cases hroom : openCount entry now < counter.max
  · left
    intro other
    dsimp only
    split_ifs with hsame
    · subst hsame
      intro hzero
      have hnone : counter.max - openCount entry now = 0 := Option.some.inj hzero
      omega
    · exact hfree other
  · right
    cases entry with
    | none => exact absurd (max_pos counter) hroom
    | some entry =>
      unfold openCount at hroom
      by_cases hover : windowMs ≤ now - entry.windowStart
      · rw [Option.filter_some_neg (by simpa using hover)] at hroom
        exact absurd (max_pos counter) hroom
      · rw [Option.filter_some_pos (by simpa using hover)] at hroom
        have hfull : counter.max ≤ entry.count := Nat.le_of_not_lt hroom
        refine ⟨ceilSeconds (entry.windowStart + windowMs - now), ?_,
          (ceilSeconds_pos_iff _).mpr (by omega)⟩
        rw [Option.filter_some_pos (by simpa using hfull)]
        rfl

/-- The throttle blocks a request, or leaves it free to fail. -/
theorem retryAfterSeconds_follows (username : String) (hfree : Stock.Free known) :
    (retryAfterSeconds client username).Follows (failuresAllowed client).checking
      (fun retryAfter known ↦ Stock.Free known ∨ 0 < retryAfter) (fun _ _ ↦ True) known := by
  refine ⟨(failuresAllowed client).permits_of_free hfree _, fun reply _ ↦ ?_⟩
  have hpruned : Stock.Free ((failuresAllowed client).checking.step known .prune reply) :=
    (failuresAllowed client).free_of_unmeasured (fun _ _ ↦ rfl) hfree reply
  show Program.Follows _ _ _ ((blockedFor _).bind _) _
  refine Follows.bind (blockedFor_follows _ hpruned) fun blocked reached hblocked ↦ ?_
  cases blocked with
  | some seconds =>
    rcases hblocked with hfree | ⟨found, hsame, hpos⟩
    · exact Or.inl hfree
    · exact Or.inr (Option.some.inj hsame ▸ hpos)
  | none =>
    have hfree : Stock.Free reached := by
      rcases hblocked with hfree | ⟨found, hsame, -⟩
      · exact hfree
      · cases hsame
    refine Follows.bind (blockedFor_follows _ hfree) fun blocked reached hblocked ↦ ?_
    rcases hblocked with hfree | ⟨found, rfl, hpos⟩
    · exact Or.inl hfree
    · exact Or.inr hpos

theorem verifyCredentials_unmeasured (username password : String) :
    (verifyCredentials username password).Uses (failuresAllowed client).Unmeasured := by
  refine Uses.bind (Uses.request fun _ _ ↦ rfl) fun reply ↦
    Uses.bind (Uses.request fun _ _ ↦ rfl) fun _ ↦ Uses.bind Uses.orThrow fun found ↦ ?_
  cases found.value with
  | none => trivial
  | some user => exact Uses.bind (Uses.request fun _ _ ↦ rfl) fun _ ↦ trivial

/-- A login counts a failure only if the throttle let it go on. -/
theorem login_careful (username password : String) :
    (failuresAllowed client).Careful (login client username password) := by
  unfold login
  split_ifs
  · trivial
  have hnone : Stock.Free fun _ : Counter ↦ (none : Option ℕ) := fun _ ↦ nofun
  refine Follows.bind (retryAfterSeconds_follows username hnone) fun retryAfter reached hallowed ↦
    ?_
  split_ifs with hblocked
  · trivial
  have hfree : Stock.Free reached := hallowed.resolve_right hblocked
  refine ((failuresAllowed client).follows_of_unmeasured (Uses.bind
    (verifyCredentials_unmeasured username password) fun verified ↦ ?_) hfree).mono
      (fun _ _ _ ↦ trivial) fun _ _ ↦ id
  cases verified with
  | none => exact Uses.bind (Uses.request fun _ _ ↦ rfl) fun _ ↦ Uses.request fun _ _ ↦ rfl
  | some user =>
    exact Uses.bind (Uses.request fun _ _ ↦ rfl) fun _ ↦
      Uses.bind (Uses.request fun _ _ ↦ rfl) fun _ ↦ Uses.request fun _ _ ↦ rfl

end Requests

/-! ### Every run -/

/-- Requests to log in. -/
def IsLogin (client : Client) (program : Async Unit) : Prop :=
  ∃ username password, program = login client username password

abbrev FailureTallies : Type := Stock.Tallies Counter

/-- A run of logins from one address in a process that has just started, as far as it has come. -/
structure LoginRun
    (condition : Client → ℕ × Call → Outcome → World × FailureTallies → Prop) where
  client : Client
  session : Users.World
  usernames : List (String × UserId)
  system : System (ℕ × Call) (fun call ↦ Reply call.2) Failure (World × FailureTallies) Unit
  reached : Reaches (Machine.watched (machine client) (failuresAllowed client).observe).move
    (NumberedMove (machine client) (failuresAllowed client).observe (IsLogin client)
      (fun _ ↦ True) (condition client))
    { threads := [], world := ({ session, usernames }, fun _ _ ↦ none) } system

/-- In every run in which whoever counts a failure has looked at the counter, and since then no
failure was counted or fewer than it left, no window has more failures than its counter allows. -/
theorem bruteForceBounded (run : LoginRun fun client ↦ (failuresAllowed client).TakesInTime) :
    Bounded run.client run.system.world.1.attempts := by
  have hinitial : Sound run.client { session := run.session, usernames := run.usernames } := by
    refine ⟨List.nodup_nil, fun counter ↦ ⟨nofun, fun _ latest earlier hwindows ↦ ?_⟩,
      fun counter window hwindow ↦ ?_⟩
    · cases counter <;> cases hwindows
    · cases counter <;> cases hwindow
  refine ((failuresAllowed run.client).sound_of_reaches ?_ ?_ hinitial run.reached).bounded
  · rintro program ⟨username, password, rfl⟩
    exact login_careful username password
  · intro event world _ hsound
    have hnow : world.now ≤ ((machine run.client).react event world).now := by
      cases event with
      | clockAdvances ms => exact Int.le_add_of_nonneg_right (Int.natCast_nonneg ms)
      | usersWritten users => exact Int.le_refl _
    refine ⟨sound_of_later hsound rfl rfl hnow, fun counter ↦ ?_⟩
    have hle := @current_of_later run.client world ((machine run.client).react event world) rfl hnow
      counter
    exact Nat.sub_le_sub_left hle _


/-! Six guesses at once -/

/-- A client whose names are in lower case already. -/
def guesser : Client where
  ip := "192.0.2.7"
  toLowerCase := fun name ↦ name

def bobSession : Users.World where
  users := [{ id := "user-1", passwordHash := "hash-bob" }]

/-- Every guess consults the throttle before any password is verified. -/
def sixGuesses : List (Move (ℕ × Call) (fun call ↦ Reply call.2) Failure Outcome EnvironmentChange
    Unit) :=
  (List.range 6).map (fun thread ↦ .start () ((login guesser "bob" "guess").labelled thread)) ++
    (List.range 6).flatMap fun thread ↦
      [.ok, .ok, .verified false].map (.advance thread)

abbrev guessMachine : Machine (ℕ × Call) (fun call ↦ Reply call.2) (World × FailureTallies) Outcome
    EnvironmentChange :=
  Machine.watched (machine guesser) (failuresAllowed guesser).observe

def beforeGuesses :
    System (ℕ × Call) (fun call ↦ Reply call.2) Failure (World × FailureTallies) Unit where
  threads := []
  world := ({ session := bobSession, usernames := [("bob", "user-1")] }, fun _ _ ↦ none)

def afterGuesses :
    System (ℕ × Call) (fun call ↦ Reply call.2) Failure (World × FailureTallies) Unit :=
  runMoves guessMachine.move beforeGuesses sixGuesses

theorem reaches_afterGuesses : Reaches guessMachine.move
    (NumberedMove (machine guesser) (failuresAllowed guesser).observe (IsLogin guesser)
      (fun _ ↦ True) fun _ _ _ ↦ True) beforeGuesses afterGuesses := by
  have hcalm : ∀ {program : Async Unit} {place : ℕ} {world : World × FailureTallies},
      guessMachine.SettleCalls (fun _ _ _ ↦ True) (program.labelled place) world :=
    Machine.SettleCalls.of_synchronous _ (fun _ _ _ ↦ trivial) _ _
  have hguess : IsLogin guesser (login guesser "bob" "guess") := ⟨_, _, rfl⟩
  refine Reaches.refl.run ⟨.start _ hguess hcalm, .start _ hguess hcalm, .start _ hguess hcalm,
    .start _ hguess hcalm, .start _ hguess hcalm, .start _ hguess hcalm,
    LegalRun.of_forall (fun move hmove system ↦ ?_) _⟩
  obtain ⟨thread, -, hthread⟩ := List.mem_flatMap.mp hmove
  obtain ⟨outcome, -, rfl⟩ := List.mem_map.mp hthread
  exact .advance _ _ fun program _ ↦
    Machine.ResumeCalls.of_awaited _ (fun _ _ _ ↦ trivial) fun _ _ _ ↦ trivial

theorem attempts_afterGuesses : afterGuesses.world.1.attempts =
    List.replicate 6 { username := "bob", succeeded := false, time := 0 } := by decide

/-- Six failures in one window that allows five. -/
theorem not_bruteForceBounded_sixGuesses : ¬ ∀ run : LoginRun fun _ _ _ _ ↦ True,
    Bounded run.client run.system.world.1.attempts := by
  intro hbounded
  let run : LoginRun fun _ _ _ _ ↦ True :=
    { client := guesser
      session := bobSession
      usernames := [("bob", "user-1")]
      system := afterGuesses
      reached := reaches_afterGuesses }
  have hle := hbounded run (.user "bob")
  rw [show run.system = afterGuesses from rfl, attempts_afterGuesses] at hle
  exact absurd (hle { count := 6, windowStart := 0 } (by decide)) (by decide)

end VmsLite.Users.Login
