import Mathlib.Data.List.DropRight
import Mathlib.Data.List.Induction
import VmsLite.Health.CameraStatus

/-!
# The status of a camera as a function of its samples

What is remembered of a camera, read off the polls that were made of it: the failing polls at the
end of the history, the unreachable ones at their end, and the status that the polls before them
left (`followsHistory`).
-/

set_option autoImplicit false

namespace VmsLite.Health

/-- A health sample and the time at which it was taken. -/
structure HealthPoll where
  sample : HealthSample
  time : ℤ
  deriving DecidableEq, Repr

def rememberPoll (memory : StatusMemory) (poll : HealthPoll) : StatusMemory :=
  (nextCameraStatus memory poll.sample poll.time).memory

/-- What is remembered after some polls, the latest last. -/
def statusMemory (polls : List HealthPoll) : StatusMemory := polls.foldl rememberPoll initialStatus

/-- The maximal trailing run of failing polls. -/
def failingRun (polls : List HealthPoll) : List HealthPoll :=
  polls.rtakeWhile fun poll ↦ !poll.sample.healthy

/-- The polls before the failing run. -/
def beforeFailing (polls : List HealthPoll) : List HealthPoll :=
  polls.rdropWhile fun poll ↦ !poll.sample.healthy

/-- The maximal trailing run of unreachable polls inside the failing run. -/
def unreachableRun (polls : List HealthPoll) : List HealthPoll :=
  (failingRun polls).rtakeWhile fun poll ↦ !poll.sample.reachable

def EndsHealthy (polls : List HealthPoll) : Prop :=
  ∃ last ∈ polls.getLast?, last.sample.healthy = true

/-- At least two failing polls, the last of them unreachable for 30 seconds. -/
def IsLost (polls : List HealthPoll) : Prop :=
  2 ≤ (failingRun polls).length ∧ ∃ first ∈ (unreachableRun polls).head?,
    ∃ last ∈ polls.getLast?, offlineAfterMs ≤ last.time - first.time

/-- The status, and the outage that a recovery reports, as the history has them. -/
structure FollowsHistory (polls : List HealthPoll) : Prop where
  healthy : EndsHealthy polls → (statusMemory polls).status = .online
  offline : (statusMemory polls).status = .offline ↔ IsLost polls
  degraded : (statusMemory polls).status = .degraded ↔
    2 ≤ (failingRun polls).length ∧ ¬ IsLost polls
  single : (failingRun polls).length = 1 →
    (statusMemory polls).status = (statusMemory (beforeFailing polls)).status
  online : (statusMemory polls).status = .online ↔
    EndsHealthy polls ∨ (failingRun polls).length = 1 ∧ EndsHealthy (beforeFailing polls)
  recovery : ∀ (sample : HealthSample) (now : ℤ), sample.healthy = true →
    (nextCameraStatus (statusMemory polls) sample now).outageDurationMs =
      (failingRun polls).head?.map fun first ↦ now - first.time

/-! ### One more poll -/

section Concat

variable {polls : List HealthPoll} {poll : HealthPoll}

theorem statusMemory_concat :
    statusMemory (polls ++ [poll]) = rememberPoll (statusMemory polls) poll := by
  simp only [statusMemory, List.foldl_append, List.foldl_cons, List.foldl_nil]

theorem failingRun_healthy (hhealthy : poll.sample.healthy = true) :
    failingRun (polls ++ [poll]) = [] :=
  List.rtakeWhile_concat_neg _ _ _ (by simp [hhealthy])

theorem failingRun_failing (hfails : poll.sample.healthy = false) :
    failingRun (polls ++ [poll]) = failingRun polls ++ [poll] :=
  List.rtakeWhile_concat_pos _ _ _ (by simp [hfails])

theorem beforeFailing_failing (hfails : poll.sample.healthy = false) :
    beforeFailing (polls ++ [poll]) = beforeFailing polls :=
  List.rdropWhile_concat_pos _ _ _ (by simp [hfails])

theorem unreachableRun_healthy (hhealthy : poll.sample.healthy = true) :
    unreachableRun (polls ++ [poll]) = [] := by
  unfold unreachableRun
  rw [failingRun_healthy hhealthy]
  rfl

theorem unreachableRun_reachable (hfails : poll.sample.healthy = false)
    (hreachable : poll.sample.reachable = true) : unreachableRun (polls ++ [poll]) = [] := by
  unfold unreachableRun
  rw [failingRun_failing hfails]
  exact List.rtakeWhile_concat_neg _ _ _ (by simp [hreachable])

theorem unreachableRun_unreachable (hfails : poll.sample.healthy = false)
    (hlost : poll.sample.reachable = false) :
    unreachableRun (polls ++ [poll]) = unreachableRun polls ++ [poll] := by
  unfold unreachableRun
  rw [failingRun_failing hfails]
  exact List.rtakeWhile_concat_pos _ _ _ (by simp [hlost])

theorem endsHealthy_concat : EndsHealthy (polls ++ [poll]) ↔ poll.sample.healthy = true := by
  simp [EndsHealthy]

/-- The first of a run that goes on, or the poll that opens it. -/
theorem head?_concat (run : List HealthPoll) :
    (run ++ [poll]).head? = some (run.head?.getD poll) := by
  cases run <;> rfl

end Concat

/-! ### What the memory has of the history -/

/-- The fields of the memory beside the status. -/
structure Remembers (memory : StatusMemory) (polls : List HealthPoll) : Prop where
  consecutiveFailures : memory.consecutiveFailures = (failingRun polls).length
  unhealthySince : memory.unhealthySince = (failingRun polls).head?.map HealthPoll.time
  offlineSince : memory.offlineSince = (unreachableRun polls).head?.map HealthPoll.time

section Memory

variable {polls : List HealthPoll} {poll : HealthPoll}

/-- The first of the run with one more poll, in terms of what was remembered. -/
theorem since_concat {since : Option ℤ} {run : List HealthPoll}
    (hsince : since = run.head?.map HealthPoll.time) :
    some (since.getD poll.time) = (run ++ [poll]).head?.map HealthPoll.time := by
  rw [head?_concat, hsince]
  cases run <;> rfl

theorem Remembers.concat {memory : StatusMemory} (hremembers : Remembers memory polls) :
    Remembers (rememberPoll memory poll) (polls ++ [poll]) := by
  unfold rememberPoll nextCameraStatus
  cases hhealthy : poll.sample.healthy with
  | true =>
    rw [if_pos rfl]
    refine ⟨?_, ?_, ?_⟩
    · rw [failingRun_healthy hhealthy]
      rfl
    · rw [failingRun_healthy hhealthy]
      rfl
    · rw [unreachableRun_healthy hhealthy]
      rfl
  | false =>
    rw [if_neg (by simp)]
    have hfailures : memory.consecutiveFailures + 1 = (failingRun (polls ++ [poll])).length := by
      rw [failingRun_failing hhealthy, List.length_append, hremembers.consecutiveFailures]
      rfl
    have hunhealthy : some (memory.unhealthySince.getD poll.time) =
        (failingRun (polls ++ [poll])).head?.map HealthPoll.time := by
      rw [failingRun_failing hhealthy]
      exact since_concat hremembers.unhealthySince
    cases hreachable : poll.sample.reachable with
    | true =>
      refine ⟨hfailures, hunhealthy, ?_⟩
      rw [unreachableRun_reachable hhealthy hreachable]
      rfl
    | false =>
      refine ⟨hfailures, hunhealthy, ?_⟩
      rw [unreachableRun_unreachable hhealthy hreachable]
      exact since_concat hremembers.offlineSince

theorem remembers_statusMemory (polls : List HealthPoll) :
    Remembers (statusMemory polls) polls := by
  induction polls using List.reverseRecOn with
  | nil => exact ⟨rfl, rfl, rfl⟩
  | append_singleton polls poll ih =>
    rw [statusMemory_concat]
    exact ih.concat

end Memory

/-! ### The status -/

section Status

variable {polls : List HealthPoll} {poll : HealthPoll}

theorem isLost_concat (hfails : poll.sample.healthy = false) :
    IsLost (polls ++ [poll]) ↔ failingRun polls ≠ [] ∧ poll.sample.reachable = false ∧
      offlineAfterMs ≤ poll.time - (statusMemory polls).offlineSince.getD poll.time := by
  have hlength : 2 ≤ (failingRun (polls ++ [poll])).length ↔ failingRun polls ≠ [] := by
    rw [failingRun_failing hfails, List.length_append, List.length_singleton, ← List.length_pos_iff]
    omega
  unfold IsLost
  rw [hlength]
  refine and_congr_right fun _ ↦ ?_
  cases hreachable : poll.sample.reachable with
  | true => simp [unreachableRun_reachable hfails hreachable]
  | false =>
    have hfirst : ((unreachableRun polls).head?.getD poll).time =
        (statusMemory polls).offlineSince.getD poll.time := by
      rw [(remembers_statusMemory polls).offlineSince]
      cases (unreachableRun polls).head? <;> rfl
    rw [unreachableRun_unreachable hfails hreachable, head?_concat, ← hfirst]
    simp

/-- The status after a failing poll. -/
theorem status_failing (hfails : poll.sample.healthy = false)
    [Decidable (IsLost (polls ++ [poll]))] :
    (statusMemory (polls ++ [poll])).status =
      if failingRun polls = [] then (statusMemory polls).status
      else if IsLost (polls ++ [poll]) then .offline else .degraded := by
  have hconfirmed : decide (2 ≤ (statusMemory polls).consecutiveFailures + 1) =
      !decide (failingRun polls = []) := by
    rw [(remembers_statusMemory polls).consecutiveFailures, ← decide_not, decide_eq_decide,
      ← ne_eq, ← List.length_pos_iff]
    omega
  rw [statusMemory_concat]
  unfold rememberPoll nextCameraStatus
  rw [if_neg (by simp [hfails])]
  simp only [hconfirmed, isLost_concat hfails]
  by_cases hfirst : failingRun polls = []
  · cases poll.sample.reachable <;> simp [hfirst]
  · cases poll.sample.reachable <;> simp [hfirst]

/-- The status before a failing run: none was known, or the camera was online. -/
theorem status_of_failingRun_nil (hnone : failingRun polls = []) :
    (statusMemory polls).status = .unknown ∧ polls = [] ∨
      (statusMemory polls).status = .online ∧ EndsHealthy polls := by
  induction polls using List.reverseRecOn with
  | nil => exact Or.inl ⟨rfl, rfl⟩
  | append_singleton polls poll ih =>
    cases hhealthy : poll.sample.healthy with
    | true =>
      refine Or.inr ⟨?_, endsHealthy_concat.mpr hhealthy⟩
      rw [statusMemory_concat]
      exact nextCameraStatus_of_healthy hhealthy poll.time
    | false =>
      rw [failingRun_failing hhealthy] at hnone
      exact absurd hnone (by simp)

theorem beforeFailing_of_failingRun_nil (hnone : failingRun polls = []) :
    beforeFailing polls = polls := by
  have happend := @List.rdropWhile_append_rtakeWhile _ (fun poll : HealthPoll ↦
    !poll.sample.healthy) polls
  have hrun : polls.rtakeWhile (fun poll ↦ !poll.sample.healthy) = [] := hnone
  rw [hrun, List.append_nil] at happend
  exact happend

theorem followsHistory_healthy (hhealthy : poll.sample.healthy = true) :
    FollowsHistory (polls ++ [poll]) := by
  have hends : EndsHealthy (polls ++ [poll]) := endsHealthy_concat.mpr hhealthy
  have hrun : failingRun (polls ++ [poll]) = [] := failingRun_healthy hhealthy
  have hstatus : (statusMemory (polls ++ [poll])).status = .online := by
    rw [statusMemory_concat]
    exact nextCameraStatus_of_healthy hhealthy poll.time
  have hsince := (remembers_statusMemory (polls ++ [poll])).unhealthySince
  refine ⟨fun _ ↦ hstatus, ?_, ?_, ?_, ?_, fun sample now hrecovers ↦ ?_⟩
  · simp [hstatus, IsLost, hrun]
  · simp [hstatus, hrun]
  · simp [hrun]
  · simp [hstatus, hends]
  · simp [nextCameraStatus, hrecovers, hsince, hrun]

theorem followsHistory_failing (hfails : poll.sample.healthy = false) :
    FollowsHistory (polls ++ [poll]) := by
  classical
  have hends : ¬ EndsHealthy (polls ++ [poll]) := fun hends ↦ by
    rw [endsHealthy_concat, hfails] at hends
    cases hends
  have hstatus := @status_failing polls poll hfails _
  have hrun := @failingRun_failing polls poll hfails
  have hbefore := @beforeFailing_failing polls poll hfails
  have hsince := (remembers_statusMemory (polls ++ [poll])).unhealthySince
  have hrecovery : ∀ (sample : HealthSample) (now : ℤ), sample.healthy = true →
      (nextCameraStatus (statusMemory (polls ++ [poll])) sample now).outageDurationMs =
        (failingRun (polls ++ [poll])).head?.map fun first ↦ now - first.time := by
    intro sample now hrecovers
    simp [nextCameraStatus, hrecovers, hsince, Function.comp_def]
  by_cases hfirst : failingRun polls = []
  · rw [if_pos hfirst] at hstatus
    have hlost : ¬ IsLost (polls ++ [poll]) :=
      fun hlost ↦ ((isLost_concat hfails).mp hlost).1 hfirst
    have hlength : (failingRun (polls ++ [poll])).length = 1 := by rw [hrun, hfirst]; rfl
    have hsame : beforeFailing (polls ++ [poll]) = polls :=
      hbefore.trans (beforeFailing_of_failingRun_nil hfirst)
    refine ⟨fun hhealthy ↦ absurd hhealthy hends, ?_, ?_, fun _ ↦ ?_, ?_, hrecovery⟩
    · rcases status_of_failingRun_nil hfirst with ⟨hbegin, -⟩ | ⟨hbegin, -⟩
      · simp [hstatus, hbegin, hlost]
      · simp [hstatus, hbegin, hlost]
    · rcases status_of_failingRun_nil hfirst with ⟨hbegin, -⟩ | ⟨hbegin, -⟩
      · simp [hstatus, hbegin, hlength]
      · simp [hstatus, hbegin, hlength]
    · rw [hsame, hstatus]
    · rw [hstatus, hsame, hlength]
      rcases status_of_failingRun_nil hfirst with ⟨hbegin, rfl⟩ | ⟨hbegin, hhealthy⟩
      · have hempty : ¬ EndsHealthy [] := by simp [EndsHealthy]
        have hfailing : ¬ EndsHealthy [poll] := hends
        simp [hbegin, hempty, hfailing]
      · simp [hbegin, hhealthy]
  · rw [if_neg hfirst] at hstatus
    have hlength : 2 ≤ (failingRun (polls ++ [poll])).length := by
      rw [hrun, List.length_append, List.length_singleton]
      have hpositive := List.length_pos_iff.mpr hfirst
      omega
    have hmany : (failingRun (polls ++ [poll])).length ≠ 1 := by omega
    refine ⟨fun hhealthy ↦ absurd hhealthy hends, ?_, ?_, fun hsingle ↦ absurd hsingle hmany,
      ?_, hrecovery⟩
    · rw [hstatus]
      by_cases hlost : IsLost (polls ++ [poll]) <;> simp [hlost]
    · rw [hstatus]
      by_cases hlost : IsLost (polls ++ [poll]) <;> simp [hlost, hlength]
    · rw [hstatus]
      by_cases hlost : IsLost (polls ++ [poll]) <;> simp [hlost, hends, hmany]

end Status

/-- The status of a camera is a function of the polls that were made of it. -/
theorem followsHistory (polls : List HealthPoll) : FollowsHistory polls := by
  induction polls using List.reverseRecOn with
  | nil =>
    have hempty : ¬ EndsHealthy [] := by simp [EndsHealthy]
    refine ⟨fun hhealthy ↦ absurd hhealthy hempty, ?_, ?_, nofun, ?_, fun sample now hrecovers ↦ ?_⟩
    · simp [statusMemory, initialStatus, IsLost, failingRun]
    · simp [statusMemory, initialStatus, failingRun]
    · simp [statusMemory, initialStatus, failingRun, hempty]
    · simp [nextCameraStatus, hrecovers, statusMemory, initialStatus, failingRun]
  | append_singleton polls poll ih =>
    cases hhealthy : poll.sample.healthy with
    | true => exact followsHistory_healthy hhealthy
    | false => exact followsHistory_failing hhealthy

/-! ### One bad sample after a good one -/

def goodPoll : HealthPoll where
  sample :=
    { networkCheck := .passed, latencyMs := some 10, streamReady := true, bitrateKbps := some 4000 }
  time := 0

def slowPoll : HealthPoll where
  sample :=
    { networkCheck := .passed
      latencyMs := some 900
      streamReady := true
      bitrateKbps := some 4000 }
  time := 30000

/-- A single bad sample leaves the camera online. -/
theorem not_online_iff_endsHealthy :
    ¬ ∀ polls : List HealthPoll, (statusMemory polls).status = .online ↔ EndsHealthy polls := by
  intro hall
  have hends := (hall [goodPoll, slowPoll]).mp (by decide)
  obtain ⟨last, hlast, hhealthy⟩ := hends
  obtain rfl := Option.some.inj hlast
  cases hhealthy

end VmsLite.Health
