import VmsLite.Health.CameraHealth

/-!
# Alerts that are held back

An event of a failing camera that carries a `siteOutage` alerts nobody. A camera that fails while
the link of its site is up, or that has no site, should have been announced without one since it was
last ONLINE, or first seen, whenever a cycle has finished.

The service remembers for which site it held an alert back, and looks at the link of that one only.
So the alert of a camera that is moved to another site, or to none, is not caught up on while the
old site is unreachable. No alert is lost in every run in which no cycle leaves a camera stranded in
this way (`losesNoAlert_of_noneStranded`).
-/

set_option autoImplicit false

namespace VmsLite.Health

/-! ### The property -/

/-- From here on a camera has to be announced anew. -/
def LogEntry.restarts (cameraId : CameraId) : LogEntry → Bool
  | .seen seenId => seenId = cameraId
  | .checked checkedId status => checkedId = cameraId && status = .online
  | .emitted _ => false

/-- An event of a failing camera that alerts. -/
def LogEntry.announces (cameraId : CameraId) : LogEntry → Bool
  | .emitted event => event.cameraId = some cameraId && event.siteOutage.isNone &&
      (event.type = "camera.offline" || event.type = "camera.degraded")
  | _ => false

/-- A camera was announced on its own since it was last ONLINE, or first seen. -/
def announcedAlone (cameraId : CameraId) : List LogEntry → Bool
  | [] => false
  | entry :: older =>
    entry.announces cameraId || !entry.restarts cameraId && announcedAlone cameraId older

/-- A finished cycle owes no alert of its cameras. -/
def LosesNoAlert (service : CameraHealthService) : Prop :=
  ∀ cameras, service.phase.finished = some cameras → ∀ camera ∈ cameras, ∀ state,
    service.cameraStates camera.id = some state → state.status.isFailing = true →
      service.siteDetector.getState camera.siteId = .up →
        announcedAlone camera.id service.log = true

/-- No camera whose alert is held back for a site that stays unreachable goes on failing at another
site with its link up, or at none. -/
def NoneStranded (service : CameraHealthService) (now : ℤ) : Prop :=
  match service.phase with
  | .checking cameras _ _ pending =>
    let detector := (service.siteDetector.evaluate (service.samples cameras) now).1
    ∀ entry ∈ service.siteSuppressed, detector.getState (some entry.2) ≠ .up →
      ∀ camera ∈ cameras, camera.id = entry.1 → ∀ state,
        service.cameraStates camera.id = some state →
        state.status.isFailing = true → camera.id ∉ pending.map (·.cameraId) →
          detector.getState camera.siteId ≠ .up
  | _ => True

/-! ### The log and the entries -/

theorem announcedAlone_cons {cameraId : CameraId} {entry : LogEntry} {log : List LogEntry}
    (hentry : entry.restarts cameraId = false) (hlog : announcedAlone cameraId log = true) :
    announcedAlone cameraId (entry :: log) = true := by
  unfold announcedAlone
  rw [hentry, hlog]
  exact Bool.or_true _

theorem announcedAlone_transitionEvent {cameraId : CameraId} {cameraName : String}
    {newStatus previousStatus : CameraHealthStatus} {state : CameraInternalState}
    {outageDurationMs : Option ℤ} (hfailing : newStatus.isFailing = true) (log : List LogEntry) :
    announcedAlone cameraId
      (.emitted (transitionEvent cameraId cameraName newStatus previousStatus state
      outageDurationMs "") :: log) = true := by
  cases newStatus with
  | degraded => simp [announcedAlone, LogEntry.announces, transitionEvent, HealthEvent.siteOutage,
      transitionEventType]
  | offline => simp [announcedAlone, LogEntry.announces, transitionEvent, HealthEvent.siteOutage,
      transitionEventType]
  | online => cases hfailing
  | unknown => cases hfailing

theorem mem_setSuppressed {cameraId : CameraId} {siteId : SiteId}
    {entries : List (CameraId × SiteId)}
    {entry : CameraId × SiteId} :
    entry ∈ setSuppressed cameraId siteId entries ↔
      entry = (cameraId, siteId) ∨ entry ∈ entries ∧ entry.1 ≠ cameraId := by
  unfold setSuppressed
  split_ifs with hany
  · obtain ⟨old, hold, hkey⟩ := List.any_eq_true.mp hany
    rw [List.mem_map]
    constructor
    · rintro ⟨found, hfound, rfl⟩
      split_ifs with hsame
      · exact Or.inl rfl
      · exact Or.inr ⟨hfound, hsame⟩
    · rintro (rfl | ⟨hentry, hne⟩)
      · exact ⟨old, hold, if_pos (of_decide_eq_true hkey)⟩
      · exact ⟨entry, hentry, if_neg hne⟩
  · have hnone : ∀ found ∈ entries, found.1 ≠ cameraId := fun found hfound hsame ↦
      hany (List.any_eq_true.mpr ⟨found, hfound, decide_eq_true hsame⟩)
    rw [List.mem_append, List.mem_singleton]
    constructor
    · rintro (hentry | rfl)
      · exact Or.inr ⟨hentry, hnone entry hentry⟩
      · exact Or.inl rfl
    · rintro (rfl | ⟨hentry, -⟩)
      · exact Or.inr rfl
      · exact Or.inl hentry

/-- The site of a camera that is listed. -/
theorem siteOf_eq {cameras : List HealthCheckCamera} (hnodup : (cameras.map (·.id)).Nodup)
    {camera : HealthCheckCamera} (hmem : camera ∈ cameras) :
    CameraHealthService.siteOf cameras camera.id = camera.siteId := by
  unfold CameraHealthService.siteOf
  cases hfind : cameras.find? (·.id = camera.id) with
  | none => simpa using List.find?_eq_none.mp hfind camera hmem
  | some found =>
    have hsame : found.id = camera.id := by simpa using List.find?_some hfind
    rw [List.inj_on_of_nodup_map hnodup (List.mem_of_find?_eq_some hfind) hmem hsame]
    rfl

/-! ### The invariant -/

/-- Every failing camera was announced on its own, or its alert is held back, or it is owed. -/
def CameraHealthService.Covers (service : CameraHealthService) (owed : CameraId → Prop) : Prop :=
  ∀ cameraId state, service.cameraStates cameraId = some state → state.status.isFailing = true →
    announcedAlone cameraId service.log = true ∨
      (∃ siteId, (cameraId, siteId) ∈ service.siteSuppressed) ∨
      owed cameraId

/-- The transitions agree with the states. -/
def CameraHealthService.Agrees (service : CameraHealthService) (pending : List PendingTransition) :
    Prop :=
  ∀ transition ∈ pending, ∀ state, service.cameraStates transition.cameraId = some state →
    state.status = transition.newStatus

/-- Between two cycles. -/
structure Idle (service : CameraHealthService) (cameras : List HealthCheckCamera) : Prop where
  covers : service.Covers fun _ ↦ False
  away : ∀ entry ∈ service.siteSuppressed, ∀ camera ∈ cameras, camera.id = entry.1 → ∀ state,
    service.cameraStates camera.id = some state → state.status.isFailing = true →
      service.siteDetector.getState camera.siteId ≠ .up

/-- While cameras are checked: a camera is checked once, and its state is the one that was found. -/
structure Checking (service : CameraHealthService) (cameras unstarted : List HealthCheckCamera)
    (inFlight : List (HealthCheckCamera × CameraInternalState)) (pending : List PendingTransition) :
    Prop where
  nodup : (cameras.map (·.id)).Nodup
  covers : service.Covers fun cameraId ↦ cameraId ∈ pending.map (·.cameraId)
  started : ∀ check ∈ inFlight, check.1.id ∉ unstarted.map (·.id)
  ended : ∀ transition ∈ pending, transition.cameraId ∉ unstarted.map (·.id) ∧
    transition.cameraId ∉ inFlight.map (·.1.id)
  found : ∀ check ∈ inFlight, ∀ state, service.cameraStates check.1.id = some state →
    state = check.2
  agrees : service.Agrees pending

/-- While the events of a cycle are emitted. -/
structure Finishing (service : CameraHealthService) (cameras : List HealthCheckCamera)
    (pendingIds : List CameraId) (agenda : Agenda) : Prop where
  nodup : (cameras.map (·.id)).Nodup
  covers : service.Covers fun cameraId ↦ cameraId ∈ agenda.pending.map (·.cameraId)
  agrees : service.Agrees agenda.pending
  /-- No transition has its round before the last entry. -/
  complete : agenda.suppressed ≠ [] → pendingIds = agenda.pending.map (·.cameraId)
  listed : ∀ entry ∈ service.siteSuppressed, service.siteDetector.getState (some entry.2) = .up →
    entry ∈ agenda.suppressed
  away : ∀ entry ∈ service.siteSuppressed, service.siteDetector.getState (some entry.2) ≠ .up →
    ∀ camera ∈ cameras, camera.id = entry.1 → ∀ state, service.cameraStates camera.id = some state →
      state.status.isFailing = true → camera.id ∉ agenda.pending.map (·.cameraId) →
        service.siteDetector.getState camera.siteId ≠ .up

def CameraHealthService.Holds (service : CameraHealthService) : Prop :=
  match service.phase with
  | .idle cameras => Idle service cameras
  | .checking cameras unstarted inFlight pending =>
    Checking service cameras unstarted inFlight pending
  | .finishing cameras pendingIds _ agenda => Finishing service cameras pendingIds agenda

namespace CameraHealthService.Holds

variable {service : CameraHealthService} {cameras unstarted : List HealthCheckCamera}

theorem idle (h : service.Holds) (hphase : service.phase = .idle cameras) :
    Idle service cameras := by
  unfold CameraHealthService.Holds at h
  rwa [hphase] at h

theorem checking {inFlight : List (HealthCheckCamera × CameraInternalState)}
    {pending : List PendingTransition} (h : service.Holds)
    (hphase : service.phase = .checking cameras unstarted inFlight pending) :
    Checking service cameras unstarted inFlight pending := by
  unfold CameraHealthService.Holds at h
  rwa [hphase] at h

theorem finishing {pendingIds : List CameraId} {names : SiteId → Option String} {agenda : Agenda}
    (h : service.Holds) (hphase : service.phase = .finishing cameras pendingIds names agenda) :
    Finishing service cameras pendingIds agenda := by
  unfold CameraHealthService.Holds at h
  rwa [hphase] at h

end CameraHealthService.Holds

/-! ### What the steps keep -/

section Steps

variable {service : CameraHealthService}

theorem holds_pollAllCameras {listed : List HealthCheckCamera} (hnodup : (listed.map (·.id)).Nodup)
    (h : service.Holds) : (service.pollAllCameras listed).Holds := by
  unfold CameraHealthService.pollAllCameras
  cases hphase : service.phase with
  | idle cameras =>
    have hidle := h.idle hphase
    refine ⟨?_, fun cameraId state hstate hfailing ↦ ?_, fun _ hcheck ↦
      absurd hcheck List.not_mem_nil, fun _ hpending ↦ absurd hpending List.not_mem_nil,
      fun _ hcheck ↦ absurd hcheck List.not_mem_nil, fun _ hpending ↦
        absurd hpending List.not_mem_nil⟩
    · exact hnodup.sublist (List.filter_sublist.map _)
    · dsimp only at hstate ⊢
      split_ifs at hstate with hactive
      rcases hidle.covers cameraId state hstate hfailing with halone | ⟨siteId, hheld⟩ | hnone
      · exact Or.inl halone
      · exact Or.inr (Or.inl ⟨siteId, List.mem_filter.mpr ⟨hheld, decide_eq_true hactive⟩⟩)
      · exact hnone.elim
  | checking cameras unstarted inFlight pending => exact h
  | finishing cameras pendingIds names agenda => exact h

theorem holds_startCheck (cameraId : CameraId) (h : service.Holds) :
    (service.startCheck cameraId).Holds := by
  unfold CameraHealthService.startCheck
  cases hphase : service.phase with
  | idle cameras => exact h
  | finishing cameras pendingIds names agenda => exact h
  | checking cameras unstarted inFlight pending =>
    have hchecking := h.checking hphase
    dsimp only
    cases hfind : unstarted.find? (·.id = cameraId) with
    | none => exact h
    | some camera =>
      obtain rfl : camera.id = cameraId := by simpa using List.find?_some hfind
      have hunstarted : camera.id ∈ unstarted.map (·.id) :=
        List.mem_map_of_mem (List.mem_of_find?_eq_some hfind)
      have hleft : ∀ other ∈ (unstarted.filter (·.id ≠ camera.id)).map (·.id),
          other ∈ unstarted.map (·.id) ∧ other ≠ camera.id := by
        intro other hother
        obtain ⟨found, hfound, rfl⟩ := List.mem_map.mp hother
        obtain ⟨hfound, hne⟩ := List.mem_filter.mp hfound
        exact ⟨List.mem_map_of_mem hfound, of_decide_eq_true hne⟩
      have hstarted : ∀ state, ∀ check ∈ (camera, state) :: inFlight,
          check.1.id ∉ (unstarted.filter (·.id ≠ camera.id)).map (·.id) := by
        intro state check hcheck hmem
        rcases List.mem_cons.mp hcheck with rfl | hold
        · exact (hleft _ hmem).2 rfl
        · exact hchecking.started check hold (hleft _ hmem).1
      have hended : ∀ state, ∀ transition ∈ pending,
          transition.cameraId ∉ (unstarted.filter (·.id ≠ camera.id)).map (·.id) ∧
            transition.cameraId ∉ ((camera, state) :: inFlight).map (·.1.id) := by
        intro state transition htransition
        obtain ⟨hnot, hnone⟩ := hchecking.ended transition htransition
        refine ⟨fun hmem ↦ hnot (hleft _ hmem).1, fun hmem ↦ ?_⟩
        rcases List.mem_cons.mp hmem with hsame | hold
        · exact hnot (hsame ▸ hunstarted)
        · exact hnone hold
      cases hstate : service.cameraStates camera.id with
      | some state =>
        refine ⟨hchecking.nodup, hchecking.covers, hstarted _, hended _,
          fun check hcheck found hfound ↦ ?_, hchecking.agrees⟩
        rcases List.mem_cons.mp hcheck with rfl | hold
        · exact Option.some.inj (hfound.symm.trans hstate)
        · exact hchecking.found check hold found hfound
      | none =>
        refine ⟨hchecking.nodup, fun other state hother hfailing ↦ ?_, hstarted _, hended _,
          fun check hcheck found hfound ↦ ?_, fun transition htransition found hfound ↦ ?_⟩
        · dsimp only at hother ⊢
          by_cases hsame : other = camera.id
          · subst hsame
            rw [Function.update_self] at hother
            rw [← Option.some.inj hother] at hfailing
            cases hfailing
          · rw [Function.update_of_ne hsame] at hother
            refine (hchecking.covers other state hother hfailing).imp_left fun halone ↦ ?_
            exact announcedAlone_cons (decide_eq_false (Ne.symm hsame)) halone
        · dsimp only at hfound
          rcases List.mem_cons.mp hcheck with rfl | hold
          · rw [Function.update_self] at hfound
            exact (Option.some.inj hfound).symm
          · have hne : check.1.id ≠ camera.id := fun hsame ↦
              hchecking.started check hold (hsame ▸ hunstarted)
            rw [Function.update_of_ne hne] at hfound
            exact hchecking.found check hold found hfound
        · dsimp only at hfound
          have hne : transition.cameraId ≠ camera.id := fun hsame ↦
            (hchecking.ended transition htransition).1 (hsame ▸ hunstarted)
          rw [Function.update_of_ne hne] at hfound
          exact hchecking.agrees transition htransition found hfound

/-- A check that leaves no transition leaves the status, unless the camera is ONLINE. -/
theorem status_of_no_transition {camera : HealthCheckCamera} {state : CameraInternalState}
    {sample : HealthSample} {now : ℤ}
    (hnone : CameraHealthService.transitionAfter camera state sample now = none)
    (hfailing : (CameraHealthService.stateAfter state sample now).status.isFailing = true) :
    (CameraHealthService.stateAfter state sample now).status = state.status := by
  unfold CameraHealthService.transitionAfter at hnone
  by_contra hne
  have hboot : ¬ (state.status = .unknown ∧
      (CameraHealthService.stateAfter state sample now).status = .online) := by
    rintro ⟨-, honline⟩
    rw [honline] at hfailing
    cases hfailing
  dsimp only at hnone
  rw [if_pos ⟨hne, hboot⟩] at hnone
  cases hnone

theorem cameraId_of_transition {camera : HealthCheckCamera} {state : CameraInternalState}
    {sample : HealthSample} {now : ℤ} {transition : PendingTransition}
    (hsome : transition ∈ (CameraHealthService.transitionAfter camera state sample now).toList) :
    transition.cameraId = camera.id ∧
      transition.newStatus = (CameraHealthService.stateAfter state sample now).status := by
  unfold CameraHealthService.transitionAfter at hsome
  dsimp only at hsome
  split_ifs at hsome
  · obtain rfl := List.mem_singleton.mp hsome
    exact ⟨rfl, rfl⟩
  · exact absurd hsome List.not_mem_nil

theorem holds_endCheck (cameraId : CameraId) (now : ℤ) (result : Option HealthSample)
    (h : service.Holds) :
    (service.endCheck cameraId now result).Holds := by
  unfold CameraHealthService.endCheck
  cases hphase : service.phase with
  | idle cameras => exact h
  | finishing cameras pendingIds names agenda => exact h
  | checking cameras unstarted inFlight pending =>
    have hchecking := h.checking hphase
    dsimp only
    cases hfind : inFlight.find? (·.1.id = cameraId) with
    | none => exact h
    | some check =>
      obtain ⟨camera, state⟩ := check
      obtain rfl : camera.id = cameraId := by simpa using List.find?_some hfind
      have hmem : (camera, state) ∈ inFlight := List.mem_of_find?_eq_some hfind
      have hcamera : camera.id ∈ inFlight.map (·.1.id) := List.mem_map_of_mem hmem
      have hold : ∀ check ∈ inFlight.filter (·.1.id ≠ camera.id),
          check ∈ inFlight ∧ check.1.id ≠ camera.id := by
        intro check hcheck
        obtain ⟨hcheck, hne⟩ := List.mem_filter.mp hcheck
        exact ⟨hcheck, of_decide_eq_true hne⟩
      have hids : ∀ other ∈ (inFlight.filter (·.1.id ≠ camera.id)).map (·.1.id),
          other ∈ inFlight.map (·.1.id) ∧ other ≠ camera.id := by
        intro other hother
        obtain ⟨check, hcheck, rfl⟩ := List.mem_map.mp hother
        exact ⟨List.mem_map_of_mem (hold check hcheck).1, (hold check hcheck).2⟩
      have hstarted : ∀ check ∈ inFlight.filter (·.1.id ≠ camera.id),
          check.1.id ∉ unstarted.map (·.id) := fun check hcheck ↦
        hchecking.started check (hold check hcheck).1
      cases result with
      | none =>
        exact ⟨hchecking.nodup, hchecking.covers, hstarted,
          fun transition htransition ↦ ⟨(hchecking.ended transition htransition).1, fun hin ↦
            (hchecking.ended transition htransition).2 (hids _ hin).1⟩,
          fun check hcheck ↦ hchecking.found check (hold check hcheck).1, hchecking.agrees⟩
      | some sample =>
        have hended : ∀ transition ∈
            pending ++ (CameraHealthService.transitionAfter camera state sample now).toList,
            transition.cameraId ∉ unstarted.map (·.id) ∧
              transition.cameraId ∉ (inFlight.filter (·.1.id ≠ camera.id)).map (·.1.id) := by
          intro transition htransition
          rcases List.mem_append.mp htransition with hbefore | hnew
          · obtain ⟨hnot, hnone⟩ := hchecking.ended transition hbefore
            exact ⟨hnot, fun hin ↦ hnone (hids _ hin).1⟩
          · rw [(cameraId_of_transition hnew).1]
            exact ⟨hchecking.started _ hmem, fun hin ↦ (hids _ hin).2 rfl⟩
        have hlater : ∀ other, other ∈ pending.map (·.cameraId) → other ∈
            (pending ++ (CameraHealthService.transitionAfter camera state sample now).toList).map
              (·.cameraId) := by
          intro other hother
          rw [List.map_append]
          exact List.mem_append_left _ hother
        have hnew : ∀ transition ∈ pending, transition.cameraId ≠ camera.id :=
          fun transition htransition hsame ↦
            (hchecking.ended transition htransition).2 (hsame ▸ hcamera)
        cases hpresent : service.cameraStates camera.id with
        | none =>
          refine ⟨hchecking.nodup, fun other found hother hfailing ↦ ?_, hstarted, hended,
            fun check hcheck ↦ hchecking.found check (hold check hcheck).1,
            fun transition htransition found hfound ↦ ?_⟩
          · exact (hchecking.covers other found hother hfailing).imp_right fun hrest ↦
              hrest.imp_right (hlater other)
          · rcases List.mem_append.mp htransition with hbefore | hafter
            · exact hchecking.agrees transition hbefore found hfound
            · rw [(cameraId_of_transition hafter).1] at hfound
              exact absurd (hpresent.symm.trans hfound) nofun
        | some present =>
          obtain rfl : present = state := hchecking.found _ hmem present hpresent
          refine ⟨hchecking.nodup, fun other found hother hfailing ↦ ?_, hstarted, hended,
            fun check hcheck found hfound ↦ ?_, fun transition htransition found hfound ↦ ?_⟩
          · dsimp only at hother ⊢
            by_cases hsame : other = camera.id
            · subst hsame
              rw [Function.update_self] at hother
              obtain rfl := Option.some.inj hother
              cases htransition : CameraHealthService.transitionAfter camera present sample now with
              | some transition =>
                right; right
                have hmember :
                    transition ∈ (CameraHealthService.transitionAfter camera present sample
                        now).toList := by
                  rw [htransition]
                  exact List.mem_singleton_self transition
                rw [List.map_append]
                refine List.mem_append_right _ (List.mem_singleton.mpr ?_)
                exact (cameraId_of_transition hmember).1.symm
              | none =>
                have hstatus := status_of_no_transition htransition hfailing
                rw [hstatus] at hfailing ⊢
                refine (hchecking.covers _ _ hpresent hfailing).imp (fun halone ↦ ?_) fun hrest ↦
                  hrest.imp_right fun hpending ↦ by simpa using hpending
                refine announcedAlone_cons ?_ halone
                cases hcase : present.status with
                | online => rw [hcase] at hfailing; cases hfailing
                | _ => exact Bool.and_false _
            · rw [Function.update_of_ne hsame] at hother
              refine (hchecking.covers other found hother hfailing).imp
                  (fun halone ↦ ?_) fun hrest ↦
                hrest.imp_right (hlater other)
              refine announcedAlone_cons ?_ halone
              rw [LogEntry.restarts, decide_eq_false (Ne.symm hsame), Bool.false_and]
          · obtain ⟨hcheck, hne⟩ := hold check hcheck
            dsimp only at hfound
            rw [Function.update_of_ne hne] at hfound
            exact hchecking.found check hcheck found hfound
          · dsimp only at hfound
            rcases List.mem_append.mp htransition with hbefore | hafter
            · rw [Function.update_of_ne (hnew transition hbefore)] at hfound
              exact hchecking.agrees transition hbefore found hfound
            · obtain ⟨hid, hstatus⟩ := cameraId_of_transition hafter
              rw [hid, Function.update_self] at hfound
              rw [← Option.some.inj hfound, hstatus]

theorem holds_finishCycle {now : ℤ} {names : SiteId → Option String}
    (hnone : NoneStranded service now)
    (h : service.Holds) : (service.finishCycle now names).Holds := by
  unfold CameraHealthService.finishCycle
  cases hphase : service.phase with
  | idle cameras => exact h
  | finishing cameras pendingIds names agenda => exact h
  | checking cameras unstarted inFlight pending =>
    have hchecking := h.checking hphase
    unfold NoneStranded at hnone
    rw [hphase] at hnone
    cases unstarted with
    | cons camera unstarted => exact h
    | nil =>
      cases inFlight with
      | cons check inFlight => exact h
      | nil =>
        exact ⟨hchecking.nodup, hchecking.covers, hchecking.agrees, fun _ ↦ rfl,
          fun _ hentry _ ↦ hentry, hnone⟩

theorem holds_removeCamera (cameraId : CameraId) (h : service.Holds) :
    (service.removeCamera cameraId).Holds := by
  have hstates : ∀ other state, (service.removeCamera cameraId).cameraStates other = some state →
      service.cameraStates other = some state := by
    intro other state hstate
    by_cases hsame : other = cameraId
    · subst hsame
      exact absurd (hstate.symm.trans (Function.update_self _ _ _)) nofun
    · exact (Function.update_of_ne hsame _ _).symm.trans hstate
  unfold CameraHealthService.Holds at h ⊢
  have hsame : (service.removeCamera cameraId).phase = service.phase := rfl
  rw [hsame]
  cases hphase : service.phase with
  | idle cameras =>
    rw [hphase] at h
    exact ⟨fun other state hstate ↦ h.covers other state (hstates other state hstate),
      fun entry hentry camera hcamera hid state hstate ↦
        h.away entry hentry camera hcamera hid state (hstates _ state hstate)⟩
  | checking cameras unstarted inFlight pending =>
    rw [hphase] at h
    exact ⟨h.nodup, fun other state hstate ↦ h.covers other state (hstates other state hstate),
      h.started,
      h.ended, fun check hcheck state hstate ↦ h.found check hcheck state (hstates _ state hstate),
      fun transition htransition state hstate ↦
        h.agrees transition htransition state (hstates _ state hstate)⟩
  | finishing cameras pendingIds names agenda =>
    rw [hphase] at h
    exact ⟨h.nodup, fun other state hstate ↦ h.covers other state (hstates other state hstate),
      fun transition htransition state hstate ↦
        h.agrees transition htransition state (hstates _ state hstate), h.complete, h.listed,
      fun entry hentry hdown camera hcamera hid state hstate ↦
        h.away entry hentry hdown camera hcamera hid state (hstates _ state hstate)⟩

section Rounds

variable {cameras : List HealthCheckCamera} {pendingIds : List CameraId} {agenda : Agenda}

/-- An event more changes nothing that is kept. -/
theorem Finishing.emitEvent (h : Finishing service cameras pendingIds agenda)
    (event : HealthEvent) :
    Finishing (service.emitEvent event) cameras pendingIds agenda where
  nodup := h.nodup
  covers := fun cameraId state hstate hfailing ↦
    (h.covers cameraId state hstate hfailing).imp_left (announcedAlone_cons rfl)
  agrees := h.agrees
  complete := h.complete
  listed := h.listed
  away := h.away

/-- A transition of a site has had its round. -/
theorem Finishing.of_sites (h : Finishing service cameras pendingIds agenda)
    (down up : List SiteOutageTransition) (phase : Phase) :
    Finishing { service with phase } cameras pendingIds { agenda with down, up } where
  nodup := h.nodup
  covers := h.covers
  agrees := h.agrees
  complete := h.complete
  listed := h.listed
  away := h.away

/-- An entry has had its round. -/
theorem Finishing.release {entry : CameraId × SiteId} {rest : List (CameraId × SiteId)}
    (h : Finishing service cameras pendingIds agenda) (hagenda : agenda.suppressed = entry :: rest)
    (phase : Phase) :
    Finishing (CameraHealthService.release { service with phase } cameras pendingIds entry) cameras
      pendingIds { agenda with suppressed := rest } := by
  have hcomplete : pendingIds = agenda.pending.map (·.cameraId) :=
    h.complete (hagenda ▸ List.cons_ne_nil _ _)
  have hrest : ∀ other ∈ service.siteSuppressed, service.siteDetector.getState (some other.2) =
    .up →
      other ≠ entry → other ∈ rest := by
    intro other hother hup hne
    have hmem := h.listed other hother hup
    rw [hagenda] at hmem
    exact (List.mem_cons.mp hmem).resolve_left hne
  unfold CameraHealthService.release
  dsimp only
  split_ifs with hstate
  · refine ⟨h.nodup, h.covers, h.agrees, fun _ ↦ hcomplete, fun other hother hup ↦ ?_, h.away⟩
    refine hrest other hother hup ?_
    rintro rfl
    exact hstate hup
  · have hothers : ∀ other ∈ service.siteSuppressed.filter (·.1 ≠ entry.1),
        other ∈ service.siteSuppressed ∧ other.1 ≠ entry.1 := fun other hother ↦
      ⟨(List.mem_filter.mp hother).1, of_decide_eq_true (List.mem_filter.mp hother).2⟩
    -- the camera of the entry is what has to be looked at
    have hreleased : ∀ log, (∀ cameraId, announcedAlone cameraId service.log = true →
          announcedAlone cameraId log = true) →
        (∀ state, service.cameraStates entry.1 = some state → state.status.isFailing = true →
          announcedAlone entry.1 log = true ∨ entry.1 ∈ pendingIds) →
        Finishing
          { service with
            siteSuppressed := service.siteSuppressed.filter (·.1 ≠ entry.1)
            phase
            log } cameras pendingIds { agenda with suppressed := rest } := by
      intro log hlog hentry
      refine ⟨h.nodup, fun cameraId state hfound hfailing ↦ ?_, h.agrees, fun _ ↦ hcomplete,
        fun other hother hup ↦ ?_, fun other hother ↦ h.away other (hothers other hother).1⟩
      · by_cases hsame : cameraId = entry.1
        · subst hsame
          refine (hentry state hfound hfailing).imp_right fun hpending ↦ Or.inr ?_
          exact hcomplete ▸ hpending
        · refine (h.covers cameraId state hfound hfailing).imp (hlog cameraId) fun hheld ↦ ?_
          refine hheld.imp_left ?_
          rintro ⟨siteId, hmem⟩
          exact ⟨siteId, List.mem_filter.mpr ⟨hmem, decide_eq_true hsame⟩⟩
      · obtain ⟨hmem, hne⟩ := hothers other hother
        exact hrest other hmem hup fun hsame ↦ hne (congrArg Prod.fst hsame)
    cases hfound : service.cameraStates entry.1 with
    | none =>
      refine hreleased service.log (fun _ halone ↦ halone) fun state hsome ↦ ?_
      exact absurd (hfound.symm.trans hsome) nofun
    | some state =>
      dsimp only
      split_ifs with hsends
      · refine hreleased _ (fun _ halone ↦ announcedAlone_cons rfl halone) fun _ _ _ ↦ Or.inl ?_
        exact announcedAlone_transitionEvent hsends.2 _
      · refine hreleased service.log (fun _ halone ↦ halone) fun other hother hfailing ↦ Or.inr ?_
        obtain rfl := Option.some.inj (hfound.symm.trans hother)
        by_contra hnot
        exact hsends ⟨hnot, hfailing⟩

/-- A transition has had its round. -/
theorem Finishing.announce {transition : PendingTransition} {rest : List PendingTransition}
    (h : Finishing service cameras pendingIds agenda) (hagenda : agenda.pending =
      transition :: rest)
    (hnone : agenda.suppressed = []) (phase : Phase) :
    Finishing (CameraHealthService.announce { service with phase } cameras transition) cameras
      pendingIds { agenda with pending := rest } := by
  have hdown : ∀ entry ∈ service.siteSuppressed,
      service.siteDetector.getState (some entry.2) ≠ .up := by
    intro entry hentry hup
    have hmem := h.listed entry hentry hup
    rw [hnone] at hmem
    exact List.not_mem_nil hmem
  have hagrees : service.Agrees rest := fun other hother ↦
    h.agrees other (hagenda ▸ List.mem_cons_of_mem _ hother)
  have howed : ∀ cameraId, cameraId ∈ agenda.pending.map (·.cameraId) →
    cameraId ≠ transition.cameraId →
      cameraId ∈ rest.map (·.cameraId) := by
    intro cameraId hmem hne
    rw [hagenda] at hmem
    exact (List.mem_cons.mp hmem).resolve_left hne
  have haway : ∀ entry ∈ service.siteSuppressed, entry.1 ≠ transition.cameraId →
      ∀ camera ∈ cameras, camera.id = entry.1 → ∀ state,
        service.cameraStates camera.id = some state →
        state.status.isFailing = true → camera.id ∉ rest.map (·.cameraId) →
          service.siteDetector.getState camera.siteId ≠ .up := by
    intro entry hentry hne camera hcamera hid state hstate hfailing hnot
    refine h.away entry hentry (hdown entry hentry) camera hcamera hid state hstate hfailing ?_
    exact fun hmem ↦ hnot (howed camera.id hmem (hid ▸ hne))
  unfold CameraHealthService.announce
  cases hattributed : CameraHealthService.attributedTo { service with phase } cameras
    transition with
  | some siteId =>
    have hsite : CameraHealthService.siteOf cameras transition.cameraId = some siteId :=
      Option.eq_some_of_filter_eq_some hattributed
    have hunreachable : service.siteDetector.getState (some siteId) ≠ .up := by
      have hfilter := (Option.filter_eq_some_iff.mp hattributed).2
      simp only [Bool.and_eq_true, decide_eq_true_eq] at hfilter
      exact hfilter.2
    refine ⟨h.nodup, fun cameraId state hstate hfailing ↦ ?_, hagrees, fun hsome ↦
      absurd hnone hsome,
      fun entry hentry hup ↦ ?_, fun entry hentry _ camera hcamera hid state hstate hfailing hnot ↦
        ?_⟩
    · by_cases hsame : cameraId = transition.cameraId
      · subst hsame
        exact Or.inr (Or.inl ⟨siteId, mem_setSuppressed.mpr (Or.inl rfl)⟩)
      · refine (h.covers cameraId state hstate hfailing).imp (announcedAlone_cons rfl) fun hrest ↦
          hrest.imp ?_ fun hmem ↦ howed cameraId hmem hsame
        rintro ⟨other, hother⟩
        exact ⟨other, mem_setSuppressed.mpr (Or.inr ⟨hother, hsame⟩)⟩
    · rcases mem_setSuppressed.mp hentry with rfl | ⟨hold, -⟩
      · exact absurd hup hunreachable
      · exact absurd hup (hdown entry hold)
    · rcases mem_setSuppressed.mp hentry with rfl | ⟨hold, hne⟩
      · have hown : camera.siteId = some siteId := by
          rw [← siteOf_eq h.nodup hcamera, hid]
          exact hsite
        rw [hown]
        exact hunreachable
      · exact haway entry hold hne camera hcamera hid state hstate hfailing hnot
  | none =>
    have hothers : ∀ entry ∈ service.siteSuppressed.filter (·.1 ≠ transition.cameraId),
        entry ∈ service.siteSuppressed ∧ entry.1 ≠ transition.cameraId := fun entry hentry ↦
      ⟨(List.mem_filter.mp hentry).1, of_decide_eq_true (List.mem_filter.mp hentry).2⟩
    refine ⟨h.nodup, fun cameraId state hstate hfailing ↦ ?_, hagrees, fun hsome ↦
      absurd hnone hsome, fun entry hentry hup ↦ absurd hup (hdown entry (hothers entry hentry).1),
      fun entry hentry _ ↦ haway entry (hothers entry hentry).1 (hothers entry hentry).2⟩
    by_cases hsame : cameraId = transition.cameraId
    · subst hsame
      have hstatus : state.status = transition.newStatus :=
        h.agrees transition (hagenda ▸ List.mem_cons_self) state hstate
      exact Or.inl (announcedAlone_transitionEvent (hstatus ▸ hfailing) _)
    · refine (h.covers cameraId state hstate hfailing).imp (announcedAlone_cons rfl) fun hrest ↦
        hrest.imp ?_ fun hmem ↦ howed cameraId hmem hsame
      rintro ⟨other, hother⟩
      exact ⟨other, List.mem_filter.mpr ⟨hother, decide_eq_true hsame⟩⟩

end Rounds

theorem phase_release (cameras : List HealthCheckCamera) (pendingIds : List CameraId)
    (entry : CameraId × SiteId) : (service.release cameras pendingIds entry).phase =
        service.phase := by
  unfold CameraHealthService.release
  dsimp only
  split_ifs
  · rfl
  · cases service.cameraStates entry.1 with
    | none => rfl
    | some state =>
      dsimp only
      split_ifs <;> rfl

theorem phase_announce (cameras : List HealthCheckCamera) (transition : PendingTransition) :
    (service.announce cameras transition).phase = service.phase := by
  unfold CameraHealthService.announce
  cases service.attributedTo cameras transition with
  | none => rfl
  | some siteId => rfl

theorem holds_of_phase {cameras : List HealthCheckCamera} {pendingIds : List CameraId}
    {names : SiteId → Option String} {agenda : Agenda}
    (hphase : service.phase = .finishing cameras pendingIds names agenda)
    (h : Finishing service cameras pendingIds agenda) : service.Holds := by
  unfold CameraHealthService.Holds
  rw [hphase]
  exact h

theorem holds_proceed (h : service.Holds) : service.proceed.Holds := by
  unfold CameraHealthService.proceed
  cases hphase : service.phase with
  | idle cameras => exact h
  | checking cameras unstarted inFlight pending => exact h
  | finishing cameras pendingIds names agenda =>
    have hfinishing := h.finishing hphase
    obtain ⟨down, suppressed, pending, up⟩ := agenda
    cases down with
    | cons transition down => exact (hfinishing.of_sites down up _).emitEvent _
    | nil =>
      cases suppressed with
      | cons entry suppressed =>
        exact holds_of_phase (phase_release _ _ _) (hfinishing.release rfl _)
      | nil =>
        cases pending with
        | cons transition pending =>
          exact holds_of_phase (phase_announce _ _) (hfinishing.announce rfl rfl _)
        | nil =>
          cases up with
          | cons transition up => exact (hfinishing.of_sites [] up _).emitEvent _
          | nil =>
            refine ⟨fun cameraId state hstate hfailing ↦ ?_,
              fun entry hentry camera hcamera hid state hstate hfailing ↦ ?_⟩
            · exact (hfinishing.covers cameraId state hstate hfailing).imp_right fun hrest ↦
                hrest.imp_right fun hmem ↦ absurd hmem List.not_mem_nil
            · have hdown : service.siteDetector.getState (some entry.2) ≠ .up := fun hup ↦
                absurd (hfinishing.listed entry hentry hup) List.not_mem_nil
              exact hfinishing.away entry hentry hdown camera hcamera hid state hstate hfailing
                List.not_mem_nil

end Steps

/-! ### Every run -/

theorem holds_of_reached (run : HealthRun NoneStranded) : run.service.Holds := by
  refine run.reached.invariant ?_ fun service step _ h hlegal ↦ ?_
  · refine ⟨fun _ _ hstate ↦ ?_, fun _ hentry ↦ absurd hentry List.not_mem_nil⟩
    cases hstate
  · cases step with
    | pollAllCameras cameras => exact holds_pollAllCameras hlegal h
    | startCheck cameraId => exact holds_startCheck cameraId h
    | endCheck cameraId now result => exact holds_endCheck cameraId now result h
    | finishCycle now names => exact holds_finishCycle hlegal h
    | proceed => exact holds_proceed h
    | removeCamera cameraId => exact holds_removeCamera cameraId h

/-- In a run that leaves no camera stranded no finished cycle owes an alert. -/
theorem losesNoAlert_of_noneStranded (run : HealthRun NoneStranded) : LosesNoAlert run.service := by
  intro cameras hfinished camera hcamera state hstate hfailing hup
  have hholds := holds_of_reached run
  unfold CameraHealthService.Holds at hholds
  cases hphase : run.service.phase with
  | checking _ _ _ _ => rw [hphase] at hfinished; cases hfinished
  | finishing _ _ _ _ => rw [hphase] at hfinished; cases hfinished
  | idle last =>
    rw [hphase] at hholds hfinished
    obtain rfl : last = cameras := Option.some.inj hfinished
    rcases hholds.covers camera.id state hstate hfailing with halone | ⟨siteId, hheld⟩ | hnone
    · exact halone
    · exact absurd hup (hholds.away _ hheld camera hcamera rfl state hstate hfailing)
    · exact hnone.elim

/-! ### A camera that is moved -/

/-- The three cameras of a site fail, and the first is taken from the site during the outage. -/
def movedCamera : List HealthStep :=
  let depot := some "depot"
  let cameras := [probed "one" depot, probed "two" depot, probed "three" depot]
  deadCycle cameras 0 1 ++ deadCycle cameras 30000 5 ++
    deadCycle [probed "one" none, probed "two" depot, probed "three" depot] 60000 4

/-- It fails where there is no outage, and nobody is told. -/
theorem not_losesNoAlert_movedCamera :
    ¬ ∀ run : HealthRun fun _ _ ↦ True, LosesNoAlert run.service := by
  intro h
  have hlegal : Async.LegalRun CameraHealthService.step
      (fun service step ↦ step.IsLegal (fun _ _ ↦ True) service) {} movedCamera := by
    refine Async.LegalRun.of_forall (fun step hstep service ↦ ?_) _
    rcases List.mem_append.mp hstep with hfirst | hmoved
    · rcases List.mem_append.mp hfirst with hcycle | hcycle
      · exact isLegal_of_mem_deadCycle (by decide) hcycle service
      · exact isLegal_of_mem_deadCycle (by decide) hcycle service
    · exact isLegal_of_mem_deadCycle (by decide) hmoved service
  have hloses := h ⟨_, Async.Reaches.refl.run hlegal⟩
  have hfinished : (Async.runMoves CameraHealthService.step {} movedCamera).phase.finished =
      some [probed "one" none, probed "two" (some "depot"), probed "three" (some "depot")] := by
    decide +kernel
  have hfails : ((Async.runMoves CameraHealthService.step {} movedCamera).cameraStates "one").any
      (·.status.isFailing) = true := by decide +kernel
  have hsilent : announcedAlone "one" (Async.runMoves CameraHealthService.step {} movedCamera).log =
      false := by decide +kernel
  obtain ⟨state, hstate, hfailing⟩ := (Option.any_eq_true _ _).mp hfails
  have halone := hloses _ hfinished (probed "one" none) List.mem_cons_self state hstate hfailing rfl
  exact absurd (halone.symm.trans hsilent) nofun

end VmsLite.Health
