import VmsLite.Health.SiteOutage

/-!
# Outage announcements

What the transitions of a site say over a sequence of health cycles. An outage that was announced
ends with a camera that answers, or with the last camera of the site. The detector keeps to that as
long as a site that is down has two cameras to check, or one that answers (`announces_iff`): with a
single camera left it takes the link for restored, and without any it forgets the outage.
-/

set_option autoImplicit false

namespace VmsLite.Health

open SiteOutageDetector

/-! ### The claim -/

structure HealthCycle where
  samples : List SiteCameraSample
  now : ℤ

/-- A cycle, what it returned, and the detector after it. -/
structure CycleRecord extends HealthCycle where
  transitions : List SiteOutageTransition
  after : SiteOutageDetector

/-- A detector over a sequence of cycles. -/
def history (detector : SiteOutageDetector) : List HealthCycle → List CycleRecord
  | [] => []
  | cycle :: later =>
    let evaluated := detector.evaluate cycle.samples cycle.now
    { toHealthCycle := cycle, transitions := evaluated.2, after := evaluated.1 } ::
      history evaluated.1 later

/-- What has been announced of a site: nothing since it was last online, an outage since an instant,
or an outage of a site that has lost its last camera. -/
inductive Standing
  | up
  | down (since : ℤ)
  | gone

/-- Whether a cycle has a camera of a site. -/
def HasCamera (siteId : SiteId) (samples : List SiteCameraSample) : Prop :=
  ∃ sample ∈ samples, sample.siteId = some siteId

/-- The transitions of a site over some cycles are truthful and alternate. -/
inductive Announces (siteId : SiteId) : Standing → List CycleRecord → Prop
  | nil {standing : Standing} : Announces siteId standing []
  | quietUp {record : CycleRecord} {later : List CycleRecord}
    (hquiet : ofSite siteId record.transitions = []) (hlater : Announces siteId .up later) :
    Announces siteId .up (record :: later)
  | quietGone {record : CycleRecord} {later : List CycleRecord}
    (hquiet : ofSite siteId record.transitions = []) (hlater : Announces siteId .gone later) :
    Announces siteId .gone (record :: later)
  /-- An outage that goes on. -/
  | quietDown {since : ℤ} {record : CycleRecord} {later : List CycleRecord}
    (hquiet : ofSite siteId record.transitions = [])
    (hkept : record.after.states siteId = some .down)
    (hlater : Announces siteId (.down since) later) :
    Announces siteId (.down since) (record :: later)
  /-- An outage that is dropped with the last camera of the site. -/
  | dropped {since : ℤ} {record : CycleRecord} {later : List CycleRecord}
    (hquiet : ofSite siteId record.transitions = [])
    (hnone : ¬ HasCamera siteId record.samples) (hlater : Announces siteId .gone later) :
    Announces siteId (.down since) (record :: later)
  | offline {record : CycleRecord} {later : List CycleRecord} {transition : SiteOutageTransition}
    (hone : ofSite siteId record.transitions = [transition])
    (htype : transition.type = .siteOffline)
    (henough : 2 ≤ (checkable siteId record.samples).length)
    (hall : ∀ sample ∈ checkable siteId record.samples,
      sample.unreachable = true ∧ sample.status = .offline)
    (hlater : Announces siteId (.down record.now) later) :
    Announces siteId .up (record :: later)
  | online {since : ℤ} {record : CycleRecord} {later : List CycleRecord}
    {transition : SiteOutageTransition}
    (hone : ofSite siteId record.transitions = [transition])
    (htype : transition.type = .siteOnline)
    (hanswers : ∃ sample ∈ checkable siteId record.samples, sample.unreachable = false)
    (hduration : transition.outageDurationMs = some (record.now - since))
    (hlater : Announces siteId .up later) :
    Announces siteId (.down since) (record :: later)

/-- Two cameras of a site can be checked, or one answers. -/
def CanTell (siteId : SiteId) (samples : List SiteCameraSample) : Prop :=
  2 ≤ (checkable siteId samples).length ∨
    ∃ sample ∈ checkable siteId samples, sample.unreachable = false

/-- The site has lost its last camera, and is never again unreachable with cameras that are
OFFLINE. -/
def Abandoned (siteId : SiteId) (samples : List SiteCameraSample) (later : List HealthCycle) :
    Prop :=
  ¬ HasCamera siteId samples ∧ ∀ cycle ∈ later, allOffline (checkable siteId cycle.samples) = false

/-- In every cycle before which the site is down, the detector can tell whether it still is, or the
site is abandoned. -/
def Judgeable (siteId : SiteId) (detector : SiteOutageDetector) : List HealthCycle → Prop
  | [] => True
  | cycle :: later =>
    (detector.states siteId = some .down →
      CanTell siteId cycle.samples ∨ Abandoned siteId cycle.samples later) ∧
    Judgeable siteId (detector.evaluate cycle.samples cycle.now).1 later

/-! ### One cycle -/

section Cycle

variable {cameras : List SiteCameraSample}

theorem allUnreachable_iff : allUnreachable cameras = true ↔
    2 ≤ cameras.length ∧ ∀ sample ∈ cameras, sample.unreachable = true := by
  unfold allUnreachable minCamerasForSiteOutage
  rw [Bool.and_eq_true, decide_eq_true_eq, List.all_eq_true]

theorem allOffline_iff : allOffline cameras = true ↔ 2 ≤ cameras.length ∧
    ∀ sample ∈ cameras, sample.unreachable = true ∧ sample.status = .offline := by
  unfold allOffline
  rw [Bool.and_eq_true, allUnreachable_iff, List.all_eq_true]
  constructor
  · rintro ⟨⟨henough, hunreachable⟩, hoffline⟩
    exact ⟨henough, fun sample hsample ↦
      ⟨hunreachable sample hsample, of_decide_eq_true (hoffline sample hsample)⟩⟩
  · rintro ⟨henough, hall⟩
    exact ⟨⟨henough, fun sample hsample ↦ (hall sample hsample).1⟩,
      fun sample hsample ↦ decide_eq_true (hall sample hsample).2⟩

/-- A camera that is checked is a camera of the site. -/
theorem hasCamera_of_mem_checkable {siteId : SiteId} {samples : List SiteCameraSample}
    {sample : SiteCameraSample} (hsample : sample ∈ checkable siteId samples) :
    HasCamera siteId samples := by
  obtain ⟨hmem, hsite⟩ := List.mem_filter.mp hsample
  exact ⟨sample, hmem, Option.eq_some_of_filter_eq_some (of_decide_eq_true hsite)⟩

variable (detector : SiteOutageDetector) (siteId : SiteId) (cycle : HealthCycle)

/-- The cameras of a site in a cycle. -/
abbrev HealthCycle.of (cycle : HealthCycle) (siteId : SiteId) : List SiteCameraSample :=
  checkable siteId cycle.samples

/-- A cycle of a site that is down: it stays so, it is announced online, or it is forgotten. -/
theorem view_evaluate_down {since : ℤ} (hdown : detector.states siteId = some .down)
    (hsince : detector.downSince siteId = some since) :
    view siteId (detector.evaluate cycle.samples cycle.now) =
      if cycle.of siteId = [] then (none, none, [])
      else if allUnreachable (cycle.of siteId) then (some .down, some since, [])
      else (some .up, none,
        [{ siteId, type := .siteOnline, cameraIds := (cycle.of siteId).map (·.cameraId)
           outageDurationMs := some (cycle.now - since) }]) := by
  have hprevious : detector.previousState siteId = .down := by
    unfold previousState
    rw [hdown]
    rfl
  split_ifs with hnil hall
  · exact view_evaluate_of_eq_nil detector cycle.now siteId hnil
  · rw [view_evaluate_of_ne_nil detector cycle.now siteId hnil]
    unfold sinceAfter announcement nextState
    simp [hprevious, hall, hsince]
  · rw [view_evaluate_of_ne_nil detector cycle.now siteId hnil]
    unfold sinceAfter announcement nextState
    simp [hprevious, hall, hsince]

/-- A cycle of a site that is not down: it is announced offline, or nothing is. -/
theorem view_evaluate_up (hup : detector.states siteId ≠ some .down) :
    if allOffline (cycle.of siteId) then
      view siteId (detector.evaluate cycle.samples cycle.now) = (some .down, some cycle.now,
        [{ siteId, type := .siteOffline, cameraIds := (cycle.of siteId).map (·.cameraId)
           outageDurationMs := none }])
    else (view siteId (detector.evaluate cycle.samples cycle.now)).1 ≠ some .down ∧
      (view siteId (detector.evaluate cycle.samples cycle.now)).2.2 = [] := by
  have hprevious : detector.previousState siteId ≠ .down := by
    unfold previousState
    cases hstate : detector.states siteId with
    | none => exact nofun
    | some state =>
      rintro rfl
      exact hup hstate
  by_cases hnil : cycle.of siteId = []
  · rw [hnil]
    rw [view_evaluate_of_eq_nil detector cycle.now siteId hnil]
    exact ⟨nofun, rfl⟩
  · rw [view_evaluate_of_ne_nil detector cycle.now siteId hnil]
    unfold sinceAfter announcement nextState
    by_cases hoffline : allOffline (cycle.of siteId) = true
    · simp [hprevious, hoffline]
    · by_cases hall : allUnreachable (cycle.of siteId) = true
      · simp [hprevious, hoffline, hall]
      · simp [hprevious, hoffline, hall]

end Cycle

/-! ### Every sequence of cycles -/

section Runs

variable (siteId : SiteId) (detector : SiteOutageDetector) (cycle : HealthCycle)
  (later : List HealthCycle)

theorem evaluate_of_view {state : Option SiteLinkState} {since : Option ℤ}
    {transitions : List SiteOutageTransition}
    (hview : view siteId (detector.evaluate cycle.samples cycle.now) =
      (state, since, transitions)) :
    (detector.evaluate cycle.samples cycle.now).1.states siteId = state ∧
      (detector.evaluate cycle.samples cycle.now).1.downSince siteId = since ∧
      ofSite siteId (detector.evaluate cycle.samples cycle.now).2 = transitions := by
  unfold view at hview
  obtain ⟨hstate, hrest⟩ := Prod.mk.inj hview
  exact ⟨hstate, Prod.mk.inj hrest⟩

/-- A site that is not down and whose cameras are not all OFFLINE. -/
theorem quiet_of_not_allOffline (hup : detector.states siteId ≠ some .down)
    (hoffline : ¬ allOffline (cycle.of siteId) = true) :
    (detector.evaluate cycle.samples cycle.now).1.states siteId ≠ some .down ∧
      ofSite siteId (detector.evaluate cycle.samples cycle.now).2 = [] := by
  have hview := view_evaluate_up detector siteId cycle hup
  rw [if_neg hoffline] at hview
  exact hview

/-- A site that is not down and whose cameras are all OFFLINE. -/
theorem offline_of_allOffline (hup : detector.states siteId ≠ some .down)
    (hoffline : allOffline (cycle.of siteId) = true) :
    (detector.evaluate cycle.samples cycle.now).1.states siteId = some .down ∧
      (detector.evaluate cycle.samples cycle.now).1.downSince siteId = some cycle.now ∧
      ofSite siteId (detector.evaluate cycle.samples cycle.now).2 =
        [{ siteId, type := .siteOffline, cameraIds := (cycle.of siteId).map (·.cameraId)
           outageDurationMs := none }] := by
  have hview := view_evaluate_up detector siteId cycle hup
  rw [if_pos hoffline] at hview
  exact evaluate_of_view siteId detector cycle hview

/-- A site that has lost its last camera must stay quiet. -/
theorem announces_gone_iff (hup : detector.states siteId ≠ some .down) :
    Announces siteId .gone (history detector later) ↔
      ∀ cycle ∈ later, allOffline (cycle.of siteId) = false := by
  induction later generalizing detector with
  | nil => exact ⟨fun _ ↦ nofun, fun _ ↦ Announces.nil⟩
  | cons cycle later ih =>
    rw [List.forall_mem_cons]
    by_cases hoffline : allOffline (cycle.of siteId) = true
    · have hone := (offline_of_allOffline siteId detector cycle hup hoffline).2.2
      constructor
      · rintro (_ | _ | ⟨hquiet, -⟩)
        exact absurd (hone.symm.trans hquiet) (List.cons_ne_nil _ _)
      · rintro ⟨hnot, -⟩
        exact absurd (hoffline.symm.trans hnot) nofun
    · obtain ⟨hafter, hquiet⟩ := quiet_of_not_allOffline siteId detector cycle hup hoffline
      constructor
      · rintro (_ | _ | ⟨-, hlater⟩)
        exact ⟨eq_false_of_ne_true hoffline, (ih _ hafter).mp hlater⟩
      · rintro ⟨-, hnone⟩
        exact Announces.quietGone hquiet ((ih _ hafter).mpr hnone)

/-- A site that never goes down again can be judged. -/
theorem judgeable_of_never_allOffline (hup : detector.states siteId ≠ some .down)
    (hnone : ∀ cycle ∈ later, allOffline (cycle.of siteId) = false) :
    Judgeable siteId detector later := by
  induction later generalizing detector with
  | nil => trivial
  | cons cycle later ih =>
    rw [List.forall_mem_cons] at hnone
    have hoffline : ¬ allOffline (cycle.of siteId) = true := by
      rw [hnone.1]
      exact nofun
    have hafter := (quiet_of_not_allOffline siteId detector cycle hup hoffline).1
    exact ⟨fun hdown ↦ absurd hdown hup, ih _ hafter hnone.2⟩

/-- A camera that is checked cannot be lost. -/
theorem not_abandoned_of_ne_nil (hne : cycle.of siteId ≠ []) :
    ¬ Abandoned siteId cycle.samples later := by
  obtain ⟨sample, hsample⟩ := List.exists_mem_of_ne_nil _ hne
  exact fun habandoned ↦ habandoned.1 (hasCamera_of_mem_checkable hsample)

/-- Without a camera to check, the detector can tell only that a site is abandoned. -/
theorem not_canTell_of_eq_nil (hnil : cycle.of siteId = []) : ¬ CanTell siteId cycle.samples := by
  rintro (henough | ⟨sample, hsample, -⟩)
  · rw [show checkable siteId cycle.samples = [] from hnil] at henough
    exact absurd henough (by decide)
  · rw [show checkable siteId cycle.samples = [] from hnil] at hsample
    exact absurd hsample List.not_mem_nil

/-- Where not every camera is unreachable, the detector can tell exactly when one answers. -/
theorem canTell_iff_of_not_allUnreachable (hall : ¬ allUnreachable (cycle.of siteId) = true) :
    CanTell siteId cycle.samples ↔
      ∃ sample ∈ checkable siteId cycle.samples, sample.unreachable = false := by
  refine ⟨fun htell ↦ ?_, Or.inr⟩
  rcases htell with henough | hanswers
  · by_contra hnone
    refine hall (allUnreachable_iff.mpr ⟨henough, fun sample hsample ↦ ?_⟩)
    by_contra hanswers
    exact hnone ⟨sample, hsample, eq_false_of_ne_true hanswers⟩
  · exact hanswers

/-- A cycle of a site that is up. -/
theorem announces_up_cons_iff (hup : detector.states siteId ≠ some .down) :
    Announces siteId .up (history detector (cycle :: later)) ↔
      Announces siteId (if allOffline (cycle.of siteId) then .down cycle.now else .up)
        (history (detector.evaluate cycle.samples cycle.now).1 later) := by
  by_cases hoffline : allOffline (cycle.of siteId) = true
  · obtain ⟨hdown, -, hone⟩ := offline_of_allOffline siteId detector cycle hup hoffline
    obtain ⟨henough, hall⟩ := allOffline_iff.mp hoffline
    rw [if_pos hoffline]
    constructor
    · rintro (_ | ⟨hquiet, -⟩ | _ | _ | _ | ⟨-, -, -, -, hlater⟩)
      · exact absurd (hone.symm.trans hquiet) (List.cons_ne_nil _ _)
      · exact hlater
    · intro hlater
      exact Announces.offline hone rfl henough hall hlater
  · obtain ⟨-, hquiet⟩ := quiet_of_not_allOffline siteId detector cycle hup hoffline
    rw [if_neg hoffline]
    constructor
    · rintro (_ | ⟨-, hlater⟩ | _ | _ | _ | ⟨hone, -⟩)
      · exact hlater
      · exact absurd (hone.symm.trans hquiet) (List.cons_ne_nil _ _)
    · exact Announces.quietUp hquiet

/-- A cycle of a site that is down: the outage goes on, it ends with a camera that answers, or it is
dropped with the last camera. -/
theorem announces_down_cons_iff {since : ℤ} (hdown : detector.states siteId = some .down)
    (hsince : detector.downSince siteId = some since) :
    Announces siteId (.down since) (history detector (cycle :: later)) ↔
      if cycle.of siteId = [] then ¬ HasCamera siteId cycle.samples ∧
        Announces siteId .gone (history (detector.evaluate cycle.samples cycle.now).1 later)
      else if allUnreachable (cycle.of siteId) then
        Announces siteId (.down since) (history (detector.evaluate cycle.samples cycle.now).1 later)
      else (∃ sample ∈ checkable siteId cycle.samples, sample.unreachable = false) ∧
        Announces siteId .up (history (detector.evaluate cycle.samples cycle.now).1 later) := by
  have hview := view_evaluate_down detector siteId cycle hdown hsince
  split_ifs at hview ⊢ with hnil hall
  · obtain ⟨hstate, -, hquiet⟩ := evaluate_of_view siteId detector cycle hview
    constructor
    · rintro (_ | _ | _ | ⟨-, hkept, -⟩ | ⟨-, hnone, hlater⟩ | _ | ⟨hone, -⟩)
      · exact absurd (hstate.symm.trans hkept) nofun
      · exact ⟨hnone, hlater⟩
      · exact absurd (hone.symm.trans hquiet) (List.cons_ne_nil _ _)
    · rintro ⟨hnone, hlater⟩
      exact Announces.dropped hquiet hnone hlater
  · obtain ⟨hstate, -, hquiet⟩ := evaluate_of_view siteId detector cycle hview
    obtain ⟨sample, hsample⟩ := List.exists_mem_of_ne_nil _ hnil
    constructor
    · rintro (_ | _ | _ | ⟨-, -, hlater⟩ | ⟨-, hnone, -⟩ | _ | ⟨hone, -⟩)
      · exact hlater
      · exact absurd (hasCamera_of_mem_checkable hsample) hnone
      · exact absurd (hone.symm.trans hquiet) (List.cons_ne_nil _ _)
    · exact Announces.quietDown hquiet hstate
  · obtain ⟨hstate, -, hone⟩ := evaluate_of_view siteId detector cycle hview
    constructor
    · rintro (_ | _ | _ | ⟨hquiet, -⟩ | ⟨hquiet, -⟩ | _ | ⟨-, -, hanswers, -, hlater⟩)
      · exact absurd (hone.symm.trans hquiet) (List.cons_ne_nil _ _)
      · exact absurd (hone.symm.trans hquiet) (List.cons_ne_nil _ _)
      · exact ⟨hanswers, hlater⟩
    · rintro ⟨hanswers, hlater⟩
      exact Announces.online hone rfl hanswers rfl hlater

/-- The two standings that a detector can be in, at once: each leads to the other. -/
theorem announces_iff_of_state :
    (∀ detector, detector.states siteId ≠ some .down →
      (Announces siteId .up (history detector later) ↔ Judgeable siteId detector later)) ∧
    ∀ detector since, detector.states siteId = some .down →
      detector.downSince siteId = some since →
      (Announces siteId (.down since) (history detector later) ↔
        Judgeable siteId detector later) := by
  induction later with
  | nil =>
    exact ⟨fun _ _ ↦ ⟨fun _ ↦ trivial, fun _ ↦ .nil⟩,
      fun _ _ _ _ ↦ ⟨fun _ ↦ trivial, fun _ ↦ .nil⟩⟩
  | cons cycle later ih =>
    obtain ⟨ihup, ihdown⟩ := ih
    constructor
    · intro detector hup
      have hjudgeable : Judgeable siteId detector (cycle :: later) ↔
          Judgeable siteId (detector.evaluate cycle.samples cycle.now).1 later :=
        ⟨And.right, fun hlater ↦ ⟨fun hdown ↦ absurd hdown hup, hlater⟩⟩
      rw [announces_up_cons_iff siteId detector cycle later hup, hjudgeable]
      by_cases hoffline : allOffline (cycle.of siteId) = true
      · obtain ⟨hdown, hsince, -⟩ := offline_of_allOffline siteId detector cycle hup hoffline
        rw [if_pos hoffline]
        exact ihdown _ cycle.now hdown hsince
      · have hafter := (quiet_of_not_allOffline siteId detector cycle hup hoffline).1
        rw [if_neg hoffline]
        exact ihup _ hafter
    · intro detector since hdown hsince
      have hview := view_evaluate_down detector siteId cycle hdown hsince
      have hjudgeable : Judgeable siteId detector (cycle :: later) ↔
          (CanTell siteId cycle.samples ∨ Abandoned siteId cycle.samples later) ∧
            Judgeable siteId (detector.evaluate cycle.samples cycle.now).1 later :=
        and_congr_left' ⟨fun htell ↦ htell hdown, fun htell _ ↦ htell⟩
      rw [announces_down_cons_iff siteId detector cycle later hdown hsince, hjudgeable]
      split_ifs at hview ⊢ with hnil hall
      · obtain ⟨hstate, -, -⟩ := evaluate_of_view siteId detector cycle hview
        have hafter : (detector.evaluate cycle.samples cycle.now).1.states siteId ≠ some .down := by
          rw [hstate]
          exact nofun
        rw [announces_gone_iff siteId _ later hafter,
          or_iff_right (not_canTell_of_eq_nil siteId cycle hnil)]
        exact ⟨fun habandoned ↦
            ⟨habandoned, judgeable_of_never_allOffline siteId _ later hafter habandoned.2⟩,
              And.left⟩
      · obtain ⟨hstate, hkept, -⟩ := evaluate_of_view siteId detector cycle hview
        have htell : CanTell siteId cycle.samples := Or.inl (allUnreachable_iff.mp hall).1
        rw [ihdown _ since hstate hkept]
        exact ⟨fun hlater ↦ ⟨Or.inl htell, hlater⟩, And.right⟩
      · obtain ⟨hstate, -, -⟩ := evaluate_of_view siteId detector cycle hview
        have hafter : (detector.evaluate cycle.samples cycle.now).1.states siteId ≠ some .down := by
          rw [hstate]
          exact nofun
        rw [ihup _ hafter, or_iff_left (not_abandoned_of_ne_nil siteId cycle later hnil),
          canTell_iff_of_not_allUnreachable siteId cycle hall]

end Runs

/-- The transitions of a site are truthful and alternate exactly in the sequences of cycles in which
the detector can tell whenever the site is down. -/
theorem announces_iff (siteId : SiteId) (cycles : List HealthCycle) :
    Announces siteId .up (history {} cycles) ↔ Judgeable siteId {} cycles :=
  (announces_iff_of_state siteId cycles).1 {} nofun

/-! ### A site left with one camera -/

/-- A camera of the site "depot" that does not answer. -/
def deadSample (cameraId : String) : SiteCameraSample :=
  { cameraId
    siteId := some "depot"
    status := .offline
    networkChecked := true
    unreachable := true }

/-- Two dead cameras, of which one is then deleted. -/
def deletionCycles : List HealthCycle :=
  [{ samples := [deadSample "cam-1", deadSample "cam-2"], now := 0 },
    { samples := [deadSample "cam-1"], now := 60000 }]

/-- The site is announced online although no camera of it answers. -/
theorem not_announces_deletion : ¬ Announces "depot" .up (history {} deletionCycles) := by
  rintro (_ | ⟨hquiet, -⟩ | _ | _ | _ | ⟨-, -, -, -, hlater⟩)
  · exact absurd hquiet (by decide)
  · cases hlater with
    | quietDown hquiet => exact absurd hquiet (by decide)
    | dropped hquiet => exact absurd hquiet (by decide)
    | online hone htype hanswers =>
      obtain ⟨sample, hsample, hreached⟩ := hanswers
      have hdead : (checkable "depot" [deadSample "cam-1"]).all (·.unreachable) = true := by decide
      exact absurd (List.all_eq_true.mp hdead sample hsample) (by rw [hreached]; exact nofun)

end VmsLite.Health
