import Mathlib.Data.Int.Order.Basic
import Mathlib.Data.List.Induction
import Mathlib.Data.List.Nodup
import Mathlib.Logic.Function.Basic

/-!
# Site outages

`SiteOutageDetector`: one health cycle takes a sample of every camera and announces which sites have
lost their link and which have it back. A `Map` of the detector is a function; the order of its keys
matters nowhere. The map from sites to samples within a cycle is a list of its entries, because the
transitions are announced in its order.
-/

set_option autoImplicit false

namespace VmsLite.Health

abbrev SiteId := String

inductive CameraHealthStatus
  | online | degraded | offline | unknown
  deriving DecidableEq, Repr

def minCamerasForSiteOutage : ℕ := 2

structure SiteCameraSample where
  cameraId : String
  siteId : Option SiteId
  status : CameraHealthStatus
  /-- False when the camera has no host to probe. -/
  networkChecked : Bool
  /-- The last TCP probe failed. -/
  unreachable : Bool
  deriving DecidableEq, Repr

inductive SiteLinkState
  | up | suspected | down
  deriving DecidableEq, Repr

inductive SiteTransitionType
  | siteOffline | siteOnline
  deriving DecidableEq, Repr

structure SiteOutageTransition where
  siteId : SiteId
  type : SiteTransitionType
  cameraIds : List String
  /-- How long the site was down, once it is back. -/
  outageDurationMs : Option ℤ
  deriving DecidableEq, Repr

/-! ### Grouping -/

/-- The site that a sample counts for. -/
def SiteCameraSample.checkedSite (sample : SiteCameraSample) : Option SiteId :=
  sample.siteId.filter fun siteId ↦ siteId ≠ "" && sample.networkChecked

abbrev SiteSamples := List (SiteId × List SiteCameraSample)

/-- Adds a sample to the entry of its site, at its place in the order of insertion. -/
def addTo (siteId : SiteId) (bySite : SiteSamples) (sample : SiteCameraSample) : SiteSamples :=
  if bySite.any (·.1 = siteId) then
    bySite.map fun entry ↦ if entry.1 = siteId then (siteId, entry.2 ++ [sample]) else entry
  else bySite ++ [(siteId, [sample])]

def addSample (bySite : SiteSamples) (sample : SiteCameraSample) : SiteSamples :=
  sample.checkedSite.elim bySite fun siteId ↦ addTo siteId bySite sample

def groupBySite (samples : List SiteCameraSample) : SiteSamples := samples.foldl addSample []

/-! ### One cycle -/

/-- Every camera of a site failed its probe, and there are enough of them to tell. -/
def allUnreachable (cameras : List SiteCameraSample) : Bool :=
  minCamerasForSiteOutage ≤ cameras.length && cameras.all (·.unreachable)

def allOffline (cameras : List SiteCameraSample) : Bool :=
  allUnreachable cameras && cameras.all (·.status = .offline)

def nextState (previous : SiteLinkState) (cameras : List SiteCameraSample) : SiteLinkState :=
  if previous = .down then if allUnreachable cameras then .down else .up
  else if allOffline cameras then .down
  else if allUnreachable cameras then .suspected
  else .up

structure SiteOutageDetector where
  downSince : SiteId → Option ℤ := fun _ ↦ none
  states : SiteId → Option SiteLinkState := fun _ ↦ none

namespace SiteOutageDetector

variable (detector : SiteOutageDetector)

def previousState (siteId : SiteId) : SiteLinkState := (detector.states siteId).getD .up

/-- The round of one site. -/
def evaluateSite (now : ℤ) (progress : SiteOutageDetector × List SiteOutageTransition)
    (entry : SiteId × List SiteCameraSample) : SiteOutageDetector × List SiteOutageTransition :=
  let (detector, transitions) := progress
  let (siteId, cameras) := entry
  let previous := detector.previousState siteId
  let cameraIds := cameras.map (·.cameraId)
  let next := nextState previous cameras
  let states := Function.update detector.states siteId (some next)
  if next = .down ∧ previous ≠ .down then
    ({ downSince := Function.update detector.downSince siteId (some now), states },
      transitions ++ [{ siteId, type := .siteOffline, cameraIds, outageDurationMs := none }])
  else if previous = .down ∧ next ≠ .down then
    let outageDurationMs := (detector.downSince siteId).map fun since ↦ now - since
    ({ downSince := Function.update detector.downSince siteId none, states },
      transitions ++ [{ siteId, type := .siteOnline, cameraIds, outageDurationMs }])
  else ({ detector with states }, transitions)

/-- Forgets the sites without a sample. -/
def forget (bySite : SiteSamples) : SiteOutageDetector where
  downSince := fun siteId ↦ if bySite.any (·.1 = siteId) then detector.downSince siteId else none
  states := fun siteId ↦ if bySite.any (·.1 = siteId) then detector.states siteId else none

/-- Evaluates one health cycle, and returns the site transitions to announce. -/
def evaluate (samples : List SiteCameraSample) (now : ℤ) :
    SiteOutageDetector × List SiteOutageTransition :=
  let bySite := groupBySite samples
  let (evaluated, transitions) := bySite.foldl (evaluateSite now) (detector, [])
  -- The loop over the known sites deletes those that had no sample
  ((evaluated.forget bySite), transitions)

def getState (siteId : Option SiteId) : SiteLinkState :=
  ((siteId.filter (· ≠ "")).bind detector.states).getD .up

end SiteOutageDetector

/-! ### The samples of a site -/

/-- The samples of a cycle that count for a site. -/
def checkable (siteId : SiteId) (samples : List SiteCameraSample) : List SiteCameraSample :=
  samples.filter fun sample ↦ sample.checkedSite = some siteId

/-- The entries of a grouping: one for each site that has samples, with all of them. -/
structure Groups (samples : List SiteCameraSample) (bySite : SiteSamples) : Prop where
  nodup : (bySite.map Prod.fst).Nodup
  mem_iff : ∀ siteId cameras, (siteId, cameras) ∈ bySite ↔
    cameras = checkable siteId samples ∧ cameras ≠ []

namespace Groups

variable {samples : List SiteCameraSample} {bySite : SiteSamples}

theorem any_iff (hgroups : Groups samples bySite) (siteId : SiteId) :
    bySite.any (·.1 = siteId) = true ↔ checkable siteId samples ≠ [] := by
  rw [List.any_eq_true]
  constructor
  · rintro ⟨⟨key, cameras⟩, hentry, hkey⟩
    obtain rfl : key = siteId := of_decide_eq_true hkey
    obtain ⟨rfl, hne⟩ := (hgroups.mem_iff key cameras).mp hentry
    exact hne
  · exact fun hne ↦ ⟨(siteId, _), (hgroups.mem_iff siteId _).mpr ⟨rfl, hne⟩, decide_eq_true rfl⟩

theorem checkable_concat (siteId : SiteId) (samples : List SiteCameraSample)
    (sample : SiteCameraSample) :
    checkable siteId (samples ++ [sample]) =
      checkable siteId samples ++ if sample.checkedSite = some siteId then [sample] else [] := by
  unfold checkable
  rw [List.filter_append]
  by_cases hsite : sample.checkedSite = some siteId
  · simp [hsite]
  · simp [hsite]

theorem addTo (hgroups : Groups samples bySite) {sample : SiteCameraSample} {siteId : SiteId}
    (hsite : sample.checkedSite = some siteId) :
    Groups (samples ++ [sample]) (addTo siteId bySite sample) := by
  have hself : checkable siteId (samples ++ [sample]) = checkable siteId samples ++ [sample] := by
    rw [checkable_concat, if_pos hsite]
  have hother : ∀ other, other ≠ siteId →
      checkable other (samples ++ [sample]) = checkable other samples := by
    intro other hne
    have hskip : ¬ sample.checkedSite = some other := by
      rw [hsite]
      exact fun hsame ↦ hne (Option.some.inj hsame).symm
    rw [checkable_concat, if_neg hskip, List.append_nil]
  unfold Health.addTo
  split_ifs with hany
  · refine ⟨?_, fun other cameras ↦ ?_⟩
    · have hkeys : (bySite.map fun entry ↦ if entry.1 = siteId then (siteId, entry.2 ++ [sample])
          else entry).map Prod.fst = bySite.map Prod.fst := by
        rw [List.map_map]
        refine List.map_congr_left fun entry _ ↦ ?_
        rw [Function.comp_apply]
        split_ifs with hkey
        · exact hkey.symm
        · rfl
      rw [hkeys]
      exact hgroups.nodup
    · rw [List.mem_map]
      constructor
      · rintro ⟨⟨key, found⟩, hentry, hmapped⟩
        obtain ⟨rfl, hne⟩ := (hgroups.mem_iff key found).mp hentry
        split_ifs at hmapped with hkey
        · obtain rfl : key = siteId := hkey
          obtain ⟨rfl, rfl⟩ := Prod.mk.inj hmapped
          exact ⟨hself.symm, List.append_ne_nil_of_right_ne_nil _ (List.cons_ne_nil _ _)⟩
        · obtain ⟨rfl, rfl⟩ := Prod.mk.inj hmapped
          exact ⟨(hother key hkey).symm, hne⟩
      · rintro ⟨rfl, hne⟩
        by_cases hkey : other = siteId
        · subst hkey
          refine ⟨(other, _), (hgroups.mem_iff other _).mpr ⟨rfl, (hgroups.any_iff other).mp hany⟩,
            ?_⟩
          rw [if_pos rfl, hself]
        · rw [hother other hkey] at hne ⊢
          exact ⟨(other, _), (hgroups.mem_iff other _).mpr ⟨rfl, hne⟩, if_neg hkey⟩
  · have hnone : checkable siteId samples = [] := by
      by_contra hne
      exact hany ((hgroups.any_iff siteId).mpr hne)
    refine ⟨?_, fun other cameras ↦ ?_⟩
    · rw [List.map_append]
      refine List.nodup_append.mpr ⟨hgroups.nodup, List.nodup_singleton _, ?_⟩
      rintro first hfirst second hsecond rfl
      obtain ⟨entry, hentry, rfl⟩ := List.mem_map.mp hfirst
      exact hany (List.any_eq_true.mpr
        ⟨entry, hentry, decide_eq_true (List.mem_singleton.mp hsecond)⟩)
    · rw [List.mem_append, hgroups.mem_iff, List.mem_singleton, Prod.mk.injEq]
      by_cases hkey : other = siteId
      · subst hkey
        rw [hself, hnone, List.nil_append]
        constructor
        · rintro (⟨rfl, hne⟩ | ⟨-, rfl⟩)
          · exact absurd rfl hne
          · exact ⟨rfl, List.cons_ne_nil _ _⟩
        · rintro ⟨rfl, -⟩
          exact Or.inr ⟨rfl, rfl⟩
      · rw [hother other hkey]
        exact ⟨fun hmem ↦ hmem.resolve_right fun hnew ↦ hkey hnew.1, Or.inl⟩

end Groups

theorem groups_groupBySite (samples : List SiteCameraSample) :
    Groups samples (groupBySite samples) := by
  induction samples using List.reverseRecOn with
  | nil =>
    refine ⟨List.nodup_nil, fun siteId cameras ↦ ⟨nofun, ?_⟩⟩
    rintro ⟨rfl, hne⟩
    exact absurd rfl hne
  | append_singleton samples sample ih =>
    have hstep : groupBySite (samples ++ [sample]) = addSample (groupBySite samples) sample := by
      unfold groupBySite
      rw [List.foldl_append, List.foldl_cons, List.foldl_nil]
    rw [hstep]
    unfold addSample
    cases hsite : sample.checkedSite with
    | none =>
      refine ⟨ih.nodup, fun siteId cameras ↦ ?_⟩
      have hskip : ¬ sample.checkedSite = some siteId := by
        rw [hsite]
        exact nofun
      rw [Groups.checkable_concat, if_neg hskip, List.append_nil]
      exact ih.mem_iff siteId cameras
    | some siteId => exact ih.addTo hsite

/-! ### What a cycle does to one site -/

namespace SiteOutageDetector

variable (detector : SiteOutageDetector) (now : ℤ) (siteId : SiteId)
  (cameras : List SiteCameraSample)

/-- When the link of a site was lost, after a cycle with these samples. -/
def sinceAfter : Option ℤ :=
  let previous := detector.previousState siteId
  let next := nextState previous cameras
  if next = .down ∧ previous ≠ .down then some now
  else if previous = .down ∧ next ≠ .down then none
  else detector.downSince siteId

/-- What a cycle with these samples announces of a site. -/
def announcement : Option SiteOutageTransition :=
  let previous := detector.previousState siteId
  let next := nextState previous cameras
  let cameraIds := cameras.map (·.cameraId)
  if next = .down ∧ previous ≠ .down then
    some { siteId, type := .siteOffline, cameraIds, outageDurationMs := none }
  else if previous = .down ∧ next ≠ .down then
    some
      { siteId, type := .siteOnline, cameraIds
        outageDurationMs := (detector.downSince siteId).map fun since ↦ now - since }
  else none

theorem evaluateSite_eq (transitions : List SiteOutageTransition) :
    evaluateSite now (detector, transitions) (siteId, cameras) =
      ({ downSince := Function.update detector.downSince siteId
           (detector.sinceAfter now siteId cameras)
         states := Function.update detector.states siteId
           (some (nextState (detector.previousState siteId) cameras)) },
        transitions ++ (detector.announcement now siteId cameras).toList) := by
  unfold evaluateSite sinceAfter announcement
  dsimp only
  split_ifs
  · rfl
  · rfl
  · rw [Function.update_eq_self, Option.toList_none, List.append_nil]

theorem siteId_of_announcement {transition : SiteOutageTransition}
    (hannounced : detector.announcement now siteId cameras = some transition) :
    transition.siteId = siteId := by
  unfold announcement at hannounced
  dsimp only at hannounced
  split_ifs at hannounced
  · rw [← Option.some.inj hannounced]
  · rw [← Option.some.inj hannounced]

/-- The transitions of one site. -/
def ofSite (siteId : SiteId) (transitions : List SiteOutageTransition) :
    List SiteOutageTransition :=
  transitions.filter (·.siteId = siteId)

theorem ofSite_append (siteId : SiteId) (first second : List SiteOutageTransition) :
    ofSite siteId (first ++ second) = ofSite siteId first ++ ofSite siteId second :=
  List.filter_append first second

theorem ofSite_announcement (other : SiteId) :
    ofSite other (detector.announcement now siteId cameras).toList =
      if siteId = other then (detector.announcement now siteId cameras).toList else [] := by
  unfold ofSite
  cases hannounced : detector.announcement now siteId cameras with
  | none => simp
  | some transition =>
    have hsite := detector.siteId_of_announcement now siteId cameras hannounced
    by_cases hsame : siteId = other
    · simp [hsite, hsame]
    · simp [hsite, hsame]

/-- What a detector and a list of transitions say of a site. -/
def view (siteId : SiteId) (progress : SiteOutageDetector × List SiteOutageTransition) :
    Option SiteLinkState × Option ℤ × List SiteOutageTransition :=
  (progress.1.states siteId, progress.1.downSince siteId, ofSite siteId progress.2)

theorem view_evaluateSite_self (transitions : List SiteOutageTransition) :
    view siteId (evaluateSite now (detector, transitions) (siteId, cameras)) =
      (some (nextState (detector.previousState siteId) cameras),
        detector.sinceAfter now siteId cameras,
        ofSite siteId transitions ++ (detector.announcement now siteId cameras).toList) := by
  rw [evaluateSite_eq]
  unfold view
  dsimp only
  rw [ofSite_append, ofSite_announcement, if_pos rfl, Function.update_self, Function.update_self]

theorem view_evaluateSite_other {other : SiteId} (hne : other ≠ siteId)
    (transitions : List SiteOutageTransition) :
    view other (evaluateSite now (detector, transitions) (siteId, cameras)) =
      view other (detector, transitions) := by
  rw [evaluateSite_eq]
  unfold view
  dsimp only
  rw [ofSite_append, ofSite_announcement, if_neg (Ne.symm hne), List.append_nil,
    Function.update_of_ne hne, Function.update_of_ne hne]

/-- The rounds of other sites leave a site alone. -/
theorem view_foldl_of_not_mem {entries : SiteSamples} (hnone : ∀ entry ∈ entries, entry.1 ≠ siteId)
    (progress : SiteOutageDetector × List SiteOutageTransition) :
    view siteId (entries.foldl (evaluateSite now) progress) = view siteId progress := by
  induction entries generalizing progress with
  | nil => rfl
  | cons entry entries ih =>
    rw [List.foldl_cons, ih (fun other hother ↦ hnone other (List.mem_cons_of_mem _ hother))]
    exact view_evaluateSite_other progress.1 now entry.1 entry.2
      (hnone entry List.mem_cons_self).symm progress.2

/-- A site has one round. -/
theorem view_foldl_of_mem {entries : SiteSamples} (hnodup : (entries.map Prod.fst).Nodup)
    (hmem : (siteId, cameras) ∈ entries)
    (progress : SiteOutageDetector × List SiteOutageTransition) :
    view siteId (entries.foldl (evaluateSite now) progress) =
      (some (nextState (progress.1.previousState siteId) cameras),
        progress.1.sinceAfter now siteId cameras,
        ofSite siteId progress.2 ++ (progress.1.announcement now siteId cameras).toList) := by
  induction entries generalizing progress with
  | nil => cases hmem
  | cons entry entries ih =>
    rw [List.map_cons, List.nodup_cons] at hnodup
    rw [List.foldl_cons]
    rcases List.mem_cons.mp hmem with rfl | hrest
    · rw [view_foldl_of_not_mem now siteId fun other hother hsame ↦
        hnodup.1 (List.mem_map.mpr ⟨other, hother, hsame⟩)]
      exact view_evaluateSite_self progress.1 now siteId cameras progress.2
    · have hne : siteId ≠ entry.1 := fun hsame ↦
        hnodup.1 (List.mem_map.mpr ⟨_, hrest, hsame⟩)
      have hsame := view_evaluateSite_other progress.1 now entry.1 entry.2 hne progress.2
      rw [ih hnodup.2 hrest]
      unfold view at hsame
      obtain ⟨hstates, hsince, htransitions⟩ := by simpa only [Prod.mk.injEq] using hsame
      unfold sinceAfter announcement previousState
      rw [hstates, hsince, htransitions]

/-- A cycle with samples of a site. -/
theorem view_evaluate_of_ne_nil {samples : List SiteCameraSample}
    (hne : checkable siteId samples ≠ []) :
    view siteId (detector.evaluate samples now) =
      (some (nextState (detector.previousState siteId) (checkable siteId samples)),
        detector.sinceAfter now siteId (checkable siteId samples),
        (detector.announcement now siteId (checkable siteId samples)).toList) := by
  have hgroups := groups_groupBySite samples
  have hfold := view_foldl_of_mem now siteId (checkable siteId samples) hgroups.nodup
    ((hgroups.mem_iff siteId _).mpr ⟨rfl, hne⟩) (detector, [])
  have hany := (hgroups.any_iff siteId).mpr hne
  refine Eq.trans ?_ hfold
  unfold evaluate view forget
  dsimp only
  rw [if_pos hany, if_pos hany]

/-- A site without samples is forgotten, and nothing is announced of it. -/
theorem view_evaluate_of_eq_nil {samples : List SiteCameraSample}
    (hnil : checkable siteId samples = []) :
    view siteId (detector.evaluate samples now) = (none, none, []) := by
  have hgroups := groups_groupBySite samples
  have hany : ¬ (groupBySite samples).any (·.1 = siteId) = true := fun hany ↦
    (hgroups.any_iff siteId).mp hany hnil
  have hnone : ∀ entry ∈ groupBySite samples, entry.1 ≠ siteId := fun entry hentry hsame ↦
    hany (List.any_eq_true.mpr ⟨entry, hentry, decide_eq_true hsame⟩)
  have hfold := view_foldl_of_not_mem now siteId hnone (detector, [])
  have htransitions := congrArg (fun seen ↦ seen.2.2) hfold
  unfold evaluate view forget
  dsimp only
  rw [if_neg hany, if_neg hany]
  exact congrArg (fun transitions ↦ (none, none, transitions)) htransitions

end SiteOutageDetector

end VmsLite.Health
