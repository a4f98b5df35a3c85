import Mathlib.Data.List.Dedup
import Mathlib.Data.List.Sort
import VmsLite.Users.ScopeAgreement

/-!
# Which events an operator may see

`GET /events` and the live feed decide separately which events a user is shown. The first asks the
database for the events of the cameras in view and of the sites they stand at; the second looks at
each event by itself, and takes an event without a camera for a site event that lists the site's
cameras. Events carry a camera, a site, both or neither, and `visibilityHolds_iff` says for which of
them the two decide alike and by the camera.
-/

set_option autoImplicit false

namespace VmsLite.Events

open Users
open Recordings (CameraId)

/-! ### Events -/

inductive EventType
  | cameraAdded | cameraOnline | cameraDegraded | cameraOffline | cameraDeleted | cameraTamper
  | motionDetected | siteOffline | siteOnline | recordingStarted | recordingStopped
  | recordingSegmentCreated | storageWarning | storageCritical | storageFull | storageRollover
  | storageHealthChanged | storageExhaustionRisk | storageProtectedOverflow
  | storageProtectedRecovered | storageInvariantsAudited | storageDriveDegraded | incidentCreated
  | incidentUpdated | aiDetectionsProcessed
  deriving DecidableEq, Repr

def EventType.text : EventType → String
  | cameraAdded => "camera.added"
  | cameraOnline => "camera.online"
  | cameraDegraded => "camera.degraded"
  | cameraOffline => "camera.offline"
  | cameraDeleted => "camera.deleted"
  | cameraTamper => "camera.tamper"
  | motionDetected => "motion.detected"
  | siteOffline => "site.offline"
  | siteOnline => "site.online"
  | recordingStarted => "recording.started"
  | recordingStopped => "recording.stopped"
  | recordingSegmentCreated => "recording.segment_created"
  | storageWarning => "storage.warning"
  | storageCritical => "storage.critical"
  | storageFull => "storage.full"
  | storageRollover => "storage.rollover"
  | storageHealthChanged => "storage.health_changed"
  | storageExhaustionRisk => "storage.exhaustion_risk"
  | storageProtectedOverflow => "storage.protected_overflow"
  | storageProtectedRecovered => "storage.protected_recovered"
  | storageInvariantsAudited => "storage.invariants_audited"
  | storageDriveDegraded => "storage.drive_degraded"
  | incidentCreated => "incident.created"
  | incidentUpdated => "incident.updated"
  | aiDetectionsProcessed => "ai.detections_processed"

/-- `NON_PERSISTED_EVENT_TYPES`. -/
def nonPersistedEventTypes : List EventType := [.recordingSegmentCreated]

/-- `NON_BROADCAST_EVENT_TYPES`. -/
def nonBroadcastEventTypes : List EventType := [.recordingSegmentCreated]

structure EventRecord where
  id : String
  cameraId : Option CameraId
  siteId : Option SiteId
  timestamp : ℤ
  type : EventType
  /-- `metadata.cameraIds` if it is an array, its elements as `String` gives them. -/
  listedCameraIds : Option (List CameraId)
  deriving DecidableEq, Repr

/-- A row of `events`. -/
structure StoredEvent extends EventRecord where
  persisted : type ∉ nonPersistedEventTypes
  deriving DecidableEq

/-- An id that is neither missing nor empty. -/
def carried (id : Option String) : Option String := id.filter (· ≠ "")

/-! ### The query -/

/-- A date of JavaScript; none is an invalid one. -/
abbrev Date := Option ℤ

structure EventQueryFilter where
  type : Option String
  cameraId : Option CameraId
  cameraIds : Option (List CameraId)
  siteIds : List SiteId
  since : Option Date
  limit : ℤ
  offset : ℤ

/-- What `where` asks of the camera and the site of an event. -/
inductive CameraClause
  | any
  | is (cameraId : CameraId)
  | among (cameraIds : List CameraId)
  | amongOrAt (cameraIds : List CameraId) (siteIds : List SiteId)

def EventQueryFilter.cameraClause (filter : EventQueryFilter) : CameraClause :=
  match carried filter.cameraId, filter.cameraIds with
  | some cameraId, _ => .is cameraId
  | none, none => .any
  | none, some cameraIds =>
    if filter.siteIds.isEmpty then .among cameraIds else .amongOrAt cameraIds filter.siteIds

/-- `in` of a list of ids; a missing id is in none. -/
def isIn (id : Option String) (ids : List String) : Bool := id.any (· ∈ ids)

def CameraClause.holds (event : EventRecord) : CameraClause → Bool
  | any => true
  | is cameraId => event.cameraId = some cameraId
  | among cameraIds => isIn event.cameraId cameraIds
  | amongOrAt cameraIds siteIds => isIn event.cameraId cameraIds || isIn event.siteId siteIds

def EventQueryFilter.selects (filter : EventQueryFilter) (event : EventRecord) : Bool :=
  (carried filter.type).all (· = event.type.text) && filter.cameraClause.holds event &&
    filter.since.all fun date ↦ date.any (· ≤ event.timestamp)

def latestFirst (first second : StoredEvent) : Prop := second.timestamp ≤ first.timestamp

instance : DecidableRel latestFirst := fun first second ↦
  inferInstanceAs (Decidable (second.timestamp ≤ first.timestamp))

/-- Queries stored events. The database may fail, and does on an invalid date; nothing is returned
then. -/
def queryEvents (events : List StoredEvent) (answers : Bool) (filter : EventQueryFilter) :
    List StoredEvent :=
  if answers && filter.since ≠ some none then
    (((events.filter fun event ↦ filter.selects event.toEventRecord).insertionSort latestFirst).drop
      (max filter.offset 0).toNat).take (min (max filter.limit 1) 500).toNat
  else []

/-! ### GET /events -/

/-- The query string; a limit and an offset are missing when they are no numbers. -/
structure EventsQuery where
  type : Option String := none
  cameraId : Option CameraId := none
  siteId : Option SiteId := none
  since : Option Date := none
  limit : Option ℤ := none
  offset : Option ℤ := none

/-- `?siteId=<id>` filters by site, `?siteId=unassigned` selects cameras without one. -/
def parseSiteFilter (raw : Option String) : Option (Option SiteId) :=
  (carried raw).map fun siteId ↦ if siteId = "unassigned" then none else some siteId

/-- `listCameras` of a site filter. -/
def listCameras (cameras : List SitedCamera) (siteId : Option SiteId) : List SitedCamera :=
  cameras.filter (·.siteId = siteId)

/-- The cameras whose events a request may see; none when it may see all events. -/
def allowedCameras (cameras : List SitedCamera) (scopeIds : Option (List CameraId)) :
    Option (Option SiteId) → Option (List CameraId)
  | none => scopeIds
  | some siteId =>
    let siteCameraIds := (listCameras cameras siteId).map (·.id)
    match scopeIds with
    | some ids => some (ids.filter (· ∈ siteCameraIds))
    | none => some siteCameraIds

/-- The sites that the allowed cameras belong to. -/
def sitesOf (cameras : List SitedCamera) (allowed : List CameraId) : List SiteId :=
  ((cameras.filter (·.id ∈ allowed)).filterMap fun camera ↦ carried camera.siteId).dedup

/-- The selected site too, for a user whose cameras are not restricted. -/
def withSelectedSite (siteIds : List SiteId) (scopeIds : Option (List CameraId))
    (selected : Option SiteId) : List SiteId :=
  match selected, scopeIds with
  | some siteId, none => if siteId ∈ siteIds then siteIds else siteIds ++ [siteId]
  | _, _ => siteIds

def getEvents (tables : GrantTables) (user : UserTokenPayload) (events : List StoredEvent)
    (answers : Bool) (query : EventsQuery) : List StoredEvent :=
  let filter : EventQueryFilter :=
    { type := query.type
      cameraId := query.cameraId
      cameraIds := none
      siteIds := []
      since := query.since
      limit := query.limit.getD 50
      offset := query.offset.getD 0 }
  let scopeIds := (CameraScope.forUser tables user).cameraIds .view
  let siteFilter := parseSiteFilter query.siteId
  match allowedCameras tables.cameras scopeIds siteFilter with
  | none => queryEvents events answers filter
  | some allowed =>
    match carried query.cameraId with
    | some cameraId =>
      if cameraId ∈ allowed then
        queryEvents events answers { filter with cameraIds := some allowed }
      else []
    | none =>
      queryEvents events answers
        { filter with
          cameraIds := some allowed
          -- Site-level events of the sites those cameras belong to
          siteIds := withSelectedSite (sitesOf tables.cameras allowed) scopeIds siteFilter.join }

/-! ### The live feed -/

/-- Whether a socket with these visible cameras may see an event. -/
def canSee (visibleCameraIds : Option (List CameraId)) (event : EventRecord) : Bool :=
  match visibleCameraIds with
  | none => true
  | some visible =>
    match carried event.cameraId, carried event.siteId with
    | some cameraId, _ => cameraId ∈ visible
    -- Site-level events list the site's cameras: visible to whoever can see one of them
    | none, some _ => event.listedCameraIds.any fun listed ↦ listed.any (· ∈ visible)
    -- System-wide events are visible to everyone
    | none, none => true

/-- Whether an event is broadcast to such a socket. -/
def isSent (visibleCameraIds : Option (List CameraId)) (event : EventRecord) : Bool :=
  event.type ∉ nonBroadcastEventTypes && canSee visibleCameraIds event

/-- Whether the live feed sends an event to a user whose rights have just been loaded. -/
def feedSends (tables : GrantTables) (user : UserTokenPayload) (event : EventRecord) : Bool :=
  isSent ((CameraScope.forUser tables user).cameraIds .view) event

/-! ### The claim -/

/-- Grants on cameras whose ids are not empty: the database makes them up. -/
structure NamedGrants extends GrantRows where
  named : ∀ camera ∈ cameras, camera.id ≠ ""

structure Operator where
  payload : UserTokenPayload
  isOperator : payload.role = .operator

variable (grants : NamedGrants) (operator : Operator)

/-- The camera is in the operator's view scope. -/
def InView (cameraId : CameraId) : Prop := MayDo grants.toGrantRows operator.payload cameraId .view

/-- A camera in view stands at the site. -/
def SiteInView (siteId : SiteId) : Prop :=
  ∃ camera ∈ grants.cameras, camera.siteId = some siteId ∧ InView grants operator camera.id

/-- The operator is shown no event of a camera outside the view scope, and the two ways of showing
an event agree. -/
structure VisibilityHolds (events : List StoredEvent) : Prop where
  get_confined : ∀ answers query, ∀ event ∈ getEvents grants.toGrantTables operator.payload events
    answers query, ∀ cameraId, carried event.cameraId = some cameraId →
      InView grants operator cameraId
  feed_confined : ∀ event ∈ events, feedSends grants.toGrantTables operator.payload
    event.toEventRecord = true → ∀ cameraId, carried event.cameraId = some cameraId →
      InView grants operator cameraId
  consistent : ∀ event ∈ events, carried event.cameraId ≠ none ∨ carried event.siteId ≠ none →
    ((∃ limit offset, event ∈ getEvents grants.toGrantTables operator.payload events true
        { limit, offset }) ↔
      feedSends grants.toGrantTables operator.payload event.toEventRecord = true)

/-- The site of an event says no more than its camera; an event with a site alone lists a camera in
view exactly when one stands there. -/
structure Grounded (event : EventRecord) : Prop where
  camera : ∀ cameraId siteId, carried event.cameraId = some cameraId →
    carried event.siteId = some siteId → SiteInView grants operator siteId →
      InView grants operator cameraId
  site : ∀ siteId, carried event.cameraId = none → carried event.siteId = some siteId →
    (SiteInView grants operator siteId ↔
      ∃ listed, event.listedCameraIds = some listed ∧ ∃ cameraId ∈ listed,
        InView grants operator cameraId)

/-! ### Ids -/

theorem carried_eq_some {id : Option String} {text : String} (hcarried : carried id = some text) :
    id = some text ∧ text ≠ "" := by
  obtain ⟨hid, hne⟩ := Option.filter_eq_some_iff.mp hcarried
  exact ⟨hid, of_decide_eq_true hne⟩

theorem carried_some {text : String} (hne : text ≠ "") : carried (some text) = some text :=
  Option.filter_eq_some_iff.mpr ⟨rfl, decide_eq_true hne⟩

theorem isIn_iff {id : Option String} {ids : List String} :
    isIn id ids = true ↔ ∃ text ∈ ids, id = some text := by
  unfold isIn
  rw [Option.any_eq_true]
  constructor
  · rintro ⟨text, htext, hmem⟩
    exact ⟨text, of_decide_eq_true hmem, htext⟩
  · rintro ⟨text, hmem, htext⟩
    exact ⟨text, htext, decide_eq_true hmem⟩

/-! ### The scope -/

section Scope

/-- The cameras in an operator's scope are those in view. -/
theorem exists_scopeIds : ∃ ids,
    (CameraScope.forUser grants.toGrantTables operator.payload).cameraIds .view = some ids ∧
      ∀ cameraId, cameraId ∈ ids ↔ InView grants operator cameraId := by
  have hscope : (CameraScope.forUser grants.toGrantTables operator.payload).everyCamera = none := by
    unfold CameraScope.forUser
    rw [operator.isOperator]
  have hids : ∃ ids, (CameraScope.forUser grants.toGrantTables operator.payload).cameraIds .view =
      some ids := by
    unfold CameraScope.cameraIds
    rw [hscope]
    exact ⟨_, rfl⟩
  obtain ⟨ids, hids⟩ := hids
  exact ⟨ids, hids, fun cameraId ↦
    (mem_cameraIds_iff hids cameraId).trans
      (can_forUser_iff grants.toGrantRows operator.payload ..)⟩

variable {grants operator}

/-- A camera in view is there, and its id is not empty. -/
theorem InView.ne_empty {cameraId : CameraId} (hview : InView grants operator cameraId) :
    cameraId ≠ "" := by
  have hgranted : ∀ flag, Permitted grants.toGrantRows operator.payload cameraId flag →
      cameraId ≠ "" := by
    intro flag hpermitted
    unfold Permitted at hpermitted
    rw [operator.isOperator] at hpermitted
    obtain ⟨camera, hcamera, rfl⟩ := known_of_granted hpermitted
    exact grants.named camera hcamera
  rcases hview with hlive | hplayback
  · exact hgranted _ hlive
  · exact hgranted _ hplayback

/-- The sites of allowed cameras. -/
theorem mem_sitesOf {cameras : List SitedCamera} {allowed : List CameraId} {siteId : SiteId} :
    siteId ∈ sitesOf cameras allowed ↔
      siteId ≠ "" ∧ ∃ camera ∈ cameras, camera.id ∈ allowed ∧ camera.siteId = some siteId := by
  unfold sitesOf
  rw [List.mem_dedup, List.mem_filterMap]
  constructor
  · rintro ⟨camera, hcamera, hsite⟩
    obtain ⟨hknown, hallowed⟩ := List.mem_filter.mp hcamera
    obtain ⟨hsite, hne⟩ := carried_eq_some hsite
    exact ⟨hne, camera, hknown, of_decide_eq_true hallowed, hsite⟩
  · rintro ⟨hne, camera, hknown, hallowed, hsite⟩
    refine ⟨camera, List.mem_filter.mpr ⟨hknown, decide_eq_true hallowed⟩, ?_⟩
    rw [hsite]
    exact carried_some hne

end Scope

/-! ### The query -/

section Query

variable {events : List StoredEvent}

theorem mem_of_mem_queryEvents {answers : Bool} {filter : EventQueryFilter} {event : StoredEvent}
    (hevent : event ∈ queryEvents events answers filter) :
    event ∈ events ∧ filter.selects event.toEventRecord = true := by
  unfold queryEvents at hevent
  split_ifs at hevent
  · have hsorted := List.mem_of_mem_drop (List.mem_of_mem_take hevent)
    exact List.mem_filter.mp ((List.perm_insertionSort latestFirst _).mem_iff.mp hsorted)
  · cases hevent

/-- Every event that a filter selects is on some page. -/
theorem exists_page {filter : EventQueryFilter} (hsince : filter.since ≠ some none)
    {event : StoredEvent} (hevent : event ∈ events)
    (hselects : filter.selects event.toEventRecord = true) :
    ∃ offset, event ∈ queryEvents events true { filter with limit := 1, offset } := by
  have hsorted : event ∈ (events.filter fun event ↦
      filter.selects event.toEventRecord).insertionSort latestFirst :=
    (List.perm_insertionSort latestFirst _).mem_iff.mpr (List.mem_filter.mpr ⟨hevent, hselects⟩)
  obtain ⟨index, hindex, hat⟩ := List.mem_iff_getElem.mp hsorted
  refine ⟨index, ?_⟩
  unfold queryEvents
  rw [if_pos (by simpa using hsince)]
  have hskip : (max (index : ℤ) 0).toNat = index := by omega
  have htake : (min (max (1 : ℤ) 1) 500).toNat = 1 := rfl
  rw [hskip, htake]
  refine List.mem_iff_getElem.mpr ⟨0, ?_, ?_⟩
  · rw [List.length_take, List.length_drop]
    exact Nat.lt_min.mpr ⟨Nat.one_pos, Nat.sub_pos_of_lt hindex⟩
  · rw [List.getElem_take, List.getElem_drop]
    exact hat

end Query

/-! ### What is shown -/

section Shown

/-- A filter on cameras and sites selects the events of either. -/
theorem holds_cameraClause {filter : EventQueryFilter} {allowed : List CameraId}
    (hcamera : carried filter.cameraId = none) (hallowed : filter.cameraIds = some allowed)
    (event : EventRecord) : filter.cameraClause.holds event = true ↔
      isIn event.cameraId allowed = true ∨ isIn event.siteId filter.siteIds = true := by
  unfold EventQueryFilter.cameraClause
  rw [hcamera, hallowed]
  by_cases hempty : filter.siteIds.isEmpty = true
  · have hnowhere : ¬ isIn event.siteId filter.siteIds = true := by
      rw [isIn_iff, List.isEmpty_iff.mp hempty]
      rintro ⟨siteId, hsite, -⟩
      cases hsite
    simp only [if_pos hempty, CameraClause.holds]
    exact (or_iff_left hnowhere).symm
  · simp only [if_neg hempty, CameraClause.holds]
    exact Bool.or_eq_true_iff

theorem mem_of_mem_getEvents {tables : GrantTables} {user : UserTokenPayload}
    {events : List StoredEvent} {answers : Bool} {query : EventsQuery} {event : StoredEvent}
    (hevent : event ∈ getEvents tables user events answers query) : event ∈ events := by
  unfold getEvents at hevent
  dsimp only at hevent
  split at hevent
  · exact (mem_of_mem_queryEvents hevent).1
  · split at hevent
    · split_ifs at hevent
      · exact (mem_of_mem_queryEvents hevent).1
      · cases hevent
    · exact (mem_of_mem_queryEvents hevent).1

theorem holds_of_selects {filter : EventQueryFilter} {event : EventRecord}
    (hselects : filter.selects event = true) : filter.cameraClause.holds event = true :=
  ((Bool.and_eq_true ..).mp ((Bool.and_eq_true ..).mp hselects).1).2

variable {grants operator} {events : List StoredEvent}

/-- An operator is shown events of cameras in view and of the sites they stand at. -/
theorem shown_of_mem_getEvents {answers : Bool} {query : EventsQuery} {event : StoredEvent}
    (hevent : event ∈ getEvents grants.toGrantTables operator.payload events answers query) :
    (∃ cameraId, event.cameraId = some cameraId ∧ InView grants operator cameraId) ∨
      ∃ siteId, event.siteId = some siteId ∧ siteId ≠ "" ∧ SiteInView grants operator siteId := by
  obtain ⟨ids, hids, hview⟩ := exists_scopeIds grants operator
  have hallowed : ∃ allowed,
    allowedCameras grants.cameras (some ids) (parseSiteFilter query.siteId) =
      some allowed ∧ ∀ cameraId ∈ allowed, InView grants operator cameraId := by
    cases parseSiteFilter query.siteId with
    | none => exact ⟨ids, rfl, fun cameraId hmem ↦ (hview cameraId).mp hmem⟩
    | some siteId =>
      exact ⟨_, rfl, fun cameraId hmem ↦ (hview cameraId).mp (List.mem_filter.mp hmem).1⟩
  obtain ⟨allowed, hallowed, hinView⟩ := hallowed
  unfold getEvents at hevent
  simp only [hids, hallowed] at hevent
  cases hcamera : carried query.cameraId with
  | some cameraId =>
    -- A selected camera: the filter asks for its events alone
    simp only [hcamera] at hevent
    split_ifs at hevent with hmem
    · have hholds := holds_of_selects (mem_of_mem_queryEvents hevent).2
      unfold EventQueryFilter.cameraClause at hholds
      simp only [hcamera] at hholds
      exact Or.inl ⟨cameraId, of_decide_eq_true hholds, hinView cameraId hmem⟩
    · cases hevent
  | none =>
    simp only [hcamera] at hevent
    have hholds := holds_of_selects (mem_of_mem_queryEvents hevent).2
    rcases (holds_cameraClause hcamera rfl event.toEventRecord).mp hholds with hfound | hfound
    · obtain ⟨cameraId, hmem, hid⟩ := isIn_iff.mp hfound
      exact Or.inl ⟨cameraId, hid, hinView cameraId hmem⟩
    · obtain ⟨siteId, hmem, hid⟩ := isIn_iff.mp hfound
      have hsite : siteId ∈ sitesOf grants.cameras allowed := by
        unfold withSelectedSite at hmem
        split at hmem
        · next hnone => cases hnone
        · exact hmem
      obtain ⟨hne, camera, hknown, hin, hat⟩ := mem_sitesOf.mp hsite
      exact Or.inr ⟨siteId, hid, hne, camera, hknown, hat, hinView camera.id hin⟩

/-- Without a filter, all of these events are shown on some page. -/
theorem exists_page_of_shown {event : StoredEvent} (hevent : event ∈ events)
    (hshown : (∃ cameraId, event.cameraId = some cameraId ∧ InView grants operator cameraId) ∨
      ∃ siteId, event.siteId = some siteId ∧ siteId ≠ "" ∧ SiteInView grants operator siteId) :
    ∃ limit offset, event ∈ getEvents grants.toGrantTables operator.payload events true
      { limit, offset } := by
  obtain ⟨ids, hids, hview⟩ := exists_scopeIds grants operator
  let filter : EventQueryFilter :=
    { type := none
      cameraId := none
      cameraIds := some ids
      siteIds := sitesOf grants.cameras ids
      since := none
      limit := 50
      offset := 0 }
  have hholds : filter.cameraClause.holds event.toEventRecord = true := by
    refine (holds_cameraClause rfl rfl _).mpr ?_
    rcases hshown with ⟨cameraId, hid, hin⟩ | ⟨siteId, hid, hne, camera, hknown, hat, hin⟩
    · exact Or.inl (isIn_iff.mpr ⟨cameraId, (hview cameraId).mpr hin, hid⟩)
    · refine Or.inr (isIn_iff.mpr ⟨siteId, mem_sitesOf.mpr ⟨hne, camera, hknown, ?_, hat⟩, hid⟩)
      exact (hview camera.id).mpr hin
  have hselects : filter.selects event.toEventRecord = true := by
    unfold EventQueryFilter.selects
    rw [hholds]
    rfl
  obtain ⟨offset, hpage⟩ := @exists_page events filter nofun event hevent hselects
  refine ⟨some 1, some offset, ?_⟩
  unfold getEvents
  simp only [hids]
  exact hpage

theorem shown_camera {answers : Bool} {query : EventsQuery} {event : StoredEvent}
    {cameraId : CameraId} (hcamera : carried event.cameraId = some cameraId)
    (hevent : event ∈ getEvents grants.toGrantTables operator.payload events answers query) :
    InView grants operator cameraId ∨ ∃ siteId, carried event.siteId = some siteId ∧
      SiteInView grants operator siteId := by
  rcases shown_of_mem_getEvents hevent with ⟨other, hother, hin⟩ | ⟨siteId, hsite, hne, hin⟩
  · obtain rfl := Option.some.inj (hother.symm.trans (carried_eq_some hcamera).1)
    exact Or.inl hin
  · refine Or.inr ⟨siteId, ?_, hin⟩
    rw [hsite]
    exact carried_some hne

/-- An event with a camera is shown for it, or for its site. -/
theorem shown_camera_iff {event : StoredEvent} (hevent : event ∈ events) {cameraId : CameraId}
    (hcamera : carried event.cameraId = some cameraId) :
    (∃ limit offset, event ∈ getEvents grants.toGrantTables operator.payload events true
        { limit, offset }) ↔
      InView grants operator cameraId ∨ ∃ siteId, carried event.siteId = some siteId ∧
        SiteInView grants operator siteId := by
  obtain ⟨hid, -⟩ := carried_eq_some hcamera
  constructor
  · rintro ⟨limit, offset, hpage⟩
    exact shown_camera hcamera hpage
  · rintro (hin | ⟨siteId, hsite, hin⟩)
    · exact exists_page_of_shown hevent (Or.inl ⟨cameraId, hid, hin⟩)
    · obtain ⟨hsite, hne⟩ := carried_eq_some hsite
      exact exists_page_of_shown hevent (Or.inr ⟨siteId, hsite, hne, hin⟩)

/-- An event with a site alone is shown for the site. -/
theorem shown_site_iff {event : StoredEvent} (hevent : event ∈ events) {siteId : SiteId}
    (hcamera : carried event.cameraId = none) (hsite : carried event.siteId = some siteId) :
    (∃ limit offset, event ∈ getEvents grants.toGrantTables operator.payload events true
        { limit, offset }) ↔ SiteInView grants operator siteId := by
  obtain ⟨hid, hne⟩ := carried_eq_some hsite
  constructor
  · rintro ⟨limit, offset, hpage⟩
    rcases shown_of_mem_getEvents hpage with ⟨cameraId, hother, hin⟩ | ⟨other, hother, -, hin⟩
    · have hnamed : carried event.cameraId = some cameraId := by
        rw [hother]
        exact carried_some hin.ne_empty
      rw [hcamera] at hnamed
      cases hnamed
    · obtain rfl := Option.some.inj (hid.symm.trans hother)
      exact hin
  · exact fun hin ↦ exists_page_of_shown hevent (Or.inr ⟨siteId, hid, hne, hin⟩)

/-- The live feed sends an event of a camera for its camera, and one of a site for the cameras it
lists. -/
theorem feedSends_camera {event : StoredEvent} {cameraId : CameraId}
    (hcamera : carried event.cameraId = some cameraId) :
    feedSends grants.toGrantTables operator.payload event.toEventRecord = true ↔
      InView grants operator cameraId := by
  obtain ⟨ids, hids, hview⟩ := exists_scopeIds grants operator
  have hbroadcast : event.type ∉ nonBroadcastEventTypes := event.persisted
  unfold feedSends isSent canSee
  rw [hids]
  simp only [hcamera, hbroadcast, not_false_eq_true, decide_true, Bool.true_and]
  rw [decide_eq_true_iff]
  exact hview cameraId

theorem feedSends_site {event : StoredEvent} {siteId : SiteId}
    (hcamera : carried event.cameraId = none) (hsite : carried event.siteId = some siteId) :
    feedSends grants.toGrantTables operator.payload event.toEventRecord = true ↔
      ∃ listed, event.listedCameraIds = some listed ∧ ∃ cameraId ∈ listed,
        InView grants operator cameraId := by
  obtain ⟨ids, hids, hview⟩ := exists_scopeIds grants operator
  have hbroadcast : event.type ∉ nonBroadcastEventTypes := event.persisted
  unfold feedSends isSent canSee
  rw [hids]
  simp only [hcamera, hsite, hbroadcast, not_false_eq_true, decide_true, Bool.true_and]
  simp only [Option.any_eq_true, List.any_eq_true, decide_eq_true_iff, hview]

end Shown

/-! ### The result -/

/-- The two ways of showing an event are confined and agree exactly when every stored event is
grounded. -/
theorem visibilityHolds_iff (grants : NamedGrants) (operator : Operator)
    (events : List StoredEvent) : VisibilityHolds grants operator events ↔
      ∀ event ∈ events, Grounded grants operator event.toEventRecord := by
  constructor
  · intro hholds event hevent
    constructor
    · intro cameraId siteId hcamera hsite hin
      obtain ⟨limit, offset, hpage⟩ :=
        (shown_camera_iff hevent hcamera).mpr (Or.inr ⟨siteId, hsite, hin⟩)
      exact hholds.get_confined _ _ event hpage cameraId hcamera
    · intro siteId hcamera hsite
      have hcarries : carried event.siteId ≠ none := by
        rw [hsite]
        exact nofun
      rw [← shown_site_iff hevent hcamera hsite, ← feedSends_site hcamera hsite]
      exact hholds.consistent event hevent (Or.inr hcarries)
  · intro hgrounded
    constructor
    · intro answers query event hpage cameraId hcamera
      rcases shown_camera hcamera hpage with hin | ⟨siteId, hsite, hin⟩
      · exact hin
      · exact (hgrounded event (mem_of_mem_getEvents hpage)).camera cameraId siteId
          hcamera hsite hin
    · intro event hevent hsent cameraId hcamera
      exact (feedSends_camera hcamera).mp hsent
    · intro event hevent hcarries
      cases hcamera : carried event.cameraId with
      | some cameraId =>
        rw [feedSends_camera hcamera, shown_camera_iff hevent hcamera, or_iff_left_iff_imp]
        rintro ⟨siteId, hsite, hin⟩
        exact (hgrounded event hevent).camera cameraId siteId hcamera hsite hin
      | none =>
        obtain ⟨siteId, hsite⟩ : ∃ siteId, carried event.siteId = some siteId :=
          Option.ne_none_iff_exists'.mp (hcarries.resolve_left (not_not_intro hcamera))
        rw [feedSends_site hcamera hsite, shown_site_iff hevent hcamera hsite]
        exact (hgrounded event hevent).site siteId hcamera hsite

/-- A grant on the camera at the gate of a site, and a camera in its yard without one. -/
def gateGrant : NamedGrants where
  cameraPermissions := [{ userId := "omar", cameraId := "gate", rights := viewOnly }]
  sitePermissions := []
  cameras := [{ id := "gate", siteId := some "depot" }, { id := "yard", siteId := some "depot" }]
  sites_unique := by simp
  cameras_unique := by simp
  cameras_known := by simp
  named := by simp

def omar : Operator where
  payload := { id := "omar", role := .operator }
  isOperator := rfl

/-- Detections in the yard, as the pipeline announces them. -/
def yardDetections : StoredEvent where
  id := "event-1"
  cameraId := some "yard"
  siteId := some "depot"
  timestamp := 0
  type := .aiDetectionsProcessed
  listedCameraIds := none
  persisted := by decide

/-- The operator at the gate is shown what the detector saw in the yard. -/
theorem not_visibilityHolds_yardDetections :
    ¬ VisibilityHolds gateGrant omar [yardDetections] := by
  intro hholds
  have hshown : yardDetections ∈
    getEvents gateGrant.toGrantTables omar.payload [yardDetections] true
      {} := by
    decide
  have hview := hholds.get_confined true {} yardDetections hshown "yard" rfl
  have hscope : ¬ (CameraScope.forUser gateGrant.toGrantTables omar.payload).can "yard" .view =
      true := by
    decide
  exact hscope ((can_forUser_iff gateGrant.toGrantRows omar.payload "yard" .view).mpr hview)

end VmsLite.Events
