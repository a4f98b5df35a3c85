import VmsLite.Incidents.IncidentCorrelation
import VmsLite.Recordings.KeptFootage

/-!
# The evidence of an incident

What `createIncident` leaves of the catalogue. It puts the segments that it lists under the INCIDENT
tier, whatever tier they have, as far as their updates go through, and changes no other column. So
the footage of the window is kept when none of it is in the motion buffer and all that is not kept
already is among the hundred segments listed, and no segment loses protection when none listed is
under the PROTECTED tier alone (`keepsEvidence_iff`).
-/

set_option autoImplicit false

namespace VmsLite.Incidents

open Async Async.Program Recordings
open Events (EventRecord)

section Creation

variable (input : CreateIncidentInput) (outcomes : Call → Outcome) (world : World)

/-! ### The rows afterwards -/

/-- Whether a segment is listed and its update goes through. -/
def Relocks (row : Recording) : Prop :=
  row ∈ world.listed input (outcomes (.findRecordings input)).recordingOrder ∧
    (outcomes (.lockRecording row.id)).passes = true

instance (row : Recording) : Decidable (Relocks input outcomes world row) :=
  inferInstanceAs (Decidable (_ ∧ _))

/-- A segment under the INCIDENT tier. -/
def underIncident (row : Recording) : Recording := { row with retentionTier := .incident }

/-- A segment after the locks of some. -/
def lockedAmong (ids : List RecordingId) (row : Recording) : Recording :=
  if row.id ∈ ids ∧ (outcomes (.lockRecording row.id)).passes then underIncident row else row

@[simp] theorem lockedAmong_id (ids : List RecordingId) (row : Recording) :
    (lockedAmong outcomes ids row).id = row.id := by
  unfold lockedAmong
  split_ifs <;> rfl

/-- Locking more segments after one. -/
theorem lockedAmong_lockedAmong (id : RecordingId) (ids : List RecordingId) (row : Recording) :
    lockedAmong outcomes ids (lockedAmong outcomes [id] row) =
      lockedAmong outcomes (id :: ids) row := by
  by_cases hpasses : (outcomes (.lockRecording row.id)).passes = true
  · have hfirst : lockedAmong outcomes [id] row = if row.id =
        id then underIncident row else row := by
      simp [lockedAmong, hpasses]
    rw [hfirst]
    unfold lockedAmong
    by_cases hid : row.id = id
    · have hmem : row.id ∈ id :: ids ∧ (outcomes (.lockRecording row.id)).passes = true :=
        ⟨List.mem_cons.mpr (Or.inl hid), hpasses⟩
      rw [if_pos hid, if_pos hmem]
      split_ifs <;> rfl
    · rw [if_neg hid]
      simp only [List.mem_cons, hid, false_or]
  · have hkept : ∀ ids : List RecordingId, lockedAmong outcomes ids row = row :=
      fun ids ↦ if_neg fun h ↦ hpasses h.2
    rw [hkept, hkept, hkept]

/-- One link and one lock, however they end. -/
theorem eval_lockRecording (incident : Incident) (recording : Recording) :
    ∃ reached, eval answer (fun call _ ↦ outcomes call) (lockRecording incident recording) world =
        (.ok (), reached) ∧
      reached.recordings.rows =
          world.recordings.rows.map (lockedAmong outcomes [recording.id]) := by
  refine ⟨_, rfl, ?_⟩
  simp only [answer]
  generalize World.answerLink world.incidentRecordings (incident.id, recording.id)
    (outcomes (.linkRecording incident.id recording.id)) = linked
  have hnone : (outcomes (.lockRecording recording.id)).passes = false ∨
      (∀ row ∈ world.recordings.rows, row.id ≠ recording.id) →
        world.recordings.rows =
          world.recordings.rows.map (lockedAmong outcomes [recording.id]) := by
    intro hnone
    refine ((List.map_congr_left fun row hrow ↦ ?_).trans (List.map_id _)).symm
    refine if_neg ?_
    rintro ⟨hid, hpasses⟩
    obtain hid := List.mem_singleton.mp hid
    rcases hnone with hfails | habsent
    · rw [hid, hfails] at hpasses
      contradiction
    · exact habsent row hrow hid
  unfold World.answerLock
  split
  · next error hfails => exact hnone (Or.inl (by rw [hfails]; rfl))
  · next hpasses =>
    have hpasses : (outcomes (.lockRecording recording.id)).passes = true := by
      unfold Outcome.passes
      split
      · next error hfails => exact absurd hfails (hpasses error)
      · rfl
    split_ifs with hfind
    · refine List.map_congr_left fun row _ ↦ ?_
      unfold lockedAmong
      by_cases hid : row.id = recording.id
      · rw [if_pos hid, if_pos ⟨List.mem_singleton.mpr hid, hid ▸ hpasses⟩]
        rfl
      · rw [if_neg hid, if_neg fun h ↦ hid (List.mem_singleton.mp h.1)]
    · refine hnone (Or.inr (RecordingTable.find_eq_none_iff.mp ?_))
      simpa using hfind

/-- The locks of some segments, one after another. -/
theorem eval_lockRecordings (incident : Incident) (recordings : List Recording) :
    ∃ reached, eval answer (fun call _ ↦ outcomes call)
        (recordings.foldlM (fun _ recording ↦ lockRecording incident recording) ()) world =
          (.ok (), reached) ∧
      reached.recordings.rows =
        world.recordings.rows.map (lockedAmong outcomes (recordings.map Recording.id)) := by
  induction recordings generalizing world with
  | nil =>
    refine ⟨world, rfl, ?_⟩
    exact ((List.map_congr_left fun row _ ↦ if_neg (by simp)).trans (List.map_id _)).symm
  | cons recording recordings ih =>
    obtain ⟨middle, heval, hrows⟩ := eval_lockRecording outcomes world incident recording
    obtain ⟨reached, heval', hrows'⟩ := ih middle
    refine ⟨reached, ?_, ?_⟩
    · rw [List.foldlM_cons, bind_eq, eval_bind_of_ok answer _ heval]
      exact heval'
    · rw [hrows', hrows, List.map_map]
      exact List.map_congr_left fun row _ ↦ lockedAmong_lockedAmong outcomes _ _ row

/-- Linking events changes no recording. -/
theorem eval_linkEvents (incident : Incident) (events : List EventRecord) :
    ∃ reached, eval answer (fun call _ ↦ outcomes call) (events.foldlM (fun _ event ↦ do
        let _ ← call (.linkEvent incident.id event.id)
        pure ()) ()) world = (.ok (), reached) ∧ reached.recordings = world.recordings := by
  induction events generalizing world with
  | nil => exact ⟨world, rfl, rfl⟩
  | cons event events ih =>
    obtain ⟨reached, heval, hrecordings⟩ :=
      ih (answer (.linkEvent incident.id event.id) (outcomes (.linkEvent incident.id event.id))
        world).2
    exact ⟨reached, heval, hrecordings⟩

theorem orFail_cases {α : Type} (outcome : Outcome) (value : α) :
    (outcome.passes = true ∧ outcome.orFail value = .ok value) ∨
      outcome.passes = false ∧ ∃ error, outcome.orFail value = .error error := by
  cases outcome with
  | ok => exact Or.inl ⟨rfl, rfl⟩
  | fail error => exact Or.inr ⟨rfl, error, rfl⟩
  | recordings order => exact Or.inl ⟨rfl, rfl⟩
  | events order => exact Or.inl ⟨rfl, rfl⟩

theorem answerCreate_cases (data : CreateIncidentInput) (outcome : Outcome) :
    (outcome.passes = true ∧ ∃ incident reached,
        world.answerCreate data outcome = (.ok incident, reached) ∧
          reached.recordings = world.recordings) ∨
      outcome.passes = false ∧ ∃ error, world.answerCreate data outcome =
          (.error error, world) := by
  cases outcome with
  | ok => exact Or.inl ⟨rfl, _, _, rfl, rfl⟩
  | fail error => exact Or.inr ⟨rfl, error, rfl⟩
  | recordings order => exact Or.inl ⟨rfl, _, _, rfl, rfl⟩
  | events order => exact Or.inl ⟨rfl, _, _, rfl, rfl⟩

theorem listed_congr {world other : World} (hsame : other.recordings = world.recordings)
    (order : List RecordingId) : other.listed input order = world.listed input order := by
  unfold World.listed
  rw [hsame]

theorem mem_of_mem_listed {order : List RecordingId} {row : Recording}
    (hrow : row ∈ world.listed input order) :
    row ∈ world.recordings.rows ∧ input.overlaps row = true :=
  List.mem_filter.mp ((List.mem_insertionSort _).mp (List.mem_of_mem_take hrow))

/-- The calls that `createIncident` lets no failure of pass. -/
def Succeeds : Prop :=
  (outcomes (.createIncident input)).passes = true ∧ (outcomes (.findEvents input)).passes = true ∧
    (outcomes (.findRecordings input)).passes = true

/-- A segment after the incident. -/
def afterIncident (row : Recording) : Recording :=
  if Relocks input outcomes world row then underIncident row else row

theorem lockedAmong_listed {row : Recording} (hrow : row ∈ world.recordings.rows) :
    lockedAmong outcomes ((world.listed input
        (outcomes (.findRecordings input)).recordingOrder).map Recording.id) row =
      afterIncident input outcomes world row := by
  have hmem : row.id ∈ (world.listed input
      (outcomes (.findRecordings input)).recordingOrder).map Recording.id ↔
        row ∈ world.listed input (outcomes (.findRecordings input)).recordingOrder := by
    refine ⟨fun hid ↦ ?_, fun hlisted ↦ List.mem_map_of_mem hlisted⟩
    obtain ⟨other, hother, hid⟩ := List.mem_map.mp hid
    have hsame := RecordingTable.eq_of_id_eq (mem_of_mem_listed input world hother).1 hrow hid
    exact hsame ▸ hother
  unfold lockedAmong afterIncident
  exact if_congr (and_congr_left' hmem) rfl rfl

/-- An incident is created exactly when its creation and both listings go through, and then the
segments listed whose updates go through are under the INCIDENT tier and the others as they were. -/
theorem eval_createIncident :
    (Succeeds input outcomes ∧ ∃ created reached,
        eval answer (fun call _ ↦ outcomes call) (createIncident input) world =
          (.ok created, reached) ∧
        reached.recordings.rows =
          world.recordings.rows.map (afterIncident input outcomes world)) ∨
      ¬ Succeeds input outcomes ∧ ∃ error reached,
        eval answer (fun call _ ↦ outcomes call) (createIncident input) world =
          (.error error, reached) := by
  unfold createIncident Succeeds
  simp only [call, bind_eq, request_bind, eval_await]
  rcases answerCreate_cases world input (outcomes (.createIncident input)) with
    ⟨hcreate, incident, created, hanswer, hrecordings⟩ | ⟨hcreate, error, hanswer⟩
  · simp only [answer, hanswer, orThrow_ok, done_bind, eval_await]
    rcases orFail_cases (outcomes (.findEvents input)) ((arrange EventRecord.id
        (outcomes (.findEvents input)).eventOrder
          (created.events.filter input.correlates)).take pageLimit) with
      ⟨hevents, hlisted⟩ | ⟨hevents, error, hlisted⟩
    · simp only [hlisted, orThrow_ok, done_bind]
      generalize (arrange EventRecord.id (outcomes (.findEvents input)).eventOrder
        (created.events.filter input.correlates)).take pageLimit = events
      obtain ⟨linked, hlink, hlinked⟩ := eval_linkEvents outcomes created incident events
      simp only [call, bind_eq, request_bind] at hlink
      rw [eval_bind_of_ok answer _ hlink]
      have hsame : linked.recordings = world.recordings := hlinked.trans hrecordings
      simp only [eval_await, answer, listed_congr input hsame]
      rcases orFail_cases (outcomes (.findRecordings input)) (world.listed input
          (outcomes (.findRecordings input)).recordingOrder) with
        ⟨hrows, hlisted⟩ | ⟨hrows, error, hlisted⟩
      · simp only [hlisted, orThrow_ok, done_bind]
        obtain ⟨reached, hlock, hlocked⟩ := eval_lockRecordings outcomes linked incident
          (world.listed input (outcomes (.findRecordings input)).recordingOrder)
        rw [eval_bind_of_ok answer _ hlock]
        refine Or.inl ⟨⟨hcreate, hevents, hrows⟩, _, _, rfl, ?_⟩
        refine hlocked.trans ?_
        rw [hsame]
        exact List.map_congr_left fun row hrow ↦ lockedAmong_listed input outcomes world hrow
      · simp only [hlisted, orThrow_error, failed_bind, eval_failed]
        refine Or.inr ⟨?_, error, _, rfl⟩
        simp [hrows]
    · simp only [hlisted, orThrow_error, failed_bind, eval_failed]
      refine Or.inr ⟨?_, error, _, rfl⟩
      simp [hevents]
  · simp only [answer, hanswer, orThrow_error, failed_bind, eval_failed]
    refine Or.inr ⟨?_, error, _, rfl⟩
    simp [hcreate]

/-! ### What the incident keeps -/

/-- Of two states of a segment, the later one is under a hold if the earlier is and lives no shorter
under any policy. -/
def NotWeaker (before after : Recording) : Prop :=
  (RetentionPolicy.isLegalHold before = true → RetentionPolicy.isLegalHold after = true) ∧
    ∀ policy : RetentionPolicy, policy.lifetimeMs none before ≤ policy.lifetimeMs none after

/-- A segment that was catalogued and overlaps the window, for the camera of the incident. -/
def InWindow (row : Recording) : Prop :=
  input.overlaps row = true ∧ (row.status = .available ∨ row.status = .buffered)

/-- Once the incident is created, no pass deletes a segment of the window, wherever its file is on
the disk, and no segment is protected less than before. -/
def KeepsEvidence : Prop :=
  ∀ created after, eval answer (fun call _ ↦ outcomes call) (createIncident input) world =
      (.ok created, after) →
    ∀ row ∈ world.recordings.rows, ∃ kept ∈ after.recordings.rows, kept.id = row.id ∧
      NotWeaker row kept ∧
      (InWindow input row → ∀ store : Recordings.World, store.recordings = after.recordings →
        store.onDisk kept.filePath = true → KeptFrom kept store)

/-- No segment of the window is in the motion buffer, those that are not kept already are locked,
and no segment that is locked is under the PROTECTED tier alone. -/
structure CoversWindow : Prop where
  inWindow : ∀ row ∈ world.recordings.rows, InWindow input row → row.status ≠ .buffered ∧
    (Relocks input outcomes world row ∨ row.retentionTier = .incident ∨
      RetentionPolicy.isLegalHold row = true)
  locked : ∀ row ∈ world.recordings.rows, Relocks input outcomes world row →
    row.retentionTier = .protectedTier → row.isProtected = true

variable {input outcomes world}

/-- What an incident does to the protection of a segment. -/
theorem notWeaker_afterIncident_iff (row : Recording) :
    NotWeaker row (afterIncident input outcomes world row) ↔
      (Relocks input outcomes world row → row.retentionTier = .protectedTier →
        row.isProtected = true) := by
  unfold afterIncident
  split_ifs with hlock
  · have hlifetime : ∀ policy : RetentionPolicy,
        policy.lifetimeMs none row ≤ policy.lifetimeMs none (underIncident row) := by
      intro policy
      have hday : 0 ≤ dayMs := by decide
      refine Int.mul_le_mul_of_nonneg_right ?_ hday
      simp only [Option.getD_none, underIncident, RetentionPolicy.getDays]
      split <;> omega
    refine ⟨fun hweaker _ htier ↦ ?_, fun hprotected ↦ ⟨fun hhold ↦ ?_, hlifetime⟩⟩
    · have hhold : RetentionPolicy.isLegalHold row = true := by
        simp [RetentionPolicy.isLegalHold, htier]
      simpa [RetentionPolicy.isLegalHold, underIncident] using hweaker.1 hhold
    · have hrow : row.isProtected = true := by
        rcases (Bool.or_eq_true _ _).mp hhold with hrow | htier
        · exact hrow
        · exact hprotected hlock (of_decide_eq_true htier)
      simp [RetentionPolicy.isLegalHold, underIncident, hrow]
  · exact ⟨fun _ hlocks ↦ absurd hlocks hlock, fun _ ↦ ⟨fun hhold ↦ hhold, fun _ ↦ le_refl _⟩⟩

/-- What an incident makes evidence of. -/
theorem isEvidence_afterIncident_iff (row : Recording) :
    IsEvidence (afterIncident input outcomes world row) ↔ row.status ≠ .buffered ∧
      (Relocks input outcomes world row ∨ row.retentionTier = .incident ∨
        RetentionPolicy.isLegalHold row = true) := by
  unfold afterIncident IsEvidence
  split_ifs with hlock
  · simp [underIncident, hlock]
  · simp [hlock]

theorem afterIncident_id (row : Recording) :
    (afterIncident input outcomes world row).id = row.id := by
  unfold afterIncident
  split_ifs <;> rfl

/-- A store with a catalogue and one file. -/
def storeWith (recordings : RecordingTable) (path : Path) : Recordings.World where
  recordings := recordings
  files := [{ path, size := 0, mtimeMs := 0 }]

theorem onDisk_storeWith (recordings : RecordingTable) (path : Path) :
    (storeWith recordings path).onDisk path = true :=
  World.onDisk_iff.mpr ⟨_, List.mem_singleton_self _, rfl⟩

/-- An incident that is created keeps what it should exactly when it covers its window. -/
theorem keepsEvidence_of_covers (hcovers : CoversWindow input outcomes world) :
    KeepsEvidence input outcomes world := by
  intro created after heval row hrow
  rcases eval_createIncident input outcomes world with
    ⟨-, created', reached, heval', hrows⟩ | ⟨-, error, reached, heval'⟩
  · obtain rfl : reached = after := (Prod.mk.inj (heval'.symm.trans heval)).2
    have hkept : afterIncident input outcomes world row ∈ reached.recordings.rows :=
      hrows ▸ List.mem_map_of_mem hrow
    refine ⟨_, hkept, afterIncident_id row, ?_, fun hwindow store hstore hdisk ↦ ?_⟩
    · exact (notWeaker_afterIncident_iff row).mpr (hcovers.locked row hrow)
    · have hstands : Standing (afterIncident input outcomes world row) store :=
        ⟨hstore ▸ hkept, hdisk⟩
      exact ((isEvidence_afterIncident_iff row).mpr (hcovers.inWindow row hrow hwindow)).keptFrom
        hstands
  · rw [heval'] at heval
    cases heval

theorem covers_of_keepsEvidence (hsucceeds : Succeeds input outcomes)
    (hkeeps : KeepsEvidence input outcomes world) : CoversWindow input outcomes world := by
  rcases eval_createIncident input outcomes world with
    ⟨-, created, after, heval, hrows⟩ | ⟨hfails, -⟩
  · have hkept : ∀ row ∈ world.recordings.rows, ∃ kept ∈ after.recordings.rows,
        kept = afterIncident input outcomes world row ∧ NotWeaker row kept ∧
          (InWindow input row → ∀ store : Recordings.World, store.recordings = after.recordings →
            store.onDisk kept.filePath = true → KeptFrom kept store) := by
      intro row hrow
      obtain ⟨kept, hmem, hid, hrest⟩ := hkeeps created after heval row hrow
      refine ⟨kept, hmem, ?_, hrest⟩
      have hafter : afterIncident input outcomes world row ∈ after.recordings.rows :=
        hrows ▸ List.mem_map_of_mem hrow
      exact RecordingTable.eq_of_id_eq hmem hafter (hid.trans (afterIncident_id row).symm)
    constructor
    · intro row hrow hwindow
      obtain ⟨kept, hmem, rfl, -, hevidence⟩ := hkept row hrow
      let store := storeWith after.recordings (afterIncident input outcomes world row).filePath
      have hdisk : store.onDisk (afterIncident input outcomes world row).filePath = true :=
        onDisk_storeWith _ _
      exact (isEvidence_afterIncident_iff row).mp
        ((keptFrom_iff ⟨hmem, hdisk⟩).mp (hevidence hwindow store rfl hdisk))
    · intro row hrow
      obtain ⟨kept, -, rfl, hweaker, -⟩ := hkept row hrow
      exact (notWeaker_afterIncident_iff row).mp hweaker
  · exact absurd hsucceeds hfails

variable (input outcomes world) in
/-- An incident keeps what it should exactly when it is not created or covers its window. -/
theorem keepsEvidence_iff :
    KeepsEvidence input outcomes world ↔
      (Succeeds input outcomes → CoversWindow input outcomes world) := by
  constructor
  · exact fun hkeeps hsucceeds ↦ covers_of_keepsEvidence hsucceeds hkeeps
  · intro hcovers
    by_cases hsucceeds : Succeeds input outcomes
    · exact keepsEvidence_of_covers (hcovers hsucceeds)
    · intro created after heval
      rcases eval_createIncident input outcomes world with ⟨hsuccess, -⟩ | ⟨-, error,
        reached, heval'⟩
      · exact absurd hsuccess hsucceeds
      · rw [heval'] at heval
        cases heval

end Creation

/-! ### A segment in the motion buffer -/

/-- An intrusion of five seconds in front of a camera. -/
def intrusion : CreateIncidentInput where
  title := "Intrusion"
  primaryCameraId := some "cam"
  startTime := 1000
  endTime := 6000

/-- A segment of that time that waits in the motion buffer. -/
def bufferedWorld : World where
  recordings := (onlyRow { yardSegment with status := .buffered } 0).recordings

/-- The incident puts the segment under its tier and leaves it in the motion buffer, which deletes
it. -/
theorem not_keepsEvidence_buffered : ¬ KeepsEvidence intrusion (fun _ ↦ .ok) bufferedWorld := by
  intro hkeeps
  have hcovers := covers_of_keepsEvidence ⟨rfl, rfl, rfl⟩ hkeeps
  obtain ⟨hbuffered, -⟩ := hcovers.inWindow { yardSegment with status := .buffered }
    (List.mem_singleton_self _) ⟨by decide, Or.inr rfl⟩
  exact hbuffered rfl

end VmsLite.Incidents
