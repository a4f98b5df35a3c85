import VmsLite.Analysis.ProcessingJobQueue

/-!
# The analysis of segments

`handleSegmentCreated` of the `AiPipelineCoordinator`: for each worker it enqueues a job, lets the
worker analyse the segment, saves what was detected, completes the job and emits an event; an error
on the way fails the job. It throws nothing whatever fails, so every worker gets its turn. The
counters of the coordinator are left out: nothing reads them but a request for them.
-/

set_option autoImplicit false

namespace VmsLite.Analysis

open VmsLite.Async Program
open Recordings (RecordingId Failure)

/-! ### The coordinator -/

/-- What an `IAiWorker` is known by. -/
structure AiWorker where
  name : String
  version : String
  deriving DecidableEq, Repr

/-- The job type of a worker. -/
def jobTypeOf (name : String) : String := "ai." ++ name

structure AiPipelineCoordinator where
  workers : List AiWorker
  /-- Workers are registered under their names. -/
  names_nodup : (workers.map AiWorker.name).Nodup
  jobQueue : Bool := true
  detectionRepository : Bool := true

/-- A row of `saveDetections`. -/
def AiDetectionItem.toDetection (segment : SegmentCreated) (modelVersion : String)
    (item : AiDetectionItem) : Detection where
  recordingId := segment.recordingId
  cameraId := segment.cameraId
  siteId := segment.siteId
  timestamp := segment.startTime + item.timestampOffsetMs
  label := item.label
  confidence := item.confidence
  bbox := item.boundingBox
  trackId := if item.id = "" then none else some item.id
  modelVersion := modelVersion

def saveDetections (segment : SegmentCreated) (result : AiSegmentAnalysisResult) : Async Unit :=
  result.detections.foldlM
    (fun _ item ↦ do
      let () ← orThrow (← call (.createDetection (item.toDetection segment result.modelVersion)))
      pure ()) ()

def notReady (worker : AiWorker) : Failure where
  code := .other
  message := "Worker " ++ worker.name ++ " is not ready"

/-- `err?.message || String(err)`. -/
def errorText (error : Failure) : String := if error.message = "" then "Error" else error.message

namespace AiPipelineCoordinator

variable (coordinator : AiPipelineCoordinator) (segment : SegmentCreated) (worker : AiWorker)

/-- The id of the job, unless there is no queue or it could not be enqueued. -/
def enqueueJob : Async (Option JobId) :=
  if coordinator.jobQueue then
    catching
      (do
        let job ← enqueue
          { recordingId := segment.recordingId
            jobType := jobTypeOf worker.name
            modelVersion := some worker.version }
        pure (some job.id))
      fun _ ↦ pure none
  else pure none

/-- The worker's analysis. -/
def analyse : Async AiSegmentAnalysisResult := do
  let ready ← orThrow (← call (.isReady worker.name))
  if ready then orThrow (← call (.processSegment worker.name segment))
  else failed (notReady worker)

/-- Saves what was detected. -/
def saveResult (result : AiSegmentAnalysisResult) : Async Unit :=
  if coordinator.detectionRepository && !result.detections.isEmpty then saveDetections
    segment result
  else pure ()

/-- Marks the durable job completed. -/
def completeJob (jobId : Option JobId) (result : AiSegmentAnalysisResult) : Async Unit :=
  match jobId with
  | some jobId => complete jobId (some result.modelVersion)
  | none => pure ()

/-- Emits the downstream event. -/
def emitResult (result : AiSegmentAnalysisResult) : Async Unit :=
  if !result.detections.isEmpty then do
    orThrow (← call (.emitEvent { worker := worker.name, segment, result }))
  else pure ()

/-- What is done with a result. -/
def deliverResult (jobId : Option JobId) (result : AiSegmentAnalysisResult) : Async Unit := do
  let () ← coordinator.saveResult segment result
  let () ← completeJob jobId result
  emitResult segment worker result

/-- Records a failure in the queue. -/
def recordFailure (jobId : Option JobId) (error : Failure) : Async Unit :=
  match jobId with
  | some jobId =>
    catching ((fail jobId (errorText error)).bind fun _ ↦ done ()) fun _ ↦ pure ()
  | none => pure ()

/-- One worker's turn. Its result counts once the worker has returned it, whatever fails after. -/
def runWorker (results : List AiSegmentAnalysisResult) : Async (List AiSegmentAnalysisResult) := do
  let jobId ← coordinator.enqueueJob segment worker
  let analysed ← catching
    (do
      let result ← analyse segment worker
      pure (some result))
    fun error ↦ do
      let () ← recordFailure jobId error
      pure none
  match analysed with
  | none => pure results
  | some result => do
    let () ← catching (coordinator.deliverResult segment worker jobId result) (recordFailure jobId)
    pure (results ++ [result])

def handleSegmentCreated : Async (List AiSegmentAnalysisResult) :=
  coordinator.workers.foldlM (fun results worker ↦ coordinator.runWorker segment worker results) []

/-! ### A delivery throws nothing -/

theorem recordFailure_returns (jobId : Option JobId) (error : Failure) :
    (recordFailure jobId error).Returns fun _ _ ↦ True := by
  cases jobId with
  | none => trivial
  | some jobId => exact Returns.catching fun _ ↦ trivial

theorem runWorker_returns (results : List AiSegmentAnalysisResult) :
    (coordinator.runWorker segment worker results).Returns fun _ _ ↦ True := by
  have henqueue : (coordinator.enqueueJob segment worker).Returns fun _ _ ↦ True := by
    unfold enqueueJob
    split_ifs
    · exact Returns.catching fun _ ↦ trivial
    · trivial
  refine Returns.bind henqueue fun jobId ↦
    Returns.bind (Returns.catching fun error ↦ ?_) fun analysed ↦ ?_
  · exact Returns.bind (recordFailure_returns jobId error) fun _ ↦ trivial
  · cases analysed with
    | none => trivial
    | some result =>
      exact Returns.bind (Returns.catching (recordFailure_returns jobId)) fun _ ↦ trivial

theorem handleSegmentCreated_returns :
    (coordinator.handleSegmentCreated segment).Returns fun _ _ ↦ True :=
  Returns.foldlM fun results worker ↦ coordinator.runWorker_returns segment worker results

/-! ### Turns -/

/-- A delivery whose calls carry the recording and the worker they are made for. -/
def handleLabelled :
    Program ((RecordingId × String) × Call) (fun call ↦ Reply call.2) Failure
      (List AiSegmentAnalysisResult) :=
  coordinator.workers.foldlM
    (fun results worker ↦
      (coordinator.runWorker segment worker results).labelled (segment.recordingId, worker.name)) []

theorem unlabelled_handleLabelled :
    (coordinator.handleLabelled segment).unlabelled = coordinator.handleSegmentCreated segment := by
  unfold handleLabelled
  rw [unlabelled_foldlM]
  simp only [unlabelled_labelled]
  rfl

end AiPipelineCoordinator

end VmsLite.Analysis
