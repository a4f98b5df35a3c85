import Mathlib.Algebra.Order.Round
import Mathlib.Data.Rat.Floor
import VmsLite.Async.Transition
import VmsLite.Data.Positions
import VmsLite.Webhooks.UrlSafety

/-!
# The queue of webhook deliveries

`WebhookDispatcherService` as a state machine. `enqueueEvent`, the timer, and each of the two
callbacks on a finished attempt run without interruption, and any order of them is a run; between
them the awaited calls of the attempts are answered. A job object is a `Ticket`: its number is the
identity that the source has as the object itself. What the service has accepted, what has left it
and what has happened to each job are recorded, and no branch reads the record.

At most `maxConcurrentDeliveries` deliveries are ever in flight, and the counter counts them. The
queue is bounded by `maxQueueDepth` exactly as long as no failed job is put back into a full queue
(`isBounded_iff`).
-/

set_option autoImplicit false

namespace VmsLite.Webhooks

open Async

def maxQueueDepth : ℕ := 500

def maxConcurrentDeliveries : ℕ := 5

/-! ### The state -/

structure Ticket where
  number : ℕ
  job : QueuedWebhookJob

/-- A delivery from its start until its `finally` has run. -/
structure Delivery where
  ticket : Ticket
  /-- What is left of the attempt, and `none` after its result has been dealt with. -/
  rest : Option (Async DeliveryResult)
  record : AttemptRecord

/-- What happens to a job. -/
inductive JobEvent
  | started (now : ℤ)
  /-- An attempt has ended; a job that is put back has a time to wait for. -/
  | ended (record : AttemptRecord) (nextAttemptTime : Option ℤ)

structure WebhookDispatcherService where
  queue : List Ticket := []
  activeDeliveries : ℤ := 0
  deliveries : List Delivery := []
  /-- Every job as it was accepted, by number. -/
  accepted : List QueuedWebhookJob := []
  left : List ℕ := []
  history : List (ℕ × JobEvent) := []

/-! ### The operations -/

structure WebhookEndpoint where
  id : String
  name : String
  url : String
  secret : String

structure WebhookEvent where
  id : String
  type : String
  timestamp : Option ℤ
  cameraId : Option String
  metadata : Option Data.Json

/-- The job that `enqueueEvent` makes, its clock reading `created`. -/
def newJob (endpoint : WebhookEndpoint) (event : WebhookEvent) (deliveryId : String) (created : ℤ) :
    QueuedWebhookJob where
  deliveryId := deliveryId
  endpointId := endpoint.id
  endpointName := endpoint.name
  url := endpoint.url
  secret := endpoint.secret
  eventType := event.type
  payload := {
    eventId := if event.id = "" then s!"evt-{created}" else event.id
    eventType := event.type
    timestamp := event.timestamp.getD created
    cameraId := event.cameraId.filter (· ≠ "")
    data := event.metadata.getD (.object []) }
  attempts := 0
  maxAttempts := 3
  nextAttemptTime := created

/-- The wait before the next attempt, for a random number between 0 and 1. -/
def retryDelay (attempts : ℕ) (random : ℚ) : ℤ :=
  let baseDelay : ℚ := 2 ^ attempts * 1000
  let jitter := (random * (2 / 5) - 1 / 5) * baseDelay
  max 500 (round (baseDelay + jitter))

/-- Whether a job is put back after an attempt with this result. -/
def isRetried (job : QueuedWebhookJob) (result : DeliveryResult) : Bool :=
  !result.success && !result.status.any isTerminal && job.attempts < job.maxAttempts

namespace WebhookDispatcherService

variable (platform : Platform)

/-- A delivery at its start, run up to its first real `await`. -/
def begin (ticket : Ticket) : Delivery :=
  let executed := executeDelivery platform ticket.job
  let settled := platform.machine.settle executed.2 {}
  { ticket := { ticket with job := executed.1 }, rest := some settled.1, record := settled.2 }

/-- One round of the loop in `processQueue`: the first job whose time has come is taken out of the
queue, and its delivery started. -/
def start (ticket : Ticket) (now : ℤ) (service : WebhookDispatcherService) :
    WebhookDispatcherService :=
  { service with
    queue := service.queue.eraseP fun waiting ↦ waiting.job.nextAttemptTime ≤ now
    activeDeliveries := service.activeDeliveries + 1
    deliveries := service.deliveries ++ [begin platform ticket]
    history := service.history ++ [(ticket.number, .started now)] }

/-- The loop in `processQueue`. Every round takes a job out of the queue, so there are no more
rounds than jobs. -/
def drain (now : ℤ) : ℕ → WebhookDispatcherService → WebhookDispatcherService
  | 0, service => service
  | rounds + 1, service =>
    if service.activeDeliveries < maxConcurrentDeliveries then
      match service.queue.find? fun waiting ↦ waiting.job.nextAttemptTime ≤ now with
      | none => service
      | some ticket => drain now rounds (service.start platform ticket now)
    else service

def processQueue (now : ℤ) (service : WebhookDispatcherService) : WebhookDispatcherService :=
  service.drain platform now service.queue.length

def push (job : QueuedWebhookJob) (service : WebhookDispatcherService) : WebhookDispatcherService :=
  { service with
    queue := service.queue ++ [{ number := service.accepted.length, job }]
    accepted := service.accepted ++ [job] }

def enqueueEvent (job : QueuedWebhookJob) (now : ℤ) (service : WebhookDispatcherService) :
    WebhookDispatcherService :=
  if maxQueueDepth ≤ service.queue.length then service
  else (service.push job).processQueue platform now

/-- The awaited call of an attempt is answered. -/
def answer (index : ℕ) (network : Outcome) (service : WebhookDispatcherService) :
    WebhookDispatcherService :=
  match service.deliveries[index]? with
  | some { ticket, rest := some program, record } =>
    let resumed := platform.machine.resume network program record
    { service with
      deliveries := service.deliveries.set index
        { ticket, rest := some resumed.1, record := resumed.2 } }
  | _ => service

/-- The callback on the result of an attempt: the job is put back, or it is done with. -/
def conclude (index : ℕ) (now : ℤ) (random : ℚ) (service : WebhookDispatcherService) :
    WebhookDispatcherService :=
  match service.deliveries[index]? with
  | some { ticket, rest := some (.done result), record } =>
    let deliveries := service.deliveries.set index { ticket, rest := none, record }
    if isRetried ticket.job result then
      let nextAttemptTime := now + retryDelay ticket.job.attempts random
      { service with
        queue := service.queue ++ [{ ticket with job := { ticket.job with nextAttemptTime } }]
        deliveries
        history := service.history ++ [(ticket.number, .ended record (some nextAttemptTime))] }
    else
      { service with
        deliveries
        left := service.left ++ [ticket.number]
        history := service.history ++ [(ticket.number, .ended record none)] }
  | _ => service

/-- The `finally` of a delivery. -/
def release (index : ℕ) (now : ℤ) (service : WebhookDispatcherService) : WebhookDispatcherService :=
  match service.deliveries[index]? with
  | some { rest := none, .. } =>
    { service with
      deliveries := service.deliveries.eraseIdx index
      activeDeliveries := service.activeDeliveries - 1 }.processQueue platform now
  | _ => service

end WebhookDispatcherService

/-- A move of the service. The identifiers, clock readings and random numbers are any at all. -/
inductive Move
  | enqueueEvent (endpoint : WebhookEndpoint) (event : WebhookEvent) (deliveryId : String)
      (created now : ℤ)
  | tick (now : ℤ)
  | answer (index : ℕ) (network : Outcome)
  | conclude (index : ℕ) (now : ℤ) (random : ℚ)
  | release (index : ℕ) (now : ℤ)

open WebhookDispatcherService in
def next (platform : Platform) (service : WebhookDispatcherService) :
    Move → WebhookDispatcherService
  | .enqueueEvent endpoint event deliveryId created now =>
    service.enqueueEvent platform (newJob endpoint event deliveryId created) now
  | .tick now => service.processQueue platform now
  | .answer index network => service.answer platform index network
  | .conclude index now random => service.conclude index now random
  | .release index now => service.release platform index now

/-! ### Moves as small steps -/

namespace WebhookDispatcherService

variable {platform : Platform} {service : WebhookDispatcherService}

/-- The small steps that the moves are made of. -/
inductive Step (platform : Platform) : WebhookDispatcherService → WebhookDispatcherService → Prop
  | start {service : WebhookDispatcherService} {before after : List Ticket}
    {ticket : Ticket} {now : ℤ}
      (hqueue : service.queue = before ++ ticket :: after)
      (hslot : service.activeDeliveries < maxConcurrentDeliveries)
      (hready : ticket.job.nextAttemptTime ≤ now) :
      Step platform service { service with
        queue := before ++ after
        activeDeliveries := service.activeDeliveries + 1
        deliveries := service.deliveries ++ [begin platform ticket]
        history := service.history ++ [(ticket.number, .started now)] }
  | push {service : WebhookDispatcherService} (endpoint : WebhookEndpoint) (event : WebhookEvent)
      (deliveryId : String) (created : ℤ) (hroom : service.queue.length < maxQueueDepth) :
      Step platform service (service.push (newJob endpoint event deliveryId created))
  | answer {service : WebhookDispatcherService} {before after : List Delivery} {ticket : Ticket}
      {program : Async DeliveryResult} {record : AttemptRecord} (network : Outcome)
      (hdeliveries : service.deliveries = before ++ ⟨ticket, some program, record⟩ :: after) :
      Step platform service { service with
        deliveries := before ++ ⟨ticket, some (platform.machine.resume network program record).1,
          (platform.machine.resume network program record).2⟩ :: after }
  | putBack {service : WebhookDispatcherService} {before after : List Delivery} {ticket : Ticket}
      {result : DeliveryResult} {record : AttemptRecord} (now : ℤ) (random : ℚ)
      (hdeliveries : service.deliveries = before ++ ⟨ticket, some (.done result), record⟩ :: after)
      (hretried : isRetried ticket.job result = true) :
      Step platform service { service with
        queue := service.queue ++ [{ ticket with job := { ticket.job with
          nextAttemptTime := now + retryDelay ticket.job.attempts random } }]
        deliveries := before ++ ⟨ticket, none, record⟩ :: after
        history := service.history ++ [(ticket.number,
          .ended record (some (now + retryDelay ticket.job.attempts random)))] }
  | finish {service : WebhookDispatcherService} {before after : List Delivery} {ticket : Ticket}
      {result : DeliveryResult} {record : AttemptRecord}
      (hdeliveries : service.deliveries = before ++ ⟨ticket, some (.done result), record⟩ :: after)
      (hretried : isRetried ticket.job result = false) :
      Step platform service { service with
        deliveries := before ++ ⟨ticket, none, record⟩ :: after
        left := service.left ++ [ticket.number]
        history := service.history ++ [(ticket.number, .ended record none)] }
  | release {service : WebhookDispatcherService} {before after : List Delivery} {ticket : Ticket}
      {record : AttemptRecord}
      (hdeliveries : service.deliveries = before ++ ⟨ticket, none, record⟩ :: after) :
      Step platform service { service with
        deliveries := before ++ after
        activeDeliveries := service.activeDeliveries - 1 }

/-- Any number of small steps. -/
abbrev Steps (platform : Platform) : WebhookDispatcherService → WebhookDispatcherService → Prop :=
  Relation.ReflTransGen (Step platform)

theorem step_start {ticket : Ticket} {now : ℤ}
    (hslot : service.activeDeliveries < maxConcurrentDeliveries)
    (hfound : service.queue.find? (fun waiting ↦ waiting.job.nextAttemptTime ≤ now) = some ticket) :
    Step platform service (service.start platform ticket now) := by
  obtain ⟨hready, before, after, hqueue, hbefore⟩ := List.find?_eq_some_iff_append.mp hfound
  have herased : service.queue.eraseP (fun waiting ↦ waiting.job.nextAttemptTime ≤ now) =
      before ++ after := by
    have hskip : ∀ waiting ∈ before, ¬ decide (waiting.job.nextAttemptTime ≤ now) = true := by
      intro waiting hmem hdue
      simpa [hdue] using hbefore waiting hmem
    rw [hqueue, List.eraseP_append_right _ hskip]
    exact congrArg (before ++ ·) (List.eraseP_cons_of_pos (p := _) hready)
  unfold start
  rw [herased]
  exact .start hqueue hslot (of_decide_eq_true hready)

theorem steps_drain (now : ℤ) (rounds : ℕ) (service : WebhookDispatcherService) :
    Steps platform service (service.drain platform now rounds) := by
  induction rounds generalizing service with
  | zero => exact .refl
  | succ rounds ih =>
    unfold drain
    split_ifs with hslot
    · cases hfound : service.queue.find? fun waiting ↦ waiting.job.nextAttemptTime ≤ now with
      | none => exact .refl
      | some ticket => exact .head (step_start hslot hfound) (ih _)
    · exact .refl

theorem steps_processQueue (now : ℤ) (service : WebhookDispatcherService) :
    Steps platform service (service.processQueue platform now) :=
  steps_drain now _ service

theorem steps_enqueueEvent (endpoint : WebhookEndpoint) (event : WebhookEvent)
    (deliveryId : String) (created now : ℤ) :
    Steps platform service
      (service.enqueueEvent platform (newJob endpoint event deliveryId created) now) := by
  unfold enqueueEvent
  split_ifs with hfull
  · exact .refl
  · exact .head (.push endpoint event deliveryId created (not_le.mp hfull))
      (steps_processQueue now _)

theorem steps_answer (index : ℕ) (network : Outcome) :
    Steps platform service (service.answer platform index network) := by
  unfold WebhookDispatcherService.answer
  split
  · rename_i ticket program record hdelivery
    obtain ⟨before, after, hdeliveries, rfl⟩ := Data.split_of_getElem? hdelivery
    refine .single ?_
    simp only [hdeliveries, Data.set_split]
    exact .answer network hdeliveries
  · exact .refl

theorem steps_conclude (index : ℕ) (now : ℤ) (random : ℚ) :
    Steps platform service (service.conclude index now random) := by
  unfold conclude
  split
  · rename_i ticket result record hdelivery
    obtain ⟨before, after, hdeliveries, rfl⟩ := Data.split_of_getElem? hdelivery
    refine .single ?_
    simp only [hdeliveries, Data.set_split]
    split_ifs with hretried
    · exact .putBack now random hdeliveries hretried
    · exact .finish hdeliveries (Bool.eq_false_iff.mpr hretried)
  · exact .refl

theorem steps_release (index : ℕ) (now : ℤ) :
    Steps platform service (service.release platform index now) := by
  unfold release
  split
  · rename_i ticket record hdelivery
    obtain ⟨before, after, hdeliveries, rfl⟩ := Data.split_of_getElem? hdelivery
    refine .head ?_ (steps_processQueue now _)
    simp only [hdeliveries, Data.eraseIdx_split]
    exact .release hdeliveries
  · exact .refl

/-- Every move is made of small steps. -/
theorem steps_next (service : WebhookDispatcherService) (move : Move) :
    Steps platform service (next platform service move) := by
  cases move with
  | enqueueEvent endpoint event deliveryId created now =>
    exact steps_enqueueEvent endpoint event deliveryId created now
  | tick now => exact steps_processQueue now service
  | answer index network => exact steps_answer index network
  | conclude index now random => exact steps_conclude index now random
  | release index now => exact steps_release index now

/-- What every small step keeps holds after every run. -/
theorem kept_run {kept : WebhookDispatcherService → Prop}
    (hstep : ∀ before after, Step platform before after → kept before → kept after)
    (hkept : kept service) (moves : List Move) :
    kept (runMoves (next platform) service moves) := by
  induction moves generalizing service with
  | nil => exact hkept
  | cons move moves ih =>
    have hnext : kept (next platform service move) :=
      Relation.ReflTransGen.rec (motive := fun reached _ ↦ kept reached) hkept
        (fun _ hone hreached ↦ hstep _ _ hone hreached) (steps_next service move)
    exact ih hnext

/-- The loop ends for want of a slot or of a job whose time has come. -/
theorem drain_saturates (now : ℤ) (rounds : ℕ) (service : WebhookDispatcherService)
    (hrounds : service.queue.length ≤ rounds) :
    maxConcurrentDeliveries ≤ (service.drain platform now rounds).activeDeliveries ∨
      ∀ ticket ∈ (service.drain platform now rounds).queue, now < ticket.job.nextAttemptTime := by
  induction rounds generalizing service with
  | zero =>
    refine Or.inr fun ticket hmem ↦ ?_
    rw [drain, List.eq_nil_of_length_eq_zero (Nat.le_zero.mp hrounds)] at hmem
    exact absurd hmem List.not_mem_nil
  | succ rounds ih =>
    unfold drain
    split_ifs with hslot
    · cases hfound : service.queue.find? fun waiting ↦ waiting.job.nextAttemptTime ≤ now with
      | none =>
        refine Or.inr fun ticket hmem ↦ ?_
        simpa using List.find?_eq_none.mp hfound ticket hmem
      | some ticket =>
        refine ih (service.start platform ticket now) ?_
        have hlength := List.length_eraseP_of_mem (List.mem_of_find?_eq_some hfound)
          (List.find?_some hfound)
        unfold start
        rw [hlength]
        omega
    · exact Or.inl (not_lt.mp hslot)

/-- After the loop every slot is taken, or no waiting job is due. -/
theorem processQueue_saturates (now : ℤ) (service : WebhookDispatcherService) :
    maxConcurrentDeliveries ≤ (service.processQueue platform now).activeDeliveries ∨
      ∀ ticket ∈ (service.processQueue platform now).queue, now < ticket.job.nextAttemptTime :=
  drain_saturates now _ service le_rfl

/-! ### The bounds -/

/-- The counter counts the deliveries in flight, and there is room for each of them. -/
def IsCounted (service : WebhookDispatcherService) : Prop :=
  service.activeDeliveries = service.deliveries.length ∧
    service.deliveries.length ≤ maxConcurrentDeliveries

theorem isCounted_step {before after : WebhookDispatcherService}
    (hstep : Step platform before after)
    (hcounted : before.IsCounted) : after.IsCounted := by
  unfold IsCounted at hcounted ⊢
  obtain ⟨hcount, hroom⟩ := hcounted
  cases hstep with
  | start hqueue hslot hready =>
    rw [List.length_append, List.length_singleton]
    refine ⟨?_, by omega⟩
    change before.activeDeliveries + 1 = _
    push_cast
    rw [hcount]
  | push endpoint event deliveryId created hfree => exact ⟨hcount, hroom⟩
  | answer network hdeliveries =>
    rw [hdeliveries] at hcount hroom
    simp only [List.length_append, List.length_cons] at hcount hroom ⊢
    exact ⟨hcount, hroom⟩
  | putBack now random hdeliveries hretried =>
    rw [hdeliveries] at hcount hroom
    simp only [List.length_append, List.length_cons] at hcount hroom ⊢
    exact ⟨hcount, hroom⟩
  | finish hdeliveries hretried =>
    rw [hdeliveries] at hcount hroom
    simp only [List.length_append, List.length_cons] at hcount hroom ⊢
    exact ⟨hcount, hroom⟩
  | release hdeliveries =>
    rw [hdeliveries] at hcount hroom
    simp only [List.length_append, List.length_cons] at hcount hroom ⊢
    refine ⟨?_, by omega⟩
    push_cast at hcount ⊢
    linarith

/-- The queue and the number of deliveries in flight are bounded, and the counter is that number. -/
structure IsBounded (service : WebhookDispatcherService) : Prop where
  queue_le : service.queue.length ≤ maxQueueDepth
  activeDeliveries_eq : service.activeDeliveries = service.deliveries.length
  activeDeliveries_nonneg : 0 ≤ service.activeDeliveries
  activeDeliveries_le : service.activeDeliveries ≤ maxConcurrentDeliveries

/-- A failed job is put back into a queue that is full. -/
def RetriesWhenFull (service : WebhookDispatcherService) : Move → Prop
  | .conclude index _ _ => ∃ ticket result record,
      service.deliveries[index]? = some { ticket, rest := some (.done result), record } ∧
        isRetried ticket.job result = true ∧ service.queue.length = maxQueueDepth
  | _ => False

theorem length_queue_drain_le (now : ℤ) (rounds : ℕ) (service : WebhookDispatcherService) :
    (service.drain platform now rounds).queue.length ≤ service.queue.length := by
  induction rounds generalizing service with
  | zero => exact le_rfl
  | succ rounds ih =>
    unfold drain
    split_ifs with hslot
    · cases hfound : service.queue.find? fun waiting ↦ waiting.job.nextAttemptTime ≤ now with
      | none => exact le_rfl
      | some ticket => exact (ih _).trans (List.eraseP_sublist.length_le)
    · exact le_rfl

theorem queue_answer (index : ℕ) (network : Outcome) :
    (service.answer platform index network).queue = service.queue := by
  unfold WebhookDispatcherService.answer
  split <;> rfl

theorem length_queue_release_le (index : ℕ) (now : ℤ) :
    (service.release platform index now).queue.length ≤ service.queue.length := by
  unfold release
  split
  · exact length_queue_drain_le now _ _
  · exact le_rfl

/-- A retry makes the queue longer by one. -/
theorem length_queue_conclude (service : WebhookDispatcherService) (index : ℕ) (now : ℤ)
    (random : ℚ) :
    (service.conclude index now random).queue.length = service.queue.length ∨
      (∃ ticket result record,
        service.deliveries[index]? = some { ticket, rest := some (.done result), record } ∧
          isRetried ticket.job result = true) ∧
        (service.conclude index now random).queue.length = service.queue.length + 1 := by
  unfold conclude
  split
  · rename_i ticket result record hdelivery
    by_cases hretried : isRetried ticket.job result = true
    · refine Or.inr ⟨⟨ticket, result, record, hdelivery, hretried⟩, ?_⟩
      simp [hretried]
    · refine Or.inl ?_
      simp [hretried]
  · exact Or.inl rfl

/-- Only a retry into a full queue makes the queue longer than it may be. -/
theorem length_queue_next_le {move : Move} (hqueue : service.queue.length ≤ maxQueueDepth)
    (hretry : ¬ service.RetriesWhenFull move) :
    (next platform service move).queue.length ≤ maxQueueDepth := by
  cases move with
  | enqueueEvent endpoint event deliveryId created now =>
    unfold next enqueueEvent
    split_ifs with hfull
    · exact hqueue
    · refine (length_queue_drain_le now _ _).trans ?_
      unfold push
      rw [List.length_append, List.length_singleton]
      omega
  | tick now => exact (length_queue_drain_le now _ _).trans hqueue
  | answer index network =>
    change (service.answer platform index network).queue.length ≤ maxQueueDepth
    rw [queue_answer]
    exact hqueue
  | conclude index now random =>
    change (service.conclude index now random).queue.length ≤ maxQueueDepth
    rcases length_queue_conclude service index now random with
      hsame | ⟨⟨ticket, result, record, hdelivery, hretried⟩, hlonger⟩
    · rw [hsame]
      exact hqueue
    · have hfree : service.queue.length ≠ maxQueueDepth :=
        fun hfull ↦ hretry ⟨ticket, result, record, hdelivery, hretried, hfull⟩
      omega
  | release index now => exact (length_queue_release_le index now).trans hqueue

theorem not_isBounded_of_retriesWhenFull {move : Move} (hretry : service.RetriesWhenFull move) :
    ¬ (next platform service move).IsBounded := by
  cases move with
  | conclude index now random =>
    obtain ⟨ticket, result, record, hdelivery, hretried, hfull⟩ := hretry
    intro hbounded
    have hqueue := hbounded.queue_le
    change (service.conclude index now random).queue.length ≤ maxQueueDepth at hqueue
    unfold conclude at hqueue
    simp only [hdelivery, hretried, if_true, List.length_append, List.length_singleton] at hqueue
    omega
  | enqueueEvent endpoint event deliveryId created now => exact hretry.elim
  | tick now => exact hretry.elim
  | answer index network => exact hretry.elim
  | release index now => exact hretry.elim

theorem isBounded_of_isCounted (hcounted : service.IsCounted)
    (hqueue : service.queue.length ≤ maxQueueDepth) : service.IsBounded := by
  obtain ⟨hcount, hroom⟩ := hcounted
  refine ⟨hqueue, hcount, ?_, ?_⟩
  · rw [hcount]
    exact Int.natCast_nonneg _
  · rw [hcount]
    exact Int.ofNat_le.mpr hroom

theorem isCounted_run (hcounted : service.IsCounted) (moves : List Move) :
    (runMoves (next platform) service moves).IsCounted :=
  kept_run (fun _ _ hstep ↦ isCounted_step hstep) hcounted moves

/-- A run from a bounded state stays bounded as long as it does not retry into a full queue. -/
theorem isBounded_run_iff (hbounded : service.IsBounded) (hcounted : service.IsCounted)
    (moves : List Move) :
    (∀ before, before <+: moves → (runMoves (next platform) service before).IsBounded) ↔
      LegalRun (next platform) (fun service move ↦ ¬ service.RetriesWhenFull move)
          service moves := by
  induction moves generalizing service with
  | nil =>
    refine ⟨fun _ ↦ trivial, fun _ before hbefore ↦ ?_⟩
    rw [List.prefix_nil.mp hbefore]
    exact hbounded
  | cons move moves ih =>
    have hcounted' : (next platform service move).IsCounted := isCounted_run hcounted [move]
    constructor
    · intro hall
      have hretry : ¬ service.RetriesWhenFull move := fun hretry ↦
        not_isBounded_of_retriesWhenFull hretry (hall [move] (List.prefix_append [move] moves))
      have hbounded' := isBounded_of_isCounted hcounted'
        (length_queue_next_le hbounded.queue_le hretry)
      refine ⟨hretry, (ih hbounded' hcounted').mp fun before hbefore ↦ ?_⟩
      exact hall (move :: before) (List.cons_prefix_cons.mpr ⟨rfl, hbefore⟩)
    · rintro ⟨hretry, hlegal⟩ before hbefore
      have hbounded' := isBounded_of_isCounted hcounted'
        (length_queue_next_le hbounded.queue_le hretry)
      cases before with
      | nil => exact hbounded
      | cons first before =>
        obtain ⟨rfl, hrest⟩ := List.cons_prefix_cons.mp hbefore
        exact (ih hbounded' hcounted').mpr hlegal before hrest

theorem isCounted_initial : IsCounted {} := ⟨rfl, Nat.zero_le _⟩

theorem isBounded_initial : IsBounded {} :=
  isBounded_of_isCounted isCounted_initial (Nat.zero_le _)

end WebhookDispatcherService

/-- In a run of the service every state is bounded, if and only if no failed job is put back into a
full queue. -/
theorem isBounded_iff (platform : Platform) (moves : List Move) :
    (∀ before, before <+: moves → (runMoves (next platform) {} before).IsBounded) ↔
      LegalRun (next platform) (fun service move ↦ ¬ service.RetriesWhenFull move) {} moves :=
  WebhookDispatcherService.isBounded_run_iff WebhookDispatcherService.isBounded_initial
    WebhookDispatcherService.isCounted_initial moves

/-! ### A flood of events -/

namespace WebhookDispatcherService

variable {service : WebhookDispatcherService}

def hookEndpoint : WebhookEndpoint where
  id := hookJob.endpointId
  name := hookJob.endpointName
  url := hookJob.url
  secret := hookJob.secret

def gateOffline : WebhookEvent where
  id := "evt-1"
  type := "camera.offline"
  timestamp := some 0
  cameraId := some "gate"
  metadata := none

/-- The jobs of a flood of events, all of one moment. -/
def floodJob (deliveryId : String) : QueuedWebhookJob :=
  newJob hookEndpoint gateOffline deliveryId 0

def flood (events : ℕ) : List Move :=
  (List.range events).map fun index ↦ .enqueueEvent hookEndpoint gateOffline s!"d-{index}" 0 0

/-- A service that a flood has gone through: nothing has left it, and nothing has been answered. -/
structure IsFlooded (events : ℕ) (service : WebhookDispatcherService) : Prop where
  total : service.queue.length + service.deliveries.length = events
  waiting : ∀ ticket ∈ service.queue, ∃ deliveryId, ticket.job = floodJob deliveryId
  fresh : ∀ delivery ∈ service.deliveries, ∃ number deliveryId,
    delivery = begin (guarded hookUrl) ⟨number, floodJob deliveryId⟩

theorem isFlooded_drain {events : ℕ} (now : ℤ) (rounds : ℕ)
    (hflooded : service.IsFlooded events) :
    (service.drain (guarded hookUrl) now rounds).IsFlooded events := by
  induction rounds generalizing service with
  | zero => exact hflooded
  | succ rounds ih =>
    unfold drain
    split_ifs with hslot
    · cases hfound : service.queue.find? fun waiting ↦ waiting.job.nextAttemptTime ≤ now with
      | none => exact hflooded
      | some ticket =>
        have hmem := List.mem_of_find?_eq_some hfound
        have hlength := List.length_eraseP_of_mem hmem (List.find?_some hfound)
        have hpos := List.length_pos_of_mem hmem
        refine ih (⟨?_, ?_, ?_⟩ : (service.start (guarded hookUrl) ticket now).IsFlooded events)
        · have htotal := hflooded.total
          unfold start
          rw [hlength, List.length_append, List.length_singleton]
          omega
        · exact fun waiting hwaiting ↦ hflooded.waiting waiting (List.mem_of_mem_eraseP hwaiting)
        · intro delivery hdelivery
          rcases List.mem_append.mp hdelivery with hold | hnew
          · exact hflooded.fresh delivery hold
          · obtain ⟨deliveryId, hjob⟩ := hflooded.waiting ticket hmem
            rw [List.mem_singleton.mp hnew]
            exact ⟨ticket.number, deliveryId, by rw [← hjob]⟩
    · exact hflooded

theorem isFlooded_push {events : ℕ} (hflooded : service.IsFlooded events) (deliveryId : String) :
    (service.push (floodJob deliveryId)).IsFlooded (events + 1) := by
  refine ⟨?_, ?_, hflooded.fresh⟩
  · have htotal := hflooded.total
    simp only [push, List.length_append, List.length_singleton]
    omega
  · intro ticket hticket
    rcases List.mem_append.mp hticket with hold | hnew
    · exact hflooded.waiting ticket hold
    · rw [List.mem_singleton.mp hnew]
      exact ⟨deliveryId, rfl⟩

/-- The service after a flood that is not larger than the queue and the slots together. -/
theorem isFlooded_flood (events : ℕ) (hevents : events ≤ maxQueueDepth + maxConcurrentDeliveries) :
    (runMoves (next (guarded hookUrl)) {} (flood events)).IsFlooded events ∧
      ((runMoves (next (guarded hookUrl)) {} (flood events)).queue = [] ∨
        (runMoves (next (guarded hookUrl)) {} (flood events)).deliveries.length =
          maxConcurrentDeliveries) := by
  induction events with
  | zero => exact ⟨⟨rfl, nofun, nofun⟩, Or.inl rfl⟩
  | succ events ih =>
    obtain ⟨hflooded, hfull⟩ := ih (Nat.le_of_succ_le hevents)
    have hsplit : flood (events + 1) =
        flood events ++ [.enqueueEvent hookEndpoint gateOffline s!"d-{events}" 0 0] := by
      unfold flood
      rw [List.range_succ, List.map_append, List.map_singleton]
    have hcounted : (runMoves (next (guarded hookUrl)) {} (flood (events + 1))).IsCounted :=
      isCounted_run isCounted_initial _
    rw [hsplit] at hcounted ⊢
    unfold runMoves at hcounted hflooded hfull ⊢
    rw [List.foldl_append] at hcounted ⊢
    generalize (flood events).foldl (next (guarded hookUrl)) {} = service at *
    generalize s!"d-{events}" = deliveryId at *
    have hroom : ¬ maxQueueDepth ≤ service.queue.length := by
      have htotal := hflooded.total
      rcases hfull with hempty | hslots
      · rw [hempty]
        decide
      · unfold maxQueueDepth maxConcurrentDeliveries at *
        omega
    have hmove : [Move.enqueueEvent hookEndpoint gateOffline deliveryId 0 0].foldl
        (next (guarded hookUrl)) service =
          (service.push (floodJob deliveryId)).processQueue (guarded hookUrl) 0 :=
      if_neg hroom
    rw [hmove] at hcounted ⊢
    have hdrained : ((service.push (floodJob deliveryId)).processQueue
      (guarded hookUrl) 0).IsFlooded
        (events + 1) :=
      isFlooded_drain 0 _ (isFlooded_push hflooded deliveryId)
    refine ⟨hdrained, ?_⟩
    rcases processQueue_saturates 0 (service.push (floodJob deliveryId)) with hslots | hlate
    · rw [hcounted.1] at hslots
      exact Or.inr (le_antisymm hcounted.2 (Int.ofNat_le.mp hslots))
    · refine Or.inl (List.eq_nil_iff_forall_not_mem.mpr fun ticket hticket ↦ ?_)
      obtain ⟨deliveryId, hjob⟩ := hdrained.waiting ticket hticket
      have hdue := hlate ticket hticket
      rw [hjob] at hdue
      exact absurd hdue (lt_irrefl 0)

/-- A name server that does not answer. -/
def nameServerDown : Outcome where
  address := .error "getaddrinfo EAI_AGAIN hooks.example.com"

/-- A fresh delivery of the flood fails when the name server does not answer. -/
theorem resume_begin (ticket : Ticket) (hjob : ticket.job.url = hookJob.url) :
    ∃ program, (begin (guarded hookUrl) ticket).rest = some program ∧
      ∃ error, ((guarded hookUrl).machine.resume nameServerDown program
        (begin (guarded hookUrl) ticket).record).1 = .done { success := false, error } := by
  have hfree : isPrivateOrBlockedIp false "hooks.example.com" = false := by decide
  refine ⟨_, rfl, ?_⟩
  simp [begin, executeDelivery, deliver, validateUrlSafety, guarded, hookUrl, hjob, hfree,
    nameServerDown, Machine.settle, Machine.resume, Program.settle, Program.advance,
    Platform.machine, Platform.answer]

/-- When all slots hold deliveries of the flood and the rest of it fills the queue, one of them that
fails is put back into a full queue. -/
theorem retriesWhenFull_of_isFlooded {events : ℕ}
    (hevents : events = maxQueueDepth + maxConcurrentDeliveries)
    (hflooded : service.IsFlooded events)
    (hslots : service.deliveries.length = maxConcurrentDeliveries) :
    (service.answer (guarded hookUrl) 0 nameServerDown).RetriesWhenFull (.conclude 0 0 0) := by
  have htotal := hflooded.total
  cases hdeliveries : service.deliveries with
  | nil =>
    rw [hdeliveries] at hslots
    cases hslots
  | cons delivery deliveries =>
    obtain ⟨number, deliveryId, rfl⟩ := hflooded.fresh delivery (by simp [hdeliveries])
    obtain ⟨program, hprogram, error, hfails⟩ :=
      resume_begin ⟨number, floodJob deliveryId⟩ rfl
    have hanswered : (service.answer (guarded hookUrl) 0 nameServerDown).deliveries[0]? =
        some ⟨(begin (guarded hookUrl) ⟨number, floodJob deliveryId⟩).ticket,
          some (.done { success := false, error }),
          ((guarded hookUrl).machine.resume nameServerDown program
            (begin (guarded hookUrl) ⟨number, floodJob deliveryId⟩).record).2⟩ := by
      obtain rfl : _ = program := Option.some.inj hprogram
      unfold WebhookDispatcherService.answer
      rw [hdeliveries, ← hfails]
      rfl
    refine ⟨_, _, _, hanswered, rfl, ?_⟩
    rw [queue_answer]
    omega

/-- A flooded service whose queue is empty or whose slots are full has no slot left. -/
theorem length_deliveries_of_isFlooded {events : ℕ}
    (hevents : events = maxQueueDepth + maxConcurrentDeliveries)
    (hflooded : service.IsFlooded events)
    (hcounted : service.IsCounted)
    (hfull : service.queue = [] ∨ service.deliveries.length = maxConcurrentDeliveries) :
    service.deliveries.length = maxConcurrentDeliveries := by
  rcases hfull with hempty | hslots
  · have hroom := hcounted.2
    have htotal := hflooded.total
    rw [hempty, List.length_nil, zero_add] at htotal
    rw [htotal, hevents] at hroom
    exact absurd hroom (by decide)
  · exact hslots

/-- The flood fills the queue and the slots; then one delivery fails and its job is put back. -/
theorem not_isBounded_flood :
    ¬ ∀ platform moves, (runMoves (next platform) {} moves).IsBounded := by
  intro hall
  obtain ⟨events, hevents⟩ : ∃ events, events = maxQueueDepth + maxConcurrentDeliveries :=
    ⟨_, rfl⟩
  obtain ⟨hflooded, hfull⟩ := isFlooded_flood events hevents.le
  have hcounted := @isCounted_run (guarded hookUrl) _ isCounted_initial (flood events)
  have hbounded := hall (guarded hookUrl)
    (flood events ++ [.answer 0 nameServerDown, .conclude 0 0 0])
  unfold runMoves at hbounded hcounted hflooded hfull
  rw [List.foldl_append] at hbounded
  exact @not_isBounded_of_retriesWhenFull (guarded hookUrl) _ _
    (retriesWhenFull_of_isFlooded hevents hflooded
      (length_deliveries_of_isFlooded hevents hflooded hcounted hfull)) hbounded

end WebhookDispatcherService

end VmsLite.Webhooks
