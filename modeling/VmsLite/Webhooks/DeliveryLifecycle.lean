import Mathlib.Data.List.Nodup
import VmsLite.Async.Sequential
import VmsLite.Webhooks.DeliveryQueue

/-!
# The life of a webhook job

`Stage` is what a webhook job goes through, said without the queue: it waits until its time has
come, an attempt is made, and the job waits again or has left for good. It leaves on the first
response that delivers it, on the first client error that is terminal, or after its last attempt.
Every request of an attempt carries the delivery identifier that the job was accepted with.

The service follows it (`isConservative_run`). In every state each accepted job is in one place, the
queue, one delivery in flight, or the list of those that have left, and the place is the one that
its history says.
-/

set_option autoImplicit false

namespace VmsLite.Webhooks

open Async

/-! ### The life of one job -/

inductive Stage
  | waiting (attempts : ℕ) (nextAttemptTime : ℤ)
  | attempting (attempts : ℕ)
  | left (attempts : ℕ)

/-- Whether an attempt is the last one. -/
def isFinal (job : QueuedWebhookJob) (attempts : ℕ) (record : AttemptRecord) : Bool :=
  record.response.any isDelivered || record.response.any isTerminal || job.maxAttempts ≤ attempts

/-- The stage after an event, `none` for an event that the life of the job does not have there. -/
def Stage.after (job : QueuedWebhookJob) : Stage → JobEvent → Option Stage
  | waiting attempts nextAttemptTime, .started now =>
    if nextAttemptTime ≤ now ∧ attempts < job.maxAttempts then some (attempting (attempts + 1))
    else none
  | attempting attempts, .ended record retry =>
    if record.sent.all (·.delivery = job.deliveryId) then
      match isFinal job attempts record, retry with
      | true, none => some (left attempts)
      | false, some nextAttemptTime => some (waiting attempts nextAttemptTime)
      | _, _ => none
    else none
  | _, _ => none

/-- The stage of a job after the events of its life. -/
def lifecycle (job : QueuedWebhookJob) (events : List JobEvent) : Option Stage :=
  events.foldlM (Stage.after job) (.waiting 0 job.nextAttemptTime)

theorem lifecycle_concat {job : QueuedWebhookJob} {events : List JobEvent} {stage : Stage}
    (h : lifecycle job events = some stage) (event : JobEvent) :
    lifecycle job (events ++ [event]) = stage.after job event := by
  unfold lifecycle at h ⊢
  rw [List.foldlM_append, h]
  simp

namespace WebhookDispatcherService

variable {platform : Platform} {service : WebhookDispatcherService}

def eventsOf (service : WebhookDispatcherService) (number : ℕ) : List JobEvent :=
  (service.history.filter (·.1 = number)).map (·.2)

/-- The deliveries whose result has not been dealt with. -/
def running (deliveries : List Delivery) : List ℕ :=
  deliveries.filterMap fun delivery ↦ delivery.rest.map fun _ ↦ delivery.ticket.number

/-- Where the jobs are. -/
def numbers (service : WebhookDispatcherService) : List ℕ :=
  service.queue.map (·.number) ++ running service.deliveries ++ service.left

/-- A job is where its stage says, as it was accepted but for its attempts and its time. -/
def Holds (service : WebhookDispatcherService) (number : ℕ) (job : QueuedWebhookJob) : Stage → Prop
  | .waiting attempts nextAttemptTime => attempts < job.maxAttempts ∧
      ⟨number, { job with attempts, nextAttemptTime }⟩ ∈ service.queue
  | .attempting attempts => 1 ≤ attempts ∧ attempts ≤ job.maxAttempts ∧
      ∃ nextAttemptTime program record,
        ⟨⟨number, { job with attempts, nextAttemptTime }⟩, some program, record⟩ ∈
          service.deliveries
  | .left attempts => 1 ≤ attempts ∧ attempts ≤ job.maxAttempts ∧ number ∈ service.left

/-- Every accepted job is in one place, its history is a life of a job, and it is where its stage
says. -/
structure IsConservative (service : WebhookDispatcherService) : Prop where
  perm : service.numbers.Perm (List.range service.accepted.length)
  holds : ∀ number job, service.accepted[number]? = some job →
    ∃ stage, lifecycle job (service.eventsOf number) = some stage ∧ service.Holds number job stage

/-! ### What an attempt reports -/

/-- The result of an attempt agrees with its record. -/
structure Reports (request : DeliveryRequest) (result : DeliveryResult) (record : AttemptRecord) :
    Prop where
  success_eq : result.success = record.response.any isDelivered
  terminal_eq : result.status.any isTerminal = record.response.any isTerminal
  sent_eq : ∀ sent ∈ record.sent, sent = request

/-- However the network behaves, an attempt will report what it has on record. -/
def WillReport (platform : Platform) (request : DeliveryRequest) (program : Async DeliveryResult)
    (record : AttemptRecord) : Prop :=
  program.Steps platform.answer (fun _ _ _ ↦ True) (fun _ _ ↦ True) (Reports request)
    (fun _ _ ↦ True) record

/-- Nothing has been sent yet. -/
def Quiet (record : AttemptRecord) : Prop := record.sent = [] ∧ record.response = none

/-- A call of the guard, at a record that it leaves quiet. -/
theorem quiet_call {request : Call} {record : AttemptRecord}
    (hquiet : ∀ network, Quiet (platform.answer request network record).2) :
    (call request).Steps platform.answer (fun _ _ _ ↦ True) (fun _ _ ↦ True) (fun _ ↦ Quiet)
      (fun _ _ ↦ True) record :=
  Program.Steps.request fun network _ ↦ ⟨trivial, hquiet network⟩

/-- The guard sends nothing. -/
theorem quiet_validateUrlSafety (url : String) {record : AttemptRecord} (hquiet : Quiet record) :
    (validateUrlSafety platform url).Steps platform.answer (fun _ _ _ ↦ True) (fun _ _ ↦ True)
      (fun _ ↦ Quiet) (fun _ _ ↦ True) record := by
  unfold validateUrlSafety
  cases platform.newUrl url with
  | none => exact hquiet
  | some parsed =>
    by_cases hweb : parsed.protocol ≠ "http:" ∧ parsed.protocol ≠ "https:"
    · simp only [if_pos hweb]
      exact hquiet
    · simp only [if_neg hweb]
      refine Program.Steps.bind (quiet_call fun _ ↦ hquiet) ?_
      intro blocked record hquiet
      split_ifs
      · exact hquiet
      · exact hquiet
      · refine Program.Steps.bind (quiet_call fun _ ↦ hquiet) ?_
        intro reply record hquiet
        cases reply with
        | error message => exact hquiet
        | ok address =>
          refine Program.Steps.bind (quiet_call fun _ ↦ hquiet) ?_
          intro blocked record hquiet
          split_ifs
          · exact hquiet
          · exact hquiet

theorem reports_resultOf (request : DeliveryRequest) (status : ℕ) {record : AttemptRecord}
    (hresponse : record.response = some status) (hsent : ∀ sent ∈ record.sent, sent = request) :
    Reports request (resultOf status) record := by
  refine ⟨?_, ?_, hsent⟩
  · rw [hresponse]
    unfold resultOf
    split_ifs with hdelivered hterminal
    · exact hdelivered.symm
    · exact (Bool.eq_false_iff.mpr hdelivered).symm
    · exact (Bool.eq_false_iff.mpr hdelivered).symm
  · rw [hresponse]
    unfold resultOf
    split_ifs <;> rfl

theorem willReport_deliver (platform : Platform) (job : QueuedWebhookJob) :
    WillReport platform job.request (deliver platform job) {} := by
  unfold WillReport deliver
  refine Program.Steps.bind (quiet_validateUrlSafety job.url ⟨rfl, rfl⟩) ?_
  intro urlCheck record hquiet
  obtain ⟨hsent, hresponse⟩ := hquiet
  split_ifs
  · refine ⟨?_, ?_, ?_⟩
    · rw [hresponse]
      rfl
    · rw [hresponse]
    · rw [hsent]
      exact fun _ h ↦ absurd h List.not_mem_nil
  · refine fun network _ ↦ ⟨trivial, ?_⟩
    have hone : ∀ sent ∈ record.sent ++ [job.request], sent = job.request := by
      rw [hsent]
      exact fun _ h ↦ List.mem_singleton.mp h
    cases hreply : network.response with
    | ok status =>
      simp only [Platform.answer, hreply]
      exact reports_resultOf job.request status rfl hone
    | error message =>
      simp only [Platform.answer, hreply]
      exact ⟨rfl, rfl, hone⟩

theorem WillReport.settle {request : DeliveryRequest} {program : Async DeliveryResult}
    {record : AttemptRecord} (h : WillReport platform request program record) :
    WillReport platform request (platform.machine.settle program record).1
      (platform.machine.settle program record).2 :=
  Program.Steps.settle h fun _ _ ↦ trivial

theorem WillReport.resume {request : DeliveryRequest} {program : Async DeliveryResult}
    {record : AttemptRecord} (h : WillReport platform request program record) (network : Outcome) :
    WillReport platform request (platform.machine.resume network program record).1
      (platform.machine.resume network program record).2 := by
  have hadvanced : WillReport platform request
      (Program.advance platform.answer network (program, record)).1
      (Program.advance platform.answer network (program, record)).2 :=
    Program.Steps.advance h fun _ ↦ trivial
  exact hadvanced.settle

/-! ### The invariant -/

/-- The history of a job leads to a stage, and the job is as it was accepted but for its attempts
and its time. -/
structure IsAt (service : WebhookDispatcherService) (ticket : Ticket) (stage : Stage)
    (job : QueuedWebhookJob) : Prop where
  accepted : service.accepted[ticket.number]? = some job
  lifecycle_eq : lifecycle job (service.eventsOf ticket.number) = some stage
  job_eq : ticket.job = { job with
    attempts := ticket.job.attempts
    nextAttemptTime := ticket.job.nextAttemptTime }

def Waits (service : WebhookDispatcherService) (ticket : Ticket) : Prop :=
  ticket.job.attempts < ticket.job.maxAttempts ∧
    ∃ job, service.IsAt ticket (.waiting ticket.job.attempts ticket.job.nextAttemptTime) job

def Runs (platform : Platform) (service : WebhookDispatcherService) (ticket : Ticket)
    (program : Async DeliveryResult) (record : AttemptRecord) : Prop :=
  1 ≤ ticket.job.attempts ∧ ticket.job.attempts ≤ ticket.job.maxAttempts ∧
    WillReport platform ticket.job.request program record ∧
    ∃ job, service.IsAt ticket (.attempting ticket.job.attempts) job

def IsGone (service : WebhookDispatcherService) (number : ℕ) : Prop :=
  ∃ job attempts, service.accepted[number]? = some job ∧
    lifecycle job (service.eventsOf number) = some (.left attempts) ∧
    1 ≤ attempts ∧ attempts ≤ job.maxAttempts

/-- What every small step keeps: each place holds jobs whose history says that they are there. -/
structure IsOrderly (platform : Platform) (service : WebhookDispatcherService) : Prop where
  perm : service.numbers.Perm (List.range service.accepted.length)
  known : ∀ entry ∈ service.history, entry.1 < service.accepted.length
  waits : ∀ ticket ∈ service.queue, service.Waits ticket
  runs : ∀ ticket program record, ⟨ticket, some program, record⟩ ∈ service.deliveries →
    service.Runs platform ticket program record
  gone : ∀ number ∈ service.left, service.IsGone number

/-- Nothing has happened to a job between two states. -/
structure Undisturbed (before after : WebhookDispatcherService) (number : ℕ) : Prop where
  accepted : ∀ job, before.accepted[number]? = some job → after.accepted[number]? = some job
  events : after.eventsOf number = before.eventsOf number

section Frame

variable {before after : WebhookDispatcherService} {ticket : Ticket} {stage : Stage}
  {job : QueuedWebhookJob}

theorem IsAt.frame (hat : before.IsAt ticket stage job)
    (hsame : Undisturbed before after ticket.number) : after.IsAt ticket stage job where
  accepted := hsame.accepted job hat.accepted
  lifecycle_eq := by
    rw [hsame.events]
    exact hat.lifecycle_eq
  job_eq := hat.job_eq

theorem Waits.frame (hwaits : before.Waits ticket)
    (hsame : Undisturbed before after ticket.number) :
    after.Waits ticket := by
  obtain ⟨hmore, job, hat⟩ := hwaits
  exact ⟨hmore, job, hat.frame hsame⟩

theorem Runs.frame {program : Async DeliveryResult} {record : AttemptRecord}
    (hruns : before.Runs platform ticket program record)
    (hsame : Undisturbed before after ticket.number) :
        after.Runs platform ticket program record := by
  obtain ⟨hone, hmax, hreports, job, hat⟩ := hruns
  exact ⟨hone, hmax, hreports, job, hat.frame hsame⟩

theorem IsGone.frame {number : ℕ} (hgone : before.IsGone number)
    (hsame : Undisturbed before after number) : after.IsGone number := by
  obtain ⟨job, attempts, haccepted, hlife, hone, hmax⟩ := hgone
  refine ⟨job, attempts, hsame.accepted job haccepted, ?_, hone, hmax⟩
  rw [hsame.events]
  exact hlife

/-- The jobs that an event is not about are undisturbed. -/
theorem undisturbed_of_ne {number other : ℕ} {event : JobEvent} (hne : other ≠ number)
    (haccepted : after.accepted = before.accepted)
    (hhistory : after.history = before.history ++ [(number, event)]) :
    Undisturbed before after other where
  accepted := fun job h ↦ by
    rw [haccepted]
    exact h
  events := by
    unfold eventsOf
    rw [hhistory, List.filter_append, List.filter_singleton]
    simp [hne.symm]

theorem undisturbed_of_eq {number : ℕ} (haccepted : after.accepted = before.accepted)
    (hhistory : after.history = before.history) : Undisturbed before after number where
  accepted := fun job h ↦ by
    rw [haccepted]
    exact h
  events := by
    unfold eventsOf
    rw [hhistory]

/-- The event a step adds to the history of a job. -/
theorem eventsOf_concat {number : ℕ} {event : JobEvent}
    (hhistory : after.history = before.history ++ [(number, event)]) :
    after.eventsOf number = before.eventsOf number ++ [event] := by
  unfold eventsOf
  rw [hhistory, List.filter_append, List.map_append]
  simp

end Frame

@[simp] theorem running_nil : running [] = [] := rfl

@[simp] theorem running_append (first second : List Delivery) :
    running (first ++ second) = running first ++ running second := List.filterMap_append

@[simp] theorem running_cons_some (ticket : Ticket) (program : Async DeliveryResult)
    (record : AttemptRecord) (deliveries : List Delivery) :
    running (⟨ticket, some program, record⟩ :: deliveries) = ticket.number :: running deliveries :=
      rfl

@[simp] theorem running_cons_none (ticket : Ticket) (record : AttemptRecord)
    (deliveries : List Delivery) :
    running (⟨ticket, none, record⟩ :: deliveries) = running deliveries := rfl

@[simp] theorem running_begin (ticket : Ticket) :
    running [begin platform ticket] = [ticket.number] := rfl

theorem mem_running {ticket : Ticket} {program : Async DeliveryResult} {record : AttemptRecord}
    {deliveries : List Delivery} (h : ⟨ticket, some program, record⟩ ∈ deliveries) :
    ticket.number ∈ running deliveries :=
  List.mem_filterMap.mpr ⟨_, h, rfl⟩

section Steps

variable {ticket : Ticket} {record : AttemptRecord}

theorem IsOrderly.nodup (horderly : service.IsOrderly platform) : service.numbers.Nodup :=
  horderly.perm.nodup_iff.mpr List.nodup_range

/-- Another number is nowhere else. -/
theorem ne_of_nodup {first second : List ℕ} {number other : ℕ}
    (hnodup : (first ++ number :: second).Nodup) (hother : other ∈ first ++ second) :
    other ≠ number := by
  have hnot := (List.nodup_cons.mp (List.nodup_middle.mp hnodup)).1
  exact fun hsame ↦ hnot (hsame ▸ hother)

theorem IsAt.number_lt {stage : Stage} {job : QueuedWebhookJob}
    (hat : service.IsAt ticket stage job) :
    ticket.number < service.accepted.length :=
  (List.getElem?_eq_some_iff.mp hat.accepted).1

theorem isOrderly_start {before after : List Ticket} {now : ℤ}
    (horderly : service.IsOrderly platform) (hqueue : service.queue = before ++ ticket :: after)
    (hready : ticket.job.nextAttemptTime ≤ now) :
    IsOrderly platform { service with
      queue := before ++ after
      activeDeliveries := service.activeDeliveries + 1
      deliveries := service.deliveries ++ [begin platform ticket]
      history := service.history ++ [(ticket.number, .started now)] } := by
  have hnumbers : service.numbers = before.map (·.number) ++
      ticket.number :: (after.map (·.number) ++ (running service.deliveries ++ service.left)) := by
    unfold numbers
    rw [hqueue]
    simp
  have hapart : ∀ other ∈ before.map (·.number) ++
      (after.map (·.number) ++ (running service.deliveries ++ service.left)),
        other ≠ ticket.number :=
    fun other hother ↦ ne_of_nodup (hnumbers ▸ horderly.nodup) hother
  obtain ⟨hmore, job, hat⟩ := horderly.waits ticket (by simp [hqueue])
  refine ⟨?_, ?_, ?_, ?_, ?_⟩
  · refine List.Perm.trans ?_ horderly.perm
    rw [hnumbers, List.perm_iff_count]
    intro number
    simp only [numbers, List.map_append, running_append, running_begin, List.count_append,
      List.count_cons, List.count_nil]
    omega
  · intro entry hentry
    rcases List.mem_append.mp hentry with hold | hnew
    · exact horderly.known entry hold
    · rw [List.mem_singleton.mp hnew]
      exact hat.number_lt
  · intro other hother
    have hne : other.number ≠ ticket.number := by
      refine hapart _ ?_
      rcases List.mem_append.mp hother with hfirst | hsecond
      · exact List.mem_append_left _ (List.mem_map_of_mem hfirst)
      · exact List.mem_append_right _ (List.mem_append_left _ (List.mem_map_of_mem hsecond))
    refine Waits.frame (horderly.waits other ?_) (undisturbed_of_ne hne rfl rfl)
    rw [hqueue]
    exact List.mem_append.mpr ((List.mem_append.mp hother).imp_right (List.mem_cons_of_mem _))
  · intro other program record hother
    rcases List.mem_append.mp hother with hold | hnew
    · have hne : other.number ≠ ticket.number := hapart _ (List.mem_append_right _
        (List.mem_append_right _ (List.mem_append_left _ (mem_running hold))))
      exact Runs.frame (horderly.runs other program record hold) (undisturbed_of_ne hne rfl rfl)
    · -- the job that is started
      obtain ⟨rfl, hprogram, rfl⟩ := Delivery.mk.inj (List.mem_singleton.mp hnew)
      obtain rfl := Option.some.inj hprogram
      refine ⟨Nat.le_add_left _ _, hmore, (willReport_deliver platform ticket.job).settle, job,
        hat.accepted, ?_, ?_⟩
      · rw [eventsOf_concat rfl, lifecycle_concat hat.lifecycle_eq]
        have hmax : ticket.job.maxAttempts = job.maxAttempts := by rw [hat.job_eq]
        exact if_pos ⟨hready, hmax ▸ hmore⟩
      · simp only [executeDelivery]
        rw [hat.job_eq]
  · intro number hnumber
    have hne : number ≠ ticket.number := hapart _ (List.mem_append_right _
      (List.mem_append_right _ (List.mem_append_right _ hnumber)))
    exact IsGone.frame (horderly.gone number hnumber) (undisturbed_of_ne hne rfl rfl)

/-- A job is put back exactly when its attempt was not the last. -/
theorem isRetried_eq {job : QueuedWebhookJob} {result : DeliveryResult}
    (hreports : Reports job.request result record) :
    isRetried job result = !isFinal job job.attempts record := by
  unfold isRetried isFinal
  rw [hreports.success_eq, hreports.terminal_eq]
  have hcount : decide (job.attempts < job.maxAttempts) =
      !decide (job.maxAttempts ≤ job.attempts) := by
    rw [← decide_not]
    exact decide_eq_decide.mpr not_le.symm
  rw [hcount, Bool.not_or, Bool.not_or]

/-- The end of an attempt that was not the last. -/
theorem after_ended_retry {job : QueuedWebhookJob} {attempts : ℕ} {nextAttemptTime : ℤ}
    (hsent : ∀ sent ∈ record.sent, sent.delivery = job.deliveryId)
    (hfinal : isFinal job attempts record = false) :
    Stage.after job (.attempting attempts) (.ended record (some nextAttemptTime)) =
      some (.waiting attempts nextAttemptTime) := by
  have hall : record.sent.all (·.delivery = job.deliveryId) = true := by simpa using hsent
  unfold Stage.after
  simp only [hall, hfinal, if_true]

/-- The end of the last attempt. -/
theorem after_ended_final {job : QueuedWebhookJob} {attempts : ℕ}
    (hsent : ∀ sent ∈ record.sent, sent.delivery = job.deliveryId)
    (hfinal : isFinal job attempts record = true) :
    Stage.after job (.attempting attempts) (.ended record none) = some (.left attempts) := by
  have hall : record.sent.all (·.delivery = job.deliveryId) = true := by simpa using hsent
  unfold Stage.after
  simp only [hall, hfinal, if_true]

section Deliveries

variable {before after : List Delivery}

/-- The numbers of a service, with a running delivery in their middle. -/
theorem numbers_running {program : Async DeliveryResult}
    (hdeliveries : service.deliveries = before ++ ⟨ticket, some program, record⟩ :: after) :
    service.numbers = (service.queue.map (·.number) ++ running before) ++
      ticket.number :: (running after ++ service.left) := by
  unfold numbers
  rw [hdeliveries]
  simp

/-- What is known of a delivery whose result has come. -/
theorem IsOrderly.ended {result : DeliveryResult} (horderly : service.IsOrderly platform)
    (hdeliveries : service.deliveries = before ++ ⟨ticket, some (.done result), record⟩ :: after) :
    ∃ job, service.IsAt ticket (.attempting ticket.job.attempts) job ∧
      1 ≤ ticket.job.attempts ∧ ticket.job.attempts ≤ job.maxAttempts ∧
      (∀ sent ∈ record.sent, sent.delivery = job.deliveryId) ∧
      isRetried ticket.job result = !isFinal job ticket.job.attempts record := by
  obtain ⟨hone, hmax, hreports, job, hat⟩ :=
    horderly.runs ticket (.done result) record (by simp [hdeliveries])
  have hmaxAttempts : ticket.job.maxAttempts = job.maxAttempts := by rw [hat.job_eq]
  refine ⟨job, hat, hone, hmaxAttempts ▸ hmax, fun sent hsent ↦ ?_, ?_⟩
  · rw [hreports.sent_eq sent hsent, hat.job_eq]
    rfl
  · rw [isRetried_eq hreports]
    unfold isFinal
    rw [hmaxAttempts]

/-- A step about a running delivery does not disturb the other jobs. -/
theorem IsOrderly.others (next : WebhookDispatcherService) {program : Async DeliveryResult}
    {event : JobEvent} (horderly : service.IsOrderly platform)
    (hdeliveries : service.deliveries = before ++ ⟨ticket, some program, record⟩ :: after)
    (haccepted : next.accepted = service.accepted)
    (hhistory : next.history = service.history ++ [(ticket.number, event)]) :
    (∀ other ∈ service.queue, next.Waits other) ∧
      (∀ other program record, ⟨other, some program, record⟩ ∈ before ++ after →
        next.Runs platform other program record) ∧
      ∀ number ∈ service.left, next.IsGone number := by
  have hapart : ∀ other ∈ (service.queue.map (·.number) ++ running before) ++
      (running after ++ service.left), other ≠ ticket.number :=
    fun other hother ↦ ne_of_nodup (numbers_running hdeliveries ▸ horderly.nodup) hother
  refine ⟨fun other hother ↦ ?_, fun other program record hother ↦ ?_, fun number hnumber ↦ ?_⟩
  · have hne := hapart _ (List.mem_append_left _ (List.mem_append_left _
      (List.mem_map_of_mem hother)))
    exact Waits.frame (horderly.waits other hother) (undisturbed_of_ne hne haccepted hhistory)
  · have hne : other.number ≠ ticket.number := by
      refine hapart _ ?_
      rcases List.mem_append.mp hother with hfirst | hsecond
      · exact List.mem_append_left _ (List.mem_append_right _ (mem_running hfirst))
      · exact List.mem_append_right _ (List.mem_append_left _ (mem_running hsecond))
    refine Runs.frame (horderly.runs other program record ?_)
      (undisturbed_of_ne hne haccepted hhistory)
    rw [hdeliveries]
    exact List.mem_append.mpr ((List.mem_append.mp hother).imp_right (List.mem_cons_of_mem _))
  · have hne := hapart _ (List.mem_append_right _ (List.mem_append_right _ hnumber))
    exact IsGone.frame (horderly.gone number hnumber) (undisturbed_of_ne hne haccepted hhistory)

theorem IsOrderly.known_concat (horderly : service.IsOrderly platform) {number : ℕ}
    {event : JobEvent} (hnumber : number < service.accepted.length) :
    ∀ entry ∈ service.history ++ [(number, event)], entry.1 < service.accepted.length := by
  intro entry hentry
  rcases List.mem_append.mp hentry with hold | hnew
  · exact horderly.known entry hold
  · rw [List.mem_singleton.mp hnew]
    exact hnumber

/-- A running delivery is not among those whose result has been dealt with. -/
theorem mem_of_concluded {other : Ticket} {program : Async DeliveryResult}
    {otherRecord : AttemptRecord}
    (h : ⟨other, some program, otherRecord⟩ ∈ before ++ ⟨ticket, none, record⟩ :: after) :
    ⟨other, some program, otherRecord⟩ ∈ before ++ after := by
  rcases List.mem_append.mp h with hfirst | hsecond
  · exact List.mem_append_left _ hfirst
  · rcases List.mem_cons.mp hsecond with hself | hsecond
    · cases hself
    · exact List.mem_append_right _ hsecond

theorem isOrderly_putBack {result : DeliveryResult} (nextAttemptTime : ℤ)
    (horderly : service.IsOrderly platform)
    (hdeliveries : service.deliveries = before ++ ⟨ticket, some (.done result), record⟩ :: after)
    (hretried : isRetried ticket.job result = true) :
    IsOrderly platform { service with
      queue := service.queue ++ [{ ticket with job := { ticket.job with nextAttemptTime } }]
      deliveries := before ++ ⟨ticket, none, record⟩ :: after
      history := service.history ++ [(ticket.number, .ended record (some nextAttemptTime))] } := by
  obtain ⟨job, hat, hone, hmax, hsent, hfinal⟩ := horderly.ended hdeliveries
  rw [hretried] at hfinal
  obtain ⟨hwaits, hruns, hgone⟩ := horderly.others { service with
      queue := service.queue ++ [{ ticket with job := { ticket.job with nextAttemptTime } }]
      deliveries := before ++ ⟨ticket, none, record⟩ :: after
      history := service.history ++ [(ticket.number, .ended record (some nextAttemptTime))] }
    hdeliveries rfl rfl
  refine ⟨?_, horderly.known_concat hat.number_lt, ?_, ?_, hgone⟩
  · refine List.Perm.trans ?_ horderly.perm
    rw [numbers_running hdeliveries, List.perm_iff_count]
    intro number
    simp only [numbers, List.map_append, List.map_cons, List.map_nil, running_append,
      running_cons_none, List.count_append, List.count_cons, List.count_nil]
    omega
  · intro other hother
    rcases List.mem_append.mp hother with hold | hnew
    · exact hwaits other hold
    · -- the job that is put back
      rw [List.mem_singleton.mp hnew]
      have hmore : ticket.job.attempts < ticket.job.maxAttempts := by
        unfold isRetried at hretried
        simpa using (Bool.and_eq_true_iff.mp hretried).2
      refine ⟨hmore, job, hat.accepted, ?_, ?_⟩
      · rw [eventsOf_concat rfl, lifecycle_concat hat.lifecycle_eq]
        exact after_ended_retry hsent (by simpa using hfinal.symm)
      · rw [hat.job_eq]
  · exact fun other program otherRecord hother ↦
      hruns other program otherRecord (mem_of_concluded hother)

theorem isOrderly_finish {result : DeliveryResult} (horderly : service.IsOrderly platform)
    (hdeliveries : service.deliveries = before ++ ⟨ticket, some (.done result), record⟩ :: after)
    (hretried : isRetried ticket.job result = false) :
    IsOrderly platform { service with
      deliveries := before ++ ⟨ticket, none, record⟩ :: after
      left := service.left ++ [ticket.number]
      history := service.history ++ [(ticket.number, .ended record none)] } := by
  obtain ⟨job, hat, hone, hmax, hsent, hfinal⟩ := horderly.ended hdeliveries
  rw [hretried] at hfinal
  obtain ⟨hwaits, hruns, hgone⟩ := horderly.others { service with
      deliveries := before ++ ⟨ticket, none, record⟩ :: after
      left := service.left ++ [ticket.number]
      history := service.history ++ [(ticket.number, .ended record none)] }
    hdeliveries rfl rfl
  refine ⟨?_, horderly.known_concat hat.number_lt, hwaits, ?_, ?_⟩
  · refine List.Perm.trans ?_ horderly.perm
    rw [numbers_running hdeliveries, List.perm_iff_count]
    intro number
    simp only [numbers, running_append, running_cons_none, List.count_append, List.count_cons,
      List.count_nil]
    omega
  · exact fun other program otherRecord hother ↦
      hruns other program otherRecord (mem_of_concluded hother)
  · intro number hnumber
    rcases List.mem_append.mp hnumber with hold | hnew
    · exact hgone number hold
    · -- the job that leaves
      rw [List.mem_singleton.mp hnew]
      refine ⟨job, ticket.job.attempts, hat.accepted, ?_, hone, hmax⟩
      rw [eventsOf_concat rfl, lifecycle_concat hat.lifecycle_eq]
      exact after_ended_final hsent (by simpa using hfinal.symm)

theorem isOrderly_answer {program : Async DeliveryResult} (network : Outcome)
    (horderly : service.IsOrderly platform)
    (hdeliveries : service.deliveries = before ++ ⟨ticket, some program, record⟩ :: after) :
    IsOrderly platform { service with
      deliveries := before ++ ⟨ticket, some (platform.machine.resume network program record).1,
        (platform.machine.resume network program record).2⟩ :: after } := by
  have hruns : ∀ other otherProgram otherRecord,
      ⟨other, some otherProgram, otherRecord⟩ ∈ before ++ ⟨ticket, some
        (platform.machine.resume network program record).1,
          (platform.machine.resume network program record).2⟩ :: after →
        service.Runs platform other otherProgram otherRecord := by
    intro other otherProgram otherRecord hother
    rcases List.mem_append.mp hother with hfirst | hsecond
    · exact horderly.runs other otherProgram otherRecord (by simp [hdeliveries, hfirst])
    · rcases List.mem_cons.mp hsecond with hself | hsecond
      · obtain ⟨rfl, hprogram, rfl⟩ := Delivery.mk.inj hself
        obtain rfl := Option.some.inj hprogram
        obtain ⟨hone, hmax, hreports, hat⟩ :=
          horderly.runs other program record (by simp [hdeliveries])
        exact ⟨hone, hmax, hreports.resume network, hat⟩
      · exact horderly.runs other otherProgram otherRecord (by simp [hdeliveries, hsecond])
  refine ⟨?_, horderly.known, fun other hother ↦ ?_, fun other otherProgram otherRecord hother ↦ ?_,
    fun number hnumber ↦ ?_⟩
  · refine List.Perm.trans (List.Perm.of_eq ?_) horderly.perm
    unfold numbers
    rw [hdeliveries]
    simp
  · exact (horderly.waits other hother).frame (undisturbed_of_eq rfl rfl)
  · exact (hruns other otherProgram otherRecord hother).frame (undisturbed_of_eq rfl rfl)
  · exact (horderly.gone number hnumber).frame (undisturbed_of_eq rfl rfl)

theorem isOrderly_release (horderly : service.IsOrderly platform)
    (hdeliveries : service.deliveries = before ++ ⟨ticket, none, record⟩ :: after) :
    IsOrderly platform { service with
      deliveries := before ++ after
      activeDeliveries := service.activeDeliveries - 1 } := by
  refine ⟨?_, horderly.known, fun other hother ↦ ?_, fun other program otherRecord hother ↦ ?_,
    fun number hnumber ↦ ?_⟩
  · refine List.Perm.trans (List.Perm.of_eq ?_) horderly.perm
    unfold numbers
    rw [hdeliveries]
    simp
  · exact (horderly.waits other hother).frame (undisturbed_of_eq rfl rfl)
  · refine (horderly.runs other program otherRecord ?_).frame (undisturbed_of_eq rfl rfl)
    rw [hdeliveries]
    exact List.mem_append.mpr ((List.mem_append.mp hother).imp_right (List.mem_cons_of_mem _))
  · exact (horderly.gone number hnumber).frame (undisturbed_of_eq rfl rfl)

end Deliveries

theorem isOrderly_push {job : QueuedWebhookJob} (hattempts : job.attempts = 0)
    (hmax : 0 < job.maxAttempts) (horderly : service.IsOrderly platform) :
    IsOrderly platform (service.push job) := by
  have hsame : ∀ number < service.accepted.length,
      Undisturbed service (service.push job) number := by
    refine fun number hnumber ↦ ⟨fun other hother ↦ ?_, rfl⟩
    unfold push
    rw [List.getElem?_append_left hnumber]
    exact hother
  have hknown : ∀ number ∈ service.numbers, number < service.accepted.length :=
    fun number hnumber ↦ List.mem_range.mp (horderly.perm.mem_iff.mp hnumber)
  refine ⟨?_, ?_, ?_, ?_, ?_⟩
  · have hlength : (service.push job).accepted.length = service.accepted.length + 1 := by
      unfold push
      rw [List.length_append, List.length_singleton]
    rw [hlength, List.range_succ]
    refine List.Perm.trans ?_ (horderly.perm.append_right [service.accepted.length])
    rw [List.perm_iff_count]
    intro number
    simp only [push, numbers, List.map_append, List.map_cons, List.map_nil, List.count_append,
      List.count_cons, List.count_nil]
    omega
  · intro entry hentry
    have hlt := horderly.known entry hentry
    unfold push
    rw [List.length_append]
    exact Nat.lt_add_right _ hlt
  · intro ticket hticket
    rcases List.mem_append.mp hticket with hold | hnew
    · refine Waits.frame (horderly.waits ticket hold) (hsame _ (hknown _ ?_))
      exact List.mem_append_left _ (List.mem_append_left _ (List.mem_map_of_mem hold))
    · -- the new job, which nothing has happened to
      rw [List.mem_singleton.mp hnew]
      have hnone : (service.push job).eventsOf service.accepted.length = [] := by
        unfold eventsOf push
        rw [List.map_eq_nil_iff, List.filter_eq_nil_iff]
        intro entry hentry hsame
        exact (horderly.known entry hentry).ne (of_decide_eq_true hsame)
      refine ⟨hattempts ▸ hmax, job, ?_, ?_, rfl⟩
      · exact List.getElem?_concat_length
      · rw [hnone, hattempts]
        rfl
  · intro ticket program record hdelivery
    refine Runs.frame (horderly.runs ticket program record hdelivery) (hsame _ (hknown _ ?_))
    exact List.mem_append_left _ (List.mem_append_right _ (mem_running hdelivery))
  · intro number hnumber
    exact IsGone.frame (horderly.gone number hnumber)
      (hsame _ (hknown _ (List.mem_append_right _ hnumber)))

end Steps

theorem isOrderly_step {before after : WebhookDispatcherService}
    (hstep : Step platform before after)
    (horderly : before.IsOrderly platform) : after.IsOrderly platform := by
  cases hstep with
  | start hqueue hslot hready => exact isOrderly_start horderly hqueue hready
  | push endpoint event deliveryId created hroom =>
    exact isOrderly_push rfl (Nat.succ_pos 2) horderly
  | answer network hdeliveries => exact isOrderly_answer network horderly hdeliveries
  | putBack now random hdeliveries hretried =>
    exact isOrderly_putBack _ horderly hdeliveries hretried
  | finish hdeliveries hretried => exact isOrderly_finish horderly hdeliveries hretried
  | release hdeliveries => exact isOrderly_release horderly hdeliveries

theorem isOrderly_initial : IsOrderly platform {} where
  perm := List.Perm.refl _
  known := fun _ h ↦ absurd h List.not_mem_nil
  waits := fun _ h ↦ absurd h List.not_mem_nil
  runs := fun _ _ _ h ↦ absurd h List.not_mem_nil
  gone := fun _ h ↦ absurd h List.not_mem_nil

/-- The stage of an accepted job, from the place it is in. -/
theorem IsOrderly.holds (horderly : service.IsOrderly platform) {number : ℕ}
    {job : QueuedWebhookJob}
    (hjob : service.accepted[number]? = some job) :
    ∃ stage, lifecycle job (service.eventsOf number) = some stage ∧
      service.Holds number job stage := by
  have hnumber : number ∈ service.numbers := horderly.perm.mem_iff.mpr
    (List.mem_range.mpr (List.getElem?_eq_some_iff.mp hjob).1)
  rcases List.mem_append.mp hnumber with hnumber | hleft
  · rcases List.mem_append.mp hnumber with hqueue | hrunning
    · obtain ⟨ticket, hticket, rfl⟩ := List.mem_map.mp hqueue
      obtain ⟨hmore, accepted, hat⟩ := horderly.waits ticket hticket
      obtain rfl : accepted = job := Option.some.inj (hat.accepted.symm.trans hjob)
      refine ⟨_, hat.lifecycle_eq, ?_, ?_⟩
      · rw [hat.job_eq] at hmore
        exact hmore
      · rw [← hat.job_eq]
        exact hticket
    · obtain ⟨⟨ticket, rest, record⟩, hdelivery, hrest⟩ := List.mem_filterMap.mp hrunning
      obtain ⟨program, rfl, rfl⟩ := Option.map_eq_some_iff.mp hrest
      obtain ⟨hone, hmax, -, accepted, hat⟩ := horderly.runs ticket program record hdelivery
      obtain rfl : accepted = job := Option.some.inj (hat.accepted.symm.trans hjob)
      refine ⟨_, hat.lifecycle_eq, hone, ?_, ticket.job.nextAttemptTime, program, record, ?_⟩
      · rw [hat.job_eq] at hmax
        exact hmax
      · rw [← hat.job_eq]
        exact hdelivery
  · obtain ⟨accepted, attempts, haccepted, hlife, hone, hmax⟩ := horderly.gone number hleft
    obtain rfl : accepted = job := Option.some.inj (haccepted.symm.trans hjob)
    exact ⟨_, hlife, hone, hmax, hleft⟩

/-- Every slot is taken, or no waiting job is due. -/
def IsSaturated (service : WebhookDispatcherService) (now : ℤ) : Prop :=
  maxConcurrentDeliveries ≤ service.activeDeliveries ∨
    ∀ ticket ∈ service.queue, now < ticket.job.nextAttemptTime

end WebhookDispatcherService

open WebhookDispatcherService

end VmsLite.Webhooks
