import Mathlib.Algebra.Group.Int.Defs
import Mathlib.Data.List.Nodup
import VmsLite.Async.Transition

/-!
# Tiered storage

`TieredStorageManager` offloads clips to a secondary storage provider, a few at a time. A task is an
object that the queue refers to and that the upload of the task holds on to, so that the tasks stand
in the order of their creation, and the queue holds references to them under their ids.

The code of a move runs up to its first await: the loop of `drainQueue` starts uploads one after the
other, and the end of an upload drains the queue again. The methods of a provider are asynchronous,
so that none of them throws before it has returned its promise.
-/

set_option autoImplicit false

namespace VmsLite.Storage

open VmsLite.Async

/-! ### The manager -/

/-- A reference to a task object. -/
abbrev TaskRef := ℕ

abbrev ProviderId := ℕ

inductive Reason
  | bookmark | alert | manual | policy
  deriving DecidableEq, Repr

inductive Status
  | pending | inProgress | completed | failed
  deriving DecidableEq, Repr

structure OffloadTask where
  id : String
  key : String
  reason : Reason
  status : Status
  remoteUri : Option String
  error : Option String
  queuedAt : ℕ
  completedAt : Option ℕ
  deriving DecidableEq, Repr

/-- What an upload awaits. -/
inductive Phase
  /-- `getStream` of the primary provider. -/
  | reading
  /-- `put` of a secondary provider. -/
  | putting (secondary : ProviderId)
  deriving DecidableEq, Repr

/-- A call of `processTask` that is not over. -/
structure Upload where
  task : TaskRef
  phase : Phase
  deriving DecidableEq, Repr

structure Manager where
  secondary : Option ProviderId
  maxConcurrent : ℕ
  /-- The task objects, in the order of their creation. -/
  tasks : List OffloadTask
  queue : List (String × TaskRef)
  activeUploads : ℤ
  uploads : List Upload
  /-- The tasks that `processTask` began to upload, and those that it handed to a secondary
  provider. No code reads these two. -/
  started : List TaskRef
  puts : List TaskRef
  deriving DecidableEq, Repr

namespace Manager

/-- A new manager. -/
def new (secondary : Option ProviderId) (maxConcurrentUploads : Option ℕ) : Manager where
  secondary := secondary
  maxConcurrent := maxConcurrentUploads.getD 2
  tasks := []
  queue := []
  activeUploads := 0
  uploads := []
  started := []
  puts := []

def statusOf (manager : Manager) (ref : TaskRef) : Option Status :=
  (manager.tasks[ref]?).map (·.status)

def modifyTask (manager : Manager) (ref : TaskRef) (change : OffloadTask → OffloadTask) : Manager :=
  { manager with tasks := manager.tasks.modify ref change }

/-- `processTask`, up to its first await. -/
def processTask (manager : Manager) (ref : TaskRef) : Manager :=
  if manager.secondary.isNone then
    manager.modifyTask ref fun task ↦
      { task with status := .failed, error := some "No secondary storage provider configured" }
  else
    { manager.modifyTask ref fun task ↦ { task with status := .inProgress } with
      activeUploads := manager.activeUploads + 1
      uploads := manager.uploads ++ [⟨ref, .reading⟩]
      started := manager.started ++ [ref] }

/-- The loop over the tasks of the queue. -/
def processPending (manager : Manager) : List TaskRef → Manager
  | [] => manager
  | ref :: refs =>
    if manager.statusOf ref = some .pending then
      let processed := manager.processTask ref
      if processed.activeUploads ≥ processed.maxConcurrent then processed
      else processed.processPending refs
    else manager.processPending refs

def drainQueue (manager : Manager) : Manager :=
  if manager.secondary.isNone then manager
  else if manager.activeUploads ≥ manager.maxConcurrent then manager
  else manager.processPending (manager.queue.map Prod.snd)

/-- `Map.set`: a key that is there keeps its place. -/
def setTask (queue : List (String × TaskRef)) (id : String) (ref : TaskRef) :
    List (String × TaskRef) :=
  if id ∈ queue.map Prod.fst then
    queue.map fun entry ↦ if entry.1 = id then (id, ref) else entry
  else queue ++ [(id, ref)]

def enqueueOffload (manager : Manager) (id key : String) (reason : Reason) (now : ℕ) : Manager :=
  let task : OffloadTask :=
    { id := id, key := key, reason := reason, status := .pending, remoteUri := none, error := none
      queuedAt := now, completedAt := none }
  drainQueue { manager with
    tasks := manager.tasks ++ [task]
    queue := setTask manager.queue id manager.tasks.length }

/-- The end of `processTask` for the upload at a place: what becomes of its task, then the `finally`
block. -/
def finish (manager : Manager) (place : ℕ) (ref : TaskRef) (change : OffloadTask → OffloadTask) :
    Manager :=
  drainQueue { manager.modifyTask ref change with
    activeUploads := manager.activeUploads - 1
    uploads := manager.uploads.eraseIdx place }

def completeTask (remoteUri : String) (now : ℕ) (task : OffloadTask) : OffloadTask :=
  { task with status := .completed, remoteUri := some remoteUri, completedAt := some now }

/-- The `catch` block, with the message of the error, if it has one. -/
def failTask (message : Option String) (task : OffloadTask) : OffloadTask :=
  { task with
    status := .failed
    error := some (match message with
      | none => "Offload stream transfer error"
      | some text => if text = "" then "Offload stream transfer error" else text) }

end Manager

/-! ### What happens to it -/

/-- A call of a method, or the answer of a provider to the upload at a place. -/
inductive Move
  | setSecondaryProvider (secondary : ProviderId)
  | enqueueOffload (id key : String) (reason : Reason) (now : ℕ)
  | streamOpened (place : ℕ)
  | uploaded (place : ℕ) (remoteUri : String) (now : ℕ)
  | rejected (place : ℕ) (message : Option String)
  deriving DecidableEq, Repr

/-- An answer to an upload that does not await it is no event. -/
def next (manager : Manager) : Move → Manager
  | .setSecondaryProvider secondary => { manager with secondary := some secondary }
  | .enqueueOffload id key reason now => manager.enqueueOffload id key reason now
  | .streamOpened place =>
    match manager.uploads[place]? with
    | some ⟨ref, .reading⟩ =>
      match manager.secondary with
      -- `put` of undefined throws, and the `catch` block of `processTask` runs
      | none => manager.finish place ref
          (Manager.failTask (some "Cannot read properties of undefined (reading 'put')"))
      | some secondary =>
        { manager with
          uploads := manager.uploads.set place ⟨ref, .putting secondary⟩
          puts := manager.puts ++ [ref] }
    | _ => manager
  | .uploaded place remoteUri now =>
    match manager.uploads[place]? with
    | some ⟨ref, .putting _⟩ => manager.finish place ref (Manager.completeTask remoteUri now)
    | _ => manager
  | .rejected place message =>
    match manager.uploads[place]? with
    | some ⟨ref, _⟩ => manager.finish place ref (Manager.failTask message)
    | none => manager

/-- The tasks of the queue with a status, as `getStats` counts them. -/
def count (manager : Manager) (status : Status) : ℕ :=
  manager.queue.countP fun entry ↦ manager.statusOf entry.2 = some status

structure Stats where
  pending : ℕ
  inProgress : ℕ
  completed : ℕ
  failed : ℕ
  deriving DecidableEq, Repr

def getStats (manager : Manager) : Stats where
  pending := count manager .pending
  inProgress := count manager .inProgress
  completed := count manager .completed
  failed := count manager .failed

end VmsLite.Storage
