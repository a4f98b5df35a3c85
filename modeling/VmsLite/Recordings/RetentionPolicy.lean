import VmsLite.Recordings.World

/-!
# The retention policy

`RetentionPolicy` of `retention-policy.ts`: which of some candidate segments may be deleted. A
segment is due by its age, or by capacity at once, and must be on no hold: legal hold, the window
around a bookmark of its camera, the range of an export that is queued or running. The bookmarks and
the exports are two queries of one `Promise.all`, so either may be answered first.
-/

set_option autoImplicit false

namespace VmsLite.Recordings

open VmsLite.Async Program

/-- Milliseconds in a day. -/
def dayMs : ℤ := 24 * 60 * 60 * 1000

structure RetentionDays where
  continuous : ℤ
  event : ℤ
  incident : ℤ
  deriving DecidableEq, Repr

/-- `Partial<RetentionDays>`. -/
structure RetentionDaysPatch where
  continuous : Option ℤ := none
  event : Option ℤ := none
  incident : Option ℤ := none

inductive PurgeMode
  | age | capacity
  deriving DecidableEq, Repr

structure RetentionPolicy where
  days : RetentionDays := { continuous := 7, event := 15, incident := 60 }
  bookmarkWindowMs : ℤ := 120 * 1000
  deriving DecidableEq, Repr

namespace RetentionPolicy

variable (policy : RetentionPolicy)

def setDays (days : RetentionDaysPatch) : RetentionPolicy :=
  { policy with
    days :=
      { continuous := max 0 (days.continuous.getD policy.days.continuous)
        event := max 0 (days.event.getD policy.days.event)
        incident := max 0 (days.incident.getD policy.days.incident) } }

/-- Configured lifetimes, raised so that a longer-lived tier never expires sooner. -/
def getDays : RetentionDays :=
  let event := max policy.days.event policy.days.continuous
  { continuous := policy.days.continuous, event, incident := max policy.days.incident event }

/-- How long a segment lives, by its tier or by the override. -/
def lifetimeMs (overrideDays : Option ℤ) (segment : Recording) : ℤ :=
  overrideDays.getD
    (match segment.retentionTier with
      | .incident => policy.getDays.incident
      | .event => policy.getDays.event
      | _ => policy.getDays.continuous) * dayMs

def isLegalHold (segment : Recording) : Bool :=
  segment.isProtected || segment.retentionTier = .protectedTier

def overlapsAny (segment : Recording) (windows : List Window) : Bool :=
  windows.any (overlapsWindow segment)

/-- What a bookmark keeps: its camera's footage either side of it. -/
def bookmarkWindow (bookmark : Bookmark) : Window where
  cameraId := bookmark.cameraId
  start := bookmark.timestamp - policy.bookmarkWindowMs
  stop := bookmark.timestamp + policy.bookmarkWindowMs

/-- What an active export keeps. -/
def exportWindow (job : ExportJob) : Window where
  cameraId := job.cameraId
  start := job.startTime
  stop := job.endTime

/-- `new Date(8.64e15)`, the last instant a `Date` can hold. -/
def lastInstant : ℤ := 8640000000000000

/-- Where `holdWindows` starts to look for bookmarks. -/
def holdsFrom (segments : List Recording) : ℤ :=
  match (segments.map Recording.startTime).min? with
  | some first => first - policy.bookmarkWindowMs
  | none => 0

/-- Where `holdWindows` stops looking for bookmarks. -/
def holdsTo (segments : List Recording) : ℤ :=
  match (segments.map Recording.endTime).max? with
  | some last => last + policy.bookmarkWindowMs
  | none => lastInstant

/-- Bookmark and export windows, limited to the time span of `segments` unless there are none. -/
def holdWindows (segments : List Recording) : Async (List Window) := do
  if ← call .promiseAllOrder then do
    let bookmarks ← orThrow
      (← call (.findBookmarks (policy.holdsFrom segments) (policy.holdsTo segments)))
    let exports ← orThrow (← call .findActiveExports)
    pure (bookmarks.map policy.bookmarkWindow ++ exports.map exportWindow)
  else do
    let exports ← orThrow (← call .findActiveExports)
    let bookmarks ← orThrow
      (← call (.findBookmarks (policy.holdsFrom segments) (policy.holdsTo segments)))
    pure (bookmarks.map policy.bookmarkWindow ++ exports.map exportWindow)

/-- The candidates that are neither buffered nor on legal hold and, in a purge by age, old enough
at `now`. -/
def due (now : ℤ) (candidates : List Recording) (mode : PurgeMode) (overrideDays : Option ℤ) :
    List Recording :=
  let unheld := candidates.filter fun segment ↦
    segment.status ≠ .buffered && !isLegalHold segment
  match mode with
  | .age => unheld.filter fun segment ↦
      segment.startTime < now - policy.lifetimeMs overrideDays segment
  | .capacity => unheld

/-- Of these candidates, the ones that may be deleted now. -/
def deletable (candidates : List Recording) (mode : PurgeMode) (overrideDays : Option ℤ) :
    Async (List Recording) := do
  let now ← call .clockNow
  let due := policy.due now candidates mode overrideDays
  if due.isEmpty then pure []
  else do
    let windows ← policy.holdWindows due
    pure (due.filter fun segment ↦ !overlapsAny segment windows)

/-- Bytes the system will never reclaim on its own. -/
def protectedBytes : Async ℕ := do
  let windows ← policy.holdWindows []
  let held ← orThrow (← call (.findHeldRecordings windows))
  pure (held.foldl (fun total segment ↦ total + segment.sizeBytes) 0)

end RetentionPolicy

end VmsLite.Recordings
