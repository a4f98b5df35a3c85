import VmsLite.Recordings.Evaluation

/-!
# Retention, segment by segment

`RetentionPolicy.deletable` asks for the bookmarks of the time span of a whole batch. What it says
of a segment is nevertheless a matter of that segment alone and of all bookmarks and exports
(`decidesPointwise`), and a tier that lives longer never lets it go sooner.
-/

set_option autoImplicit false

namespace VmsLite.Recordings

open VmsLite.Async Program

/-- How long-lived a tier is. -/
def RetentionTier.rank : RetentionTier → ℕ
  | .continuous => 0
  | .event => 1
  | .incident => 2
  | .protectedTier => 3

/-- A bookmark or an active export whose window overlaps a segment of its camera. -/
def Overlaps (segment : Recording) (cameraId : CameraId) (start stop : ℤ) : Prop :=
  cameraId = segment.cameraId ∧ segment.startTime < stop ∧ start < segment.endTime

namespace RetentionPolicy

variable (policy : RetentionPolicy)

/-- The rule for one segment, among all the bookmarks and exports that there are. -/
structure MayGo (world : World) (mode : PurgeMode) (overrideDays : Option ℤ) (segment : Recording) :
    Prop where
  unbuffered : segment.status ≠ .buffered
  unprotected : segment.isProtected = false ∧ segment.retentionTier ≠ .protectedTier
  past : mode = .age → segment.startTime < world.now - policy.lifetimeMs overrideDays segment
  unbookmarked : ∀ bookmark ∈ world.bookmarks, ¬ Overlaps segment bookmark.cameraId
    (bookmark.timestamp - policy.bookmarkWindowMs) (bookmark.timestamp + policy.bookmarkWindowMs)
  unexported : ∀ job ∈ world.exportJobs, job.status = .queued ∨ job.status = .running →
    ¬ Overlaps segment job.cameraId job.startTime job.endTime

/-- A batch is answered with its members that may go, and a longer-lived tier lets none go
sooner. -/
structure DecidesPointwise : Prop where
  exact : ∀ (world : World) (candidates : List Recording) (mode : PurgeMode)
    (overrideDays : Option ℤ),
    ∃ picked, eval answer calm (policy.deletable candidates mode overrideDays) world =
        (.ok picked, world) ∧ picked.Sublist candidates ∧
      ∀ segment, segment ∈ picked ↔ segment ∈ candidates ∧
        policy.MayGo world mode overrideDays segment
  tiers : ∀ (world : World) (mode : PurgeMode) (overrideDays : Option ℤ) (segment : Recording)
    (shorter longer : RetentionTier), shorter.rank ≤ longer.rank →
      policy.MayGo world mode overrideDays { segment with retentionTier := longer } →
        policy.MayGo world mode overrideDays { segment with retentionTier := shorter }

variable {policy} {world : World} {mode : PurgeMode} {overrideDays : Option ℤ} {segment : Recording}

/-- No window of a bookmark or of an active export overlaps a segment. -/
theorem overlapsAny_holds : overlapsAny segment (policy.holds world) = false ↔
    (∀ bookmark ∈ world.bookmarks, ¬ Overlaps segment bookmark.cameraId
      (bookmark.timestamp - policy.bookmarkWindowMs)
      (bookmark.timestamp + policy.bookmarkWindowMs)) ∧
    ∀ job ∈ world.exportJobs, job.status = .queued ∨ job.status = .running →
      ¬ Overlaps segment job.cameraId job.startTime job.endTime := by
  simp only [overlapsAny, holds, List.any_append, List.any_map, List.any_filter,
    Bool.or_eq_false_iff,
    List.any_eq_false, Function.comp_apply, Bool.and_eq_true, Bool.or_eq_true,
      decide_eq_true_eq, not_and,
    overlapsWindow_iff, bookmarkWindow, exportWindow, Overlaps]

theorem mayDelete_iff :
    policy.mayDelete world mode overrideDays segment = true ↔
        policy.MayGo world mode overrideDays segment := by
  have hdue : policy.isDue world.now mode overrideDays segment = true ↔
      segment.status ≠ .buffered ∧
        (segment.isProtected = false ∧ segment.retentionTier ≠ .protectedTier) ∧
        (mode = .age → segment.startTime < world.now - policy.lifetimeMs overrideDays segment) := by
    cases mode <;> simp [isDue, isLegalHold, and_assoc]
  rw [mayDelete, Bool.and_eq_true, Bool.not_eq_true', hdue, overlapsAny_holds]
  constructor
  · rintro ⟨⟨hunbuffered, hunprotected, hpast⟩, hunbookmarked, hunexported⟩
    exact ⟨hunbuffered, hunprotected, hpast, hunbookmarked, hunexported⟩
  · intro hrule
    exact ⟨⟨hrule.unbuffered, hrule.unprotected, hrule.past⟩, hrule.unbookmarked, hrule.unexported⟩

/-- The lifetimes of the tiers are ordered, whatever is configured. -/
theorem getDays_ordered (policy : RetentionPolicy) :
    policy.getDays.continuous ≤ policy.getDays.event ∧ policy.getDays.event ≤
        policy.getDays.incident :=
  ⟨le_max_right .., le_max_right ..⟩

theorem lifetimeMs_mono {shorter longer : RetentionTier} (hrank : shorter.rank ≤ longer.rank)
    (hlonger : longer ≠ .protectedTier) :
    policy.lifetimeMs overrideDays { segment with retentionTier := shorter } ≤
      policy.lifetimeMs overrideDays { segment with retentionTier := longer } := by
  have hordered := policy.getDays_ordered
  have hday : (0 : ℤ) ≤ dayMs := by decide
  unfold lifetimeMs
  refine Int.mul_le_mul_of_nonneg_right ?_ hday
  cases overrideDays with
  | some days => exact le_rfl
  | none =>
    cases shorter <;> cases longer <;> simp [RetentionTier.rank] at hrank hlonger ⊢ <;> omega

theorem MayGo.shorter {shorter longer : RetentionTier} (hrank : shorter.rank ≤ longer.rank)
    (hrule : policy.MayGo world mode overrideDays { segment with retentionTier := longer }) :
    policy.MayGo world mode overrideDays { segment with retentionTier := shorter } where
  unbuffered := hrule.unbuffered
  unprotected := by
    have hlonger : longer ≠ .protectedTier := hrule.unprotected.2
    refine ⟨hrule.unprotected.1, ?_⟩
    rintro rfl
    cases longer <;> simp [RetentionTier.rank] at hrank hlonger
  past := by
    intro hage
    have hpast := hrule.past hage
    have hlifetime := @lifetimeMs_mono policy overrideDays segment _ _ hrank hrule.unprotected.2
    have hsame : ({ segment with retentionTier := longer } : Recording).startTime =
      segment.startTime := rfl
    rw [hsame] at hpast
    show segment.startTime < _
    omega
  unbookmarked := hrule.unbookmarked
  unexported := hrule.unexported

end RetentionPolicy

end VmsLite.Recordings
