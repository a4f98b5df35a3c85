import Mathlib.Data.List.Induction
import VmsLite.Recordings.Catalog
import VmsLite.Recordings.Evaluation

/-!
# The timeline

`RecordingCatalog.getTimelineSpans`: the footage of a camera in a window of time, stitched into
spans. The spans show exactly the segments that the query finds (`shows_timelineSpans`), which are
the first 3000 of the window by their start times. A date is the number of its day, and the text of
an instant is the instant.
-/

set_option autoImplicit false

namespace VmsLite.Recordings

open VmsLite.Async Program

def spanGapToleranceMs : ℤ := 5000

/-- The window of a query, where the code reads it from. -/
inductive TimelineWindow
  | between (startTime endTime : ℤ)
  | date (day : ℤ)
  | today
  deriving DecidableEq, Repr

structure TimelineQueryParams where
  cameraId : CameraId
  window : TimelineWindow
  deriving DecidableEq, Repr

structure TimelineSpanDto where
  recordingId : RecordingId
  startTime : ℤ
  endTime : ℤ
  durationSeconds : ℤ
  deriving DecidableEq, Repr

structure TimelineResponseDto where
  cameraId : CameraId
  date : ℤ
  playbackBaseUrl : String
  totalDurationSeconds : ℤ
  spans : List TimelineSpanDto
  deriving DecidableEq, Repr

/-- `Math.round(ms / 1000)`. -/
def roundSeconds (ms : ℤ) : ℤ := (ms + 500) / 1000

/-- The day of an instant. -/
def dayOf (time : ℤ) : ℤ := time / dayMs

namespace TimelineWindow

variable (now : ℤ) (window : TimelineWindow)

def startDate : ℤ :=
  match window with
  | between startTime _ => startTime
  | date day => day * dayMs
  | today => dayOf now * dayMs

def endDate : ℤ :=
  match window with
  | between _ endTime => endTime
  | date day => day * dayMs + dayMs - 1
  | today => dayOf now * dayMs + dayMs - 1

def dateStr : ℤ :=
  match window with
  | between startTime _ => dayOf startTime
  | date day => day
  | today => dayOf now

end TimelineWindow

/-- A span of one segment. -/
def TimelineSpanDto.ofSegment (segment : Recording) : TimelineSpanDto where
  recordingId := segment.id
  startTime := segment.startTime
  endTime := segment.endTime
  durationSeconds := roundSeconds (segment.endTime - segment.startTime)

/-- A span with one more segment. -/
def TimelineSpanDto.extend (last : TimelineSpanDto) (segment : Recording) : TimelineSpanDto :=
  let lastEnd := if last.endTime ≤ segment.endTime then segment.endTime else last.endTime
  { last with
    endTime := lastEnd
    durationSeconds := roundSeconds (lastEnd - last.startTime) }

/-- One round of the loop that stitches segments. -/
def stitch (spans : List TimelineSpanDto) (segment : Recording) : List TimelineSpanDto :=
  match spans.getLast? with
  | some last =>
    if segment.startTime - last.endTime ≤ spanGapToleranceMs then spans.dropLast ++
      [last.extend segment]
    else spans ++ [.ofSegment segment]
  | none => spans ++ [.ofSegment segment]

/-- The spans of some segments, in the order of their start times. -/
def timelineSpans (records : List Recording) : List TimelineSpanDto := records.foldl stitch []

def getTimelineSpans (params : TimelineQueryParams) (playbackBaseUrl : String) :
    Async TimelineResponseDto := do
  let now : ℤ ← call .clockNow
  let records : List Recording ← orThrow (← call (.findRecordingsInRange params.cameraId
    (params.window.startDate now) (params.window.endDate now) .available))
  let spans := timelineSpans records
  return {
    cameraId := params.cameraId
    date := params.window.dateStr now
    playbackBaseUrl
    totalDurationSeconds := spans.foldl (fun sum span ↦ sum + span.durationSeconds) 0
    spans }

/-! ### What spans show -/

/-- A segment lies inside a span. -/
def Inside (segment : Recording) (span : TimelineSpanDto) : Prop :=
  span.startTime ≤ segment.startTime ∧ segment.endTime ≤ span.endTime

/-- The spans show exactly some footage. -/
structure Shows (footage : List Recording) (spans : List TimelineSpanDto) : Prop where
  /-- Spans are in ascending order and more than the tolerance apart. -/
  apart : spans.Pairwise fun earlier later ↦
    earlier.startTime ≤ later.startTime ∧ spanGapToleranceMs < later.startTime - earlier.endTime
  complete : ∀ segment ∈ footage, ∃ span ∈ spans, Inside segment span ∧
    ∀ other ∈ spans, Inside segment other → other = span
  /-- A span starts with the segment that it names. -/
  starts : ∀ span ∈ spans, ∃ segment ∈ footage, segment.id = span.recordingId ∧
    segment.startTime = span.startTime ∧ Inside segment span
  /-- A span ends with the last of the segments inside it. -/
  ends : ∀ span ∈ spans,
    (∃ segment ∈ footage, Inside segment span ∧ segment.endTime = span.endTime) ∧
    ∀ segment ∈ footage, Inside segment span → segment.endTime ≤ span.endTime
  /-- What no segment covers inside a span is no longer than the tolerance. -/
  covered : ∀ span ∈ spans, ∀ first last, span.startTime ≤ first → first ≤ last → last ≤
    span.endTime →
    (∀ segment ∈ footage, Inside segment span → segment.endTime ≤ first ∨ last ≤
      segment.startTime) →
      last - first ≤ spanGapToleranceMs
  durations : ∀ span ∈ spans, span.durationSeconds = roundSeconds (span.endTime - span.startTime)

/-! ### Stitching -/

section Stitch

variable {spans : List TimelineSpanDto} {last : TimelineSpanDto} {segment : Recording}
  {footage : List Recording}

theorem stitch_nil : stitch [] segment = [.ofSegment segment] := rfl

theorem stitch_near (hnear : segment.startTime - last.endTime ≤ spanGapToleranceMs) :
    stitch (spans ++ [last]) segment = spans ++ [last.extend segment] := by
  unfold stitch
  rw [List.getLast?_concat, List.dropLast_concat]
  exact if_pos hnear

theorem stitch_far (hfar : spanGapToleranceMs < segment.startTime - last.endTime) :
    stitch (spans ++ [last]) segment = spans ++ [last] ++ [.ofSegment segment] := by
  unfold stitch
  rw [List.getLast?_concat]
  exact if_neg (not_le.mpr hfar)

theorem extend_endTime : (last.extend segment).endTime =
    if last.endTime ≤ segment.endTime then segment.endTime else last.endTime := rfl

theorem le_extend_endTime : last.endTime ≤ (last.extend segment).endTime ∧
    segment.endTime ≤ (last.extend segment).endTime := by
  rw [extend_endTime]
  split_ifs <;> omega

/-- Spans that have been stitched so far, without that a segment is in one only. -/
structure Stitched (footage : List Recording) (spans : List TimelineSpanDto) : Prop where
  apart : spans.Pairwise fun earlier later ↦
    earlier.startTime ≤ later.startTime ∧ spanGapToleranceMs < later.startTime - earlier.endTime
  complete : ∀ segment ∈ footage, ∃ span ∈ spans, Inside segment span
  starts : ∀ span ∈ spans, ∃ segment ∈ footage, segment.id = span.recordingId ∧
    segment.startTime = span.startTime ∧ Inside segment span
  ends : ∀ span ∈ spans, ∃ segment ∈ footage, Inside segment span ∧ segment.endTime = span.endTime
  covered : ∀ span ∈ spans, ∀ first last, span.startTime ≤ first → first ≤ last → last ≤
    span.endTime →
    (∀ segment ∈ footage, Inside segment span → segment.endTime ≤ first ∨ last ≤
      segment.startTime) →
      last - first ≤ spanGapToleranceMs
  durations : ∀ span ∈ spans, span.durationSeconds = roundSeconds (span.endTime - span.startTime)

theorem inside_ofSegment : Inside segment (.ofSegment segment) := ⟨le_rfl, le_rfl⟩

/-- A span of one segment has no gap. -/
theorem covered_ofSegment {first last : ℤ} (hfrom : segment.startTime ≤ first)
    (huntil : last ≤ segment.endTime)
    (hout : segment.endTime ≤ first ∨ last ≤ segment.startTime) :
        last - first ≤ spanGapToleranceMs := by
  unfold spanGapToleranceMs
  omega

/-- A segment far from the last span opens a span of its own. -/
theorem Stitched.far (hstitched : Stitched footage spans)
    (hapart : ∀ span ∈ spans, span.startTime ≤ segment.startTime ∧
      spanGapToleranceMs < segment.startTime - span.endTime) :
    Stitched (footage ++ [segment]) (spans ++ [.ofSegment segment]) where
  apart := by
    refine List.pairwise_append.mpr ⟨hstitched.apart, List.pairwise_singleton _ _,
      fun span hspan other hother ↦ ?_⟩
    obtain rfl := List.mem_singleton.mp hother
    exact hapart span hspan
  complete := by
    intro row hrow
    rcases List.mem_append.mp hrow with hold | hnew
    · obtain ⟨span, hspan, hinside⟩ := hstitched.complete row hold
      exact ⟨span, List.mem_append_left _ hspan, hinside⟩
    · obtain rfl := List.mem_singleton.mp hnew
      exact ⟨_, List.mem_append_right _ List.mem_cons_self, inside_ofSegment⟩
  starts := by
    intro span hspan
    rcases List.mem_append.mp hspan with hold | hnew
    · obtain ⟨row, hrow, hstart⟩ := hstitched.starts span hold
      exact ⟨row, List.mem_append_left _ hrow, hstart⟩
    · obtain rfl := List.mem_singleton.mp hnew
      exact ⟨segment, List.mem_append_right _ List.mem_cons_self, rfl, rfl, inside_ofSegment⟩
  ends := by
    intro span hspan
    rcases List.mem_append.mp hspan with hold | hnew
    · obtain ⟨row, hrow, hend⟩ := hstitched.ends span hold
      exact ⟨row, List.mem_append_left _ hrow, hend⟩
    · obtain rfl := List.mem_singleton.mp hnew
      exact ⟨segment, List.mem_append_right _ List.mem_cons_self, inside_ofSegment, rfl⟩
  covered := by
    intro span hspan first last hfrom hle huntil hout
    rcases List.mem_append.mp hspan with hold | hnew
    · exact hstitched.covered span hold first last hfrom hle huntil fun row hrow ↦
        hout row (List.mem_append_left _ hrow)
    · obtain rfl := List.mem_singleton.mp hnew
      exact covered_ofSegment hfrom huntil
        (hout segment (List.mem_append_right _ List.mem_cons_self) inside_ofSegment)
  durations := by
    intro span hspan
    rcases List.mem_append.mp hspan with hold | hnew
    · exact hstitched.durations span hold
    · obtain rfl := List.mem_singleton.mp hnew
      rfl

theorem Inside.extend {row : Recording} (hinside : Inside row last) :
    Inside row (last.extend segment) :=
  ⟨hinside.1, hinside.2.trans le_extend_endTime.1⟩

/-- A segment near the last span makes it longer. -/
theorem Stitched.near (hstitched : Stitched footage (spans ++ [last]))
    (hstart : last.startTime ≤ segment.startTime)
    (hproper : ∀ row ∈ footage, row.startTime ≤ row.endTime)
    (hnear : segment.startTime - last.endTime ≤ spanGapToleranceMs) :
    Stitched (footage ++ [segment]) (spans ++ [last.extend segment]) where
  apart := by
    obtain ⟨hbefore, -, hlast⟩ := List.pairwise_append.mp hstitched.apart
    refine List.pairwise_append.mpr ⟨hbefore, List.pairwise_singleton _ _,
      fun span hspan other hother ↦ ?_⟩
    obtain rfl := List.mem_singleton.mp hother
    exact hlast span hspan last List.mem_cons_self
  complete := by
    have hinside : Inside segment (last.extend segment) := ⟨hstart, le_extend_endTime.2⟩
    intro row hrow
    rcases List.mem_append.mp hrow with hold | hnew
    · obtain ⟨span, hspan, hrowInside⟩ := hstitched.complete row hold
      rcases List.mem_append.mp hspan with hspanOld | hspanLast
      · exact ⟨span, List.mem_append_left _ hspanOld, hrowInside⟩
      · obtain rfl := List.mem_singleton.mp hspanLast
        exact ⟨_, List.mem_append_right _ List.mem_cons_self, hrowInside.extend⟩
    · obtain rfl := List.mem_singleton.mp hnew
      exact ⟨_, List.mem_append_right _ List.mem_cons_self, hinside⟩
  starts := by
    intro span hspan
    rcases List.mem_append.mp hspan with hold | hnew
    · obtain ⟨row, hrow, hspec⟩ := hstitched.starts span (List.mem_append_left _ hold)
      exact ⟨row, List.mem_append_left _ hrow, hspec⟩
    · obtain rfl := List.mem_singleton.mp hnew
      obtain ⟨row, hrow, hid, hstartTime, hinside⟩ :=
        hstitched.starts last (List.mem_append_right _ List.mem_cons_self)
      exact ⟨row, List.mem_append_left _ hrow, hid, hstartTime, hinside.extend⟩
  ends := by
    intro span hspan
    rcases List.mem_append.mp hspan with hold | hnew
    · obtain ⟨row, hrow, hend⟩ := hstitched.ends span (List.mem_append_left _ hold)
      exact ⟨row, List.mem_append_left _ hrow, hend⟩
    · obtain rfl := List.mem_singleton.mp hnew
      by_cases hlonger : last.endTime ≤ segment.endTime
      · refine ⟨segment, List.mem_append_right _ List.mem_cons_self,
          ⟨hstart, le_extend_endTime.2⟩, ?_⟩
        rw [extend_endTime, if_pos hlonger]
      · obtain ⟨row, hrow, hinside, hend⟩ :=
          hstitched.ends last (List.mem_append_right _ List.mem_cons_self)
        refine ⟨row, List.mem_append_left _ hrow, hinside.extend, ?_⟩
        rw [extend_endTime, if_neg hlonger]
        exact hend
  covered := by
    intro span hspan start stop hfrom hle huntil hout
    rcases List.mem_append.mp hspan with hold | hnew
    · exact hstitched.covered span (List.mem_append_left _ hold) start stop hfrom hle huntil
        fun row hrow ↦ hout row (List.mem_append_left _ hrow)
    · obtain rfl := List.mem_singleton.mp hnew
      have hlastMem : last ∈ spans ++ [last] := List.mem_append_right _ List.mem_cons_self
      by_cases hwithin : stop ≤ last.endTime
      · exact hstitched.covered last hlastMem start stop hfrom hle hwithin fun row hrow hinside ↦
          hout row (List.mem_append_left _ hrow) hinside.extend
      · -- the gap ends after the old end of the span, so it lies before the segment
        have hsegment := hout segment (List.mem_append_right _ List.mem_cons_self)
          ⟨hstart, le_extend_endTime.2⟩
        obtain ⟨row, hrow, hinside, hend⟩ := hstitched.ends last hlastMem
        have hclosing := hout row (List.mem_append_left _ hrow) hinside.extend
        have hrowProper := hproper row hrow
        rw [extend_endTime] at huntil
        unfold spanGapToleranceMs at hnear ⊢
        split_ifs at huntil <;> omega
  durations := by
    intro span hspan
    rcases List.mem_append.mp hspan with hold | hnew
    · exact hstitched.durations span (List.mem_append_left _ hold)
    · obtain rfl := List.mem_singleton.mp hnew
      rfl

/-- Segments in the order of their start times are stitched into spans that show them. -/
theorem stitched_timelineSpans (hsorted : footage.Pairwise fun first second ↦ first.startTime ≤
    second.startTime)
    (hproper : ∀ row ∈ footage, row.startTime ≤ row.endTime) :
    Stitched footage (timelineSpans footage) := by
  induction footage using List.reverseRecOn with
  | nil =>
    refine ⟨List.Pairwise.nil, ?_, ?_, ?_, ?_, ?_⟩
    all_goals
      intro entry hentry
      cases hentry
  | append_singleton footage segment ih =>
    obtain ⟨hbefore, -, hlast⟩ := List.pairwise_append.mp hsorted
    have hstitched := ih hbefore fun row hrow ↦ hproper row (List.mem_append_left _ hrow)
    have hconcat : timelineSpans (footage ++ [segment]) =
        stitch (timelineSpans footage) segment := by
      simp only [timelineSpans, List.foldl_append, List.foldl_cons, List.foldl_nil]
    -- the segment starts after every span that there is
    have hafter : ∀ span ∈ timelineSpans footage, span.startTime ≤ segment.startTime := by
      intro span hspan
      obtain ⟨row, hrow, -, hstart, -⟩ := hstitched.starts span hspan
      rw [← hstart]
      exact hlast row hrow segment List.mem_cons_self
    rw [hconcat]
    rcases List.eq_nil_or_concat (timelineSpans footage) with hnil | ⟨spans, last, hspans⟩
    · rw [hnil] at hstitched ⊢
      exact hstitched.far fun span hspan ↦ absurd hspan List.not_mem_nil
    · rw [List.concat_eq_append] at hspans
      rw [hspans] at hstitched hafter ⊢
      have hlastMem : last ∈ spans ++ [last] := List.mem_append_right _ List.mem_cons_self
      by_cases hnear : segment.startTime - last.endTime ≤ spanGapToleranceMs
      · rw [stitch_near hnear]
        exact hstitched.near (hafter last hlastMem)
          (fun row hrow ↦ hproper row (List.mem_append_left _ hrow)) hnear
      · rw [stitch_far (not_le.mp hnear)]
        refine hstitched.far fun span hspan ↦ ⟨hafter span hspan, ?_⟩
        rcases List.mem_append.mp hspan with hold | hnew
        · have hapart := (List.pairwise_append.mp hstitched.apart).2.2 span hold last
            List.mem_cons_self
          have hlastStart := hafter last hlastMem
          omega
        · obtain rfl := List.mem_singleton.mp hnew
          exact not_le.mp hnear

/-- A segment lies inside one span only. -/
theorem Stitched.eq_of_inside (hstitched : Stitched footage spans)
    (hproper : segment.startTime ≤ segment.endTime) {first second : TimelineSpanDto}
    (hfirst : first ∈ spans) (hsecond : second ∈ spans) (hfirstInside : Inside segment first)
    (hsecondInside : Inside segment second) : first = second := by
  have hnever : ∀ {earlier later : TimelineSpanDto}, spanGapToleranceMs <
    later.startTime - earlier.endTime →
      Inside segment earlier → Inside segment later → False := by
    intro earlier later hgap hearlier hlater
    have hbefore := hearlier.2
    have hafter := hlater.1
    unfold spanGapToleranceMs at hgap
    omega
  have hall := List.Pairwise.forall_of_forall_of_flip
    (R := fun one other ↦ Inside segment one → Inside segment other → one = other)
    (fun _ _ _ _ ↦ rfl)
    (hstitched.apart.imp fun hapart hearlier hlater ↦ (hnever hapart.2 hearlier hlater).elim)
    (hstitched.apart.imp fun hapart hlater hearlier ↦ (hnever hapart.2 hearlier hlater).elim)
  exact hall hfirst hsecond hfirstInside hsecondInside

theorem Stitched.shows (hstitched : Stitched footage spans)
    (hproper : ∀ row ∈ footage, row.startTime ≤ row.endTime) : Shows footage spans where
  apart := hstitched.apart
  complete := by
    intro row hrow
    obtain ⟨span, hspan, hinside⟩ := hstitched.complete row hrow
    exact ⟨span, hspan, hinside, fun other hother hotherInside ↦
      hstitched.eq_of_inside (hproper row hrow) hother hspan hotherInside hinside⟩
  starts := hstitched.starts
  ends := fun span hspan ↦ ⟨hstitched.ends span hspan, fun _ _ hinside ↦ hinside.2⟩
  covered := hstitched.covered
  durations := hstitched.durations

/-- What spans show is a matter of the segments, not of their order. -/
theorem Shows.of_same_members {others : List Recording} (hshows : Shows footage spans)
    (hsame : ∀ row, row ∈ others ↔ row ∈ footage) : Shows others spans where
  apart := hshows.apart
  complete := fun row hrow ↦ hshows.complete row ((hsame row).mp hrow)
  starts := by
    intro span hspan
    obtain ⟨row, hrow, hstart⟩ := hshows.starts span hspan
    exact ⟨row, (hsame row).mpr hrow, hstart⟩
  ends := by
    intro span hspan
    obtain ⟨⟨row, hrow, hend⟩, hlast⟩ := hshows.ends span hspan
    exact ⟨⟨row, (hsame row).mpr hrow, hend⟩, fun other hother ↦
      hlast other ((hsame other).mp hother)⟩
  covered := fun span hspan first last hfrom hle huntil hout ↦
    hshows.covered span hspan first last hfrom hle huntil fun row hrow ↦
      hout row ((hsame row).mpr hrow)
  durations := hshows.durations

theorem shows_timelineSpans (hsorted : footage.Pairwise fun first second ↦ first.startTime ≤
    second.startTime)
    (hproper : ∀ row ∈ footage, row.startTime ≤ row.endTime) :
        Shows footage (timelineSpans footage) :=
  (stitched_timelineSpans hsorted hproper).shows hproper

end Stitch

/-! ### The answer to a query -/

/-- A catalogue whose segments do not end before they start. -/
structure TimelineCatalogue where
  world : World
  proper : ∀ row ∈ world.recordings.rows, row.startTime ≤ row.endTime

/-- The AVAILABLE segments of a camera that overlap the window of a query. -/
def footageIn (world : World) (params : TimelineQueryParams) : List Recording :=
  world.recordings.rows.filter fun row ↦
    row.cameraId = params.cameraId && row.status = .available &&
      row.startTime < params.window.endDate world.now &&
        row.endTime > params.window.startDate world.now

/-- The segments that the query hands out. -/
def shownIn (world : World) (params : TimelineQueryParams) : List Recording :=
  (oldestFirst (footageIn world params)).take maxTimelineSegments

/-- The timeline shows the first segments of a window, up to the bound of the query, which are all
of them unless there are more. -/
structure ShowsWindow (world : World) (params : TimelineQueryParams) (playbackBaseUrl : String) :
    Prop where
  bound : (shownIn world params).length = min maxTimelineSegments (footageIn world params).length
  shown : ∀ row ∈ shownIn world params, row ∈ footageIn world params
  left : ∀ row ∈ footageIn world params, row ∉ shownIn world params →
    ∀ other ∈ shownIn world params, other.startTime ≤ row.startTime
  answers : ∃ response, eval answer calm (getTimelineSpans params playbackBaseUrl) world =
      (.ok response, world) ∧ Shows (shownIn world params) response.spans ∧
    ((footageIn world params).length ≤ maxTimelineSegments →
      Shows (footageIn world params) response.spans)

theorem eval_getTimelineSpans (world : World) (params : TimelineQueryParams)
    (playbackBaseUrl : String) :
    eval answer calm (getTimelineSpans params playbackBaseUrl) world =
      (.ok {
        cameraId := params.cameraId
        date := params.window.dateStr world.now
        playbackBaseUrl
        totalDurationSeconds := (timelineSpans (shownIn world params)).foldl
          (fun sum span ↦ sum + span.durationSeconds) 0
        spans := timelineSpans (shownIn world params) }, world) := rfl

theorem oldestFirst_sorted (rows : List Recording) :
    (oldestFirst rows).Pairwise fun first second ↦ first.startTime ≤ second.startTime := by
  unfold oldestFirst
  exact List.pairwise_insertionSort _ _

/-- The timeline shows its window, up to the bound of the query. -/
theorem showsWindow (catalogue : TimelineCatalogue) (params : TimelineQueryParams)
    (playbackBaseUrl : String) : ShowsWindow catalogue.world params playbackBaseUrl := by
  have hsorted := oldestFirst_sorted (footageIn catalogue.world params)
  have hshown : ∀ row ∈ shownIn catalogue.world params, row ∈ footageIn catalogue.world params :=
    fun row hrow ↦ mem_oldestFirst.mp (List.mem_of_mem_take hrow)
  have hproper : ∀ row ∈ footageIn catalogue.world params, row.startTime ≤ row.endTime :=
    fun row hrow ↦ catalogue.proper row (List.mem_filter.mp hrow).1
  have hshows : Shows (shownIn catalogue.world params)
      (timelineSpans (shownIn catalogue.world params)) :=
    shows_timelineSpans (hsorted.sublist (List.take_sublist _ _)) fun row hrow ↦
      hproper row (hshown row hrow)
  refine ⟨?_, hshown, fun row hrow hleft other hother ↦ ?_, _,
    eval_getTimelineSpans _ _ _, hshows, ?_⟩
  · unfold shownIn
    rw [List.length_take, length_oldestFirst]
  · have hsplit := List.take_append_drop maxTimelineSegments
      (oldestFirst (footageIn catalogue.world params))
    rw [← hsplit] at hsorted
    have hdropped : row ∈ (oldestFirst (footageIn catalogue.world params)).drop
        maxTimelineSegments := by
      have hmem := mem_oldestFirst.mpr hrow
      rw [← hsplit] at hmem
      exact (List.mem_append.mp hmem).resolve_left hleft
    exact (List.pairwise_append.mp hsorted).2.2 other hother row hdropped
  · intro hfew
    refine hshows.of_same_members fun row ↦ ?_
    unfold shownIn
    rw [List.take_of_length_le ((length_oldestFirst _).trans_le hfew), mem_oldestFirst]

/-! ### A day of short segments -/

/-- A segment of one second every ten seconds. -/
def shortSegment (index : ℕ) : Recording where
  id := index
  cameraId := "gate"
  mediaMtxPath := "gate"
  filePath := List.replicate index "s"
  fileName := "s"
  startTime := index * 10000
  endTime := index * 10000 + 1000
  durationMs := 1000
  sizeBytes := 1

/-- The first rows of a table, one for each index. -/
def shortSegments (count : ℕ) : List Recording := (List.range count).map shortSegment

theorem mem_shortSegments {count : ℕ} {row : Recording} :
    row ∈ shortSegments count ↔ ∃ index < count, shortSegment index = row := by
  simp [shortSegments]

/-- A catalogue of some short segments. -/
def shortCatalogue (count : ℕ) : TimelineCatalogue where
  world :=
    { recordings :=
        { rows := shortSegments count
          nextId := count
          ids_nodup := by
            rw [shortSegments, List.map_map]
            exact List.nodup_range.map fun _ _ hsame ↦ hsame
          paths_nodup := by
            rw [shortSegments, List.map_map]
            exact List.nodup_range.map fun first second hsame ↦ by
              simpa [shortSegment] using congrArg List.length hsame
          ids_lt := by
            intro row hrow
            obtain ⟨index, hindex, rfl⟩ := mem_shortSegments.mp hrow
            exact hindex } }
  proper := by
    intro row hrow
    obtain ⟨index, -, rfl⟩ := mem_shortSegments.mp hrow
    simp only [shortSegment]
    omega

def firstDay : TimelineQueryParams where
  cameraId := "gate"
  window := .date 0

/-- A day has room for 8640 segments. -/
theorem footageIn_shortCatalogue {count : ℕ} (hday : count ≤ 8640) :
    footageIn (shortCatalogue count).world firstDay = shortSegments count := by
  refine List.filter_eq_self.mpr fun row hrow ↦ ?_
  obtain ⟨index, hindex, rfl⟩ := mem_shortSegments.mp hrow
  simp [shortSegment, firstDay, TimelineWindow.endDate, TimelineWindow.startDate, dayMs]
  omega

theorem mem_shownIn_shortCatalogue {count : ℕ} (hday : count ≤ 8640) {row : Recording}
    (hrow : row ∈ shownIn (shortCatalogue count).world firstDay) :
    ∃ index < maxTimelineSegments, shortSegment index = row := by
  have hsorted : (shortSegments count).Pairwise
      fun first second ↦ first.startTime ≤ second.startTime := by
    refine List.pairwise_map.mpr (List.pairwise_lt_range.imp fun {first second} hlt ↦ ?_)
    simp only [shortSegment]
    omega
  have hsame : oldestFirst (shortSegments count) = shortSegments count := hsorted.insertionSort_eq
  unfold shownIn at hrow
  rw [footageIn_shortCatalogue hday, hsame, shortSegments, ← List.map_take, List.take_range] at hrow
  obtain ⟨index, hindex, hrow⟩ := mem_shortSegments.mp hrow
  exact ⟨index, hindex.trans_le (Nat.min_le_left _ _), hrow⟩

/-- The last of too many segments is in no span. -/
theorem not_shows_shortCatalogue {count : ℕ} (hmany : maxTimelineSegments < count)
    (hday : count ≤ 8640) :
    ¬ Shows (footageIn (shortCatalogue count).world firstDay)
      (timelineSpans (shownIn (shortCatalogue count).world firstDay)) := by
  intro hshows
  have hlast : shortSegment (count - 1) ∈ footageIn (shortCatalogue count).world firstDay := by
    rw [footageIn_shortCatalogue hday]
    exact mem_shortSegments.mpr ⟨count - 1, by omega, rfl⟩
  obtain ⟨span, hspan, hinside, -⟩ := hshows.complete _ hlast
  -- every span ends with a segment that the query handed out
  have hsorted := oldestFirst_sorted (footageIn (shortCatalogue count).world firstDay)
  have hstitched := @stitched_timelineSpans (shownIn (shortCatalogue count).world firstDay)
    (hsorted.sublist (List.take_sublist _ _)) fun row hrow ↦ (shortCatalogue count).proper row
      (List.mem_filter.mp (mem_oldestFirst.mp (List.mem_of_mem_take hrow))).1
  obtain ⟨row, hrow, -, hend⟩ := hstitched.ends span hspan
  obtain ⟨index, hindex, rfl⟩ := mem_shownIn_shortCatalogue hday hrow
  have hlater := hinside.2
  rw [← hend] at hlater
  simp only [shortSegment] at hlater
  omega

/-- With 3001 segments in a day the last of them is not shown. -/
theorem not_shows_crowdedDay :
    ¬ ∃ response, eval answer calm (getTimelineSpans firstDay "") (shortCatalogue 3001).world =
        (.ok response, (shortCatalogue 3001).world) ∧
      Shows (footageIn (shortCatalogue 3001).world firstDay) response.spans := by
  rintro ⟨response, heval, hshows⟩
  rw [eval_getTimelineSpans] at heval
  have hresponse := Except.ok.inj (Prod.ext_iff.mp heval).1
  rw [← hresponse] at hshows
  dsimp only at hshows
  have hmany : maxTimelineSegments < 3001 := by
    unfold maxTimelineSegments
    omega
  have hday : 3001 ≤ 8640 := by omega
  exact not_shows_shortCatalogue hmany hday hshows

end VmsLite.Recordings
