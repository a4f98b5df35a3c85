import Mathlib.Data.List.Infix
import VmsLite.Recordings.Catalog

/-!
# Segment files

The names of the files MediaMTX writes, `parseSegmentFileTime`, and the `SegmentValidator` that
looks at a file before it enters the catalogue. `Date.UTC` lets every field overflow into the next,
and reads the years 0 to 99 as 1900 to 1999. The validator's last check, of a duration that is not a
number, is left out: durations are whole milliseconds here.
-/

set_option autoImplicit false

namespace VmsLite.Recordings

open VmsLite.Async Program

/-! ### Names -/

/-- The fields of a segment file name; `micros` are the digits of the fraction. -/
structure SegmentTime where
  year : ℕ
  month : ℕ
  day : ℕ
  hour : ℕ
  minute : ℕ
  second : ℕ
  micros : List Char := []
  deriving DecidableEq, Repr

def digitValue (digits : List Char) : ℕ :=
  digits.foldl (fun total digit ↦ 10 * total + (digit.toNat - '0'.toNat)) 0

/-- `\d{count}`: the value of the digits, and what follows them. -/
def takeDigits (count : ℕ) (chars : List Char) : Option (ℕ × List Char) :=
  if (chars.take count).length = count && (chars.take count).all Char.isDigit then
    some (digitValue (chars.take count), chars.drop count)
  else none

def takeChar (expected : Char) : List Char → Option (List Char)
  | char :: rest => if char = expected then some rest else none
  | [] => none

/-- `(?:-(\d{1,6}))?`: the digits of the fraction, if there are any, and what follows them. -/
def takeMicros (chars : List Char) : List Char × List Char :=
  match chars with
  | '-' :: rest =>
    let digits := (rest.take 6).takeWhile Char.isDigit
    if digits.isEmpty then ([], chars) else (digits, rest.drop digits.length)
  | _ => ([], chars)

/-- The regular expression of `parseSegmentFileTime` at the start of a text. -/
def matchSegmentTime (chars : List Char) : Option (SegmentTime × List Char) := do
  let (year, chars) ← takeDigits 4 chars
  let (month, chars) ← takeDigits 2 (← takeChar '-' chars)
  let (day, chars) ← takeDigits 2 (← takeChar '-' chars)
  let (hour, chars) ← takeDigits 2 (← takeChar '_' chars)
  let (minute, chars) ← takeDigits 2 (← takeChar '-' chars)
  let (second, chars) ← takeDigits 2 (← takeChar '-' chars)
  let (micros, chars) := takeMicros chars
  pure ({ year, month, day, hour, minute, second, micros }, chars)

/-- `SEGMENT_FILE.test`. -/
def isSegmentFile (name : String) : Bool :=
  match matchSegmentTime name.toList with
  | some (_, rest) => rest = ".mp4".toList
  | none => false

/-- Days from 1970-01-01 to the first of a month, months counted from the start of year 0. -/
def daysToMonth (months : ℤ) : ℤ :=
  let month := months % 12 + 1
  let year := months / 12 - if month ≤ 2 then 1 else 0
  let era := year / 400
  let yearOfEra := year - era * 400
  let dayOfYear := (153 * (month + if month ≤ 2 then 9 else -3) + 2) / 5
  era * 146097 + yearOfEra * 365 + yearOfEra / 4 - yearOfEra / 100 + dayOfYear - 719468

/-- `Date.UTC`, the month counted from 1. -/
def dateUtc (year month day hour minute second ms : ℤ) : ℤ :=
  let fullYear := if 0 ≤ year ∧ year ≤ 99 then 1900 + year else year
  let days := daysToMonth (12 * fullYear + (month - 1)) + day - 1
  (((days * 24 + hour) * 60 + minute) * 60 + second) * 1000 + ms

/-- The fraction of a second, rounded up to the next millisecond: playback rejects a start even a
microsecond before the first segment. -/
def SegmentTime.ms (time : SegmentTime) : ℕ :=
  (digitValue (time.micros ++ List.replicate (6 - time.micros.length) '0') + 999) / 1000

def SegmentTime.toMs (time : SegmentTime) : ℤ :=
  dateUtc time.year time.month time.day time.hour time.minute time.second time.ms

/-- The start time MediaMTX encodes in a file name. -/
def parseSegmentFileTime (name : String) : Option ℤ :=
  (name.toList.tails.findSome? matchSegmentTime).map fun found ↦ found.1.toMs

/-- The name of a segment file has a start time. -/
theorem parseSegmentFileTime_isSome {name : String} (hname : isSegmentFile name = true) :
    (parseSegmentFileTime name).isSome = true := by
  unfold isSegmentFile at hname
  cases hmatch : matchSegmentTime name.toList with
  | none => simp [hmatch] at hname
  | some found =>
    rw [parseSegmentFileTime, Option.isSome_map, List.findSome?_isSome_iff]
    exact ⟨name.toList, (List.mem_tails _ _).mpr List.suffix_rfl, by rw [hmatch]; rfl⟩

example : parseSegmentFileTime "2026-01-01_00-00-01-000001.mp4" = some 1767225601001 := by decide

/-! ### Validation -/

def minSegmentBytes : ℕ := 1024

def defaultQuietPeriodMs : ℤ := 15000

inductive ValidationFailureReason
  | outsideRoot | fileNotFound | fileTooSmall | quietPeriodInFlight | invalidContainer
  | invalidTimestamps
  deriving DecidableEq, Repr

def ValidationFailureReason.name : ValidationFailureReason → String
  | .outsideRoot => "OUTSIDE_ROOT"
  | .fileNotFound => "FILE_NOT_FOUND"
  | .fileTooSmall => "FILE_TOO_SMALL"
  | .quietPeriodInFlight => "QUIET_PERIOD_IN_FLIGHT"
  | .invalidContainer => "INVALID_CONTAINER"
  | .invalidTimestamps => "INVALID_TIMESTAMPS"

structure SegmentValidationSuccess where
  sizeBytes : ℕ
  durationMs : ℤ
  startTime : ℤ
  endTime : ℤ
  deriving DecidableEq, Repr

structure SegmentValidationFailure where
  status : SegmentStatus
  reason : ValidationFailureReason
  error : String
  deriving DecidableEq, Repr

structure SegmentValidationOptions where
  filePath : Path
  durationMs : Option ℤ := none
  payloadStartTime : Option ℤ := none
  quietPeriodMs : Option ℤ := none
  minSizeBytes : Option ℕ := none

/-- The first boxes of an fMP4 container. -/
def validInitialBoxes : List String := ["ftyp", "styp", "moof", "moov", "free", "skip", "wide"]

/-- Checks the first box of a container; the name of the box when there is one. -/
def validateMp4ContainerHeader (buffer : List UInt8) : Bool × Option String :=
  match buffer with
  | size3 :: size2 :: size1 :: size0 :: type3 :: type2 :: type1 :: type0 :: _ =>
    let boxSize := ((size3.toNat * 256 + size2.toNat) * 256 + size1.toNat) * 256 + size0.toNat
    -- `toString('ascii')` clears the top bit of every byte
    let boxType := String.ofList
      ([type3, type2, type1, type0].map fun byte ↦ Char.ofNat (byte.toNat % 128))
    if boxType ∉ validInitialBoxes then (false, some boxType)
    else if boxSize ≠ 0 && boxSize ≠ 1 && boxSize < 8 then (false, some boxType)
    else (true, some boxType)
  | _ => (false, none)

/-- Verifies that a segment on disk is complete, uncorrupted and safe to catalogue. -/
def validate (recordingsRoot : Path) (opts : SegmentValidationOptions) :
    Async (Except SegmentValidationFailure SegmentValidationSuccess) :=
  if isWithinRoot recordingsRoot opts.filePath then do
    match ← call (.stat opts.filePath) with
    | .error err =>
      pure (.error { status := .quarantined, reason := .fileNotFound, error := err.message })
    | .ok stat =>
      let minSize := opts.minSizeBytes.getD minSegmentBytes
      let quietPeriodMs := opts.quietPeriodMs.getD defaultQuietPeriodMs
      let now ← call .clockNow
      if stat.size < minSize then
        pure (.error
          { status := .quarantined
            reason := .fileTooSmall
            error := "File size " ++ toString stat.size ++ " bytes is below threshold " ++
              toString minSize ++ " bytes" })
      else if 0 < quietPeriodMs && now - stat.mtimeMs < quietPeriodMs then
        pure (.error
          { status := .validating
            reason := .quietPeriodInFlight
            error := "File modified " ++ toString (now - stat.mtimeMs) ++
              "ms ago, quiet period is " ++ toString quietPeriodMs ++ "ms" })
      else do
        match ← call (.readHeader opts.filePath) with
        | .error err =>
          pure (.error
            { status := .quarantined, reason := .invalidContainer, error := err.message })
        | .ok header =>
          match validateMp4ContainerHeader (header.take (min 4096 stat.size)) with
          | (false, primaryBox) =>
            pure (.error
              { status := .quarantined
                reason := .invalidContainer
                error := "Corrupt or unrecognized MP4 box header: " ++
                  primaryBox.getD "empty" })
          | (true, _) =>
            let fileName := opts.filePath.getLastD ""
            match opts.payloadStartTime.orElse fun _ ↦ parseSegmentFileTime fileName with
            | none =>
              pure (.error
                { status := .quarantined
                  reason := .invalidTimestamps
                  error :=
                    "Could not parse valid start timestamp from filename or payload: " ++
                      fileName })
            | some startTime =>
              let durationMs := match opts.durationMs with
                | some given => if given ≤ 0 then max 100 (stat.mtimeMs - startTime) else given
                | none => max 100 (stat.mtimeMs - startTime)
              pure (.ok
                { sizeBytes := stat.size
                  durationMs
                  startTime
                  endTime := startTime + durationMs })
  else
    pure (.error
      { status := .quarantined
        reason := .outsideRoot
        error := "Segment path " ++ renderPath opts.filePath ++ " escapes recordings root " ++
          renderPath recordingsRoot })

end VmsLite.Recordings
