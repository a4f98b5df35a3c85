import Mathlib.Data.List.Sort
import VmsLite.Data.Json
import VmsLite.Exports.ExportService
import VmsLite.Exports.ZipArchive

/-!
# Evidence bundles

`buildEvidenceBundle` packs the video of a completed export with a manifest that lists the digest of
the video, an audit record that holds the digest of the manifest, and a script. `verify` is that
script: it reads the manifest and computes again the digest of every file the manifest lists. Of the
audit record it only prints something, which is left out here, as is all that it logs. What the
platform computes (SHA-256, CRC-32, JSON, UTF-8, dates as texts) is a parameter.
-/

set_option autoImplicit false

namespace VmsLite.Exports.Evidence

open Data

abbrev Text := List Char

structure Platform where
  /-- The digest in hexadecimal digits. -/
  sha256 : Bytes → Text
  crc32 : Bytes → UInt32
  /-- `JSON.stringify(value, null, 2)`. -/
  stringify : Json → Text
  parse : Text → Option Json
  /-- `toString('utf8')`. -/
  decode : Bytes → Text
  toISOString : ℤ → Text
  formatLocalTimestamp : ℤ → Text
  localDate : ℤ → Zip.LocalDate
  /-- The name and release of the operating system and the architecture. -/
  systemPlatform : Text

/-! ### The builder -/

structure ExportJob where
  id : Text
  cameraId : Text
  userId : Option Text
  startTime : ℤ
  endTime : ℤ
  status : ExportStatus
  filePath : Option Text
  sha256 : Option Text

structure CameraDetails where
  name : Text
  ip : Option Text
  manufacturer : Option Text
  model : Option Text

structure UserDetails where
  id : Text
  username : Text
  role : Text

structure Bookmark where
  id : Text
  cameraId : Text
  title : Text
  category : Text
  timestamp : ℤ
  description : Option Text

/-- What the service reads; a lookup that fails finds nothing. -/
structure Store where
  getExportJob : Text → Option ExportJob
  readFile : Text → Option Bytes
  findCamera : Text → Option CameraDetails
  findUser : Text → Option UserDetails
  bookmarks : List Bookmark

inductive BuildError
  | notReady (exportId : Text)
  | unreadable
  /-- A number does not fit the ZIP format. -/
  | outOfRange
  deriving DecidableEq, Repr

def BuildError.message : BuildError → String
  | .notReady exportId => "Export job " ++ String.ofList exportId ++ " is not ready or not found"
  | .unreadable => "ENOENT: no such file or directory, open"
  | .outOfRange => "The value of \"value\" is out of range."

structure Bundle where
  buffer : Bytes
  filename : Text
  sha256 : Text

def optional (text : Option Text) : Json := (text.map Json.string).getD .null

def requesterOf (store : Store) (job : ExportJob) : UserDetails :=
  let fallback : UserDetails :=
    { id := (job.userId.filter (· ≠ [])).getD "system".toList
      username := "operator".toList
      role := "OPERATOR".toList }
  match job.userId.filter (· ≠ []) with
  | none => fallback
  | some userId => (store.findUser userId).getD fallback

def cameraOf (store : Store) (job : ExportJob) : CameraDetails :=
  (store.findCamera job.cameraId).getD
    { name := "Camera".toList, ip := none, manufacturer := none, model := none }

def bookmarksOf (store : Store) (job : ExportJob) : List Bookmark :=
  (store.bookmarks.filter fun bookmark ↦ bookmark.cameraId = job.cameraId &&
    job.startTime ≤ bookmark.timestamp && bookmark.timestamp ≤ job.endTime).insertionSort
      fun first second ↦ first.timestamp ≤ second.timestamp

/-- `requestedBy`. -/
def UserDetails.json (user : UserDetails) : Json :=
  .object [("userId".toList, .string user.id), ("username".toList, .string user.username),
    ("role".toList, .string user.role)]

namespace Platform

variable (platform : Platform)

/-- The digest that the manifest gives: the recorded one, else that of the file. -/
def videoSha256 (job : ExportJob) (video : Bytes) : Text :=
  (job.sha256.filter (· ≠ [])).getD (platform.sha256 video)

def manifest (store : Store) (job : ExportJob) (video : Bytes) (now : ℤ) : Json :=
  .object
    [("version".toList, .string "1.0".toList), ("exportId".toList, .string job.id),
      ("cameraId".toList, .string job.cameraId),
      ("cameraName".toList, .string (cameraOf store job).name),
      ("startTime".toList, .string (platform.toISOString job.startTime)),
      ("endTime".toList, .string (platform.toISOString job.endTime)),
      -- `Math.round` of a number of seconds in thousandths
      ("durationSeconds".toList,
        .number ((max 1 ((job.endTime - job.startTime + 500) / 1000) : ℤ) : ℚ)),
      ("generatedAt".toList, .string (platform.toISOString now)),
      ("requestedBy".toList, (requesterOf store job).json),
      ("files".toList, .array [.object
        [("filename".toList, .string "video.mp4".toList),
          ("sha256".toList, .string (platform.videoSha256 job video)),
          ("sizeBytes".toList, .number (video.length : ℚ))]])]

def Bookmark.json (bookmark : Bookmark) : Json :=
  .object
    [("id".toList, .string bookmark.id), ("title".toList, .string bookmark.title),
      ("category".toList, .string bookmark.category),
      ("timestamp".toList, .string (platform.toISOString bookmark.timestamp)),
      ("description".toList, optional bookmark.description)]

def audit (store : Store) (job : ExportJob) (clientIp : Text) (manifestChecksum : Text)
    (now : ℤ) : Json :=
  let camera := cameraOf store job
  .object
    [("exportId".toList, .string job.id),
      ("generatedAt".toList, .string (platform.toISOString now)),
      ("generatedAtLocal".toList, .string (platform.formatLocalTimestamp now)),
      ("nodeVersion".toList, .string "Basic VMS v0.1.0".toList),
      ("systemPlatform".toList, .string platform.systemPlatform),
      ("requestIp".toList, .string clientIp),
      ("requestedBy".toList, (requesterOf store job).json),
      ("camera".toList, .object
        [("id".toList, .string job.cameraId), ("name".toList, .string camera.name),
          ("ip".toList, optional camera.ip),
          ("manufacturer".toList, optional camera.manufacturer),
          ("model".toList, optional camera.model)]),
      ("timelineBookmarks".toList,
        .array ((bookmarksOf store job).map (Bookmark.json platform))),
      ("evidenceIntegrity".toList, .object
        [("algorithm".toList, .string "SHA-256".toList),
          ("manifestChecksum".toList, .string manifestChecksum)])]

/-- The entries of the archive; the text of the script is a parameter. -/
def bundleEntries (script : Text) (store : Store) (job : ExportJob) (video : Bytes)
    (clientIp : Text) (now : ℤ) : List Zip.ZipEntry :=
  let date := some (.valid (platform.localDate now))
  let manifestJsonStr := platform.stringify (platform.manifest store job video now)
  let manifestChecksum := platform.sha256 (utf8 manifestJsonStr)
  let auditJsonStr := platform.stringify
    (platform.audit store job clientIp manifestChecksum now)
  [{ name := "video.mp4".toList, data := .buffer video, date },
    { name := "manifest.json".toList, data := .text manifestJsonStr, date },
    { name := "audit.json".toList, data := .text auditJsonStr, date },
    { name := "verify.js".toList, data := .text script, date }]

def buildEvidenceBundle (script : Text) (store : Store) (exportId clientIp : Text) (now : ℤ) :
    Except BuildError Bundle := do
  let job ← (store.getExportJob exportId).elim (.error (.notReady exportId)) .ok
  let filePath ← ((job.filePath.filter (· ≠ [])).filter fun _ ↦ job.status = .completed).elim
    (.error (.notReady exportId)) .ok
  let video ← (store.readFile filePath).elim (.error .unreadable) .ok
  let entries := platform.bundleEntries script store job video clientIp now
  let buffer ← (Zip.buildZipArchive platform.crc32 (fun _ ↦ platform.localDate now) entries).elim
    (.error .outOfRange) .ok
  let timestampClean := (platform.toISOString now).map fun char ↦
    if char = ':' || char = '.' then '-' else char
  return {
    buffer
    filename := "EVIDENCE_EXPORT_".toList ++ job.id ++ '_' :: timestampClean ++ ".zip".toList
    sha256 := platform.sha256 buffer }

end Platform

/-! ### The script -/

/-- What a path leads to. -/
inductive Entry
  | file (bytes : Bytes)
  | directory

/-- The directory that a bundle was unpacked to, and what other file names lead to. -/
structure Directory where
  files : List (Text × Bytes)
  elsewhere : Text → Option Entry

def Directory.entry (directory : Directory) (filename : Text) : Option Entry :=
  match directory.files.lookup filename with
  | some bytes => some (.file bytes)
  | none => directory.elsewhere filename

/-- Lower case; no other character becomes a hexadecimal digit. -/
def toLowerCase (text : Text) : Text := text.map Char.toLower

/-- `manifest.files`, where the script goes on with it: of anything but a list that is not empty it
exits with an error, or throws. -/
def filesOf (manifest : Json) : Option (List Json) :=
  match Json.property "files".toList manifest with
  | some (.array (file :: files)) => some (file :: files)
  | _ => none

namespace Platform

variable (platform : Platform)

/-- One round of the loop: whether the file matches. The script throws on a file without a name or a
digest, and on a directory. -/
def checkFile (directory : Directory) (file : Json) : Option Bool :=
  match Json.property "filename".toList file with
  | some (.string filename) =>
    match directory.entry filename with
    | none => some false
    | some .directory => none
    | some (.file bytes) =>
      match Json.property "sha256".toList file with
      | some (.string expected) =>
        some (toLowerCase (platform.sha256 bytes) = toLowerCase expected)
      | _ => none
  | _ => none

/-- The exit code of `verify.js`. -/
def verify (directory : Directory) : ℕ :=
  match directory.entry "manifest.json".toList with
  | some (.file bytes) =>
    match (platform.parse (platform.decode bytes)).bind filesOf with
    | none => 1
    | some files =>
      match files.mapM (platform.checkFile directory) with
      | none => 1
      | some matched => if matched.all id then 0 else 1
  | _ => 1

end Platform

end VmsLite.Exports.Evidence
