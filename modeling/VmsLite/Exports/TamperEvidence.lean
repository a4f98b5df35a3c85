import VmsLite.Data.Except
import VmsLite.Exports.EvidenceBundle
import VmsLite.Exports.ReadableArchives

/-!
# What the verify script detects

The script exits with 0 just when the manifest stands: it lists at least one file, and every file it
lists is there with the digest it gives (`verify_eq_zero_iff`). So as long as the manifest of the
bundle is in place, the script accepts the exported video and no other, whatever happened to the
other files. The manifest itself stands under no digest that the script compares: whoever replaces it
together with the video passes (`detectsTampering`).
-/

set_option autoImplicit false

namespace VmsLite.Exports.Evidence

open Data

/-! ### Manifests that stand -/

variable {platform : Platform} {directory : Directory}

/-- A listed file is there with the digest that the list gives. -/
def Platform.FileStands (platform : Platform) (directory : Directory) (file : Json) : Prop :=
  ∃ filename expected bytes, Json.property "filename".toList file = some (.string filename) ∧
    Json.property "sha256".toList file = some (.string expected) ∧
      directory.entry filename = some (.file bytes) ∧
        toLowerCase (platform.sha256 bytes) = toLowerCase expected

/-- A manifest lists at least one file, and every file that it lists stands. -/
def Platform.ManifestStands (platform : Platform) (directory : Directory) (bytes : Bytes) : Prop :=
  ∃ manifest files, platform.parse (platform.decode bytes) = some manifest ∧
    filesOf manifest = some files ∧ ∀ file ∈ files, platform.FileStands directory file

theorem checkFile_eq_true_iff {file : Json} :
    platform.checkFile directory file = some true ↔ platform.FileStands directory file := by
  constructor
  · intro hchecked
    unfold Platform.checkFile at hchecked
    split at hchecked
    next filename hfilename =>
      split at hchecked
      · cases hchecked
      · cases hchecked
      next bytes hentry =>
        split at hchecked
        next expected hexpected =>
          exact ⟨filename, expected, bytes, hfilename, hexpected, hentry,
            of_decide_eq_true (Option.some.inj hchecked)⟩
        · cases hchecked
    · cases hchecked
  · rintro ⟨filename, expected, bytes, hfilename, hexpected, hentry, hdigest⟩
    unfold Platform.checkFile
    simp only [hfilename, hexpected, hentry, hdigest, decide_true]

theorem mapM_checkFile_iff {files : List Json} :
    (∃ matched, files.mapM (platform.checkFile directory) = some matched ∧
      matched.all id = true) ↔ ∀ file ∈ files, platform.FileStands directory file := by
  induction files with
  | nil => simp
  | cons file files ih =>
    rw [List.forall_mem_cons, ← ih, ← checkFile_eq_true_iff]
    constructor
    · rintro ⟨matched, hmatched, hall⟩
      rw [List.mapM_cons] at hmatched
      obtain ⟨first, hfirst, hothers⟩ := Option.bind_eq_some_iff.mp hmatched
      obtain ⟨rest, hrest, hsame⟩ := Option.bind_eq_some_iff.mp hothers
      obtain rfl := Option.some.inj hsame
      rw [List.all_cons, Bool.and_eq_true] at hall
      rw [hfirst]
      exact ⟨congrArg some hall.1, rest, hrest, hall.2⟩
    · rintro ⟨hfirst, rest, hrest, hall⟩
      refine ⟨true :: rest, ?_, by rwa [List.all_cons, Bool.and_eq_true, id, eq_self, true_and]⟩
      rw [List.mapM_cons, hfirst, Option.bind_eq_bind, Option.bind_some, hrest]
      rfl

/-- What the script accepts. -/
theorem verify_eq_zero_iff : platform.verify directory = 0 ↔
    ∃ bytes, directory.entry "manifest.json".toList = some (.file bytes) ∧
      platform.ManifestStands directory bytes := by
  unfold Platform.verify Platform.ManifestStands
  split
  next bytes hentry =>
    have hsame : ∀ other, some (Entry.file bytes) = some (.file other) ↔ other = bytes :=
      fun other ↦ by simp [eq_comm]
    simp only [hentry, hsame, exists_eq_left]
    cases hparsed : platform.parse (platform.decode bytes) with
    | none => simp
    | some manifest =>
      cases hfiles : filesOf manifest with
      | none => simp [hfiles]
      | some files =>
        simp only [Option.bind_some, hfiles, Option.some.injEq, exists_and_left, exists_eq_left',
          ← mapM_checkFile_iff]
        cases files.mapM (platform.checkFile directory) with
        | none => simp
        | some matched => simp
  next hentry =>
    constructor
    · intro hzero
      cases hzero
    · rintro ⟨bytes, hfound, -⟩
      exact absurd hfound (hentry bytes)

/-! ### What the builder packs -/

variable {script exportId clientIp : Text} {store : Store} {now : ℤ} {bundle : Bundle}

/-- The manifest that is packed, as it stands in the archive. -/
def Platform.manifestBytes (platform : Platform) (store : Store) (job : ExportJob) (video : Bytes)
    (now : ℤ) : Bytes :=
  utf8 (platform.stringify (platform.manifest store job video now))

/-- A bundle is built of a completed export whose file is there. -/
theorem buildEvidenceBundle_ok
    (hbuilt : platform.buildEvidenceBundle script store exportId clientIp now = .ok bundle) :
    ∃ job filePath video, store.getExportJob exportId = some job ∧ job.status = .completed ∧
      job.filePath = some filePath ∧ store.readFile filePath = some video ∧
        Zip.buildZipArchive platform.crc32 (fun _ ↦ platform.localDate now)
          (platform.bundleEntries script store job video clientIp now) = some bundle.buffer := by
  obtain ⟨job, hjob, hbuilt⟩ := exists_of_bind_ok hbuilt
  obtain ⟨filePath, hpath, hbuilt⟩ := exists_of_bind_ok hbuilt
  obtain ⟨video, hvideo, hbuilt⟩ := exists_of_bind_ok hbuilt
  obtain ⟨buffer, hbuffer, hbundle⟩ := exists_of_bind_ok hbuilt
  obtain ⟨hpath, hcompleted⟩ := Option.filter_eq_some_iff.mp (eq_some_of_elim_ok hpath)
  obtain rfl := Except.ok.inj hbundle
  exact ⟨job, filePath, video, eq_some_of_elim_ok hjob, of_decide_eq_true hcompleted,
    (Option.filter_eq_some_iff.mp hpath).1, eq_some_of_elim_ok hvideo, eq_some_of_elim_ok hbuffer⟩

/-- A completed export whose file is there is packed when its entries fit the ZIP format. -/
theorem exists_buildEvidenceBundle {job : ExportJob} {filePath : Text} {video : Bytes}
    (hjob : store.getExportJob exportId = some job) (hcompleted : job.status = .completed)
    (hpath : job.filePath = some filePath) (hnamed : filePath ≠ [])
    (hvideo : store.readFile filePath = some video)
    (hlimits : Zip.IsInLimits (fun _ ↦ platform.localDate now)
      (platform.bundleEntries script store job video clientIp now)) :
    ∃ bundle, platform.buildEvidenceBundle script store exportId clientIp now = .ok bundle := by
  obtain ⟨archive, harchive⟩ : ∃ archive, Zip.buildZipArchive platform.crc32
      (fun _ ↦ platform.localDate now) _ = some archive := Zip.exists_buildZipArchive hlimits
  unfold Platform.buildEvidenceBundle
  simp only [hjob, hpath, hcompleted, hvideo, harchive, Option.elim_some, ok_bind, ne_eq, hnamed,
    Option.filter_some, not_false_eq_true, decide_true, if_true]
  exact ⟨_, rfl⟩

theorem isInLimits_bundleEntries {job : ExportJob} {video : Bytes}
    (hfrom : 1980 ≤ (platform.localDate now).fullYear)
    (hto : (platform.localDate now).fullYear ≤ 2107)
    (hsize : video.length + (platform.manifestBytes store job video now).length +
      (utf8 (platform.stringify (platform.audit store job clientIp (platform.sha256
        (platform.manifestBytes store job video now)) now))).length + (utf8 script).length <
          4294967000) :
    Zip.IsInLimits (fun _ ↦ platform.localDate now)
      (platform.bundleEntries script store job video clientIp now) := by
  unfold Platform.manifestBytes at hsize
  have hvideo : (utf8 "video.mp4".toList).length = 9 := rfl
  have hmanifest : (utf8 "manifest.json".toList).length = 13 := rfl
  have haudit : (utf8 "audit.json".toList).length = 10 := rfl
  have hscript : (utf8 "verify.js".toList).length = 9 := rfl
  refine ⟨?_, ?_, ?_, ?_, ?_, fun entry index hmem ↦ ?_⟩
  · exact Nat.lt_of_sub_eq_succ rfl
  · simp only [Platform.bundleEntries, List.forall_mem_cons, hvideo, hmanifest, haudit, hscript]
    exact ⟨by decide, by decide, by decide, by decide, nofun⟩
  · simp only [Platform.bundleEntries, List.forall_mem_cons, Zip.Contents.bytes]
    exact ⟨by omega, by omega, by omega, by omega, nofun⟩
  · simp only [Platform.bundleEntries, Zip.directoryOffset, Zip.Contents.bytes, hvideo, hmanifest,
      haudit, hscript]
    omega
  · simp only [Platform.bundleEntries, Zip.directorySize, hvideo, hmanifest, haudit, hscript]
    decide
  · have hdate : ∀ entry ∈ platform.bundleEntries script store job video clientIp now,
        entry.date = some (.valid (platform.localDate now)) := by
      simp [Platform.bundleEntries]
    rw [hdate entry (List.fst_mem_of_mem_zipIdx hmem), Option.getD_some]
    exact ⟨hfrom, hto⟩

theorem lookup_content_bundleEntries (job : ExportJob) (video : Bytes) :
    ((platform.bundleEntries script store job video clientIp now).map
        Zip.ZipEntry.content).lookup "video.mp4".toList = some video ∧
      ((platform.bundleEntries script store job video clientIp now).map
        Zip.ZipEntry.content).lookup "manifest.json".toList =
          some (platform.manifestBytes store job video now) := ⟨rfl, rfl⟩

/-- A manifest lists the video and nothing else. -/
theorem filesOf_manifest (job : ExportJob) (video : Bytes) :
    filesOf (platform.manifest store job video now) =
      some [.object [("filename".toList, .string "video.mp4".toList),
        ("sha256".toList, .string (platform.videoSha256 job video)),
        ("sizeBytes".toList, .number (video.length : ℚ))]] := rfl

/-- What it takes for the manifest of a video to stand. -/
theorem manifestStands_iff {bytes video : Bytes} {job : ExportJob}
    (hread : platform.parse (platform.decode bytes) =
      some (platform.manifest store job video now)) :
    platform.ManifestStands directory bytes ↔
      ∃ found, directory.entry "video.mp4".toList = some (.file found) ∧
        toLowerCase (platform.sha256 found) = toLowerCase (platform.videoSha256 job video) := by
  have hfilename : Json.property "filename".toList
      (.object [("filename".toList, .string "video.mp4".toList),
        ("sha256".toList, .string (platform.videoSha256 job video)),
        ("sizeBytes".toList, .number (video.length : ℚ))]) =
      some (.string "video.mp4".toList) := rfl
  have hexpected : Json.property "sha256".toList
      (.object [("filename".toList, .string "video.mp4".toList),
        ("sha256".toList, .string (platform.videoSha256 job video)),
        ("sizeBytes".toList, .number (video.length : ℚ))]) =
      some (.string (platform.videoSha256 job video)) := rfl
  unfold Platform.ManifestStands
  simp only [hread, Option.some.injEq, exists_and_left, exists_eq_left', filesOf_manifest,
    List.forall_mem_singleton, Platform.FileStands, hfilename, hexpected, Json.string.injEq]

/-- While the manifest of a bundle is in place, the script accepts a directory just when its video
has the digest of the export, whatever became of the other files; and it accepts any other video
whose manifest was put in the place of the bundle's. -/
theorem detectsTampering
    (hdecode : ∀ text, platform.decode (utf8 text) = text)
    (hparse : ∀ job filePath video, store.getExportJob exportId = some job →
      job.filePath = some filePath → store.readFile filePath = some video →
      platform.parse (platform.stringify (platform.manifest store job video now)) =
        some (platform.manifest store job video now))
    (hbuilt : platform.buildEvidenceBundle script store exportId clientIp now = .ok bundle) :
    ∃ job filePath video files manifest, store.getExportJob exportId = some job ∧
      job.filePath = some filePath ∧ store.readFile filePath = some video ∧
      Zip.readArchive platform.crc32 bundle.buffer = some files ∧
      files.lookup "video.mp4".toList = some video ∧
      files.lookup "manifest.json".toList = some manifest ∧
      (∀ directory : Directory, directory.entry "manifest.json".toList = some (.file manifest) →
        (platform.verify directory = 0 ↔
          ∃ found, directory.entry "video.mp4".toList = some (.file found) ∧
            toLowerCase (platform.sha256 found) =
              toLowerCase (platform.videoSha256 job video))) ∧
      ∀ (directory : Directory) (forged replaced : Bytes),
        directory.entry "video.mp4".toList = some (.file forged) →
        directory.entry "manifest.json".toList = some (.file replaced) →
        platform.parse (platform.decode replaced) =
          some (platform.manifest store { job with sha256 := none } forged now) →
        platform.verify directory = 0 := by
  obtain ⟨job, filePath, video, hjob, -, hpath, hvideo, harchive⟩ := buildEvidenceBundle_ok hbuilt
  have hentries :
      ((platform.bundleEntries script store job video clientIp now).map
          Zip.ZipEntry.content).lookup "video.mp4".toList = some video ∧
        ((platform.bundleEntries script store job video clientIp now).map
          Zip.ZipEntry.content).lookup "manifest.json".toList =
            some (platform.manifestBytes store job video now) :=
    lookup_content_bundleEntries job video
  obtain ⟨hfile, hmanifest⟩ := hentries
  refine ⟨job, filePath, video, _, _, hjob, hpath, hvideo,
    Zip.readArchive_of_buildZipArchive harchive, hfile, hmanifest, fun directory hplace ↦ ?_,
    fun directory forged replaced hforged hreplaced hread ↦ ?_⟩
  · have hread : platform.parse (platform.decode (platform.manifestBytes store job video now)) =
        some (platform.manifest store job video now) := by
      unfold Platform.manifestBytes
      rw [hdecode, hparse job filePath video hjob hpath hvideo]
    rw [verify_eq_zero_iff, hplace, ← manifestStands_iff hread]
    constructor
    · rintro ⟨bytes, hbytes, hstands⟩
      obtain rfl := Entry.file.inj (Option.some.inj hbytes)
      exact hstands
    · exact fun hstands ↦ ⟨_, rfl, hstands⟩
  · exact verify_eq_zero_iff.mpr ⟨replaced, hreplaced,
      (manifestStands_iff hread).mpr ⟨forged, hforged, rfl⟩⟩

/-! ### A bundle of four bytes of video -/

/-- CRC-32 bit by bit. -/
def crc32 (bytes : Bytes) : UInt32 :=
  let round (crc : UInt32) : UInt32 :=
    if crc &&& 1 = 1 then (crc >>> 1) ^^^ 0xedb88320 else crc >>> 1
  ~~~ bytes.foldl (fun crc byte ↦ round^[8] (crc ^^^ byte.toUInt32)) (0xffffffff : UInt32)

def gateVideo : Bytes := [102, 116, 121, 112]

@[irreducible] def gateManifestText : Text :=
  ["\x7b\n", "  \"version\": \"1.0\",\n", "  \"exportId\": \"e1\",\n",
    "  \"cameraId\": \"gate\",\n", "  \"cameraName\": \"Gate\",\n",
    "  \"startTime\": \"2024-02-29T17:45:10.000Z\",\n",
    "  \"endTime\": \"2024-02-29T17:46:10.000Z\",\n", "  \"durationSeconds\": 60,\n",
    "  \"generatedAt\": \"2024-02-29T18:45:10.000Z\",\n", "  \"requestedBy\": \x7b\n",
    "    \"userId\": \"system\",\n", "    \"username\": \"operator\",\n",
    "    \"role\": \"OPERATOR\"\n", "  \x7d,\n", "  \"files\": [\n", "    \x7b\n",
    "      \"filename\": \"video.mp4\",\n",
    "      \"sha256\": \"970b39b67f61786d7fd8a24fee291fe3172790276bfe9c1dbf234088ba7c0767\",\n",
    "      \"sizeBytes\": 4\n", "    \x7d\n", "  ]\n", "\x7d"].flatMap String.toList

@[irreducible] def gateAuditText : Text :=
  ["\x7b\n", "  \"exportId\": \"e1\",\n", "  \"generatedAt\": \"2024-02-29T18:45:10.000Z\",\n",
    "  \"generatedAtLocal\": \"29 Feb 2024, 18:45:10 UTC\",\n",
    "  \"nodeVersion\": \"Basic VMS v0.1.0\",\n", "  \"systemPlatform\": \"Linux 6.1.0 (x64)\",\n",
    "  \"requestIp\": \"127.0.0.1\",\n", "  \"requestedBy\": \x7b\n",
    "    \"userId\": \"system\",\n", "    \"username\": \"operator\",\n",
    "    \"role\": \"OPERATOR\"\n", "  \x7d,\n", "  \"camera\": \x7b\n", "    \"id\": \"gate\",\n",
    "    \"name\": \"Gate\",\n", "    \"ip\": null,\n", "    \"manufacturer\": null,\n",
    "    \"model\": null\n", "  \x7d,\n", "  \"timelineBookmarks\": [],\n",
    "  \"evidenceIntegrity\": \x7b\n", "    \"algorithm\": \"SHA-256\",\n",
    "    \"manifestChecksum\": \"6b25660bec18c8614c503ead8dff32e49d073f565e1c79dca022b47c56cc304c\"\n",
    "  \x7d\n", "\x7d"].flatMap String.toList

def gateManifest : Json :=
  .object
    [("version".toList, .string "1.0".toList), ("exportId".toList, .string "e1".toList),
      ("cameraId".toList, .string "gate".toList), ("cameraName".toList, .string "Gate".toList),
      ("startTime".toList, .string "2024-02-29T17:45:10.000Z".toList),
      ("endTime".toList, .string "2024-02-29T17:46:10.000Z".toList),
      ("durationSeconds".toList, .number 60),
      ("generatedAt".toList, .string "2024-02-29T18:45:10.000Z".toList),
      ("requestedBy".toList, .object [("userId".toList, .string "system".toList),
        ("username".toList, .string "operator".toList), ("role".toList, .string "OPERATOR".toList)]),
      ("files".toList, .array [.object [("filename".toList, .string "video.mp4".toList),
        ("sha256".toList, .string
          "970b39b67f61786d7fd8a24fee291fe3172790276bfe9c1dbf234088ba7c0767".toList),
        ("sizeBytes".toList, .number 4)]])]

/-- A platform as far as the texts below were recorded of one. -/
def recordedPlatform : Platform where
  sha256 bytes :=
    if bytes = gateVideo then
      "970b39b67f61786d7fd8a24fee291fe3172790276bfe9c1dbf234088ba7c0767".toList
    else if bytes = utf8 gateManifestText then
      "6b25660bec18c8614c503ead8dff32e49d073f565e1c79dca022b47c56cc304c".toList
    else []
  crc32 := crc32
  stringify value :=
    if (Json.property "version".toList value).isSome then gateManifestText else gateAuditText
  parse text := if text = gateManifestText then some gateManifest else none
  decode bytes := (fromUtf8 bytes).getD []
  toISOString time :=
    if time = 1709232310000 then "2024-02-29T18:45:10.000Z".toList
    else if time = 1709228710000 then "2024-02-29T17:45:10.000Z".toList
    else "2024-02-29T17:46:10.000Z".toList
  formatLocalTimestamp _ := "29 Feb 2024, 18:45:10 UTC".toList
  localDate _ := Zip.evening
  systemPlatform := "Linux 6.1.0 (x64)".toList

def gateJob : ExportJob where
  id := "e1".toList
  cameraId := "gate".toList
  userId := none
  startTime := 1709228710000
  endTime := 1709228770000
  status := .completed
  filePath := some "/exports/e1.mp4".toList
  sha256 := none

def gateStore : Store where
  getExportJob exportId := if exportId = "e1".toList then some gateJob else none
  readFile filePath := if filePath = "/exports/e1.mp4".toList then some gateVideo else none
  findCamera _ := some { name := "Gate".toList, ip := none, manufacturer := none, model := none }
  findUser _ := none
  bookmarks := []

theorem manifest_gateStore :
    recordedPlatform.manifest gateStore gateJob gateVideo 1709232310000 = gateManifest := by
  rfl

theorem length_gateManifestText : (utf8 gateManifestText).length = 507 := by decide +kernel

theorem length_gateAuditText : (utf8 gateAuditText).length = 616 := by decide +kernel

theorem stringify_audit {audit : Json} (hversion : Json.property "version".toList audit = none) :
    recordedPlatform.stringify audit = gateAuditText := by
  change (if (Json.property "version".toList audit).isSome then gateManifestText else gateAuditText) = _
  rw [hversion]
  rfl

theorem manifestBytes_gate : recordedPlatform.manifestBytes gateStore gateJob gateVideo
    1709232310000 = utf8 gateManifestText := by
  unfold Platform.manifestBytes
  rw [manifest_gateStore]
  rfl

theorem isInLimits_gate : Zip.IsInLimits (fun _ ↦ recordedPlatform.localDate 1709232310000)
    (recordedPlatform.bundleEntries "#!/usr/bin/env node".toList gateStore gateJob gateVideo
      "127.0.0.1".toList 1709232310000) := by
  have hfrom : 1980 ≤ (recordedPlatform.localDate 1709232310000).fullYear := by decide
  have hto : (recordedPlatform.localDate 1709232310000).fullYear ≤ 2107 := by decide
  refine isInLimits_bundleEntries hfrom hto ?_
  rw [stringify_audit rfl, manifestBytes_gate, length_gateManifestText, length_gateAuditText]
  decide

theorem detectsTampering_gate : ∃ bundle files,
    recordedPlatform.buildEvidenceBundle "#!/usr/bin/env node".toList gateStore "e1".toList
      "127.0.0.1".toList 1709232310000 = .ok bundle ∧
      Zip.readArchive crc32 bundle.buffer = some files ∧
      recordedPlatform.verify { files, elsewhere := fun _ ↦ none } = 0 := by
  have hjob : gateStore.getExportJob "e1".toList = some gateJob := rfl
  have hpath : gateJob.filePath = some "/exports/e1.mp4".toList := rfl
  have hvideo : gateStore.readFile "/exports/e1.mp4".toList = some gateVideo := rfl
  obtain ⟨bundle, hbuilt⟩ :=
    exists_buildEvidenceBundle hjob rfl hpath (by decide) hvideo isInLimits_gate
  have hdecode : ∀ text, recordedPlatform.decode (utf8 text) = text := fun text ↦ by
    change (fromUtf8 (utf8 text)).getD [] = text
    rw [fromUtf8_utf8, Option.getD_some]
  have hparse : recordedPlatform.parse (recordedPlatform.stringify
      (recordedPlatform.manifest gateStore gateJob gateVideo 1709232310000)) =
        some (recordedPlatform.manifest gateStore gateJob gateVideo 1709232310000) := by
    rw [manifest_gateStore]
    exact if_pos rfl
  obtain ⟨job, filePath, video, files, manifest, hfound, hfoundPath, hread, harchive, hfile,
      hmanifest, haccepts, -⟩ := detectsTampering hdecode (fun job filePath video hfound hfoundPath hread ↦ by
      obtain rfl := Option.some.inj (hjob.symm.trans hfound)
      obtain rfl := Option.some.inj (hpath.symm.trans hfoundPath)
      obtain rfl := Option.some.inj (hvideo.symm.trans hread)
      exact hparse) hbuilt
  obtain rfl := Option.some.inj (hjob.symm.trans hfound)
  obtain rfl := Option.some.inj (hpath.symm.trans hfoundPath)
  obtain rfl := Option.some.inj (hvideo.symm.trans hread)
  refine ⟨bundle, files, hbuilt, harchive, (haccepts _ ?_).mpr ⟨gateVideo, ?_, rfl⟩⟩
  · rw [Directory.entry, hmanifest]
  · rw [Directory.entry, hfile]

end VmsLite.Exports.Evidence
