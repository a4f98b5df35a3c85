import Mathlib.Data.String.Basic
import VmsLite.Recordings.IngestScan
import VmsLite.Recordings.ScanParts

/-!
# The scan of a directory

From the files to the directory, and from the directory to the whole scan. The loop over the names
passes one after the other (`scanNames_amid`); a scan of the camera lists the directory and resumes
from its watermark or from the newest row (`scanCamera_amid`); the scans of other cameras and the
expiry of the motion buffer leave the camera alone (`scan_amid`).
-/

set_option autoImplicit false

namespace VmsLite.Recordings

open VmsLite.Async Program

namespace CameraIngest

variable {cataloguer : CameraIngest} {target : Option String} {listing : Listing}
  {watermark : Option ℤ} {passed newer : List String} {name : String} {scene : Scene}

/-! ### The loop -/

variable (cataloguer) in
/-- After `stat` found the file: what it said is still so. -/
structure Looked (target : Option String) (listing : Listing) (watermark : Option ℤ)
    (passed : List String) (name : String) (found : DiskFile) (scene : Scene) : Prop
    extends cataloguer.Scanning target listing watermark passed scene where
  examined : scene.examined = some (cataloguer.path name)
  same : ∀ file, scene.world.fileAt (cataloguer.path name) = some file → file = found

theorem Looked.change (hsplit : listing.names = passed ++ name :: newer) {found : DiskFile}
    {before after : Scene} (hchange : (cataloguer.setting target).change before after)
    (hlooked : cataloguer.Looked target listing watermark passed name found before) :
    cataloguer.Looked target listing watermark passed name found after where
  toScanning := hlooked.toScanning.change
    (fun _ hpassed ↦ hsplit ▸ List.mem_append_left _ hpassed) hchange
  examined := hchange.1.examined_eq.trans hlooked.examined
  same := by
    have hmem : name ∈ listing.names := hsplit ▸ List.mem_append_right _ List.mem_cons_self
    exact fun file hfile ↦ hlooked.same file (hchange.1.unwritten name
      (listing.segments name hmem) hlooked.examined (hlooked.passed.known name hmem) file hfile)

/-- Only the last name can be in flight, and the target is not. -/
theorem isInFlight_amid (hsplit : listing.names = passed ++ name :: newer) {found : DiskFile}
    (hlooked : cataloguer.Looked target listing watermark passed name found scene) :
    (cataloguer.ingest.isInFlight newer found).Amid (cataloguer.setting target)
      (fun inFlight scene ↦ if inFlight then
          newer = [] ∧ name ∉ target ∧
            cataloguer.Scanning target listing watermark passed scene
        else cataloguer.Handling target listing watermark passed name scene)
      (fun _ _ ↦ False) scene := by
  have hstable : ∀ before after, (cataloguer.setting target).change before after →
      cataloguer.Looked target listing watermark passed name found before →
        cataloguer.Looked target listing watermark passed name found after :=
    fun _ _ hchange hknown ↦ hknown.change hsplit hchange
  have hsorted := listing.sorted
  rw [hsplit] at hsorted
  cases newer with
  | cons next newer =>
    refine Amid.done _ hstable hlooked fun later hlater ↦ ?_
    have hnext : next ∈ listing.names :=
      hsplit ▸ List.mem_append_right _ (List.mem_cons_of_mem _ List.mem_cons_self)
    obtain ⟨last, hlast, hupTo⟩ := hlater.passed.known next hnext
    have hprecedes : Precedes name next :=
      List.rel_of_pairwise_cons (List.pairwise_append.mp hsorted).2.1 List.mem_cons_self
    exact { hlater.toScanning with cleared := Or.inl ⟨last, hlast, hprecedes.upTo hupTo⟩ }
  | nil =>
    refine amid_reads rfl _ hstable hlooked fun clocked outcome hclocked _ ↦ ?_
    have hnow : (answer .clockNow outcome clocked.world).1 = clocked.world.now := rfl
    rw [hnow]
    by_cases hyoung : clocked.world.now - found.mtimeMs < cataloguer.ingest.quietPeriodMs
    · have htarget : name ∉ target := by
        intro hname
        rcases (hclocked.pending name hname).2 with ⟨later, hlater, hprecedes⟩ | hquiet
        · rw [hsplit] at hlater
          rcases List.mem_append.mp hlater with hpassed | hlast
          · have hback := (List.pairwise_append.mp hsorted).2.2 later hpassed name
              List.mem_cons_self
            exact (hback.trans hprecedes).ne rfl
          · exact hprecedes.ne (List.mem_singleton.mp hlast).symm
        · have hdisk := (hclocked.finished name hname).1
          rw [World.onDisk_eq_isSome, Option.isSome_iff_exists] at hdisk
          obtain ⟨file, hfile⟩ := hdisk
          have hperiod := hquiet file hfile
          rw [hclocked.same file hfile] at hperiod
          exact absurd hyoung (not_lt.mpr hperiod)
      refine Amid.done _ hstable hclocked fun later hlater ↦ ?_
      rw [if_pos (decide_eq_true hyoung)]
      exact ⟨rfl, htarget, hlater.toScanning⟩
    · have hhandling : cataloguer.Handling target listing watermark passed name clocked :=
        { hclocked.toScanning with
          cleared := Or.inr ⟨hclocked.examined, fun file hfile ↦ by
            rw [hclocked.same file hfile]
            exact not_lt.mp hyoung⟩ }
      refine Amid.done _ (fun _ _ hchange hknown ↦ Handling.change hsplit hchange hknown) hhandling
        fun later hlater ↦ ?_
      rw [if_neg (by simpa using hyoung)]
      exact hlater

/-- The recording mode, asked for once in a scan. -/
theorem recordingMode_amid (hsplit : listing.names = passed ++ name :: newer)
    (hhandling : cataloguer.Handling target listing watermark passed name scene)
    (mode : Option RecordingMode) :
    (SegmentIngest.recordingMode cataloguer.camera mode).Amid (cataloguer.setting target)
      (fun _ ↦ cataloguer.Handling target listing watermark passed name)
      (fun _ scene ↦ cataloguer.Sound scene ∧ target = none) scene := by
  have hstable : ∀ before after, (cataloguer.setting target).change before after →
      cataloguer.Handling target listing watermark passed name before →
        cataloguer.Handling target listing watermark passed name after :=
    fun _ _ hchange hknown ↦ hknown.change hsplit hchange
  cases mode with
  | some mode => exact Amid.done _ hstable hhandling fun _ hlater ↦ hlater
  | none =>
    refine amid_reads rfl _ hstable hhandling fun asked outcome hasked hallowed ↦ ?_
    rw [← bind_done (orThrow _)]
    refine amid_orThrow hallowed (by simp [concerns]) hasked.sound ?_
    exact Amid.done _ hstable hasked fun _ hlater ↦ hlater

/-- The watermark moves to a mark below which every file has a row. -/
theorem amid_setWatermark (hsub : ∀ name ∈ passed, name ∈ listing.names) {mark : Option ℤ}
    {α : Type} {post : α → Scene → Prop} {thrown : Failure → Scene → Prop} {next : Unit → Async α}
    (hscanning : cataloguer.Scanning target listing watermark passed scene)
    (hmark : ∀ later, cataloguer.Scanning target listing watermark passed later →
      MissedSettled later none → ∀ instant ∈ mark, cataloguer.Covered instant later ∧
        ∃ last ∈ later.newest, instant ≤ startOf last)
    (hnext : ∀ later, cataloguer.Scanning target listing watermark passed later →
      (next ()).Amid (cataloguer.setting target) post thrown later) :
    ((Program.request (.setWatermark cataloguer.camera.id mark)).bind next).Amid
      (cataloguer.setting target) post thrown scene := by
  refine Amid.await _ (fun _ _ hchange hknown ↦ Scanning.change hsub hchange hknown) hscanning
    fun later outcome hlater hallowed ↦ ?_
  have hsound : cataloguer.Sound (cataloguer.marked mark later) :=
    hlater.sound.marked (hmark later hlater (hallowed.2.1 rfl))
  have hmarked : cataloguer.Scanning target listing watermark passed
      (cataloguer.marked mark later) :=
    { sound := hsound
      finished := hlater.finished
      passed := { hlater.passed with }
      covered := hlater.covered
      pending := hlater.pending
      missed_nil := hlater.missed_nil }
  exact ⟨
    { sound := fun _ ↦ hsound
      catalogued := fun _ ↦ id
      once := fun row hrow _ _ ↦ Or.inl ⟨row, hrow, rfl, rfl⟩
      quiet := fun row hrow hnew ↦ absurd rfl (hnew row hrow) }, hnext _ hmarked⟩

/-- The loop over the names that are left. -/
theorem scanNames_amid (rest : List String) (passed : List String)
    (hsplit : listing.names = passed ++ rest)
    (hscanning : cataloguer.Scanning target listing watermark passed scene)
    (mode : Option RecordingMode) (catalogued : ℕ) :
    (cataloguer.ingest.scanNames cataloguer.camera watermark rest mode catalogued).Amid
      (cataloguer.setting target)
      (fun _ scene ↦ cataloguer.Ready target scene ∧ cataloguer.Scanned target scene)
      (fun _ scene ↦ cataloguer.Sound scene ∧ target = none) scene := by
  induction rest generalizing passed scene mode catalogued with
  | nil =>
    rw [List.append_nil] at hsplit
    refine Amid.done _ (fun _ _ hchange hknown ↦ Scanning.change
      (fun _ hpassed ↦ hsplit ▸ hpassed) hchange hknown) hscanning fun later hlater ↦ ?_
    exact ⟨hlater.toReady, hlater.scanned fun name hname ↦ hsplit ▸ (hlater.pending name hname).1⟩
  | cons name newer ih =>
    have hmem : name ∈ listing.names := hsplit ▸ List.mem_append_right _ List.mem_cons_self
    have hsplit' : listing.names = (passed ++ [name]) ++ newer := by
      rw [hsplit, List.append_assoc, List.singleton_append]
    have hsub : ∀ other ∈ passed, other ∈ listing.names :=
      fun other hother ↦ hsplit ▸ List.mem_append_left _ hother
    have hparse : parseSegmentFileTime name = some (startOf name) := by
      obtain ⟨start, hstart⟩ :=
        Option.isSome_iff_exists.mp (parseSegmentFileTime_isSome (listing.segments name hmem))
      rw [startOf, hstart]
      rfl
    unfold SegmentIngest.scanNames
    rw [hparse]
    dsimp only
    split_ifs with hhandled
    · cases watermark with
      | none => cases hhandled
      | some mark =>
        refine ih _ hsplit' (hscanning.concat fun hdisk ↦ Or.inl ?_) mode catalogued
        exact (hscanning.covered mark rfl).1 name hdisk (of_decide_eq_true hhandled)
    refine amid_stat _ (fun _ _ hchange hknown ↦ Scanning.change hsub hchange hknown) hscanning
      ?_ ?_
    · intro later found hlater hfile
      have hstill : cataloguer.Still later { later with examined := some (cataloguer.path name) } :=
        Still.of_same rfl rfl rfl rfl rfl rfl rfl rfl
      have hlooked : cataloguer.Looked target listing watermark passed name found
          { later with examined := some (cataloguer.path name) } :=
        { hlater.still hsub hstill (fun _ ↦ id) fun _ ↦ id with
          examined := rfl
          same := fun file hfound ↦ Option.some.inj (hfound.symm.trans hfile) }
      refine Amid.bind ((isInFlight_amid hsplit hlooked).mono (fun _ _ hpost ↦ hpost)
        fun _ _ hfalse ↦ hfalse.elim) fun inFlight checked hchecked ↦ ?_
      cases inFlight with
      | true =>
        obtain ⟨hlast, htarget, hstays⟩ := hchecked
        refine Amid.done _ (fun _ _ hchange hknown ↦ Scanning.change hsub hchange hknown) hstays
          fun last hscanned ↦ ⟨hscanned.toReady, hscanned.scanned fun other hother ↦ ?_⟩
        have hlisted := (hscanned.pending other hother).1
        rw [hsplit, hlast] at hlisted
        rcases List.mem_append.mp hlisted with hpassed | hsame
        · exact hpassed
        · exact absurd (List.mem_singleton.mp hsame ▸ hother) htarget
      | false =>
        refine Amid.bind (recordingMode_amid hsplit hchecked mode) fun mode asked hasked ↦ ?_
        refine Amid.bind (catalogueFile_amid hsplit hasked _ mode) fun row written hwritten ↦ ?_
        refine amid_setWatermark (fun other hother ↦ hsplit' ▸ List.mem_append_left _ hother)
          hwritten (fun later hlater hmissed instant hinstant ↦ ?_)
          fun marked hmarked ↦ ih _ hsplit' hmarked _ _
        have hlast : name ∈ passed ++ [name] :=
          List.mem_append_right _ (List.mem_singleton.mpr rfl)
        obtain ⟨last, hnewest, hupTo⟩ := hlater.passed.known name hmem
        rw [← Option.some.inj hinstant]
        exact ⟨hlater.passed.covered hsplit' listing.sorted hmissed hlast, last, hnewest,
          hupTo.start_le⟩
    · intro later missed outcome error hlater hallowed hmissed hadded hkept
      have hstill : cataloguer.Still later
          { later with missed, examined := some (cataloguer.path name) } :=
        Still.of_same rfl rfl rfl rfl rfl rfl rfl rfl
      refine ih _ hsplit' ((hlater.still hsub hstill hmissed fun htarget hnil ↦ ?_).concat
        fun hdisk ↦ Or.inr (hadded (CameraIngest.mem_names.mp hdisk).2)) mode catalogued
      have hconcerns : cataloguer.concerns (.stat (cataloguer.path name)) = true := by
        simp [concerns, path]
      exact (hkept (hallowed.2.2 htarget hconcerns)).trans hnil

/-! ### The directory -/

/-- What `readdir` finds, and what the onlooker notes of it. -/
theorem answerNoted_readdir (dir : Path) (outcome : Outcome) (scene : Scene) :
    (dir ∈ scene.world.directories ∧ answerNoted (.readdir dir) outcome scene =
      (.ok (scene.world.entries dir), { scene with missed := [], examined := none })) ∨
    ∃ error, (outcome.passes = true → dir ∉ scene.world.directories) ∧
      answerNoted (.readdir dir) outcome scene =
        (.error error, { scene with missed := [], examined := none }) := by
  cases outcome with
  | fail error => exact Or.inr ⟨error, nofun, rfl⟩
  | _ =>
    by_cases hdir : dir ∈ scene.world.directories
    · refine Or.inl ⟨hdir, ?_⟩
      simp only [answerNoted, answer, if_pos hdir]
      rfl
    · refine Or.inr ⟨World.noSuchFile "scandir" dir, fun _ ↦ hdir, ?_⟩
      simp only [answerNoted, answer, if_neg hdir]
      rfl

/-- The segments of a directory in the order of their names. -/
def Orderly.listed (horderly : cataloguer.Orderly scene) : Listing where
  names := SegmentIngest.sortNames (cataloguer.names scene.world)
  sorted := by
    have hperm := List.perm_insertionSort (fun first second : String ↦ first ≤ second)
      (cataloguer.names scene.world)
    have hnodup : (SegmentIngest.sortNames (cataloguer.names scene.world)).Nodup :=
      hperm.nodup_iff.mpr horderly.names_nodup
    have hle : (SegmentIngest.sortNames (cataloguer.names scene.world)).Pairwise (· ≤ ·) :=
      List.pairwise_insertionSort _ _
    refine (hle.and hnodup).imp_of_mem fun hfirst hsecond hboth ↦ ?_
    have hlt := lt_of_le_of_ne hboth.1 hboth.2
    exact ⟨hlt, horderly.ordered _ (hperm.subset hfirst) _ (hperm.subset hsecond) hlt⟩
  segments := fun name hname ↦ (CameraIngest.mem_names.mp ((List.mem_insertionSort _).mp hname)).1

theorem Orderly.mem_listed {horderly : cataloguer.Orderly scene} :
    name ∈ horderly.listed.names ↔ name ∈ cataloguer.names scene.world :=
  List.mem_insertionSort _

/-- The loop starts with nothing passed. -/
theorem Ready.scanning (hready : cataloguer.Ready target scene)
    (hsegment : ∀ name ∈ target, isSegmentFile name = true) :
    cataloguer.Scanning target hready.sound.toOrderly.listed none []
      { scene with missed := [], examined := none } := by
  have hstill : cataloguer.Still scene { scene with missed := [], examined := none } :=
    Still.of_same rfl rfl rfl rfl rfl rfl rfl rfl
  have hordered := hready.sound.ordered
  refine
    { hready.still hstill with
      passed :=
        { mem_listed := fun name hname ↦ Or.inl (Orderly.mem_listed.mpr hname)
          known := fun name hname ↦ hready.sound.upTo_newest name (Orderly.mem_listed.mp hname)
          settled := fun _ hname ↦ absurd hname List.not_mem_nil }
      covered := nofun
      pending := fun name hname ↦ ?_
      missed_nil := fun _ ↦ rfl }
  obtain ⟨hdisk, hnewer⟩ := hready.finished name hname
  have hmem := CameraIngest.mem_names.mpr ⟨hsegment name hname, hdisk⟩
  refine ⟨Orderly.mem_listed.mpr hmem, hnewer.imp_left ?_⟩
  rintro ⟨newer, hnewerSegment, hstart, hnewerDisk⟩
  have hnewerMem := CameraIngest.mem_names.mpr ⟨hnewerSegment, hnewerDisk⟩
  refine ⟨newer, Orderly.mem_listed.mpr hnewerMem, ?_, hstart⟩
  rcases lt_trichotomy name newer with hlt | heq | hgt
  · exact hlt
  · exact absurd (heq ▸ hstart) (lt_irrefl _)
  · exact absurd (hordered newer hnewerMem name hmem hgt) (not_lt.mpr hstart.le)

/-- Resuming from the watermark of the process, or from the newest row. -/
theorem resumePoint_amid (hscanning : cataloguer.Scanning target listing none [] scene) :
    (SegmentIngest.resumePoint cataloguer.camera).Amid (cataloguer.setting target)
      (fun watermark ↦ cataloguer.Scanning target listing watermark [])
      (fun _ scene ↦ cataloguer.Sound scene ∧ target = none) scene := by
  have hsub : ∀ name ∈ ([] : List String), name ∈ listing.names :=
    fun _ hname ↦ absurd hname List.not_mem_nil
  have hstable : ∀ watermark before after, (cataloguer.setting target).change before after →
      cataloguer.Scanning target listing watermark [] before →
        cataloguer.Scanning target listing watermark [] after :=
    fun _ _ _ hchange hknown ↦ hknown.change hsub hchange
  refine amid_reads rfl _ (hstable none) hscanning fun asked outcome hasked _ ↦ ?_
  cases hwatermark : asked.world.watermarks.lookup cataloguer.camera.id with
  | some watermark =>
    have hreply : (answer (.getWatermark cataloguer.camera.id) outcome asked.world).1 =
        some watermark := hwatermark
    rw [hreply]
    refine Amid.done _ (hstable watermark) ?_ fun _ hlater ↦ hlater
    refine { hasked with covered := fun mark hmark ↦ ?_ }
    rw [Option.mem_def.mp hmark] at hwatermark
    exact hasked.sound.covered_watermark mark hwatermark
  | none =>
    have hreply : (answer (.getWatermark cataloguer.camera.id) outcome asked.world).1 = none :=
      hwatermark
    rw [hreply]
    refine amid_reads rfl _ (hstable none) hasked fun found outcome hfound hallowed ↦ ?_
    refine amid_orThrow hallowed (by simp [concerns]) hfound.sound ?_
    have hresumed : cataloguer.Scanning target listing
        (found.world.recordings.findLatestStartTime cataloguer.camera.id) [] found :=
      { hfound with covered := fun _ ↦ hfound.sound.covered_latest }
    refine amid_setWatermark hsub hresumed (fun later hlater _ ↦ hlater.covered)
      fun marked hmarked ↦ ?_
    exact Amid.done _ (hstable _) hmarked fun _ hlater ↦ hlater

/-- Without a target there is nothing to wait for. -/
theorem Sound.ready_scanned (hsound : cataloguer.Sound scene) (htarget : target = none) :
    cataloguer.Ready target scene ∧ cataloguer.Scanned target scene := by
  have hvacuous : ∀ {holds : String → Prop}, ∀ name ∈ target, holds name :=
    fun name hname ↦ absurd (htarget ▸ hname) (Option.not_mem_none name)
  exact ⟨⟨hsound, hvacuous⟩, hsound, hvacuous, hvacuous⟩

/-- The scan of the camera. -/
theorem scanCamera_amid (hsegment : ∀ name ∈ target, isSegmentFile name = true)
    (hready : cataloguer.Ready target scene) :
    (cataloguer.ingest.scanCamera cataloguer.camera).Amid (cataloguer.setting target)
      (fun _ scene ↦ cataloguer.Ready target scene ∧ cataloguer.Scanned target scene)
      (fun _ scene ↦ cataloguer.Sound scene ∧ target = none) scene := by
  unfold SegmentIngest.scanCamera
  refine Amid.await _ (fun _ _ hchange hknown ↦ Ready.change hchange hknown) hready
    fun later outcome hlater hallowed ↦ ?_
  have hstill : cataloguer.Still later { later with missed := [], examined := none } :=
    Still.of_same rfl rfl rfl rfl rfl rfl rfl rfl
  have hstep : cataloguer.Ingests later { later with missed := [], examined := none } :=
    Ingests.of_calm hstill.toCalm fun _ ↦ id
  have hanswer : cataloguer.machine.answer
      (.readdir (cataloguer.ingest.cameraDir cataloguer.camera)) outcome later =
        answerNoted (.readdir (cataloguer.ingest.cameraDir cataloguer.camera)) outcome later := rfl
  rw [hanswer]
  rcases answerNoted_readdir (cataloguer.ingest.cameraDir cataloguer.camera) outcome later with
    ⟨hdir, hread⟩ | ⟨error, hgone, hread⟩
  · rw [hread]
    refine ⟨hstep, ?_⟩
    have hnames : SegmentIngest.sortNames ((later.world.entries
        (cataloguer.ingest.cameraDir cataloguer.camera)).filter isSegmentFile) =
          hlater.sound.toOrderly.listed.names := by
      rw [filter_entries hlater.sound.directories]
      rfl
    simp only [done_bind, hnames]
    refine Amid.bind (resumePoint_amid (hlater.scanning hsegment))
      fun watermark resumed hresumed ↦ ?_
    exact scanNames_amid _ [] rfl hresumed none 0
  · have hnone : target = none := by
      cases htarget : target with
      | none => rfl
      | some name =>
        subst htarget
        have hmem := CameraIngest.mem_names.mpr
          ⟨hsegment name rfl, (hlater.finished name rfl).1⟩
        have hconcerns : cataloguer.concerns
            (.readdir (cataloguer.ingest.cameraDir cataloguer.camera)) = true := by
          simp [concerns]
        exact absurd (hlater.sound.directory name hmem) (hgone (hallowed.2.2 rfl hconcerns))
    rw [hread]
    refine ⟨hstep, ?_⟩
    simp only [done_bind]
    split_ifs
    · refine Amid.done cataloguer.Sound ?_ (hlater.sound.calm hstill.toCalm) fun last hlast ↦ ?_
      · exact fun _ _ hchange hsound ↦ hsound.calm hchange.1.toCalm
      · exact hlast.ready_scanned hnone
    · exact amid_failed (hlater.sound.calm hstill.toCalm) hnone

/-! ### The rest of the scan -/

theorem leaves_of_inspects {call : Call} (hinspects : call.inspects = true) :
    cataloguer.Leaves call := by
  cases call <;> trivial

section OtherCamera

variable {other : Camera} (hid : other.id ≠ cataloguer.camera.id)
  (hpath : other.mediaMtxPath ≠ cataloguer.camera.mediaMtxPath)

include hid hpath

/-- A row of another camera is for another file. -/
theorem leaves_create {data : NewRecording} (hcamera : data.cameraId = other.id)
    (hfile : data.filePath = cataloguer.ingest.cameraDir other ++ [name]) :
    cataloguer.Leaves (.createRecording data) := by
  refine ⟨fun hsame ↦ hid (hcamera.symm.trans hsame), fun segment hsame ↦ hpath ?_⟩
  rw [hfile, path, SegmentIngest.cameraDir, SegmentIngest.cameraDir] at hsame
  have hprefix := List.append_inj_left' hsame rfl
  simpa using hprefix

theorem catalogueFile_leaves (start durationMs : ℤ) (mode : RecordingMode) :
    (cataloguer.ingest.catalogueFile other (cataloguer.ingest.cameraDir other ++ [name]) start
      durationMs mode).Uses cataloguer.Leaves := by
  unfold SegmentIngest.catalogueFile
  refine Uses.bind (Uses.request trivial) fun _ ↦ Uses.bind Uses.orThrow fun found ↦ ?_
  cases found with
  | some existing => trivial
  | none =>
    refine Uses.bind ((validate_uses _ _).mono fun _ ↦ leaves_of_inspects)
      fun validated ↦ ?_
    cases validated with
    | error failure =>
      dsimp only
      split_ifs
      · trivial
      · refine Uses.bind (Uses.request trivial) fun stated ↦ ?_
        exact Uses.bind (Uses.request (leaves_create hid hpath rfl rfl)) fun _ ↦
          Uses.bind Uses.orThrow fun _ ↦ trivial
    | ok validation =>
      have hnear : (cataloguer.ingest.isNearMotion other.id validation.startTime
          validation.endTime).Uses cataloguer.Leaves :=
        Uses.bind (Uses.request trivial) fun _ ↦ Uses.bind Uses.orThrow fun _ ↦ trivial
      refine Uses.bind hnear fun nearMotion ↦ ?_
      refine Uses.bind (Uses.request (leaves_create hid hpath rfl rfl)) fun _ ↦
        Uses.bind Uses.orThrow fun recording ↦ ?_
      split_ifs
      · exact Uses.bind (Uses.request trivial) fun _ ↦ trivial
      · trivial

theorem scanNames_leaves (watermark : Option ℤ) (names : List String)
    (mode : Option RecordingMode) (catalogued : ℕ) :
    (cataloguer.ingest.scanNames other watermark names mode catalogued).Uses
      cataloguer.Leaves := by
  induction names generalizing mode catalogued with
  | nil => trivial
  | cons name newer ih =>
    unfold SegmentIngest.scanNames
    cases parseSegmentFileTime name with
    | none => exact ih mode catalogued
    | some start =>
      dsimp only
      split_ifs
      · exact ih mode catalogued
      refine Uses.bind (Uses.request trivial) fun stated ↦ ?_
      cases stated with
      | error err => exact ih mode catalogued
      | ok stat =>
        refine Uses.bind ?_ fun inFlight ↦ ?_
        · unfold SegmentIngest.isInFlight
          split_ifs
          · exact Uses.bind (Uses.request trivial) fun _ ↦ trivial
          · trivial
        split_ifs
        · trivial
        refine Uses.bind ?_ fun mode ↦ ?_
        · cases mode with
          | some mode => trivial
          | none => exact Uses.bind (Uses.request trivial) fun _ ↦ Uses.orThrow
        refine Uses.bind (catalogueFile_leaves hid hpath _ _ _) fun row ↦ ?_
        exact Uses.bind (Uses.request hid) fun _ ↦ ih _ _

/-- The scan of another camera leaves this one alone. -/
theorem scanCamera_leaves :
    (cataloguer.ingest.scanCamera other).Uses cataloguer.Leaves := by
  unfold SegmentIngest.scanCamera
  refine Uses.bind (Uses.request trivial) fun read ↦ ?_
  cases read with
  | error err =>
    dsimp only
    split_ifs <;> trivial
  | ok entries =>
    refine Uses.bind (Uses.bind (Uses.request trivial) fun known ↦ ?_) fun watermark ↦ ?_
    · cases known with
      | some watermark => trivial
      | none =>
        refine Uses.bind (Uses.request trivial) fun _ ↦
          Uses.bind Uses.orThrow fun latest ↦ ?_
        exact Uses.bind (Uses.request hid) fun _ ↦ trivial
    · exact scanNames_leaves hid hpath _ _ _ _

end OtherCamera

/-- Nothing is taken back of what was catalogued. -/
theorem catalogued_answer (call : Call) (outcome : Outcome) (scene : Scene) :
    ∀ path ∈ scene.catalogued, path ∈ (answerNoted call outcome scene).2.catalogued := by
  intro path hpath
  simp only [answerNoted]
  cases call with
  | createRecording data =>
    cases (answer (.createRecording data) outcome scene.world).1 with
    | ok recording => exact List.mem_cons_of_mem _ hpath
    | error error => exact hpath
  | stat examined =>
    cases (answer (.stat examined) outcome scene.world).1 <;> exact hpath
  | _ => exact hpath

/-- The expiry of the motion buffer only deletes. -/
theorem expireBufferedSegments_leaves :
    cataloguer.ingest.expireBufferedSegments.Uses cataloguer.Leaves := by
  refine Uses.bind (Uses.request trivial) fun now ↦ ?_
  refine Uses.bind (Uses.bind (Uses.request trivial) fun _ ↦ Uses.orThrow) fun buffered ↦ ?_
  refine Uses.foldlM fun _ segment _ ↦ ?_
  unfold SegmentIngest.expireSegment
  split_ifs
  · trivial
  · refine Uses.catching (Uses.bind ((deleteSegmentInternal_uses _ _ _ _).mono ?_) fun _ ↦ trivial)
      fun _ ↦ trivial
    intro call hdeletes
    cases call <;> trivial

/-! ### The whole scan -/

variable (cataloguer) in
/-- Between two cameras: the camera is still to come, or it was scanned. -/
def Between (target : Option String) (cameras : List Camera) (scene : Scene) : Prop :=
  cataloguer.Ready target scene ∧
    (cataloguer.camera ∈ cameras ∨ cataloguer.Scanned target scene)

theorem Between.change {cameras : List Camera} {before after : Scene}
    (hchange : (cataloguer.setting target).change before after)
    (hbetween : cataloguer.Between target cameras before) :
    cataloguer.Between target cameras after :=
  ⟨hbetween.1.change hchange, hbetween.2.imp_right fun hscanned ↦
    hscanned.calm hchange.1.toCalm⟩

/-- One camera of the loop: it is the camera, or it leaves the camera alone. -/
theorem catalogueCamera_amid (hsegment : ∀ name ∈ target, isSegmentFile name = true)
    {other : Camera} {cameras : List Camera}
    (hid : other.id = cataloguer.camera.id → other = cataloguer.camera)
    (hpath : other.mediaMtxPath = cataloguer.camera.mediaMtxPath → other = cataloguer.camera)
    (hbetween : cataloguer.Between target (other :: cameras) scene) (catalogued : ℕ) :
    (catching
      (do
        let count ← cataloguer.ingest.scanCamera other
        pure (catalogued + count))
      fun _ ↦ pure catalogued).Amid (cataloguer.setting target)
        (fun _ ↦ cataloguer.Between target cameras) (fun _ _ ↦ False) scene := by
  have hdone : ∀ {later : Scene} {value : ℕ}, cataloguer.Between target cameras later →
      (Program.done value : Async ℕ).Amid (cataloguer.setting target)
        (fun _ ↦ cataloguer.Between target cameras) (fun _ _ ↦ False) later :=
    fun hlater ↦ Amid.done _ (fun _ _ hchange hknown ↦ Between.change hchange hknown) hlater
      fun _ hlast ↦ hlast
  by_cases hsame : other = cataloguer.camera
  · subst hsame
    refine Amid.catching (fun _ scene ↦ cataloguer.Sound scene ∧ target = none) ?_
      fun _ thrown hthrown ↦ ?_
    · refine Amid.bind (scanCamera_amid hsegment hbetween.1) fun count scanned hscanned ↦ ?_
      refine Amid.done _ (fun _ _ hchange hknown ↦ Between.change hchange hknown)
        (show cataloguer.Between target cameras scanned from ⟨hscanned.1, Or.inr hscanned.2⟩)
        fun _ hlast ↦ hlast
    · obtain ⟨hready, hscanned⟩ := hthrown.1.ready_scanned hthrown.2
      exact hdone ⟨hready, Or.inr hscanned⟩
  · have hleft : cataloguer.Between target cameras scene := by
      refine ⟨hbetween.1, hbetween.2.imp_left fun hmem ↦ ?_⟩
      exact (List.mem_cons.mp hmem).resolve_left fun heq ↦ hsame heq.symm
    have huses : (do
        let count ← cataloguer.ingest.scanCamera other
        pure (catalogued + count) : Async ℕ).Uses
          fun call ↦ call.ingests = true ∧ cataloguer.Leaves call :=
      Uses.bind ((cataloguer.ingest.scanCamera_uses other).and (scanCamera_leaves
        (fun heq ↦ hsame (hid heq)) fun heq ↦ hsame (hpath heq))) fun _ ↦ trivial
    refine Amid.catching (fun _ ↦ cataloguer.Between target cameras) ?_ fun _ _ hthrown ↦
      hdone hthrown
    refine Amid.of_uses _ (fun _ _ hchange hknown ↦ Between.change hchange hknown) huses
      (fun call outcome later hcall hallowed hknown ↦ ?_) hleft
    obtain ⟨hcalm, hstill⟩ := calm_answer hcall.2 hallowed.1
    have hunlink : ∀ path, call ≠ .unlink path := by
      rintro path rfl
      cases hcall.1
    refine ⟨Ingests.of_calm hcalm (catalogued_answer call outcome later), ?_⟩
    exact ⟨hknown.1.still (hstill hunlink), hknown.2.imp_right fun hscanned ↦
      hscanned.calm hcalm⟩

/-- The loop over the cameras. -/
theorem catalogueCameras_amid (hsegment : ∀ name ∈ target, isSegmentFile name = true)
    {cameras : List Camera}
    (hid : ∀ other ∈ cameras, other.id = cataloguer.camera.id → other = cataloguer.camera)
    (hpath : ∀ other ∈ cameras, other.mediaMtxPath = cataloguer.camera.mediaMtxPath →
      other = cataloguer.camera)
    (hbetween : cataloguer.Between target cameras scene) (catalogued : ℕ) :
    (cameras.foldlM (fun catalogued camera ↦
        catching
          (do
            let count ← cataloguer.ingest.scanCamera camera
            pure (catalogued + count))
          fun _ ↦ pure catalogued) catalogued : Async ℕ).Amid (cataloguer.setting target)
      (fun _ ↦ cataloguer.Scanned target) (fun _ ↦ cataloguer.Scanned target) scene := by
  induction cameras generalizing scene catalogued with
  | nil =>
    refine Amid.done _ (fun _ _ hchange hknown ↦ Between.change hchange hknown) hbetween
      fun later hlater ↦ ?_
    exact hlater.2.resolve_left List.not_mem_nil
  | cons other cameras ih =>
    rw [List.foldlM_cons]
    refine Amid.bind ((catalogueCamera_amid hsegment (hid other List.mem_cons_self)
      (hpath other List.mem_cons_self) hbetween catalogued).mono (fun _ _ hpost ↦ hpost)
        fun _ _ hfalse ↦ hfalse.elim) fun catalogued scanned hscanned ↦ ?_
    exact ih (fun camera hcamera ↦ hid camera (List.mem_cons_of_mem _ hcamera))
      (fun camera hcamera ↦ hpath camera (List.mem_cons_of_mem _ hcamera)) hscanned catalogued

/-- The cataloguing goes through all cameras, and the camera is one of them. -/
theorem catalogueAll_amid (hsegment : ∀ name ∈ target, isSegmentFile name = true)
    (hready : cataloguer.Ready target scene) :
    cataloguer.ingest.catalogueAll.Amid (cataloguer.setting target)
      (fun _ ↦ cataloguer.Scanned target) (fun _ ↦ cataloguer.Scanned target) scene := by
  unfold SegmentIngest.catalogueAll
  refine amid_reads rfl _ (fun _ _ hchange hknown ↦ Ready.change hchange hknown) hready
    fun listed outcome hlisted hallowed ↦ ?_
  cases outcome with
  | fail error =>
    cases target with
    | none =>
      refine Amid.failed cataloguer.Sound ?_ hlisted.sound fun _ hlast ↦ ?_
      · exact fun _ _ hchange hsound ↦ hsound.calm hchange.1.toCalm
      · exact (hlast.ready_scanned rfl).2
    | some name => exact absurd (hallowed.2.2 rfl rfl) Bool.false_ne_true
  | _ =>
    exact catalogueCameras_amid hsegment hlisted.sound.id_unique hlisted.sound.path_unique
      ⟨hlisted, Or.inl hlisted.sound.mem_cameras⟩ 0

/-- A whole scan: however it ends, a target has a row. -/
theorem scan_amid (hsegment : ∀ name ∈ target, isSegmentFile name = true)
    (hready : cataloguer.Ready target scene) :
    (cataloguer.ingest.scan.bind fun _ ↦ done ()).Amid (cataloguer.setting target)
      (fun _ ↦ cataloguer.Scanned target) (fun _ ↦ cataloguer.Scanned target) scene := by
  rw [SegmentIngest.scan_eq, bind_assoc]
  refine Amid.bind (catalogueAll_amid hsegment hready) fun catalogued expiring hexpiring ↦ ?_
  rw [bind_assoc]
  have hstable : ∀ before after, (cataloguer.setting target).change before after →
      cataloguer.Scanned target before → cataloguer.Scanned target after :=
    fun _ _ hchange hknown ↦ hknown.calm hchange.1.toCalm
  refine Amid.of_uses _ hstable (Uses.bind expireBufferedSegments_leaves fun _ ↦ trivial)
    (fun call outcome later hleaves hallowed hknown ↦ ?_) hexpiring
  obtain ⟨hcalm, -⟩ := calm_answer hleaves hallowed.1
  exact ⟨Ingests.of_calm hcalm (catalogued_answer call outcome later), hknown.calm hcalm⟩

end CameraIngest

end VmsLite.Recordings
