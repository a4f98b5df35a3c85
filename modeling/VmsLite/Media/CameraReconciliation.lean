import VmsLite.Media.CameraMediaPaths

/-!
# Reconciling one camera

What `reconcile` does to the configuration of the paths of a camera, whatever its calls return
(`AcceptedCamera.eval_reconcile`). A path of the camera is compared with the sanitised URL and set
to the sanitised *trimmed* URL, so the two only agree on trimmed URLs.
-/

set_option autoImplicit false

namespace VmsLite.Media

open VmsLite.Async Program
open Url (Text)

/-! ### One path -/

section Path

/-- Every call succeeds. -/
def calm : Call → World → Outcome := fun _ _ ↦ .ok

/-- What provisioning sets a path to. -/
def wanted (url : String) (sourceOnDemand record : Bool) : Option PathConfig :=
  (sanitizeRtspUrl (trim url.toList)).toOption.map fun source ↦ { source, sourceOnDemand, record }

theorem wanted_of_ok {url : String} {source : Text}
    (hsource : sanitizeRtspUrl (trim url.toList) = .ok source) (sourceOnDemand record : Bool) :
    wanted url sourceOnDemand record = some { source, sourceOnDemand, record } := by
  unfold wanted
  rw [hsource]
  rfl

/-- What reconciling makes of the configuration of a path: the one that provisioning sets, or, where
the source is the sanitised URL, what is kept of the one that is there. -/
def landed (url : String) (sourceOnDemand record : Bool) (keep : PathConfig → PathConfig) :
    Option PathConfig → Option PathConfig
  | some conf =>
    if sanitizeRtspUrl url.toList = .ok conf.source then some (keep conf)
    else wanted url sourceOnDemand record
  | none => wanted url sourceOnDemand record

/-- A program that touches at most one path, and returns with the target as its configuration. -/
structure Lands (world : World) (name : String) (target : Option PathConfig)
    (ran : Except Failure Unit × World) : Prop where
  touches : ran.2 = world ∨ ∃ config, ran.2 = world.put name config
  reaches : ran.1 = .ok () → ran.2.conf name = target

namespace Lands

variable {world : World} {name : String} {target : Option PathConfig}
  {ran : Except Failure Unit × World}

theorem frame (h : Lands world name target ran) {other : String} (hother : other ≠ name) :
    ran.2.conf other = world.conf other := by
  rcases h.touches with hsame | ⟨config, hput⟩
  · rw [hsame]
  · rw [hput, conf_put, if_neg hother]

theorem writes_le (h : Lands world name target ran) :
    world.writes.length ≤ ran.2.writes.length := by
  rcases h.touches with hsame | ⟨config, hput⟩
  · rw [hsame]
  · rw [hput, writes_put, List.length_append]
    omega

end Lands

variable (policy : Call → World → Outcome) {world : World} {name url : String}
  {sourceOnDemand record : Bool} {otherwise : PathConfig → Async Unit}

theorem Sets.lands {target : PathConfig} {ran : Except Failure Unit × World}
    (h : Sets world name target ran) : Lands world name (some target) ran where
  touches := h.elim (fun hfails ↦ Or.inl hfails.2) fun hput ↦ Or.inr ⟨target, hput⟩
  reaches := fun hok ↦ by rw [h.of_ok hok, conf_put, if_pos rfl]

/-- Reading a path changes nothing, and what follows sees its configuration, if anything follows. -/
theorem eval_getPath_bind {β : Type} (world : World) (name : String)
    (rest : Option PathConfig → Async β) :
    (∃ error, eval answer policy ((getPath name).bind rest) world = (.error error, world)) ∨
      eval answer policy ((getPath name).bind rest) world =
        eval answer policy (rest (world.conf (cleanName name))) world := by
  obtain ⟨reply, hget, hconf⟩ := eval_getPath policy world name
  rw [eval_bind, hget]
  cases reply with
  | ok conf =>
    right
    rw [← hconf conf rfl]
  | error error => exact Or.inl ⟨error, rfl⟩

theorem eval_reconcilePath (hclean : cleanName name = name) {source : Text}
    (hsource : sanitizeRtspUrl (trim url.toList) = .ok source) {keep : PathConfig → PathConfig}
    (hkeep : ∀ conf, world.conf name = some conf →
      Lands world name (some (keep conf)) (eval answer policy (otherwise conf) world)) :
    Lands world name (landed url sourceOnDemand record keep (world.conf name))
      (eval answer policy (reconcilePath name url sourceOnDemand record otherwise) world) := by
  have hadd := eval_addPath policy world name hsource sourceOnDemand record
  rw [hclean] at hadd
  unfold reconcilePath
  rw [bind_eq]
  rcases eval_getPath_bind policy world name _ with ⟨error, herror⟩ | hread
  · rw [herror]
    exact ⟨Or.inl rfl, fun hok ↦ by cases hok⟩
  · rw [hread, hclean]
    cases hconf : world.conf name with
    | none =>
      rw [landed, wanted_of_ok hsource]
      exact hadd.lands
    | some conf =>
      rw [landed, wanted_of_ok hsource]
      unfold sanitized
      cases hurl : sanitizeRtspUrl url.toList with
      | error message => exact ⟨Or.inl rfl, fun hok ↦ by cases hok⟩
      | ok sanitized =>
        simp only [pure_eq, bind_eq, done_bind, Except.ok.injEq]
        by_cases hsame : conf.source = sanitized
        · rw [if_neg (not_not.mpr hsame), if_pos hsame.symm]
          exact hkeep conf hconf
        · rw [if_pos hsame, if_neg (Ne.symm hsame)]
          exact hadd.lands

/-- A path that is there is left alone when its URL is refused, or is its source and nothing else is
wanted. -/
theorem reconcilePath_rests (hclean : cleanName name = name) {conf : PathConfig}
    (hconf : world.conf name = some conf)
    (hsame : ∀ source, sanitizeRtspUrl url.toList = .ok source →
      conf.source = source ∧ (eval answer policy (otherwise conf) world).2 = world) :
    (eval answer policy (reconcilePath name url sourceOnDemand record otherwise) world).2 =
        world := by
  unfold reconcilePath
  rw [bind_eq]
  rcases eval_getPath_bind policy world name _ with ⟨error, herror⟩ | hread
  · rw [herror]
  · rw [hread, hclean, hconf]
    unfold sanitized
    cases hurl : sanitizeRtspUrl url.toList with
    | error message => rfl
    | ok source =>
      obtain ⟨heq, hrest⟩ := hsame source hurl
      simp only [pure_eq, bind_eq, done_bind]
      rw [if_neg (not_not.mpr heq)]
      exact hrest

/-- A path that is there and whose URL is refused makes reconciling throw. -/
theorem reconcilePath_ne_ok (hclean : cleanName name = name) {conf : PathConfig}
    (hconf : world.conf name = some conf) (hurl : schemeOf url.toList = none) :
    (eval answer policy (reconcilePath name url sourceOnDemand record otherwise) world).1 ≠
      .ok () := by
  unfold reconcilePath
  rw [bind_eq]
  rcases eval_getPath_bind policy world name _ with ⟨error, herror⟩ | hread
  · rw [herror]
    exact nofun
  · rw [hread, hclean, hconf]
    unfold sanitized
    cases hsanitized : sanitizeRtspUrl url.toList with
    | error message => exact nofun
    | ok source =>
      have hscheme := (sanitizeRtspUrl_isOk_iff _).mp ⟨source, hsanitized⟩
      rw [hurl] at hscheme
      cases hscheme

/-- A configuration with the sanitised URL is the one that provisioning sets when the URL is trimmed
and the flags are right. -/
theorem eq_wanted_iff {conf : PathConfig} (hurl : sanitizeRtspUrl url.toList = .ok conf.source) :
    some conf = wanted url sourceOnDemand record ↔ trim url.toList = url.toList ∧
      conf.sourceOnDemand = sourceOnDemand ∧ conf.record = record := by
  have hscheme := (sanitizeRtspUrl_isOk_iff _).mp ⟨_, hurl⟩
  unfold wanted
  constructor
  · intro hsame
    cases htrim : sanitizeRtspUrl (trim url.toList) with
    | error message =>
      rw [htrim] at hsame
      cases hsame
    | ok source =>
      rw [htrim] at hsame
      obtain rfl := Option.some.inj hsame
      exact ⟨(sanitize_trim_iff hscheme).mp (hurl.trans htrim.symm), rfl, rfl⟩
  · rintro ⟨htrim, rfl, rfl⟩
    rw [htrim, hurl]
    rfl

/-- What a reconcile leaves is what provisioning sets, unless it keeps another configuration. -/
theorem landed_eq_wanted_iff (url : String) (sourceOnDemand record : Bool)
    {keep : PathConfig → PathConfig} (hkeep : ∀ conf, (keep conf).source = conf.source)
    (conf : Option PathConfig) :
    landed url sourceOnDemand record keep conf = wanted url sourceOnDemand record ↔
      ∀ kept, conf = some kept → sanitizeRtspUrl url.toList = .ok kept.source →
        trim url.toList = url.toList ∧ (keep kept).sourceOnDemand = sourceOnDemand ∧
          (keep kept).record = record := by
  cases conf with
  | none => simp [landed]
  | some conf =>
    rw [landed]
    by_cases hurl : sanitizeRtspUrl url.toList = .ok conf.source
    · have hkept : sanitizeRtspUrl url.toList = .ok (keep conf).source := hurl.trans (by rw [hkeep])
      rw [if_pos hurl, eq_wanted_iff hkept]
      exact ⟨fun hflags _ hsome _ ↦ Option.some.inj hsome ▸ hflags, fun hall ↦ hall conf rfl hurl⟩
    · rw [if_neg hurl]
      refine ⟨fun _ kept hsome hsame ↦ ?_, fun _ ↦ rfl⟩
      obtain rfl := Option.some.inj hsome
      exact absurd hsame hurl

/-- The URL with blanks at its end is sanitised to something else than its trimmed form. -/
theorem ne_sanitized {url : String} {source : Text}
    (hsource : sanitizeRtspUrl (trim url.toList) = .ok source)
    (htrim : trim url.toList ≠ url.toList) (hscheme : schemeOf url.toList ≠ none) :
    ∃ other, sanitizeRtspUrl url.toList = .ok other ∧ source ≠ other := by
  have hsome := Option.ne_none_iff_isSome.mp hscheme
  obtain ⟨other, hother⟩ := (sanitizeRtspUrl_isOk_iff _).mpr hsome
  refine ⟨other, hother, ?_⟩
  rintro rfl
  exact htrim ((sanitize_trim_iff hsome).mp (hother.trans hsource.symm))

/-! When every call succeeds -/

theorem eval_getPath_calm (name : String) :
    eval answer calm (getPath name) world = (.ok (world.conf (cleanName name)), world) := by
  unfold getPath
  cases hconf : world.conf (cleanName name) with
  | none => simp [call, calm, answer, Outcome.orFail, hconf]
  | some config => simp [call, calm, answer, Outcome.orFail, hconf]

theorem eval_addPath_calm {source : Text}
    (hsource : sanitizeRtspUrl (trim url.toList) = .ok source) :
    eval answer calm (addPath name url sourceOnDemand record) world =
      (.ok (), world.put (cleanName name) { source, sourceOnDemand, record }) := by
  unfold addPath sanitized replacePath
  cases hconf : world.conf (cleanName name) with
  | none =>
    simp [hsource, call, calm, answer, World.answerAdd, hconf, World.change, Outcome.orFail,
      Outcome.applies]
  | some config =>
    simp [hsource, call, calm, answer, World.answerAdd, hconf, World.change, Outcome.orFail,
      Outcome.applies]

theorem eval_patchPath_calm {conf : PathConfig} (hconf : world.conf (cleanName name) = some conf) :
    eval answer calm (patchPath name record) world =
      (.ok (), world.put (cleanName name) { conf with record }) := by
  unfold patchPath
  simp [call, calm, answer, World.answerPatch, hconf, World.change, Outcome.orFail, Outcome.applies]

/-- Reconciling a path succeeds, unless its URL is refused and the path is there. -/
theorem reconcilePath_succeeds (hclean : cleanName name = name) {source : Text}
    (hsource : sanitizeRtspUrl (trim url.toList) = .ok source)
    (haccepted : ∀ conf, world.conf name = some conf →
      ∃ source, sanitizeRtspUrl url.toList = .ok source)
    (hotherwise : ∀ conf, world.conf name = some conf →
      (eval answer calm (otherwise conf) world).1 = .ok ()) :
    (eval answer calm (reconcilePath name url sourceOnDemand record otherwise) world).1 =
        .ok () := by
  unfold reconcilePath
  rw [bind_eq, eval_bind_of_ok answer calm (eval_getPath_calm name), hclean]
  cases hconf : world.conf name with
  | none => rw [eval_addPath_calm hsource]
  | some conf =>
    obtain ⟨source, hurl⟩ := haccepted conf hconf
    unfold sanitized
    simp only [hurl, pure_eq, bind_eq, done_bind]
    by_cases hsame : conf.source = source
    · rw [if_neg (not_not.mpr hsame)]
      exact hotherwise conf hconf
    · rw [if_pos hsame, eval_addPath_calm hsource]

/-- A path whose source is not the sanitised URL is written. -/
theorem reconcilePath_writes (sourceOnDemand record : Bool) (otherwise : PathConfig → Async Unit)
    (hclean : cleanName name = name) {source sanitizedUrl : Text}
    (hsource : sanitizeRtspUrl (trim url.toList) = .ok source) {conf : PathConfig}
    (hconf : world.conf name = some conf) (hurl : sanitizeRtspUrl url.toList = .ok sanitizedUrl)
    (hne : conf.source ≠ sanitizedUrl) :
    eval answer calm (reconcilePath name url sourceOnDemand record otherwise) world =
      (.ok (), world.put name { source, sourceOnDemand, record }) := by
  unfold reconcilePath sanitized
  rw [bind_eq, eval_bind_of_ok answer calm (eval_getPath_calm name), hclean]
  simp only [hconf, hurl, pure_eq, bind_eq, done_bind]
  rw [if_pos hne, eval_addPath_calm hsource, hclean]

end Path

/-! ### Cameras that camera creation accepts -/

/-- Whether provisioning takes a URL: it trims it, and asks for a scheme. -/
def isAccepted (url : String) : Bool := (schemeOf (trim url.toList)).isSome

/-- What camera creation knows of a camera's streams: a generated path, a URL the media server
client takes, and, if there is a sub stream, its URL. -/
structure AcceptedCamera where
  mediaMtxPath : String
  rtspUrl : String
  subStreamUrl : Option String
  generated : ∃ cameraName byte0 byte1 byte2,
    mediaMtxPath = generatePathName cameraName byte0 byte1 byte2
  rtspUrl_accepted : isAccepted rtspUrl = true
  subStreamUrl_accepted : ∀ url, subStreamUrl = some url → isAccepted url = true

namespace AcceptedCamera

variable (camera : AcceptedCamera)

/-- The paths `provisionCamera` stores. -/
def paths : CameraPaths where
  mediaMtxPath := camera.mediaMtxPath
  rtspUrl := some camera.rtspUrl
  subMediaMtxPath := camera.subStreamUrl.map fun _ ↦ subPathName camera.mediaMtxPath
  subStreamUrl := camera.subStreamUrl

/-- They are the paths that onboarding a camera of some name gives it. -/
theorem paths_eq_newPaths : ∃ name byte0 byte1 byte2,
    camera.paths = newPaths name camera.rtspUrl camera.subStreamUrl byte0 byte1 byte2 := by
  obtain ⟨name, byte0, byte1, byte2, hpath⟩ := camera.generated
  refine ⟨name, byte0, byte1, byte2, ?_⟩
  have hsub : truthy camera.subStreamUrl = camera.subStreamUrl := by
    cases hurl : camera.subStreamUrl with
    | none => rfl
    | some url =>
      have hne : url ≠ "" := by
        rintro rfl
        have haccepted := camera.subStreamUrl_accepted "" hurl
        revert haccepted
        decide
      simp [truthy, hne]
  rw [paths, newPaths, hsub, hpath]

/-- The path of the sub stream, whether there is one or not. -/
def subPath : String := subPathName camera.mediaMtxPath

theorem exists_sanitized {url : String} (haccepted : isAccepted url = true) :
    ∃ source, sanitizeRtspUrl (trim url.toList) = .ok source :=
  (sanitizeRtspUrl_isOk_iff _).mpr haccepted

theorem truthy_of_accepted {url : String} (haccepted : isAccepted url = true) :
    truthy (some url) = some url := by
  have hne : url ≠ "" := by
    rintro rfl
    revert haccepted
    decide
  simp [truthy, hne]

theorem subPath_ne_empty (mainPath : String) : subPathName mainPath ≠ "" := by
  intro hempty
  have hlength := congrArg (List.length ∘ String.toList) hempty
  simp [subPathName] at hlength

theorem truthy_rtspUrl : truthy camera.paths.rtspUrl = some camera.rtspUrl :=
  truthy_of_accepted camera.rtspUrl_accepted

theorem subStreamOf_paths :
    subStreamOf camera.paths = camera.subStreamUrl.map fun url ↦ (camera.subPath, url) := by
  cases hsub : camera.subStreamUrl with
  | none => simp [subStreamOf, subPathOf, paths, hsub, truthy]
  | some url =>
    have hurl := truthy_of_accepted (camera.subStreamUrl_accepted url hsub)
    have hpath : truthy (some (subPathName camera.mediaMtxPath)) =
        some (subPathName camera.mediaMtxPath) := by
      simp [truthy, subPath_ne_empty]
    simp [subStreamOf, subPathOf, paths, hsub, hurl, hpath, subPath]

/-- Path characters are no blanks. -/
theorem not_isBlank_of_isPathChar {char : Char} (hchar : isPathChar char = true) :
    isBlank char = false := by
  have hbounds := isPathChar_bounds hchar
  simp only [isBlank, Bool.or_eq_false_iff, Bool.and_eq_false_iff, decide_eq_false_iff_not]
  omega

theorem cleanName_of_isPathName {name : String} (hname : isPathName name = true) :
    cleanName name = name := by
  rw [isPathName, Bool.and_eq_true, List.all_eq_true] at hname
  have hnone : ∀ char ∈ name.toList, isBlank char = false :=
    fun char hchar ↦ not_isBlank_of_isPathChar (hname.2 char hchar)
  have hkeep : ∀ text : Text, (∀ char ∈ text, isBlank char = false) →
      text.dropWhile isBlank = text := by
    intro text htext
    cases text with
    | nil => rfl
    | cons char rest =>
      exact List.dropWhile_cons_of_neg (by simp [htext char List.mem_cons_self])
  unfold cleanName trim trimBlanks
  rw [hkeep _ hnone, hkeep _ fun char hchar ↦ hnone char (List.mem_reverse.mp hchar),
    List.reverse_reverse, String.ofList_toList]

theorem isPathName_mediaMtxPath : isPathName camera.mediaMtxPath = true := by
  obtain ⟨cameraName, byte0, byte1, byte2, hpath⟩ := camera.generated
  rw [hpath]
  exact isPathName_generatePathName ..

theorem cleanName_mediaMtxPath : cleanName camera.mediaMtxPath = camera.mediaMtxPath :=
  cleanName_of_isPathName camera.isPathName_mediaMtxPath

theorem isPathName_subPath : isPathName camera.subPath = true :=
  isPathName_subPathName camera.isPathName_mediaMtxPath

theorem cleanName_subPath : cleanName camera.subPath = camera.subPath :=
  cleanName_of_isPathName camera.isPathName_subPath

/-- The paths of a camera are not those of another one. -/
theorem mediaMtxPath_ne_subPath (other : AcceptedCamera) : camera.mediaMtxPath ≠ other.subPath := by
  obtain ⟨cameraName, byte0, byte1, byte2, hpath⟩ := camera.generated
  rw [hpath]
  exact generatePathName_ne_subPathName _ _ _ _ _

theorem subPath_ne_subPath {other : AcceptedCamera}
    (hne : camera.mediaMtxPath ≠ other.mediaMtxPath) : camera.subPath ≠ other.subPath := by
  intro hsame
  have hchars := congrArg String.toList hsame
  simp only [subPath, subPathName, String.toList_append, List.append_cancel_right_eq,
    String.toList_inj] at hchars
  exact hne hchars

/-! What the camera's paths should be -/

/-- The paths of a camera are configured as provisioning would. -/
structure Settled (record : Bool) (world : World) : Prop where
  main : world.conf camera.mediaMtxPath = wanted camera.rtspUrl false record
  sub : world.conf camera.subPath = camera.subStreamUrl.bind fun url ↦ wanted url true false

/-- Provisioning an accepted camera settles its paths, if it has no stale sub path. -/
theorem provision_settles (record : Bool) {world : World}
    (hnoSub : camera.subStreamUrl = none → world.conf camera.subPath = none) :
    camera.Settled record
      (eval answer calm (provision camera.paths camera.rtspUrl record) world).2 := by
  obtain ⟨source, hsource⟩ := exists_sanitized camera.rtspUrl_accepted
  have hapart := camera.mediaMtxPath_ne_subPath camera
  have hadd : eval answer calm (addPath camera.paths.mediaMtxPath camera.rtspUrl false record)
    world =
      (.ok (), world.put camera.mediaMtxPath { source, sourceOnDemand := false, record }) := by
    rw [eval_addPath_calm hsource, paths, camera.cleanName_mediaMtxPath]
  unfold provision configurePaths
  rw [bind_eq, eval_catching, eval_bind, hadd, subStreamOf_paths]
  cases hsub : camera.subStreamUrl with
  | none =>
    exact
      { main := by simp [wanted_of_ok hsource]
        sub := by simp [hsub, hapart.symm, hnoSub hsub] }
  | some url =>
    obtain ⟨subSource, hsubSource⟩ := exists_sanitized (camera.subStreamUrl_accepted url hsub)
    simp only [Option.map_some, eval_addPath_calm hsubSource, camera.cleanName_subPath]
    exact
      { main := by simp [wanted_of_ok hsource, hapart]
        sub := by simp [hsub, wanted_of_ok hsubSource] }

/-- The configuration of the main path after a reconcile that returns. -/
def mainAfter (record : Bool) (conf : Option PathConfig) : Option PathConfig :=
  landed camera.rtspUrl false record (fun conf ↦ { conf with record }) conf

def subAfter (conf : Option PathConfig) : Option PathConfig :=
  match camera.subStreamUrl with
  | some url => landed url true false id conf
  | none => conf

def reconcileMain (record : Bool) : Async Unit :=
  reconcilePath camera.mediaMtxPath camera.rtspUrl false record
    (followRecord camera.mediaMtxPath record)

def reconcileSub : Async Unit :=
  match camera.subStreamUrl with
  | some url => reconcilePath camera.subPath url true false fun _ ↦ pure ()
  | none => pure ()

theorem reconcile_paths (record recordChanged : Bool) :
    reconcile camera.paths record recordChanged =
      (camera.reconcileMain record).bind fun _ ↦ camera.reconcileSub := by
  unfold reconcile reconcileSub
  rw [truthy_rtspUrl, subStreamOf_paths]
  cases camera.subStreamUrl with
  | none => rfl
  | some url => rfl

section Eval

variable (policy : Call → World → Outcome) (record recordChanged : Bool) (world : World)

theorem eval_reconcileMain :
    Lands world camera.mediaMtxPath (camera.mainAfter record (world.conf camera.mediaMtxPath))
      (eval answer policy (camera.reconcileMain record) world) := by
  obtain ⟨source, hsource⟩ := exists_sanitized camera.rtspUrl_accepted
  refine eval_reconcilePath policy camera.cleanName_mediaMtxPath hsource fun conf hconf ↦ ?_
  unfold followRecord
  by_cases hrecord : conf.record = record
  · rw [if_neg (not_not.mpr hrecord), ← hrecord]
    exact ⟨Or.inl rfl, fun _ ↦ hconf⟩
  · rw [if_pos hrecord]
    have hpatch := eval_patchPath policy world camera.mediaMtxPath
      (camera.cleanName_mediaMtxPath.symm ▸ hconf) record
    rw [camera.cleanName_mediaMtxPath] at hpatch
    exact hpatch.lands

theorem eval_reconcileSub :
    Lands world camera.subPath (camera.subAfter (world.conf camera.subPath))
      (eval answer policy camera.reconcileSub world) := by
  unfold reconcileSub subAfter
  cases hsub : camera.subStreamUrl with
  | none => exact ⟨Or.inl rfl, fun _ ↦ rfl⟩
  | some url =>
    obtain ⟨source, hsource⟩ := exists_sanitized (camera.subStreamUrl_accepted url hsub)
    refine eval_reconcilePath policy camera.cleanName_subPath hsource fun conf hconf ↦ ?_
    exact ⟨Or.inl rfl, fun _ ↦ hconf⟩

/-- What a reconcile of a camera does to the path table, whatever its calls return. -/
structure Reconciled (ran : Except Failure Unit × World) : Prop where
  frame : ∀ name, name ≠ camera.mediaMtxPath → name ≠ camera.subPath →
    ran.2.conf name = world.conf name
  writes_le : world.writes.length ≤ ran.2.writes.length
  main : ran.1 = .ok () →
    ran.2.conf camera.mediaMtxPath = camera.mainAfter record (world.conf camera.mediaMtxPath)
  sub : ran.1 = .ok () → ran.2.conf camera.subPath = camera.subAfter (world.conf camera.subPath)

theorem eval_reconcile :
    camera.Reconciled record world
      (eval answer policy (reconcile camera.paths record recordChanged) world) := by
  have hmain := camera.eval_reconcileMain policy record world
  rw [reconcile_paths, eval_bind]
  generalize eval answer policy (camera.reconcileMain record) world = ran at hmain ⊢
  obtain ⟨result, between⟩ := ran
  cases result with
  | error error =>
    exact
      { frame := fun name hne _ ↦ hmain.frame hne
        writes_le := hmain.writes_le
        main := fun hok ↦ by cases hok
        sub := fun hok ↦ by cases hok }
  | ok value =>
    have hsub := camera.eval_reconcileSub policy between
    have hapart := camera.mediaMtxPath_ne_subPath camera
    exact
      { frame := fun name hne hneSub ↦ (hsub.frame hneSub).trans (hmain.frame hne)
        writes_le := hmain.writes_le.trans hsub.writes_le
        main := fun _ ↦ (hsub.frame hapart).trans (hmain.reaches rfl)
        sub := fun hok ↦ by rw [hsub.reaches hok, hmain.frame hapart.symm] }

end Eval

end AcceptedCamera

end VmsLite.Media
