import VmsLite.Media.CameraReconciliation

/-!
# Path reconciliation

Whether reconciling a table of cameras leaves their paths as provisioning would have made them, and
whether reconciling again then leaves them alone. `reconcile` compares the source of a path with the
sanitised URL and writes the sanitised trimmed URL; it does not look at the flags of a path whose
source is right, but for the record flag of a main path; and it leaves a sub path whose camera has
no sub stream. `reachesDesired_iff` says for which tables and which path configurations none of this
shows.
-/

set_option autoImplicit false

namespace VmsLite.Media

open VmsLite.Async Program
open Url (Text)

/-! ### A table of cameras -/

/-- A camera, and what a tick asks of its paths. -/
structure Desired where
  camera : AcceptedCamera
  record : Bool
  recordChanged : Bool

/-- The cameras of a tick; main paths are unique. -/
structure CameraTable where
  rows : List Desired
  distinct : rows.Pairwise fun first second ↦
    first.camera.mediaMtxPath ≠ second.camera.mediaMtxPath

namespace Desired

variable (each : Desired)

def program : Async Unit := reconcile each.camera.paths each.record each.recordChanged

/-- A name that is no path of the camera. -/
def Foreign (name : String) : Prop := name ≠ each.camera.mediaMtxPath ∧ name ≠ each.camera.subPath

/-- The world has the given configurations of the camera's paths. -/
def Agrees (before after : World) : Prop :=
  after.conf each.camera.mediaMtxPath = before.conf each.camera.mediaMtxPath ∧
    after.conf each.camera.subPath = before.conf each.camera.subPath

variable {each}

theorem foreign_of_ne {other : Desired}
    (hne : each.camera.mediaMtxPath ≠ other.camera.mediaMtxPath) :
    other.Foreign each.camera.mediaMtxPath ∧ other.Foreign each.camera.subPath :=
  ⟨⟨hne, each.camera.mediaMtxPath_ne_subPath other.camera⟩,
    (other.camera.mediaMtxPath_ne_subPath each.camera).symm,
    each.camera.subPath_ne_subPath hne⟩

end Desired

/-- One camera of a tick: an error is caught, and remembered. -/
def reconcileRound (clean : Bool) (each : Desired) : Async Bool :=
  (each.program.bind fun _ ↦ pure clean).catching fun _ ↦ pure false

/-- Reconciles every camera, as a tick does; whether none of them failed. -/
def reconcileAll (table : List Desired) : Async Bool := table.foldlM reconcileRound true

/-- After a reconcile that succeeds every camera has the paths that provisioning gives it, and the
reconcile that follows sets none, whatever its calls return. -/
def ReachesDesired (table : CameraTable) (world : World) : Prop :=
  ∀ policy, let ran := eval answer policy (reconcileAll table.rows) world
    ran.1 = .ok true →
      (∀ each ∈ table.rows, each.camera.Settled each.record ran.2) ∧
        ∀ later, (eval answer later (reconcileAll table.rows) ran.2).2.writes = ran.2.writes

section Table

variable (policy : Call → World → Outcome) (clean : Bool) (world : World)

theorem eval_reconcileRound (each : Desired) :
    eval answer policy (reconcileRound clean each) world =
      (.ok (clean && (eval answer policy each.program world).1.isOk),
        (eval answer policy each.program world).2) := by
  unfold reconcileRound
  rw [eval_catching, eval_bind]
  generalize eval answer policy each.program world = ran
  obtain ⟨result, reached⟩ := ran
  cases result with
  | ok value => simp [Except.isOk, Except.toBool]
  | error error => simp [Except.isOk, Except.toBool]

theorem eval_reconcileAll_cons (each : Desired) (rest : List Desired) :
    eval answer policy ((each :: rest).foldlM reconcileRound clean) world =
      eval answer policy
        (rest.foldlM reconcileRound (clean && (eval answer policy each.program world).1.isOk))
        (eval answer policy each.program world).2 := by
  rw [List.foldlM_cons]
  exact eval_bind_of_ok answer policy (eval_reconcileRound policy clean world each)

/-- A reconcile leaves the paths of other cameras. -/
theorem eval_reconcileAll_frame (table : List Desired) :
    let ran := eval answer policy (table.foldlM reconcileRound clean) world
    (∀ name, (∀ each ∈ table, each.Foreign name) → ran.2.conf name = world.conf name) ∧
      world.writes.length ≤ ran.2.writes.length := by
  induction table generalizing clean world with
  | nil => exact ⟨fun _ _ ↦ rfl, le_rfl⟩
  | cons each rest ih =>
    have hfirst := each.camera.eval_reconcile policy each.record each.recordChanged world
    obtain ⟨hframe, hwrites⟩ :=
      ih (clean && (eval answer policy each.program world).1.isOk)
        (eval answer policy each.program world).2
    simp only [eval_reconcileAll_cons]
    refine ⟨fun name hforeign ↦ ?_, hfirst.writes_le.trans hwrites⟩
    obtain ⟨⟨hmain, hsub⟩, hrest⟩ := List.forall_mem_cons.mp hforeign
    exact (hframe name hrest).trans (hfirst.frame name hmain hsub)

variable {table : List Desired}

/-- Two cameras of a table have different paths. -/
theorem agrees_of_reconcile {first each : Desired}
    (hne : first.camera.mediaMtxPath ≠ each.camera.mediaMtxPath) :
    each.Agrees world (eval answer policy first.program world).2 := by
  have hfirst := first.camera.eval_reconcile policy first.record first.recordChanged world
  obtain ⟨hmain, hsub⟩ := Desired.foreign_of_ne hne.symm
  exact ⟨hfirst.frame _ hmain.1 hmain.2, hfirst.frame _ hsub.1 hsub.2⟩

/-- A camera's round in the reconcile of a table: it finds and leaves the camera's paths as the
whole reconcile does, and returns if the whole has no failures. -/
structure Round (each : Desired) (ran : Except Failure Bool × World) (before : World) : Prop where
  finds : each.Agrees world before
  writes_before : world.writes.length ≤ before.writes.length
  leaves : each.Agrees (eval answer policy each.program before).2 ran.2
  writes_after : (eval answer policy each.program before).2.writes.length ≤ ran.2.writes.length
  returns : ran.1 = .ok true → (eval answer policy each.program before).1 = .ok ()

theorem clean_of_ok
    (hok : (eval answer policy (table.foldlM reconcileRound clean) world).1 = .ok true) :
    clean = true := by
  induction table generalizing clean world with
  | nil => exact Except.ok.inj hok
  | cons first rest ih =>
    rw [eval_reconcileAll_cons] at hok
    exact ((Bool.and_eq_true ..).mp (ih _ _ hok)).1

theorem exists_round
    (hdistinct : table.Pairwise fun first second ↦
      first.camera.mediaMtxPath ≠ second.camera.mediaMtxPath)
    {each : Desired} (hmem : each ∈ table) :
    ∃ before, Round policy world each
      (eval answer policy (table.foldlM reconcileRound clean) world) before := by
  induction table generalizing clean world with
  | nil => cases hmem
  | cons first rest ih =>
    obtain ⟨hfirstNe, hdistinct⟩ := List.pairwise_cons.mp hdistinct
    rw [eval_reconcileAll_cons]
    rcases List.mem_cons.mp hmem with rfl | hmem
    · obtain ⟨hframe, hwrites⟩ := eval_reconcileAll_frame policy
        (clean && (eval answer policy each.program world).1.isOk)
        (eval answer policy each.program world).2 rest
      refine ⟨world, ⟨rfl, rfl⟩, le_rfl, ⟨hframe _ fun other hother ↦ ?_,
        hframe _ fun other hother ↦ ?_⟩, hwrites, fun hok ↦ ?_⟩
      · exact (Desired.foreign_of_ne (hfirstNe other hother)).1
      · exact (Desired.foreign_of_ne (hfirstNe other hother)).2
      · have hisOk := ((Bool.and_eq_true ..).mp (clean_of_ok policy _ _ hok)).2
        cases hresult : (eval answer policy each.program world).1 with
        | ok value => rfl
        | error error =>
          rw [hresult] at hisOk
          cases hisOk
    · have hfirst := first.camera.eval_reconcile policy first.record first.recordChanged world
      obtain ⟨hmain, hsub⟩ := agrees_of_reconcile policy world (hfirstNe each hmem)
      obtain ⟨before, hround⟩ := ih _ _ hdistinct hmem
      exact ⟨before,
        { finds := ⟨hround.finds.1.trans hmain, hround.finds.2.trans hsub⟩
          writes_before := hfirst.writes_le.trans hround.writes_before
          leaves := hround.leaves
          writes_after := hround.writes_after
          returns := hround.returns }⟩

/-- A reconcile without failures leaves every path as it lands. -/
theorem eval_reconcileAll_reaches
    (hdistinct : table.Pairwise fun first second ↦
      first.camera.mediaMtxPath ≠ second.camera.mediaMtxPath)
    (hok : (eval answer policy (table.foldlM reconcileRound clean) world).1 = .ok true)
    {each : Desired} (hmem : each ∈ table) :
    let after := (eval answer policy (table.foldlM reconcileRound clean) world).2
    after.conf each.camera.mediaMtxPath =
        each.camera.mainAfter each.record (world.conf each.camera.mediaMtxPath) ∧
      after.conf each.camera.subPath = each.camera.subAfter (world.conf each.camera.subPath) := by
  obtain ⟨before, hround⟩ := exists_round policy clean world hdistinct hmem
  have hreconciled := each.camera.eval_reconcile policy each.record each.recordChanged before
  have hreturned := hround.returns hok
  rw [← hround.finds.1, ← hround.finds.2]
  exact ⟨hround.leaves.1.trans (hreconciled.main hreturned),
    hround.leaves.2.trans (hreconciled.sub hreturned)⟩

/-- Where every call succeeds and no camera throws, a reconcile has no failures. -/
theorem eval_reconcileAll_succeeds
    (hdistinct : table.Pairwise fun first second ↦
      first.camera.mediaMtxPath ≠ second.camera.mediaMtxPath)
    (hsucceeds : ∀ each ∈ table, ∀ reached, each.Agrees world reached →
      (eval answer calm each.program reached).1 = .ok ()) :
    (eval answer calm (table.foldlM reconcileRound true) world).1 = .ok true := by
  induction table generalizing world with
  | nil => rfl
  | cons first rest ih =>
    obtain ⟨hfirstNe, hdistinct⟩ := List.pairwise_cons.mp hdistinct
    obtain ⟨hfirst, hrest⟩ := List.forall_mem_cons.mp hsucceeds
    rw [eval_reconcileAll_cons, hfirst world ⟨rfl, rfl⟩]
    refine ih _ hdistinct fun each hmem reached hagrees ↦ hrest each hmem reached ?_
    obtain ⟨hmain, hsub⟩ := agrees_of_reconcile calm world (hfirstNe each hmem)
    exact ⟨hagrees.1.trans hmain, hagrees.2.trans hsub⟩

theorem eval_reconcileAll_rests
    (hrests : ∀ each ∈ table, (eval answer policy each.program world).2 = world) :
    (eval answer policy (table.foldlM reconcileRound clean) world).2 = world := by
  induction table generalizing clean with
  | nil => rfl
  | cons first rest ih =>
    obtain ⟨hfirst, hrest⟩ := List.forall_mem_cons.mp hrests
    rw [eval_reconcileAll_cons, hfirst]
    exact ih _ hrest

end Table

/-! ### Which tables and path configurations are safe -/

namespace Desired

variable (each : Desired) (world : World)

/-- A path of the camera is there, and its URL starts with a blank: provisioning trims it,
reconciling refuses it. -/
def Refused : Prop :=
  schemeOf each.camera.rtspUrl.toList = none ∧ world.conf each.camera.mediaMtxPath ≠ none ∨
    ∃ url, each.camera.subStreamUrl = some url ∧ schemeOf url.toList = none ∧
      world.conf each.camera.subPath ≠ none

/-- Reconciling the camera, once its paths are as provisioning sets them, finds nothing to do: every
URL it comes to is trimmed or refused. -/
structure Rests : Prop where
  main : trim each.camera.rtspUrl.toList = each.camera.rtspUrl.toList ∨
    schemeOf each.camera.rtspUrl.toList = none
  sub : schemeOf each.camera.rtspUrl.toList ≠ none → ∀ url, each.camera.subStreamUrl = some url →
    trim url.toList = url.toList ∨ schemeOf url.toList = none

/-- Nothing of the camera's paths is kept that provisioning would set otherwise. -/
structure KeepsRight : Prop where
  main : ∀ conf, world.conf each.camera.mediaMtxPath = some conf →
    sanitizeRtspUrl each.camera.rtspUrl.toList = .ok conf.source →
      trim each.camera.rtspUrl.toList = each.camera.rtspUrl.toList ∧ conf.sourceOnDemand = false
  sub : ∀ url, each.camera.subStreamUrl = some url → ∀ conf,
    world.conf each.camera.subPath = some conf → sanitizeRtspUrl url.toList = .ok conf.source →
      trim url.toList = url.toList ∧ conf.sourceOnDemand = true ∧ conf.record = false
  noSub : each.camera.subStreamUrl = none → world.conf each.camera.subPath = none

variable {each world} (policy : Call → World → Outcome)

theorem Refused.of_agrees {reached : World} (hrefused : each.Refused reached)
    (hagrees : each.Agrees world reached) : each.Refused world := by
  unfold Refused at *
  rwa [hagrees.1, hagrees.2] at hrefused

theorem ne_ok_of_refused (hrefused : each.Refused world) :
    (eval answer policy each.program world).1 ≠ .ok () := by
  unfold program
  rw [AcceptedCamera.reconcile_paths, eval_bind]
  have hmain := each.camera.eval_reconcileMain policy each.record world
  have hthrows : schemeOf each.camera.rtspUrl.toList = none ∧
      world.conf each.camera.mediaMtxPath ≠ none →
        (eval answer policy (each.camera.reconcileMain each.record) world).1 ≠ .ok () := by
    rintro ⟨hscheme, hthere⟩
    obtain ⟨conf, hconf⟩ := Option.ne_none_iff_exists'.mp hthere
    exact reconcilePath_ne_ok policy each.camera.cleanName_mediaMtxPath hconf hscheme
  generalize eval answer policy (each.camera.reconcileMain each.record) world = ran at *
  obtain ⟨result, between⟩ := ran
  cases result with
  | error error => exact nofun
  | ok value =>
    rcases hrefused with hrefused | ⟨url, hsub, hscheme, hthere⟩
    · exact absurd rfl (hthrows hrefused)
    · have hapart := each.camera.mediaMtxPath_ne_subPath each.camera
      rw [← hmain.frame hapart.symm] at hthere
      obtain ⟨conf, hconf⟩ := Option.ne_none_iff_exists'.mp hthere
      simp only [AcceptedCamera.reconcileSub, hsub]
      exact reconcilePath_ne_ok policy each.camera.cleanName_subPath hconf hscheme

theorem reconcileMain_succeeds
    (hmain : ¬ (schemeOf each.camera.rtspUrl.toList = none ∧
      world.conf each.camera.mediaMtxPath ≠ none)) :
    (eval answer calm (each.camera.reconcileMain each.record) world).1 = .ok () := by
  obtain ⟨source, hsource⟩ := AcceptedCamera.exists_sanitized each.camera.rtspUrl_accepted
  refine reconcilePath_succeeds each.camera.cleanName_mediaMtxPath hsource
    (fun conf hconf ↦ ?_) fun conf hconf ↦ ?_
  · rw [sanitizeRtspUrl_isOk_iff, ← Option.ne_none_iff_isSome]
    exact fun hscheme ↦ hmain ⟨hscheme, by simp [hconf]⟩
  · unfold followRecord
    split_ifs
    · rw [eval_patchPath_calm (each.camera.cleanName_mediaMtxPath.symm ▸ hconf)]
    · rfl

theorem succeeds_of_not_refused (hrefused : ¬ each.Refused world) :
    (eval answer calm each.program world).1 = .ok () := by
  obtain ⟨hnotMain, hnotSub⟩ := not_or.mp hrefused
  have hmain := each.camera.eval_reconcileMain calm each.record world
  have hreturns := reconcileMain_succeeds hnotMain
  unfold program
  rw [AcceptedCamera.reconcile_paths, eval_bind]
  generalize eval answer calm (each.camera.reconcileMain each.record) world = ran at *
  obtain ⟨result, between⟩ := ran
  obtain rfl := hreturns
  show (eval answer calm each.camera.reconcileSub between).1 = .ok ()
  unfold AcceptedCamera.reconcileSub
  cases hsub : each.camera.subStreamUrl with
  | none => rfl
  | some url =>
    obtain ⟨source, hsource⟩ :=
      AcceptedCamera.exists_sanitized (each.camera.subStreamUrl_accepted url hsub)
    have hapart := each.camera.mediaMtxPath_ne_subPath each.camera
    refine reconcilePath_succeeds each.camera.cleanName_subPath hsource
      (fun conf hconf ↦ ?_) fun _ _ ↦ rfl
    rw [sanitizeRtspUrl_isOk_iff, ← Option.ne_none_iff_isSome]
    rw [hmain.frame hapart.symm] at hconf
    exact fun hscheme ↦ hnotSub ⟨url, hsub, hscheme, by simp [hconf]⟩

theorem settled_iff_keepsRight {after : World}
    (hmain : after.conf each.camera.mediaMtxPath =
      each.camera.mainAfter each.record (world.conf each.camera.mediaMtxPath))
    (hsub : after.conf each.camera.subPath =
      each.camera.subAfter (world.conf each.camera.subPath)) :
    each.camera.Settled each.record after ↔ each.KeepsRight world := by
  have hmainIff := landed_eq_wanted_iff each.camera.rtspUrl false each.record
    (fun conf ↦ (rfl : { conf with record := each.record }.source = conf.source))
    (world.conf each.camera.mediaMtxPath)
  have hsubIff : after.conf each.camera.subPath =
      (each.camera.subStreamUrl.bind fun url ↦ wanted url true false) ↔
        (∀ url, each.camera.subStreamUrl = some url → ∀ conf,
          world.conf each.camera.subPath = some conf → sanitizeRtspUrl url.toList =
            .ok conf.source →
            trim url.toList = url.toList ∧ conf.sourceOnDemand = true ∧ conf.record = false) ∧
        (each.camera.subStreamUrl = none → world.conf each.camera.subPath = none) := by
    rw [hsub, AcceptedCamera.subAfter]
    cases each.camera.subStreamUrl with
    | none => simp
    | some url =>
      have hlands := landed_eq_wanted_iff url true false
        (fun conf ↦ (rfl : (id conf).source = conf.source)) (world.conf each.camera.subPath)
      simpa using hlands
  constructor
  · intro hsettled
    have hkeepsMain := hmainIff.mp (hmain.symm.trans hsettled.main)
    obtain ⟨hkeepsSub, hnoSub⟩ := hsubIff.mp hsettled.sub
    exact
      { main := fun conf hconf hurl ↦
          let hflags := hkeepsMain conf hconf hurl
          ⟨hflags.1, hflags.2.1⟩
        sub := hkeepsSub
        noSub := hnoSub }
  · intro hkeeps
    exact
      { main := hmain.trans (hmainIff.mpr fun conf hconf hurl ↦
          let hflags := hkeeps.main conf hconf hurl
          ⟨hflags.1, hflags.2, rfl⟩)
        sub := hsubIff.mpr ⟨hkeeps.sub, hkeeps.noSub⟩ }

section Settled

variable (hsettled : each.camera.Settled each.record world)

include hsettled

/-- A camera whose paths are settled has its main path, with the source of the trimmed URL. -/
theorem exists_main : ∃ source, sanitizeRtspUrl (trim each.camera.rtspUrl.toList) = .ok source ∧
    world.conf each.camera.mediaMtxPath =
      some { source, sourceOnDemand := false, record := each.record } := by
  obtain ⟨source, hsource⟩ := AcceptedCamera.exists_sanitized each.camera.rtspUrl_accepted
  exact ⟨source, hsource, hsettled.main.trans (wanted_of_ok hsource false each.record)⟩

theorem exists_sub {url : String} (hsub : each.camera.subStreamUrl = some url) :
    ∃ source, sanitizeRtspUrl (trim url.toList) = .ok source ∧
      world.conf each.camera.subPath =
        some { source, sourceOnDemand := true, record := false } := by
  obtain ⟨source, hsource⟩ :=
    AcceptedCamera.exists_sanitized (each.camera.subStreamUrl_accepted url hsub)
  have hconf := hsettled.sub
  rw [hsub, Option.bind_some, wanted_of_ok hsource] at hconf
  exact ⟨source, hsource, hconf⟩

/-- Reconciling a settled main path leaves it, unless its URL has blanks at the end. -/
theorem reconcileMain_rests
    (hmain : trim each.camera.rtspUrl.toList = each.camera.rtspUrl.toList ∨
      schemeOf each.camera.rtspUrl.toList = none) :
    (eval answer policy (each.camera.reconcileMain each.record) world).2 = world := by
  obtain ⟨source, hsource, hconf⟩ := exists_main hsettled
  refine reconcilePath_rests policy each.camera.cleanName_mediaMtxPath hconf fun other hother ↦ ?_
  have hscheme := (sanitizeRtspUrl_isOk_iff _).mp ⟨other, hother⟩
  rcases hmain with htrim | hnone
  · rw [htrim, hother] at hsource
    refine ⟨(Except.ok.inj hsource).symm, ?_⟩
    unfold followRecord
    rw [if_neg (not_not.mpr rfl)]
    rfl
  · rw [hnone] at hscheme
    cases hscheme

theorem program_rests (hrests : each.Rests) :
    (eval answer policy each.program world).2 = world := by
  have hmainRests := reconcileMain_rests policy hsettled hrests.main
  obtain ⟨source, hsource, hconf⟩ := exists_main hsettled
  have hthrows : schemeOf each.camera.rtspUrl.toList = none →
      (eval answer policy (each.camera.reconcileMain each.record) world).1 ≠ .ok () :=
    fun hscheme ↦
      reconcilePath_ne_ok policy each.camera.cleanName_mediaMtxPath hconf hscheme
  unfold program
  rw [AcceptedCamera.reconcile_paths, eval_bind]
  generalize eval answer policy (each.camera.reconcileMain each.record) world = ran at *
  obtain ⟨result, between⟩ := ran
  obtain rfl := hmainRests
  cases result with
  | error error => rfl
  | ok value =>
    show (eval answer policy each.camera.reconcileSub between).2 = between
    unfold AcceptedCamera.reconcileSub
    cases hsub : each.camera.subStreamUrl with
    | none => rfl
    | some url =>
      obtain ⟨subSource, hsubSource, hsubConf⟩ := exists_sub hsettled hsub
      refine reconcilePath_rests policy each.camera.cleanName_subPath hsubConf fun other hother ↦ ?_
      refine ⟨?_, rfl⟩
      rcases hrests.sub (fun hscheme ↦ hthrows hscheme rfl) url hsub with htrim | hnone
      · rw [htrim, hother] at hsubSource
        exact (Except.ok.inj hsubSource).symm
      · have hscheme := (sanitizeRtspUrl_isOk_iff _).mp ⟨other, hother⟩
        rw [hnone] at hscheme
        cases hscheme

theorem program_writes (hrests : ¬ each.Rests) :
    world.writes.length < (eval answer calm each.program world).2.writes.length := by
  obtain ⟨source, hsource, hconf⟩ := exists_main hsettled
  unfold program
  rw [AcceptedCamera.reconcile_paths]
  by_cases hmain : trim each.camera.rtspUrl.toList = each.camera.rtspUrl.toList ∨
      schemeOf each.camera.rtspUrl.toList = none
  · have hsub : ∃ url, schemeOf each.camera.rtspUrl.toList ≠ none ∧
        each.camera.subStreamUrl = some url ∧ trim url.toList ≠ url.toList ∧
          schemeOf url.toList ≠ none := by
      by_contra hnone
      refine hrests ⟨hmain, fun hscheme url hsub ↦ ?_⟩
      by_contra hboth
      obtain ⟨htrim, hurlScheme⟩ := not_or.mp hboth
      exact hnone ⟨url, hscheme, hsub, htrim, hurlScheme⟩
    obtain ⟨url, hscheme, hsub, htrim, hurlScheme⟩ := hsub
    have hreturned : eval answer calm (each.camera.reconcileMain each.record) world =
        (.ok (), world) :=
      Prod.ext (reconcileMain_succeeds fun hboth ↦ hscheme hboth.1)
        (reconcileMain_rests calm hsettled hmain)
    obtain ⟨subSource, hsubSource, hsubConf⟩ := exists_sub hsettled hsub
    obtain ⟨other, hother, hne⟩ := ne_sanitized hsubSource htrim hurlScheme
    rw [eval_bind_of_ok answer calm hreturned]
    simp only [AcceptedCamera.reconcileSub, hsub]
    rw [reconcilePath_writes true false _ each.camera.cleanName_subPath hsubSource hsubConf hother
      hne, writes_put, List.length_append]
    exact Nat.lt_succ_self _
  · obtain ⟨htrim, hscheme⟩ := not_or.mp hmain
    obtain ⟨other, hother, hne⟩ := ne_sanitized hsource htrim hscheme
    have hwrites := reconcilePath_writes false each.record
      (followRecord each.camera.mediaMtxPath each.record) each.camera.cleanName_mediaMtxPath hsource
      hconf hother hne
    rw [AcceptedCamera.reconcileMain, eval_bind_of_ok answer calm hwrites]
    have hsub := (each.camera.eval_reconcileSub calm
      (world.put each.camera.mediaMtxPath
        { source, sourceOnDemand := false, record := each.record })).writes_le
    rw [writes_put, List.length_append] at hsub
    exact Nat.lt_of_succ_le hsub

end Settled

end Desired

/-- A table that reaches the desired state and throws for no camera keeps and writes nothing it
should not. -/
theorem keepsRight_and_rests_of_reachesDesired {table : CameraTable} {world : World}
    (hreaches : ReachesDesired table world)
    (hrefused : ¬ ∃ each ∈ table.rows, each.Refused world) {each : Desired}
    (hmem : each ∈ table.rows) : each.KeepsRight world ∧ each.Rests := by
  have hok : (eval answer calm (reconcileAll table.rows) world).1 = .ok true :=
    eval_reconcileAll_succeeds world table.distinct fun other hother reached hagrees ↦
      Desired.succeeds_of_not_refused
        fun hrefuses ↦ hrefused ⟨other, hother, hrefuses.of_agrees hagrees⟩
  obtain ⟨hsettled, hfixpoint⟩ := hreaches calm hok
  have hafter := eval_reconcileAll_reaches calm true world table.distinct hok hmem
  refine ⟨(Desired.settled_iff_keepsRight hafter.1 hafter.2).mp (hsettled each hmem), ?_⟩
  by_contra hrests
  obtain ⟨before, hround⟩ := exists_round calm true
    (eval answer calm (reconcileAll table.rows) world).2 table.distinct hmem
  have hstill : each.camera.Settled each.record before :=
    ⟨hround.finds.1.trans (hsettled each hmem).main, hround.finds.2.trans (hsettled each hmem).sub⟩
  have hwrites := Desired.program_writes hstill hrests
  have hsame := congrArg List.length (hfixpoint calm)
  have hbefore := hround.writes_before
  have hwhole := hround.writes_after
  unfold reconcileAll at hsame hbefore hwhole
  omega

/-- Reconciling a table reaches the desired state and stays there exactly when it throws for some
camera, whatever its calls return, or no camera has a configuration kept that provisioning would not
set, or a URL that reconciling takes and that has blanks at its end. -/
theorem reachesDesired_iff (table : CameraTable) (world : World) :
    ReachesDesired table world ↔
      (∃ each ∈ table.rows, each.Refused world) ∨
        ∀ each ∈ table.rows, each.KeepsRight world ∧ each.Rests := by
  constructor
  · intro hreaches
    by_cases hrefused : ∃ each ∈ table.rows, each.Refused world
    · exact Or.inl hrefused
    · exact Or.inr fun each hmem ↦ keepsRight_and_rests_of_reachesDesired hreaches hrefused hmem
  · rintro (⟨each, hmem, hrefused⟩ | hsafe) policy ran hok
    · obtain ⟨before, hround⟩ := exists_round policy true world table.distinct hmem
      have hrefusedThen : each.Refused before :=
        hrefused.of_agrees ⟨hround.finds.1.symm, hround.finds.2.symm⟩
      exact absurd (hround.returns hok) (Desired.ne_ok_of_refused policy hrefusedThen)
    · have hsettled : ∀ each ∈ table.rows, each.camera.Settled each.record ran.2 := by
        intro each hmem
        have hafter := eval_reconcileAll_reaches policy true world table.distinct hok hmem
        exact (Desired.settled_iff_keepsRight hafter.1 hafter.2).mpr (hsafe each hmem).1
      refine ⟨hsettled, fun later ↦ ?_⟩
      have hrests := eval_reconcileAll_rests later true ran.2
        fun each hmem ↦ Desired.program_rests later (hsettled each hmem) (hsafe each hmem).2
      exact congrArg World.writes hrests

/-- A camera whose URL was pasted with a blank behind it. -/
def pastedCamera : AcceptedCamera where
  mediaMtxPath := generatePathName "gate" 1 2 3
  rtspUrl := "rtsp://gate/ "
  subStreamUrl := none
  generated := ⟨"gate", 1, 2, 3, rfl⟩
  rtspUrl_accepted := by decide
  subStreamUrl_accepted := nofun

/-- The path of a camera whose URL ends in a blank is set again on every tick. -/
theorem not_reachesDesired_trailing_blank :
    ¬ ∀ (table : CameraTable) (world : World), ReachesDesired table world := by
  intro hreaches
  let row : Desired := { camera := pastedCamera, record := true, recordChanged := false }
  have hnotRefused : ¬ ∃ each ∈ [row], each.Refused {} := by
    rintro ⟨each, hmem, hrefused⟩
    obtain rfl := List.mem_singleton.mp hmem
    rcases hrefused with ⟨-, hthere⟩ | ⟨url, hsub, -⟩
    · exact hthere rfl
    · cases hsub
  have hrests := (keepsRight_and_rests_of_reachesDesired
    (hreaches { rows := [row], distinct := List.pairwise_singleton _ _ } {}) hnotRefused
    List.mem_cons_self).2
  have hmain : ¬ (trim pastedCamera.rtspUrl.toList = pastedCamera.rtspUrl.toList ∨
      schemeOf pastedCamera.rtspUrl.toList = none) := by decide
  exact hmain hrests.main

end VmsLite.Media
