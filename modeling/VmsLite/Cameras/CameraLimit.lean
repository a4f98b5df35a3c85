import VmsLite.Async.Stock
import VmsLite.Cameras.Onboarding

/-!
# The licensed camera limit

An onboarding counts the cameras at its start, then talks to a device and to the media server, and
inserts its row at the end. Others that counted meanwhile insert theirs too. In every run in which
nothing was inserted since the count, or less than there was room for, the limit holds
(`withinLimit`).
-/

set_option autoImplicit false

namespace VmsLite.Cameras

open VmsLite.Async VmsLite.Media Program
open Recordings (CameraId)

/-! ### The claim -/

/-- The requests that add and remove cameras under a limit. -/
inductive CameraOperation (cameraLimit : ℕ) : Async Unit → Prop
  | commitVerifiedCamera (input : CommitCameraInput) (draw : Draw) :
      CameraOperation cameraLimit (commitVerifiedCamera input draw cameraLimit)
  | onboardOnvifCamera (input : OnboardCameraInput) (draw : Draw) :
      CameraOperation cameraLimit (onboardOnvifCamera input draw cameraLimit)
  | onboardManualCamera (input : ManualCameraInput) (draw : Draw) :
      CameraOperation cameraLimit (onboardManualCamera input draw cameraLimit)
  | removeCamera (id : CameraId) : CameraOperation cameraLimit (onMedia (removeCamera id))

/-- A camera whose keys no other has: one that an insert adds, unless it fails. -/
def isInsertable (camera : Camera) (world : World) : Bool :=
  !world.cameras.any fun other ↦ other.id = camera.id ||
    other.mediaMtxPath = camera.mediaMtxPath ||
    (other.subMediaMtxPath.isSome && other.subMediaMtxPath = camera.subMediaMtxPath)

/-- Whether a call has taken a place: an insert whose answer is lost may have. -/
def takesPlace : (call : Call) → Reply call → World → Bool
  | .media (.createCamera camera), _, world => isInsertable camera world
  | _, _, _ => false

def Call.inserts : Call → Bool
  | .media (.createCamera _) => true
  | _ => false

/-- The places that a count of the cameras leaves. -/
def placesLeft (cameraLimit : ℕ) : (call : Call) → Reply call → Option ℕ
  | .countCameras, .ok currentCount => some (cameraLimit - currentCount)
  | _, _ => none

/-! ### What the calls do to the table -/

/-- Nothing but an insert makes the table longer. -/
theorem length_cameras_effect {call : Media.Call} (world : World)
    (hcall : (Call.media call).inserts = false) :
    (effect call world).cameras.length ≤ world.cameras.length := by
  cases call with
  | createCamera camera => cases hcall
  | deleteCamera cameraId => exact List.length_filter_le _ _
  | replaceSchedule cameraId schedule => exact (List.length_map _).le
  | patchRecord name record =>
    exact (read_effect_patchRecord (fun world ↦ world.cameras.length) name record
      fun _ ↦ rfl).le
  | _ => exact Nat.le_refl _

/-- Every call leaves the places there were, but for one that it takes. -/
theorem length_cameras_answer (call : Call) (outcome : Outcome) (world : World) :
    (answer call outcome world).2.cameras.length ≤ world.cameras.length +
      if takesPlace call (answer call outcome world).1 world then 1 else 0 := by
  by_cases hinserts : call.inserts = true
  · cases call with
    | media call =>
      cases call with
      | createCamera camera =>
        show (world.answerCreateCamera camera outcome.plain).2.cameras.length ≤
          world.cameras.length + if isInsertable camera world then 1 else 0
        unfold World.answerCreateCamera isInsertable
        split_ifs with hfree
        · simp
        · simp
        · rcases change_effect outcome.plain () world
            { world with cameras := world.cameras ++ [camera] } with hsame | hdone
          · rw [hsame]
            exact Nat.le_succ _
          · rw [hdone]
            exact (List.length_append).le
        · simp_all
      | _ => cases hinserts
    | _ => cases hinserts
  · refine Nat.le_add_right_of_le ?_
    cases call with
    | media call =>
      show (Media.answer call outcome.plain world).2.cameras.length ≤ world.cameras.length
      rcases answer_effect call outcome.plain world with hsame | hdone
      · rw [hsame]
      · rw [hdone]
        exact length_cameras_effect world (eq_false_of_ne_true hinserts)
    | _ => exact Nat.le_refl _

/-- The places that a limit leaves. -/
def places (cameraLimit : ℕ) : Stock Unit machine where
  left := fun _ world ↦ cameraLimit - world.cameras.length
  measured := fun call reply _ ↦ placesLeft cameraLimit call reply
  takes := fun call reply world _ ↦ takesPlace call reply world
  mayTake := fun call _ ↦ call.inserts
  sound := fun world ↦ world.cameras.length ≤ cameraLimit
  mayTake_of_takes := by
    intro call reply world key htakes
    cases call with
    | media call =>
      cases call with
      | createCamera camera => rfl
      | _ => cases htakes
    | _ => cases htakes
  measured_le := by
    intro call outcome world key count hsound hmeasured
    cases call with
    | countCameras =>
      cases hplain : outcome.plain with
      | ok =>
        have hreply : (machine.answer .countCameras outcome world).1 =
            .ok world.cameras.length := by
          show outcome.plain.orFail world.cameras.length = _
          rw [hplain]
          rfl
        rw [hreply] at hmeasured
        exact (Option.some.inj hmeasured).ge
      | fail error applied =>
        have hreply : (machine.answer .countCameras outcome world).1 = .error error := by
          show outcome.plain.orFail world.cameras.length = _
          rw [hplain]
          rfl
        rw [hreply] at hmeasured
        cases hmeasured
    | _ => cases hmeasured
  left_le := by
    intro call outcome world key hsound
    have hle := length_cameras_answer call outcome world
    show cameraLimit - world.cameras.length ≤
      cameraLimit - (answer call outcome world).2.cameras.length +
        if takesPlace call (answer call outcome world).1 world then 1 else 0
    omega
  sound_answer := by
    intro call outcome world hsound htakes
    have hle := length_cameras_answer call outcome world
    have htaken : takesPlace call (answer call outcome world).1 world = true →
      0 < cameraLimit - world.cameras.length := htakes ()
    show (answer call outcome world).2.cameras.length ≤ cameraLimit
    have hbefore : world.cameras.length ≤ cameraLimit := hsound
    split_ifs at hle with htake
    · have hleft := htaken htake
      omega
    · omega

/-! ### The requests -/

section Requests

variable {cameraLimit : ℕ}

/-- Calls that do not count the cameras. -/
abbrev Uncounted (cameraLimit : ℕ) (call : Call) : Prop := (places cameraLimit).Unmeasured call

theorem onMedia_uncounted {α : Type} (program : Media.Async α) :
    (onMedia program).Uses (Uncounted cameraLimit) := by
  induction program with
  | done value => trivial
  | failed error => trivial
  | await request next ih => exact ⟨fun _ _ ↦ rfl, ih⟩

/-- What comes after the count of an onboarding comes only if it left a place. -/
theorem careful_of_limited {rest : Async Unit} (hrest : rest.Uses (Uncounted cameraLimit)) :
    (places cameraLimit).Careful ((assertWithinLimit cameraLimit).bind fun _ ↦ rest) := by
  refine ⟨fun key hnone ↦ (Option.some_ne_none 0 hnone.symm).elim, fun reply _ ↦ ?_⟩
  cases reply with
  | error error => trivial
  | ok currentCount =>
    show Program.Follows (places cameraLimit).checking _ _
      (Program.bind (if cameraLimit ≤ currentCount then _ else _) _) _
    split_ifs with hfull
    · trivial
    · refine ((places cameraLimit).follows_of_unmeasured hrest fun key hzero ↦ ?_).mono
        (fun _ _ _ ↦ trivial) fun _ _ ↦ id
      have hnone : cameraLimit - currentCount = 0 := Option.some.inj hzero
      omega

theorem CameraOperation.careful {program : Async Unit}
    (hoperation : CameraOperation cameraLimit program) : (places cameraLimit).Careful program := by
  cases hoperation with
  | commitVerifiedCamera input draw =>
    refine careful_of_limited (Uses.bind (onMedia_uncounted _) fun _ ↦ ?_)
    cases truthy input.previewPath with
    | none => trivial
    | some previewPath => exact onMedia_uncounted _
  | onboardOnvifCamera input draw =>
    refine careful_of_limited (Uses.bind (Uses.request fun _ _ ↦ rfl) fun _ ↦
      Uses.bind (Uses.request fun _ _ ↦ rfl) fun reply ↦ Uses.bind Uses.orThrow fun profiles ↦ ?_)
    dsimp only
    cases (profiles.find? (·.isMainStream)).or profiles.head? with
    | none => trivial
    | some mainProfile => exact onMedia_uncounted _
  | onboardManualCamera input draw => exact careful_of_limited (onMedia_uncounted _)
  | removeCamera id =>
    have hfree : Stock.Free fun _ : Unit ↦ (none : Option ℕ) := fun _ ↦ nofun
    exact ((places cameraLimit).follows_of_unmeasured (onMedia_uncounted _) hfree).mono
      (fun _ _ _ ↦ trivial) fun _ _ _ ↦ trivial

end Requests

/-! ### Every run -/

abbrev PlaceTallies : Type := Stock.Tallies Unit

/-- A run of onboardings and removals, as far as it has come. -/
structure OnboardingRun (condition : ℕ → ℕ × Call → Outcome → World × PlaceTallies → Prop) where
  cameraLimit : ℕ
  world : World
  system : System (ℕ × Call) (fun call ↦ Reply call.2) Media.Failure (World × PlaceTallies) Unit
  within : world.cameras.length ≤ cameraLimit
  reached : Reaches (Machine.watched machine (places cameraLimit).observe).move
    (NumberedMove machine (places cameraLimit).observe (CameraOperation cameraLimit)
      (fun _ ↦ True) (condition cameraLimit))
    { threads := [], world := (world, fun _ _ ↦ none) } system

/-- The limit holds in every run in which whoever inserts a camera has counted them, and since then
none was inserted or fewer than there was room for. -/
theorem withinLimit (run : OnboardingRun fun cameraLimit ↦ (places cameraLimit).TakesInTime) :
    run.system.world.1.cameras.length ≤ run.cameraLimit :=
  (places run.cameraLimit).sound_of_reaches (fun _ ↦ CameraOperation.careful)
    (fun event world _ hsound ↦ by
      have hsame : (react event world).cameras = world.cameras := by cases event <;> rfl
      refine ⟨?_, fun _ ↦ ?_⟩
      · show (react event world).cameras.length ≤ run.cameraLimit
        rw [hsame]
        exact hsound
      · show run.cameraLimit - world.cameras.length ≤
          run.cameraLimit - (react event world).cameras.length
        rw [hsame]) run.within run.reached

/-! The last place, and two onboardings at once -/

def gateInput : ManualCameraInput where
  name := "gate"
  rtspUrl := "rtsp://gate/"
  subStreamUrl := none

def gateDraw (id : CameraId) (byte : ℕ) : Draw where
  id := id
  byte0 := UInt8.ofNat byte
  byte1 := UInt8.ofNat byte
  byte2 := UInt8.ofNat byte

/-- Both onboardings count no cameras before either inserts its own. -/
def twoOnboardings : List (Move (ℕ × Call) (fun call ↦ Reply call.2) Media.Failure Outcome
    EnvironmentChange Unit) :=
  .start () ((onboardManualCamera gateInput (gateDraw "cam-1" 1) 1).labelled 0) ::
    .start () ((onboardManualCamera gateInput (gateDraw "cam-2" 2) 1).labelled 1) ::
      [0, 1, 0, 0, 1, 1].map (.advance · (.media .ok))

def crowdedSystem :
    System (ℕ × Call) (fun call ↦ Reply call.2) Media.Failure (World × PlaceTallies) Unit :=
  runMoves (Machine.watched machine (places 1).observe).move
    { threads := [], world := ({}, fun _ _ ↦ none) } twoOnboardings

theorem reaches_crowdedSystem : Reaches (Machine.watched machine (places 1).observe).move
    (NumberedMove machine (places 1).observe (CameraOperation 1) (fun _ ↦ True) fun _ _ _ ↦ True)
    { threads := [], world := ({}, fun _ _ ↦ none) } crowdedSystem := by
  refine Reaches.refl.run
    ⟨.start _ (.onboardManualCamera _ _) ?_, .start _ (.onboardManualCamera _ _) ?_,
      LegalRun.of_forall (fun move hmove system ↦ ?_) _⟩
  · exact Machine.SettleCalls.of_synchronous _ (fun _ _ _ ↦ trivial) _ _
  · exact Machine.SettleCalls.of_synchronous _ (fun _ _ _ ↦ trivial) _ _
  · obtain ⟨thread, -, rfl⟩ := List.mem_map.mp hmove
    exact .advance _ _ fun program _ ↦
      Machine.ResumeCalls.of_awaited _ (fun _ _ _ ↦ trivial) fun _ _ _ ↦ trivial

theorem cameras_crowdedSystem : crowdedSystem.world.1.cameras.length = 2 := by decide

/-- Two cameras where one is licensed. -/
theorem not_withinLimit_twoOnboardings : ¬ ∀ run : OnboardingRun fun _ _ _ _ ↦ True,
    run.system.world.1.cameras.length ≤ run.cameraLimit := by
  intro hwithin
  let run : OnboardingRun fun _ _ _ _ ↦ True :=
    { cameraLimit := 1
      world := {}
      system := crowdedSystem
      within := Nat.zero_le 1
      reached := reaches_crowdedSystem }
  have hle := hwithin run
  rw [show run.system = crowdedSystem from rfl, cameras_crowdedSystem] at hle
  exact absurd hle (by decide)

end VmsLite.Cameras
