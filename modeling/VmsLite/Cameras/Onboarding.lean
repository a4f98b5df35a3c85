import VmsLite.Media.CameraMediaPaths

/-!
# Onboarding cameras

The three ways to add a camera under a licensed limit: a camera that the wizard has verified, an
ONVIF camera whose profiles are read first, and a plain RTSP stream. Each counts the cameras once,
at its start. The calls are those of the media plane, the count, and the questions to a device.
-/

set_option autoImplicit false

namespace VmsLite.Cameras

open VmsLite.Async VmsLite.Media Program
open Recordings (CameraId)

/-! ### Calls -/

/-- How to reach a device. -/
structure ConnectionParams where
  ip : String
  port : ℕ
  username : Option String
  password : Option String
  xaddr : Option String
  deriving DecidableEq, Repr

structure StreamProfile where
  token : String
  rtspUri : String
  isMainStream : Bool
  deriving DecidableEq, Repr

inductive Call
  | media (call : Media.Call)
  | countCameras
  | getDeviceInformation (params : ConnectionParams)
  | getProfiles (params : ConnectionParams)
  deriving DecidableEq, Repr

@[reducible] def Reply : Call → Type
  | .media call => Media.Reply call
  | .countCameras => Except Media.Failure ℕ
  | .getDeviceInformation _ => Except Media.Failure Unit
  | .getProfiles _ => Except Media.Failure (List StreamProfile)

/-- What the environment makes of a call; a device answers with its profiles. -/
inductive Outcome
  | media (outcome : Media.Outcome)
  | profiles (found : List StreamProfile)
  deriving DecidableEq, Repr

/-- The outcome of a call that asks no device for profiles. -/
def Outcome.plain : Outcome → Media.Outcome
  | .media outcome => outcome
  | .profiles _ => .ok

def answer (call : Call) (outcome : Outcome) (world : World) : Reply call × World :=
  match call with
  | .media call => Media.answer call outcome.plain world
  | .countCameras => (outcome.plain.orFail world.cameras.length, world)
  | .getDeviceInformation _ => (outcome.plain.orFail (), world)
  | .getProfiles _ =>
    (match outcome with
      | .profiles found => .ok found
      | .media outcome => outcome.orFail [], world)

def synchronous : Call → Bool
  | .media call => Media.synchronous call
  | _ => false

def machine : Machine Call Reply World Outcome EnvironmentChange where
  answer := answer
  synchronous := synchronous
  calm := .media .ok
  react := react
  restart := restart

abbrev Async (α : Type) : Type := Program Call Reply Media.Failure α

abbrev call (request : Call) : Async (Reply request) := Program.request request

/-- A program of the media plane. -/
def onMedia {α : Type} : Media.Async α → Async α
  | done value => done value
  | failed error => failed error
  | await request next => await (.media request) fun reply ↦ onMedia (next reply)

/-! ### The flows -/

section Flows

/-- What the database and the random generator provide for a new row: its identifier, and the bytes
of its path name. -/
structure Draw where
  id : CameraId
  byte0 : UInt8
  byte1 : UInt8
  byte2 : UInt8

def provision (draw : Draw) (name rtspUrl : String) (subStreamUrl : Option String) : Async Unit :=
  onMedia (provisionCamera draw.id name rtspUrl subStreamUrl draw.byte0 draw.byte1 draw.byte2)

def assertWithinLimit (cameraLimit : ℕ) : Async Unit := do
  let currentCount ← orThrow (← call .countCameras)
  if cameraLimit ≤ currentCount then
    failed
      { message := "License limit exceeded. Maximum cameras allowed: " ++ toString cameraLimit ++
          ", currently active: " ++ toString currentCount }
  else pure ()

structure CommitCameraInput where
  name : String
  rtspUrl : String
  subStreamUrl : Option String
  previewPath : Option String

/-- Commits a camera verified by the onboarding wizard. -/
def commitVerifiedCamera (input : CommitCameraInput) (draw : Draw) (cameraLimit : ℕ) :
    Async Unit := do
  assertWithinLimit cameraLimit
  provision draw input.name input.rtspUrl input.subStreamUrl
  match truthy input.previewPath with
  | some previewPath => onMedia (ignoringErrors (closePreview previewPath))
  | none => pure ()

structure OnboardCameraInput extends ConnectionParams where
  name : String

/-- Onboards an ONVIF camera: the main stream is the first profile that says so, or the first, and
the sub stream the first that does not. -/
def onboardOnvifCamera (input : OnboardCameraInput) (draw : Draw) (cameraLimit : ℕ) :
    Async Unit := do
  assertWithinLimit cameraLimit
  let _ ← call (.getDeviceInformation input.toConnectionParams)
  let profiles ← orThrow (← call (.getProfiles input.toConnectionParams))
  match (profiles.find? (·.isMainStream)).or profiles.head? with
  | none =>
    failed { message := "No video stream profiles could be found on camera at " ++ input.ip }
  | some mainProfile =>
    let subProfile := profiles.find? fun profile ↦ !profile.isMainStream
    provision draw input.name mainProfile.rtspUri (subProfile.map (·.rtspUri))

structure ManualCameraInput where
  name : String
  rtspUrl : String
  subStreamUrl : Option String

/-- Onboards a manual RTSP stream. -/
def onboardManualCamera (input : ManualCameraInput) (draw : Draw) (cameraLimit : ℕ) :
    Async Unit := do
  assertWithinLimit cameraLimit
  provision draw input.name input.rtspUrl input.subStreamUrl

end Flows

end VmsLite.Cameras
