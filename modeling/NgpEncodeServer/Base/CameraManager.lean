import NgpEncodeServer.Proto.Messages
import NgpEncodeServer.Foundation.Sided
import NgpEncodeServer.Video.CodecContext

/-!
# `CameraManager`

The camera manager stores one camera for each eye and reinitializes the two encoders of an eye when
its resolution changes.  `setCameraLeft` and `setCameraRight` are `setCamera` at the two sides.

`setCamera` mutates three objects in a row (scene codec, depth codec, camera), and either encoder
may fail to open; the lemmas at the end say what each outcome leaves behind.
-/

namespace Ngp

open nesproto (Camera)

/-- The camera manager with the four codec managers it was given. -/
structure CameraManager where
  /-- `m_camera_left` and `m_camera_right`. -/
  camera : Sided Camera
  /-- `m_codec_scene_left` and `m_codec_scene_right`. -/
  codecScene : Sided AVCodecContextManager
  /-- `m_codec_depth_left` and `m_codec_depth_right`. -/
  codecDepth : Sided AVCodecContextManager
  deriving DecidableEq, Repr

/-- `kInitialCameraMatrix`, as the bit patterns of its floats. -/
def kInitialCameraMatrix : List UInt32 :=
  [0x3f800000, 0, 0, 0x3f000000, 0, 0xbf800000, 0, 0x3f000000, 0, 0, 0xbf800000, 0x3f000000]

/-- The size as it is requested from an encoder: odd sizes are made one smaller, because the
resolution must be divisible by 2. -/
def divisibleByTwo (size : UInt32) : UInt32 := if size % 2 ≠ 0 then size - 1 else size

/-- Rounding gives an even size. -/
theorem divisibleByTwo_mod_two (size : UInt32) : divisibleByTwo size % 2 = 0 := by
  unfold divisibleByTwo
  split <;> grind

namespace CameraManager

/-- The constructor: both cameras get the initial matrix and the default dimensions. -/
def new (codecScene codecDepth : Sided AVCodecContextManager)
    (defaultWidth defaultHeight : UInt32) : CameraManager :=
  let camera : Camera :=
    { matrix := kInitialCameraMatrix, width := defaultWidth, height := defaultHeight }
  { camera := ⟨camera, camera⟩, codecScene := codecScene, codecDepth := codecDepth }

/-- The manager as `main` builds it: four encoders opened with the configuration from the flags and
cameras of the same size. -/
def ofFlags (info : CodecInitInfo) : CameraManager :=
  let codec := (AVCodecContextManager.new info .opens).1
  new ⟨codec, codec⟩ ⟨codec, codec⟩ info.width info.height

/-- The test of `set_camera`: the size as received against the stored size. -/
def resolutionChanged (m : CameraManager) (isLeft : Bool) (camera : Camera) : Bool :=
  (m.camera.get isLeft).width != camera.width || (m.camera.get isLeft).height != camera.height

/-- The camera with both dimensions made divisible by 2. -/
def evenResolution (camera : Camera) : Camera :=
  { camera with width := divisibleByTwo camera.width, height := divisibleByTwo camera.height }

/-- `m_codec_scene->change_resolution(camera.width(), camera.height())` for one eye. -/
def changeScene (m : CameraManager) (isLeft : Bool) (camera : Camera) (outcome : InitOutcome) :
    CameraManager × Except Exn Unit :=
  let r := (m.codecScene.get isLeft).changeResolution camera.width camera.height outcome
  ({ m with codecScene := m.codecScene.set isLeft r.1 }, r.2)

/-- `m_codec_depth->change_resolution(camera.width(), camera.height())` for one eye. -/
def changeDepth (m : CameraManager) (isLeft : Bool) (camera : Camera) (outcome : InitOutcome) :
    CameraManager × Except Exn Unit :=
  let r := (m.codecDepth.get isLeft).changeResolution camera.width camera.height outcome
  ({ m with codecDepth := m.codecDepth.set isLeft r.1 }, r.2)

/-- `m_camera = camera` for one eye. -/
def storeCamera (m : CameraManager) (isLeft : Bool) (camera : Camera) : CameraManager :=
  { m with camera := m.camera.set isLeft camera }

/-- `set_camera_left` and `set_camera_right`, with what libavcodec answers to the two
reinitializations. An exception of `change_resolution` leaves the function. -/
def setCamera (isLeft : Bool) (m : CameraManager) (camera : Camera) (scene depth : InitOutcome) :
    CameraManager × Except Exn Unit :=
  if m.resolutionChanged isLeft camera then
    let camera := evenResolution camera
    let scened := m.changeScene isLeft camera scene
    match scened.2 with
    | .error e => (scened.1, .error e)
    | .ok () =>
      let depthed := scened.1.changeDepth isLeft camera depth
      match depthed.2 with
      | .error e => (depthed.1, .error e)
      | .ok () => (depthed.1.storeCamera isLeft camera, .ok ())
  else (m.storeCamera isLeft camera, .ok ())

/-- `set_camera_left`. -/
def setCameraLeft : CameraManager → Camera → InitOutcome → InitOutcome →
    CameraManager × Except Exn Unit := setCamera true

/-- `set_camera_right`. -/
def setCameraRight : CameraManager → Camera → InitOutcome → InitOutcome →
    CameraManager × Except Exn Unit := setCamera false

/-! ### What one call does -/

variable {m : CameraManager} {isLeft : Bool} {camera : Camera} {scene depth : InitOutcome}

/-- Reinitializing the scene encoder succeeds exactly when it opens. -/
theorem changeScene_snd_eq_ok_iff :
    (m.changeScene isLeft camera scene).2 = .ok () ↔ scene = .opens :=
  AVCodecContextManager.codecCtxInit_eq_ok_iff

/-- Reinitializing the depth encoder succeeds exactly when it opens. -/
theorem changeDepth_snd_eq_ok_iff :
    (m.changeDepth isLeft camera depth).2 = .ok () ↔ depth = .opens :=
  AVCodecContextManager.codecCtxInit_eq_ok_iff

/-- Without a change of the resolution only the camera is stored. -/
theorem setCamera_of_not_changed (h : m.resolutionChanged isLeft camera = false) :
    setCamera isLeft m camera scene depth = (m.storeCamera isLeft camera, .ok ()) := by
  simp [setCamera, h]

/-- When both encoders open, all three objects get the even size. -/
theorem setCamera_of_opens (h : m.resolutionChanged isLeft camera = true) :
    setCamera isLeft m camera .opens .opens =
      (((m.changeScene isLeft (evenResolution camera) .opens).1.changeDepth isLeft
        (evenResolution camera) .opens).1.storeCamera isLeft (evenResolution camera), .ok ()) := by
  simp only [setCamera, h, if_true, changeScene_snd_eq_ok_iff.mpr, changeDepth_snd_eq_ok_iff.mpr]

/-- When the scene encoder does not open, the call ends there. -/
theorem setCamera_of_scene_fails (h : m.resolutionChanged isLeft camera = true)
    (hscene : scene ≠ .opens) :
    (setCamera isLeft m camera scene depth).1 =
      (m.changeScene isLeft (evenResolution camera) scene).1 := by
  have hne : (m.changeScene isLeft (evenResolution camera) scene).2 ≠ .ok () :=
    fun hok => hscene (changeScene_snd_eq_ok_iff.mp hok)
  simp only [setCamera, h, if_true]
  split
  · rfl
  · exact absurd ‹_› hne

/-- When the depth encoder does not open, the scene encoder has been changed already. -/
theorem setCamera_of_depth_fails (h : m.resolutionChanged isLeft camera = true)
    (hdepth : depth ≠ .opens) :
    (setCamera isLeft m camera .opens depth).1 =
      ((m.changeScene isLeft (evenResolution camera) .opens).1.changeDepth isLeft
        (evenResolution camera) depth).1 := by
  have hne : ∀ m' : CameraManager,
      (m'.changeDepth isLeft (evenResolution camera) depth).2 ≠ .ok () :=
    fun m' hok => hdepth (changeDepth_snd_eq_ok_iff.mp hok)
  simp only [setCamera, h, if_true, changeScene_snd_eq_ok_iff.mpr]
  split
  · rfl
  · exact absurd ‹_› (hne _)

/-- `set_camera` returns normally exactly if the resolution is the stored one or both encoders
open. -/
theorem setCamera_eq_ok_iff :
    (setCamera isLeft m camera scene depth).2 = .ok () ↔
      (m.resolutionChanged isLeft camera = true → scene = .opens ∧ depth = .opens) := by
  cases hchanged : m.resolutionChanged isLeft camera with
  | false =>
    rw [setCamera_of_not_changed hchanged]
    simp
  | true =>
    simp only [setCamera, hchanged, if_true, forall_const]
    split
    · rename_i hthrow
      have hscene : scene ≠ .opens := by
        intro hopens
        rw [changeScene_snd_eq_ok_iff.mpr hopens] at hthrow
        cases hthrow
      simp [hscene]
    · rename_i hok
      have hscene : scene = .opens := changeScene_snd_eq_ok_iff.mp hok
      split
      · rename_i hthrow
        have hdepth : depth ≠ .opens := by
          intro hopens
          rw [changeDepth_snd_eq_ok_iff.mpr hopens] at hthrow
          cases hthrow
        simp [hdepth]
      · rename_i hok'
        simp [hscene, changeDepth_snd_eq_ok_iff.mp hok']

end CameraManager

end Ngp
