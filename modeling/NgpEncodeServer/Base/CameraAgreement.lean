import NgpEncodeServer.Base.CameraManager
import Mathlib.Tactic.ByContra

/-!
# The camera and the encoders of an eye

`EyeAgrees m e` says that the stored camera of the eye `e` and its two encoders have the same even
size, with both encoders open at exactly that size.  A successful `setCamera` keeps this for both
eyes.  An encoder that fails to open breaks it for good: its configuration already names the new
size and the old context is already freed.  Hence along every sequence of calls agreement is kept
if and only if every encoder that a call reinitializes opens.
-/

namespace Ngp

open nesproto (Camera)

/-- The manager's configuration has the given size and its encoder is open at that size. -/
structure AVCodecContextManager.OpenAt (m : AVCodecContextManager) (w h : UInt32) : Prop where
  info_width : m.info.width = w
  info_height : m.info.height = h
  ctx_open : ∃ c, m.ctx = some c ∧ c.isOpen = true ∧ c.width = w ∧ c.height = h

/-- An encoder that opens runs at the size requested. -/
theorem AVCodecContextManager.openAt_changeResolution (m : AVCodecContextManager) (w h : UInt32) :
    (m.changeResolution w h .opens).1.OpenAt w h :=
  ⟨rfl, rfl, _, rfl, rfl, rfl, rfl⟩

/-- A reinitialization that fails leaves no open encoder. -/
theorem AVCodecContextManager.not_openAt_changeResolution {m : AVCodecContextManager}
    {w h w' h' : UInt32} {outcome : InitOutcome} (hopened : m.opened = true)
    (hne : outcome ≠ .opens) : ¬(m.changeResolution w' h' outcome).1.OpenAt w h := by
  rintro ⟨-, -, c, hc, hopen, -, -⟩
  have hclosed : c.isOpen = false :=
    ctx_codecCtxInit_of_ne_opens
      (m := { m with info := { m.info with width := w', height := h' } }) hopened hne c hc
  rw [hclosed] at hopen
  cases hopen

/-- `m_opened` stays set. -/
theorem AVCodecContextManager.opened_changeResolution {m : AVCodecContextManager} {w h : UInt32}
    (outcome : InitOutcome) (hopened : m.opened = true) :
    (m.changeResolution w h outcome).1.opened = true := by
  cases outcome <;> first | exact hopened | rfl

namespace CameraManager

/-- The camera and the two encoders of an eye have the same even size, and the encoders are open
at that size. -/
structure EyeAgrees (m : CameraManager) (e : Bool) : Prop where
  width_even : (m.camera.get e).width % 2 = 0
  height_even : (m.camera.get e).height % 2 = 0
  scene : (m.codecScene.get e).OpenAt (m.camera.get e).width (m.camera.get e).height
  depth : (m.codecDepth.get e).OpenAt (m.camera.get e).width (m.camera.get e).height

/-- Nothing of the eye `e` differs between the two managers. -/
structure EyeUnchanged (m m' : CameraManager) (e : Bool) : Prop where
  camera : m'.camera.get e = m.camera.get e
  scene : m'.codecScene.get e = m.codecScene.get e
  depth : m'.codecDepth.get e = m.codecDepth.get e

/-- The flags of the four codec managers. -/
def AllOpened (m : CameraManager) : Prop :=
  ∀ e, (m.codecScene.get e).opened = true ∧ (m.codecDepth.get e).opened = true

/-- One call of `set_camera`, with what libavcodec would answer to each reinitialization. -/
structure SetCameraCall where
  isLeft : Bool
  camera : Camera
  scene : InitOutcome
  depth : InitOutcome

/-- Perform the call. -/
def SetCameraCall.perform (c : SetCameraCall) (m : CameraManager) :
    CameraManager × Except Exn Unit :=
  setCamera c.isLeft m c.camera c.scene c.depth

/-- `P` holds of every call of the sequence, each in the state it is made in.  A call that throws
still leaves a state in which the next one is made. -/
def EachCall (P : CameraManager → SetCameraCall → Prop) (m : CameraManager) :
    List SetCameraCall → Prop
  | [] => True
  | c :: cs => P m c ∧ EachCall P (c.perform m).1 cs

/-- What a call has to leave behind, whether it returns or throws. -/
structure KeepsAgreement (m : CameraManager) (c : SetCameraCall) : Prop where
  agrees : ∀ e, EyeAgrees (c.perform m).1 e
  throw_unchanged : (c.perform m).2 ≠ .ok () → EyeUnchanged m (c.perform m).1 c.isLeft
  other_unchanged : ∀ e, e ≠ c.isLeft → EyeUnchanged m (c.perform m).1 e

/-- If the call reinitializes the encoders of its eye, both open. -/
def EncodersOpen (m : CameraManager) (c : SetCameraCall) : Prop :=
  m.resolutionChanged c.isLeft c.camera = true → c.scene = .opens ∧ c.depth = .opens

/-! ### One call -/

variable {m : CameraManager} {c : SetCameraCall}

/-- A call never touches the other eye. -/
theorem eyeUnchanged_of_ne {e : Bool} (he : e ≠ c.isLeft) : EyeUnchanged m (c.perform m).1 e := by
  unfold SetCameraCall.perform
  cases hchanged : m.resolutionChanged c.isLeft c.camera with
  | false =>
    rw [setCamera_of_not_changed hchanged]
    exact ⟨Sided.get_set_of_ne _ _ he, rfl, rfl⟩
  | true =>
    by_cases hscene : c.scene = .opens
    · by_cases hdepth : c.depth = .opens
      · rw [hscene, hdepth, setCamera_of_opens hchanged]
        exact ⟨Sided.get_set_of_ne _ _ he, Sided.get_set_of_ne _ _ he, Sided.get_set_of_ne _ _ he⟩
      · rw [hscene, setCamera_of_depth_fails hchanged hdepth]
        exact ⟨rfl, Sided.get_set_of_ne _ _ he, Sided.get_set_of_ne _ _ he⟩
    · rw [setCamera_of_scene_fails hchanged hscene]
      exact ⟨rfl, Sided.get_set_of_ne _ _ he, rfl⟩

/-- An eye that a call leaves alone stays in agreement. -/
theorem EyeAgrees.of_unchanged {m m' : CameraManager} {e : Bool} (h : EyeAgrees m e)
    (hun : EyeUnchanged m m' e) : EyeAgrees m' e := by
  obtain ⟨hcamera, hscene, hdepth⟩ := hun
  constructor
  · rw [hcamera]; exact h.width_even
  · rw [hcamera]; exact h.height_even
  · rw [hscene, hcamera]; exact h.scene
  · rw [hdepth, hcamera]; exact h.depth

/-- A call that does not change the resolution stores a camera of the size that was stored. -/
theorem eyeAgrees_of_not_changed (hag : EyeAgrees m c.isLeft)
    (hchanged : m.resolutionChanged c.isLeft c.camera = false) :
    EyeAgrees (c.perform m).1 c.isLeft := by
  obtain ⟨hw, hh⟩ : (m.camera.get c.isLeft).width = c.camera.width ∧
      (m.camera.get c.isLeft).height = c.camera.height := by
    simpa [resolutionChanged] using hchanged
  unfold SetCameraCall.perform
  rw [setCamera_of_not_changed hchanged]
  have hcamera : ((m.storeCamera c.isLeft c.camera).camera.get c.isLeft) = c.camera :=
    Sided.get_set_self _ _ _
  constructor
  · rw [hcamera, ← hw]; exact hag.width_even
  · rw [hcamera, ← hh]; exact hag.height_even
  · rw [hcamera, ← hw, ← hh]; exact hag.scene
  · rw [hcamera, ← hw, ← hh]; exact hag.depth

/-- A call whose encoders both open leaves its eye in agreement at the rounded size. -/
theorem eyeAgrees_of_opens (hchanged : m.resolutionChanged c.isLeft c.camera = true)
    (hscene : c.scene = .opens) (hdepth : c.depth = .opens) :
    EyeAgrees (c.perform m).1 c.isLeft := by
  unfold SetCameraCall.perform
  rw [hscene, hdepth, setCamera_of_opens hchanged]
  constructor <;>
    simp only [storeCamera, changeDepth, changeScene, Sided.get_set_self]
  · exact divisibleByTwo_mod_two _
  · exact divisibleByTwo_mod_two _
  · exact AVCodecContextManager.openAt_changeResolution _ _ _
  · exact AVCodecContextManager.openAt_changeResolution _ _ _

/-- A call one of whose encoders fails to open leaves its eye without agreement. -/
theorem not_eyeAgrees_of_fails (hop : m.AllOpened)
    (hchanged : m.resolutionChanged c.isLeft c.camera = true)
    (hfail : ¬(c.scene = .opens ∧ c.depth = .opens)) : ¬EyeAgrees (c.perform m).1 c.isLeft := by
  intro hag
  unfold SetCameraCall.perform at hag
  by_cases hscene : c.scene = .opens
  · have hdepth : c.depth ≠ .opens := fun h => hfail ⟨hscene, h⟩
    rw [hscene, setCamera_of_depth_fails hchanged hdepth] at hag
    have hopen := hag.depth
    simp only [changeDepth, changeScene, Sided.get_set_self] at hopen
    exact AVCodecContextManager.not_openAt_changeResolution (hop c.isLeft).2 hdepth hopen
  · rw [setCamera_of_scene_fails hchanged hscene] at hag
    have hopen := hag.scene
    simp only [changeScene, Sided.get_set_self] at hopen
    exact AVCodecContextManager.not_openAt_changeResolution (hop c.isLeft).1 hscene hopen

/-- From an agreeing state, a call keeps the agreement exactly when the encoders it reinitializes
open. -/
theorem keepsAgreement_iff (hag : ∀ e, EyeAgrees m e) (hop : m.AllOpened) :
    KeepsAgreement m c ↔ EncodersOpen m c := by
  constructor
  · intro hkeeps hchanged
    by_contra hfail
    exact not_eyeAgrees_of_fails hop hchanged hfail (hkeeps.agrees c.isLeft)
  · intro hopens
    have hown : EyeAgrees (c.perform m).1 c.isLeft := by
      cases hchanged : m.resolutionChanged c.isLeft c.camera with
      | false => exact eyeAgrees_of_not_changed (hag _) hchanged
      | true => exact eyeAgrees_of_opens hchanged (hopens hchanged).1 (hopens hchanged).2
    refine ⟨fun e => ?_, fun hthrow => ?_, fun e he => eyeUnchanged_of_ne he⟩
    · by_cases he : e = c.isLeft
      · rw [he]
        exact hown
      · exact (hag e).of_unchanged (eyeUnchanged_of_ne he)
    · refine absurd ?_ hthrow
      unfold SetCameraCall.perform
      cases hchanged : m.resolutionChanged c.isLeft c.camera with
      | false => rw [setCamera_of_not_changed hchanged]
      | true =>
        obtain ⟨hscene, hdepth⟩ := hopens hchanged
        rw [hscene, hdepth, setCamera_of_opens hchanged]

/-- No call clears an `m_opened` flag. -/
theorem AllOpened.perform (hop : m.AllOpened) : (c.perform m).1.AllOpened := by
  intro e
  by_cases he : e = c.isLeft
  · subst he
    have hscene := fun w h o =>
      AVCodecContextManager.opened_changeResolution (w := w) (h := h) o (hop c.isLeft).1
    have hdepth := fun w h o =>
      AVCodecContextManager.opened_changeResolution (w := w) (h := h) o (hop c.isLeft).2
    unfold SetCameraCall.perform
    cases hchanged : m.resolutionChanged c.isLeft c.camera with
    | false =>
      rw [setCamera_of_not_changed hchanged]
      exact hop c.isLeft
    | true =>
      by_cases hs : c.scene = .opens
      · by_cases hd : c.depth = .opens
        · rw [hs, hd, setCamera_of_opens hchanged]
          simp [storeCamera, changeScene, changeDepth, hscene, hdepth]
        · rw [hs, setCamera_of_depth_fails hchanged hd]
          simp [changeScene, changeDepth, hscene, hdepth]
      · rw [setCamera_of_scene_fails hchanged hs]
        simp [changeScene, hscene, (hop c.isLeft).2]
  · have hun := eyeUnchanged_of_ne (m := m) he
    rw [hun.scene, hun.depth]
    exact hop e

/-! ### Sequences of calls -/

/-- Along every sequence of calls from an agreeing state, agreement is kept after each call exactly
when every encoder that a call reinitializes opens. -/
theorem eachCall_keepsAgreement_iff (hag : ∀ e, EyeAgrees m e) (hop : m.AllOpened)
    (calls : List SetCameraCall) :
    EachCall KeepsAgreement m calls ↔ EachCall EncodersOpen m calls := by
  induction calls generalizing m with
  | nil => exact Iff.rfl
  | cons c cs ih =>
    have hstep := keepsAgreement_iff (c := c) hag hop
    constructor
    · rintro ⟨hkeeps, hrest⟩
      exact ⟨hstep.mp hkeeps, (ih hkeeps.agrees hop.perform).mp hrest⟩
    · rintro ⟨hopens, hrest⟩
      have hkeeps := hstep.mpr hopens
      exact ⟨hkeeps, (ih hkeeps.agrees hop.perform).mpr hrest⟩

/-- Start from even default dimensions that are those of the four opened codecs.  Along every
sequence of `set_camera` calls, each call leaves the camera and the encoders of both eyes in
agreement, leaves its eye as it was when it throws, and never touches the other eye, if and only if
every encoder that a call of the sequence reinitializes opens. -/
theorem setCamera_agreement_iff (codecScene codecDepth : Sided AVCodecContextManager)
    (defaultWidth defaultHeight : UInt32) (hwidth : defaultWidth % 2 = 0)
    (hheight : defaultHeight % 2 = 0)
    (hscene : ∀ e, (codecScene.get e).OpenAt defaultWidth defaultHeight ∧
      (codecScene.get e).opened = true)
    (hdepth : ∀ e, (codecDepth.get e).OpenAt defaultWidth defaultHeight ∧
      (codecDepth.get e).opened = true)
    (calls : List SetCameraCall) :
    EachCall KeepsAgreement (new codecScene codecDepth defaultWidth defaultHeight) calls ↔
      EachCall EncodersOpen (new codecScene codecDepth defaultWidth defaultHeight) calls := by
  refine eachCall_keepsAgreement_iff (fun e => ?_) (fun e => ⟨(hscene e).2, (hdepth e).2⟩) calls
  have hsize : ∀ e, ((new codecScene codecDepth defaultWidth defaultHeight).camera.get e).width =
      defaultWidth ∧ ((new codecScene codecDepth defaultWidth defaultHeight).camera.get e).height =
      defaultHeight := by
    intro e
    cases e <;> exact ⟨rfl, rfl⟩
  obtain ⟨hw, hh⟩ := hsize e
  constructor
  · rw [hw]; exact hwidth
  · rw [hh]; exact hheight
  · rw [hw, hh]; exact (hscene e).1
  · rw [hw, hh]; exact (hdepth e).1

/-- A camera of odd width for the right eye, for which both encoders open. -/
def oddCameraCall : SetCameraCall where
  isLeft := false
  camera := { width := 641, height := 480 }
  scene := .opens
  depth := .opens

/-- With the defaults of `main`, the odd camera leaves both eyes in agreement. -/
theorem setCamera_agreement_oddCameraCall :
    EachCall KeepsAgreement (ofFlags defaultInitInfo) [oddCameraCall] :=
  (setCamera_agreement_iff _ _ _ _ (by decide) (by decide)
    (fun e => by cases e <;> exact ⟨⟨rfl, rfl, _, rfl, rfl, rfl, rfl⟩, rfl⟩)
    (fun e => by cases e <;> exact ⟨⟨rfl, rfl, _, rfl, rfl, rfl, rfl⟩, rfl⟩) _).mpr
    ⟨fun _ => ⟨rfl, rfl⟩, trivial⟩

/-- The camera message without dimensions, for which the scene encoder does not open. -/
def emptyCameraCall : SetCameraCall where
  isLeft := true
  camera := { isLeft := true }
  scene := .openFails "Invalid argument"
  depth := .opens

/-- After the failed call the scene codec of the left eye claims a size of `0 × 0`, its old context
is gone and no encoder is open, while the camera and the depth codec still have `1280 × 720`. -/
theorem emptyCameraCall_breaks_agreement :
    ¬EachCall KeepsAgreement (ofFlags defaultInitInfo) [emptyCameraCall] := by
  rintro ⟨hkeeps, -⟩
  have hwidth := (hkeeps.agrees true).scene.info_width
  exact absurd hwidth (by decide)

end CameraManager

end Ngp
