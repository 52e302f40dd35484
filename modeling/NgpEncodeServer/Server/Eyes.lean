import NgpEncodeServer.Base.CameraControl
import NgpEncodeServer.Server.Control

/-!
# The eye of a request

A request names its eye twice: in its own flag, which is the eye drawn, and in the flag of the
camera that it carries, which is that of the stored camera.  A camera is stored for the eye that its
message names, so that the flags agree as soon as the eye has got a message.  But the constructor of
`CameraManager` sets the flag of neither camera: until the first message for the left eye, the
requests for the left eye carry a camera that says it is a right one (`request_eye_iff`).
-/

namespace Ngp

open nesproto (Camera FrameRequest)

/-- The eye and the camera of a `set_camera` that is under way. -/
def ControlPoint.setting : ControlPoint → Option (Bool × Camera)
  | .changingScene e camera | .changingDepth e camera | .storing e camera => some (e, camera)
  | .idle | .raised _ => none

namespace Server

/-- Cameras are set as `message_handler` sets them, for the eye that they name. -/
def DispatchesByEye (_ : Server) : Action → Prop
  | .control (.setCamera e camera) => e = camera.isLeft
  | _ => True

instance (s : Server) (a : Action) : Decidable (s.DispatchesByEye a) := by
  unfold DispatchesByEye
  split
  · exact instDecidableEqBool _ _
  · exact instDecidableTrue

/-- The step stores the camera of a `set_camera_left`. -/
def storesLeft (s : Server) (a : Action) : Bool :=
  match a, s.control with
  | .control .store, .storing true _ => true
  | _, _ => false

/-- The steps of a `set_camera` for the eye that the camera names. -/
theorem dispatchesByEye_of_mem {m : CameraManager} {cam : Camera} {scene depth : InitOutcome}
    {a : Action} (ha : a ∈ setCameraSteps m cam.isLeft cam scene depth) (s : Server) :
    s.DispatchesByEye a := by
  unfold setCameraSteps at ha
  dsimp only at ha
  split at ha
  · rcases List.mem_cons.mp ha with rfl | ha
    · rfl
    · rcases List.mem_cons.mp ha with rfl | ha
      · trivial
      · split at ha
        · cases ha
        · rcases List.mem_cons.mp ha with rfl | ha
          · trivial
          · split at ha
            · cases ha
            · rw [List.mem_singleton.mp ha]
              trivial
  · rcases List.mem_cons.mp ha with rfl | ha
    · rfl
    · rw [List.mem_singleton.mp ha]
      trivial

/-- What `message_handler` does with a payload that parses, as steps of the control thread. -/
theorem run_messageHandler {parse : List UInt8 → Option Camera} {payload : List UInt8}
    {cam : Camera} (hparse : parse payload = some cam) {s : Server}
    (hlive : s.terminated = false) (hidle : s.control = .idle) (scene depth : InitOutcome) :
    ∃ s', (step.guarded DispatchesByEye).run s
        (setCameraSteps s.cameramgr cam.isLeft cam scene depth) = some s' ∧
      s'.cameramgr = ((CameraControlServer.new s.cameramgr).messageHandler parse payload scene
        depth).1.cameraManager := by
  obtain ⟨s', hrun, hcameramgr, -⟩ := run_setCameraSteps hlive hidle cam.isLeft cam scene depth
  refine ⟨s', ?_, ?_⟩
  · rw [Machine.run_guarded_of_forall fun a ha s => dispatchesByEye_of_mem ha s]
    exact hrun
  · rw [hcameramgr, (CameraControlServer.messageHandler_of_parsed hparse).1]
    rfl

/-- The flags of the stored cameras, and of the one that is being set. -/
structure EyesKept (info : CodecInitInfo) (as : List Action) (s : Server) : Prop where
  setting : ∀ e camera, s.control.setting = some (e, camera) → camera.isLeft = e
  right : s.cameramgr.camera.right.isLeft = false
  left : s.cameramgr.camera.left.isLeft = true ↔
    0 < step.countSteps storesLeft (init info) as

variable {info : CodecInitInfo} {s s' : Server} {a : Action} {as : List Action}

/-- A step that is no `store` of the control thread leaves the flags of the stored cameras alone. -/
theorem EyesKept.of_camera_eq (h : EyesKept info as s)
    (hrun : step.run (init info) as = some s) (hstores : s.storesLeft a = false)
    (hcamera : s'.cameramgr.camera = s.cameramgr.camera)
    (hsetting : ∀ e camera, s'.control.setting = some (e, camera) → camera.isLeft = e) :
    EyesKept info (as ++ [a]) s' where
  setting := hsetting
  right := by
    rw [hcamera]
    exact h.right
  left := by
    rw [hcamera, Machine.countSteps_concat hrun, hstores]
    exact h.left

/-- The camera that is stored names the eye for which it is set. -/
theorem EyesKept.step (h : EyesKept info as s) (hrun : step.run (init info) as = some s)
    (ht : Trans s a s') (hguard : s.DispatchesByEye a) : EyesKept info (as ++ [a]) s' := by
  cases ht with
  | connect | pipe =>
    exact h.of_camera_eq hrun rfl rfl h.setting
  | client hc ht =>
    obtain ⟨hcameramgr, hcontrol⟩ := (Trans.client hc ht).cameramgr_eq (by simp)
    exact h.of_camera_eq hrun rfl (congrArg CameraManager.camera hcameramgr)
      (by rw [hcontrol]; exact h.setting)
  | control ht =>
    cases ht with
    | @changing e camera hat hch =>
      have hdispatch : e = camera.isLeft := hguard
      refine h.of_camera_eq hrun rfl rfl ?_
      rintro e' camera' ⟨⟩
      exact hdispatch.symm
    | @keeping e camera hat hch =>
      have hdispatch : e = camera.isLeft := hguard
      refine h.of_camera_eq hrun rfl rfl ?_
      rintro e' camera' ⟨⟩
      exact hdispatch.symm
    | @changeScene e camera hat | @changeDepth e camera hat =>
      have hsetting := h.setting e camera (by rw [hat]; rfl)
      refine h.of_camera_eq hrun rfl rfl ?_
      rintro e' camera' ⟨⟩
      exact hsetting
    | changeSceneThrows hat | changeDepthThrows hat =>
      exact h.of_camera_eq hrun rfl rfl (by rintro e camera ⟨⟩)
    | @store e camera hat =>
      have hsetting := h.setting e camera (by rw [hat]; rfl)
      cases e with
      | true =>
        refine ⟨by rintro e' camera' ⟨⟩, h.right, iff_of_true hsetting ?_⟩
        have hstores : s.storesLeft (.control .store) = true := by simp [storesLeft, hat]
        rw [Machine.countSteps_concat hrun, hstores]
        exact Nat.succ_pos _
      | false =>
        have hstores : s.storesLeft (.control .store) = false := by simp [storesLeft, hat]
        refine ⟨by rintro e' camera' ⟨⟩, hsetting, ?_⟩
        rw [Machine.countSteps_concat hrun, hstores]
        exact h.left

/-- The flags of the stored cameras in every state: the right one names its eye, and the left one
does as soon as a camera has been stored for the left eye. -/
theorem eyesKept_run (hrun : (step.guarded DispatchesByEye).run (init info) as = some s) :
    EyesKept info as s := by
  refine Machine.run_guarded_induction (P := EyesKept info) ⟨by rintro e camera ⟨⟩, rfl, ?_⟩ ?_ hrun
  · exact iff_of_false Bool.false_ne_true (by simp)
  · intro as s a s' hrun hkept hguard hstep
    exact hkept.step hrun (trans_of_step hstep).1 hguard

/-- In every state the server reaches with the camera control server dispatching its messages, and
for every request that a client thread builds: the camera in the request is the one stored for the
eye drawn, and its flag is that of the request if and only if the request is for the right eye or a
camera has been stored for the left one. -/
theorem request_eye_iff {i : ℕ}
    (hrun : (step.guarded DispatchesByEye).run (init info) as = some s)
    (hbuild : step s (.client i .build) = some s') :
    ∃ ret e index req, s.clients[i]? = some ⟨ret, .allocated e index⟩ ∧
      s'.clients[i]? = some ⟨ret, .sending req⟩ ∧
      req.isLeft = e ∧ req.camera = s.cameramgr.camera.get e ∧
      (req.camera.isLeft = req.isLeft ↔
        e = false ∨ 0 < step.countSteps storesLeft (init info) as) := by
  have hkept := eyesKept_run hrun
  cases (trans_of_step hbuild).1 with
  | @client _ c _ _ _ hc ht =>
    obtain ⟨ret, point⟩ := c
    cases ht with
    | @build e index hat =>
      obtain rfl : point = .allocated e index := hat
      refine ⟨ret, e, index, _, hc,
        List.getElem?_set_self (List.getElem?_eq_some_iff.mp hc).1, rfl, rfl, ?_⟩
      cases e with
      | true => simpa using hkept.left
      | false => simpa using hkept.right

/-- Two clients draw, the second one the left eye. -/
def drawsBoth : List Action :=
  [.connect, .connect, .client 0 .draw, .client 1 .draw, .client 1 .allocate]

/-- After a message for the left eye, the request for it carries a camera of the left eye. -/
theorem request_eye_leftSet :
    ∃ s s', (step.guarded DispatchesByEye).run (init defaultInitInfo)
        ([.control (.setCamera true { isLeft := true, width := 1280, height := 720 }),
          .control .store] ++ drawsBoth) = some s ∧
      step s (.client 1 .build) = some s' ∧
      ∃ req, s'.clients[1]? = some ⟨0, .sending req⟩ ∧ req.camera.isLeft = req.isLeft := by
  obtain ⟨ret, e, index, req, hc, hc', -, -, hiff⟩ := @request_eye_iff defaultInitInfo _ _
    ([.control (.setCamera true { isLeft := true, width := 1280, height := 720 }),
      .control .store] ++ drawsBoth) 1 rfl rfl
  refine ⟨_, _, rfl, rfl, req, ?_, hiff.mpr (Or.inr (by decide))⟩
  cases hc
  exact hc'

/-- The first request for the left eye carries a camera that says it is of the right eye. -/
theorem first_left_request_disagrees :
    ∃ s s', (step.guarded DispatchesByEye).run (init defaultInitInfo) drawsBoth = some s ∧
      step s (.client 1 .build) = some s' ∧
      ∃ req, s'.clients[1]? = some ⟨0, .sending req⟩ ∧ req.isLeft = true ∧
        req.camera.isLeft = false :=
  ⟨_, _, rfl, rfl, _, rfl, rfl, rfl⟩

end Server

end Ngp
