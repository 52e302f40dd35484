import NgpEncodeServer.Base.Reinitialize
import NgpEncodeServer.Foundation.Observe
import NgpEncodeServer.Server.Eyes

/-!
# The camera of a request

While the camera control server takes up one message after the other, client threads read the
stored cameras between any two of its steps.  As long as no camera is copied while it is assigned,
which no lock rules out, each eye's camera is a register: what a request carries is the camera of
the last message for its eye whose `set_camera` has stored it, made even, and every message before
the one that is being set has been stored (`camerasKept_run`).
-/

namespace Ngp

open nesproto (Camera)

namespace ControlPoint

/-- The camera that is being set for the eye. -/
def pending (p : ControlPoint) (e : Bool) : List Camera :=
  match p.setting with
  | some (e', camera) => if e' = e then [camera] else []
  | none => []

@[simp] theorem pending_idle (e : Bool) : pending .idle e = [] := rfl

end ControlPoint

/-- The camera that is assigned here is the one that the client thread is to copy there. -/
def ControlPoint.assignsTo : ControlPoint → ClientPoint → Bool
  | .storing e _, .allocated e' _ => e = e'
  | _, _ => false

namespace Server

open CameraManager (evenResolution evenResolution_eq_self StoredEven)

/-- The camera of a message for the eye that the camera control server takes up. -/
def messageFor (e : Bool) : Action → Option Camera
  | .control (.setCamera e' camera) => if e' = e then some camera else none
  | _ => none

/-- The cameras of the messages for the eye, in the order in which they are taken up. -/
def messages (e : Bool) (as : List Action) : List Camera := as.filterMap (messageFor e)

/-- A step that takes up no message. -/
theorem messages_concat_of_none {e : Bool} {a : Action} (h : messageFor e a = none)
    (as : List Action) : messages e (as ++ [a]) = messages e as := by
  rw [messages, List.filterMap_append, List.filterMap_cons_none h, List.filterMap_nil,
    List.append_nil]
  rfl

/-- A step that takes up a message. -/
theorem messages_concat_of_some {e : Bool} {a : Action} {camera : Camera}
    (h : messageFor e a = some camera) (as : List Action) :
    messages e (as ++ [a]) = messages e as ++ [camera] := by
  rw [messages, List.filterMap_append, List.filterMap_cons_some h, List.filterMap_nil]
  rfl

/-- The camera that the step stores for the eye. -/
def storedBy (e : Bool) (s : Server) (a : Action) : List Camera :=
  match a with
  | .control .store => s.control.pending e
  | _ => []

/-- The cameras stored for the eye, in order. -/
def stored (info : CodecInitInfo) (e : Bool) (as : List Action) : List Camera :=
  step.observed (storedBy e) (init info) as

/-- The camera of the eye is the last one stored, and the cameras stored are those of the messages,
made even, in order, up to the one that is being set. -/
structure CamerasKept (info : CodecInitInfo) (as : List Action) (s : Server) : Prop where
  even : StoredEven s.cameramgr
  setting : ∀ e camera, s.control.setting = some (e, camera) → evenResolution camera = camera
  current : ∀ e, s.cameramgr.camera.get e =
    (stored info e as).getLast?.getD ((init info).cameramgr.camera.get e)
  taken : s.control.isRaised = false → ∀ e,
    (messages e as).map evenResolution = stored info e as ++ s.control.pending e

variable {info : CodecInitInfo} {s s' : Server} {a : Action} {as : List Action}

/-- A step that stores nothing. -/
theorem stored_concat_of_nil {e : Bool} (hrun : step.run (init info) as = some s)
    (h : storedBy e s a = []) : stored info e (as ++ [a]) = stored info e as := by
  rw [stored, Machine.observed_concat hrun, h, List.append_nil]
  rfl

/-- A step that leaves the cameras and the one being set alone. -/
theorem CamerasKept.of_same (h : CamerasKept info as s) (hrun : step.run (init info) as = some s)
    (hstored : ∀ e, storedBy e s a = []) (hmessage : ∀ e, messageFor e a = none)
    (hcamera : s'.cameramgr.camera = s.cameramgr.camera)
    (hsetting : s'.control.setting = s.control.setting)
    (hraised : s'.control.isRaised = s.control.isRaised) : CamerasKept info (as ++ [a]) s' where
  even e := by
    rw [hcamera]
    exact h.even e
  setting := by
    rw [hsetting]
    exact h.setting
  current e := by
    rw [hcamera, stored_concat_of_nil hrun (hstored e)]
    exact h.current e
  taken hlive e := by
    have hpending : s'.control.pending e = s.control.pending e := by
      unfold ControlPoint.pending
      rw [hsetting]
    rw [messages_concat_of_none (hmessage e), stored_concat_of_nil hrun (hstored e), hpending]
    exact h.taken (hraised ▸ hlive) e

/-- A message that is taken up while the thread is idle. -/
theorem CamerasKept.of_message (h : CamerasKept info as s)
    (hrun : step.run (init info) as = some s) (hidle : s.control = .idle) {e : Bool}
    {camera : Camera} (hcamera : s'.cameramgr = s.cameramgr)
    (hsetting : s'.control.setting = some (e, evenResolution camera))
    (heven : evenResolution (evenResolution camera) = evenResolution camera) :
    CamerasKept info (as ++ [.control (.setCamera e camera)]) s' where
  even := by
    rw [hcamera]
    exact h.even
  setting := by
    rw [hsetting]
    rintro e' camera' ⟨⟩
    exact heven
  current e' := by
    rw [hcamera, stored_concat_of_nil hrun rfl]
    exact h.current e'
  taken _ e' := by
    have htaken := h.taken (by rw [hidle]; rfl) e'
    rw [hidle, ControlPoint.pending_idle, List.append_nil] at htaken
    rw [stored_concat_of_nil hrun rfl, ← htaken]
    by_cases he : e = e'
    · have hmessage : messageFor e' (.control (.setCamera e camera)) = some camera := if_pos he
      rw [messages_concat_of_some hmessage, List.map_append]
      simp [ControlPoint.pending, hsetting, he]
    · have hmessage : messageFor e' (.control (.setCamera e camera)) = none := if_neg he
      rw [messages_concat_of_none hmessage]
      simp [ControlPoint.pending, hsetting, he]

/-- An even camera is stored for its eye. -/
theorem CamerasKept.of_store (h : CamerasKept info as s) (hrun : step.run (init info) as = some s)
    {e : Bool} {camera : Camera} (hat : s.control = .storing e camera) :
    CamerasKept info (as ++ [.control .store])
      { s with cameramgr := s.cameramgr.storeCamera e camera, control := .idle } := by
  have hstored : ∀ e', stored info e' (as ++ [.control .store]) =
      stored info e' as ++ s.control.pending e' := by
    intro e'
    rw [stored, Machine.observed_concat hrun]
    rfl
  have hpending : ∀ e', s.control.pending e' = if e = e' then [camera] else [] := by
    intro e'
    rw [hat]
    rfl
  refine ⟨?_, by rintro e' camera' ⟨⟩, ?_, ?_⟩
  · intro e'
    have heven : evenResolution camera = camera := h.setting e camera (by rw [hat]; rfl)
    rcases eq_or_ne e' e with rfl | hne
    · change ((s.cameramgr.camera.set e' camera).get e').width % 2 = 0 ∧
        ((s.cameramgr.camera.set e' camera).get e').height % 2 = 0
      rw [Sided.get_set_self, ← heven]
      exact ⟨divisibleByTwo_mod_two _, divisibleByTwo_mod_two _⟩
    · change ((s.cameramgr.camera.set e camera).get e').width % 2 = 0 ∧
        ((s.cameramgr.camera.set e camera).get e').height % 2 = 0
      rw [Sided.get_set_of_ne _ _ hne]
      exact h.even e'
  · intro e'
    change (s.cameramgr.camera.set e camera).get e' = _
    rw [hstored, hpending]
    rcases eq_or_ne e' e with rfl | hne
    · rw [Sided.get_set_self, if_pos rfl, List.getLast?_concat]
      rfl
    · rw [Sided.get_set_of_ne _ _ hne, if_neg hne.symm, List.append_nil]
      exact h.current e'
  · intro _ e'
    rw [messages_concat_of_none rfl, hstored, ControlPoint.pending_idle, List.append_nil]
    exact h.taken (by rw [hat]; rfl) e'

/-- Every step keeps the cameras. -/
theorem CamerasKept.step (h : CamerasKept info as s) (hrun : step.run (init info) as = some s)
    (ht : Trans s a s') : CamerasKept info (as ++ [a]) s' := by
  cases ht with
  | connect | pipe =>
    exact h.of_same hrun (fun _ => rfl) (fun _ => rfl) rfl rfl rfl
  | client hc ht =>
    obtain ⟨hcameramgr, hcontrol⟩ := (Trans.client hc ht).cameramgr_eq (by simp)
    refine h.of_same hrun (fun _ => rfl) (fun _ => rfl) ?_ ?_ ?_
    · rw [hcameramgr]
    · rw [hcontrol]
    · rw [hcontrol]
  | control ht =>
    cases ht with
    | @changing e camera hat hch =>
      refine h.of_message hrun hat rfl rfl ?_
      exact evenResolution_eq_self (divisibleByTwo_mod_two _) (divisibleByTwo_mod_two _)
    | @keeping e camera hat hch =>
      -- the size is the stored one, which is even
      obtain ⟨hw, hh⟩ : (s.cameramgr.camera.get e).width = camera.width ∧
          (s.cameramgr.camera.get e).height = camera.height := by
        simpa [CameraManager.resolutionChanged] using hch
      have heven : evenResolution camera = camera :=
        evenResolution_eq_self (hw ▸ (h.even e).1) (hh ▸ (h.even e).2)
      refine h.of_message hrun hat rfl ?_ (by rw [heven, heven])
      rw [heven]
      rfl
    | changeScene hat | changeDepth hat =>
      refine h.of_same hrun (fun _ => rfl) (fun _ => rfl) rfl ?_ ?_
      · rw [hat]
        rfl
      · rw [hat]
        rfl
    | changeSceneThrows hat | changeDepthThrows hat =>
      refine ⟨h.even, by rintro e camera ⟨⟩, ?_, by rintro ⟨⟩⟩
      intro e
      rw [stored_concat_of_nil hrun rfl]
      exact h.current e
    | store hat => exact h.of_store hrun hat

/-- The cameras in every state, with an even size from the flags. -/
theorem camerasKept_run (hwidth : info.width % 2 = 0) (hheight : info.height % 2 = 0)
    (hrun : step.run (init info) as = some s) : CamerasKept info as s := by
  refine Machine.run_induction (P := CamerasKept info) ?_ ?_ hrun
  · refine ⟨?_, by rintro e camera ⟨⟩, fun _ => rfl, fun _ _ => rfl⟩
    intro e
    cases e <;> exact ⟨hwidth, hheight⟩
  · intro as s a s' hrun ih hstep
    exact ih.step hrun (trans_of_step hstep).1

/-- While the camera of an eye is assigned, no client thread is between the draw of an index for the
eye and the end of its copy of the camera. -/
def CopiesApart (s : Server) (_ : Action) : Prop :=
  ∀ c ∈ s.clients, s.control.assignsTo c.point = false

instance (s : Server) (a : Action) : Decidable (s.CopiesApart a) :=
  inferInstanceAs (Decidable (∀ c ∈ s.clients, s.control.assignsTo c.point = false))

/-- With an even size from the flags, in every run in which no camera is copied while it is
assigned, and whatever the encoders do: a request for an eye carries the camera that was last stored
for that eye, or the initial one; and the cameras stored for the eye are those of the messages for
it, made even, all of them and in order, but for the one that is being set. -/
theorem request_camera {i : ℕ} (hwidth : info.width % 2 = 0) (hheight : info.height % 2 = 0)
    (hapart : (step.guarded CopiesApart).run (init info) as = some s)
    (hcopy : step.guarded CopiesApart s (.client i .build) = some s') :
    ∃ ret e index req, s.clients[i]? = some ⟨ret, .allocated e index⟩ ∧
      s'.clients[i]? = some ⟨ret, .sending req⟩ ∧ req.isLeft = e ∧
      req.camera =
        (stored info e as).getLast?.getD ((init info).cameramgr.camera.get e) ∧
      (messages e as).map evenResolution = stored info e as ++ s.control.pending e := by
  have hkept := camerasKept_run hwidth hheight (Machine.run_of_run_guarded hapart)
  obtain ⟨ht, hlive⟩ := trans_of_step (Machine.guarded_eq_some_iff.mp hcopy).2
  have hcontrol : s.control.isRaised = false := by
    simp only [terminated, Bool.or_eq_false_iff] at hlive
    exact hlive.1.1.1.1.2
  cases ht with
  | @client _ c _ _ _ hc ht =>
    obtain ⟨ret, point⟩ := c
    cases ht with
    | @build e index hat =>
      obtain rfl : point = .allocated e index := hat
      exact ⟨ret, e, index, _, hc,
        List.getElem?_set_self (List.getElem?_eq_some_iff.mp hc).1, rfl, hkept.current e,
        hkept.taken hcontrol e⟩

/-- Two messages for the left eye, the second one with an odd size and not stored yet when the
request is built. -/
def setsTwice : List Action :=
  [.control (.setCamera true { isLeft := true, width := 641, height := 480 }),
    .control (.changeScene .opens), .control (.changeDepth .opens), .control .store,
    .control (.setCamera true { isLeft := true, width := 801, height := 601 }),
    .control (.changeScene .opens)] ++ drawsBoth

/-- The request carries the camera of the first message, made even. -/
theorem request_camera_setsTwice :
    ∃ s s', (step.guarded CopiesApart).run (init defaultInitInfo) setsTwice = some s ∧
      step.guarded CopiesApart s (.client 1 .build) = some s' ∧
      ∃ req, s'.clients[1]? = some ⟨0, .sending req⟩ ∧ req.isLeft = true ∧
        req.camera = { isLeft := true, width := 640, height := 480 } := by
  obtain ⟨ret, e, index, req, hc, hc', hleft, hcamera, -⟩ :=
    @request_camera defaultInitInfo _ _ setsTwice 1 rfl rfl rfl rfl
  cases hc
  exact ⟨_, _, rfl, rfl, req, hc', hleft, hcamera⟩

end Server

end Ngp
