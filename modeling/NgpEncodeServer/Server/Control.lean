import NgpEncodeServer.Server.Step

/-!
# `set_camera` as steps of its thread

`CameraManager.setCamera` is one call of `set_camera` as a function; in the server the same call is
a sequence of steps of the control thread, with steps of the other threads in between.  Run without
those, the steps compute the function.
-/

namespace Ngp

open nesproto (Camera)

namespace Server

variable {s : Server}

/-- With the other threads running, the point of the control thread decides whether the process
is. -/
theorem terminated_control (hlive : s.terminated = false) (m : CameraManager) (c : ControlPoint) :
    ({ s with cameramgr := m, control := c } : Server).terminated = c.isRaised := by
  simp only [terminated, Bool.or_eq_false_iff] at hlive ⊢
  obtain ⟨⟨⟨⟨⟨hc, -⟩, h1⟩, h2⟩, h3⟩, h4⟩ := hlive
  simp only [hc, h1, h2, h3, h4, Bool.false_or, Bool.or_false]

/-- A step of the control thread in a running process. -/
theorem step_control (hlive : s.terminated = false) (m : CameraManager) (c : ControlPoint)
    (hc : c.isRaised = false) (b : ControlAction) :
    step { s with cameramgr := m, control := c } (.control b) =
      controlStep { s with cameramgr := m, control := c } b := by
  unfold step
  rw [if_neg (by rw [terminated_control hlive, hc]; decide)]

/-- The steps of the control thread that carry out one call of `set_camera`. -/
def setCameraSteps (m : CameraManager) (e : Bool) (camera : Camera) (scene depth : InitOutcome) :
    List Action :=
  if m.resolutionChanged e camera then
    let scened := m.changeScene e (CameraManager.evenResolution camera) scene
    .control (.setCamera e camera) :: .control (.changeScene scene) ::
      match scened.2 with
      | .error _ => []
      | .ok () => .control (.changeDepth depth) ::
        match (scened.1.changeDepth e (CameraManager.evenResolution camera) depth).2 with
        | .error _ => []
        | .ok () => [.control .store]
  else [.control (.setCamera e camera), .control .store]

/-- Run without the other threads, the steps of the control thread compute `set_camera`: they leave
the same camera manager behind, and the thread is idle again exactly if the call returns
normally. -/
theorem run_setCameraSteps (hlive : s.terminated = false) (hidle : s.control = .idle) (e : Bool)
    (camera : Camera) (scene depth : InitOutcome) :
    ∃ s', step.run s (setCameraSteps s.cameramgr e camera scene depth) = some s' ∧
      s'.cameramgr = (CameraManager.setCamera e s.cameramgr camera scene depth).1 ∧
      (s'.control = .idle ↔
        (CameraManager.setCamera e s.cameramgr camera scene depth).2 = .ok ()) := by
  have hs : s = { s with cameramgr := s.cameramgr, control := .idle } := by rw [← hidle]
  unfold setCameraSteps CameraManager.setCamera
  rw [hs]
  dsimp only
  split
  · rename_i hch
    rcases hscene : s.cameramgr.changeScene e (CameraManager.evenResolution camera) scene
      with ⟨m₁, ex | ⟨⟩⟩
    · refine ⟨{ s with cameramgr := m₁, control := .raised ex }, ?_, rfl, by simp⟩
      rw [Machine.run_cons, step_control hlive _ _ rfl]
      simp only [controlStep, hch, if_true, Option.bind_some]
      rw [Machine.run_cons, step_control hlive _ _ rfl]
      simp only [controlStep, hscene, Option.bind_some, Machine.run_nil]
    · rcases hdepth : m₁.changeDepth e (CameraManager.evenResolution camera) depth
        with ⟨m₂, ex | ⟨⟩⟩
      · refine ⟨{ s with cameramgr := m₂, control := .raised ex }, ?_, rfl, by simp⟩
        rw [Machine.run_cons, step_control hlive _ _ rfl]
        simp only [controlStep, hch, if_true, Option.bind_some]
        rw [Machine.run_cons, step_control hlive _ _ rfl]
        simp only [controlStep, hscene, Option.bind_some]
        rw [Machine.run_cons, step_control hlive _ _ rfl]
        simp only [controlStep, hdepth, Option.bind_some, Machine.run_nil]
      · refine ⟨{ s with
          cameramgr := m₂.storeCamera e (CameraManager.evenResolution camera),
          control := .idle }, ?_, rfl, by simp⟩
        rw [Machine.run_cons, step_control hlive _ _ rfl]
        simp only [controlStep, hch, if_true, Option.bind_some]
        rw [Machine.run_cons, step_control hlive _ _ rfl]
        simp only [controlStep, hscene, Option.bind_some]
        rw [Machine.run_cons, step_control hlive _ _ rfl]
        simp only [controlStep, hdepth, Option.bind_some]
        rw [Machine.run_cons, step_control hlive _ _ rfl]
        simp only [controlStep, Option.bind_some, Machine.run_nil]
  · rename_i hch
    refine ⟨{ s with cameramgr := s.cameramgr.storeCamera e camera, control := .idle }, ?_, rfl,
      by simp⟩
    rw [Machine.run_cons, step_control hlive _ _ rfl]
    simp only [controlStep, hch, Bool.false_eq_true, if_false, Option.bind_some]
    rw [Machine.run_cons, step_control hlive _ _ rfl]
    simp only [controlStep, Option.bind_some, Machine.run_nil]

end Server

end Ngp
