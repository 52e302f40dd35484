import NgpEncodeServer.Server.Resolution

/-!
# Frames and the encoders they are fed to

Between the construction of a left frame and its `send_frame`, the resolution of the left encoders
may change; no lock covers that stretch.  `Server.waiting` lists the sizes of the left frames that
are in between.  They keep fitting the encoders as long as a reinitialization happens only when all
of them have the new size already (`Drained`).
-/

namespace Ngp

open nesproto (Camera)

/-- The sizes fixed for frames of the given eye that a client thread holds. -/
def Client.contexts (c : Client) (e : Bool) (pic : Picture) : List FrameContext :=
  match c.point, pic with
  | .constructingDepth _ frame infoScene, .scene =>
    if frame.isLeft = e then [FrameContext.ofCodecInfo infoScene] else []
  | .pushing f, pic => if f.isLeft = e then [(f.convertedAvframe pic).context] else []
  | _, _ => []

/-- A frame of these properties has the size the encoder is configured with, and the encoder is
open. -/
def FrameContext.Fits (ctx : FrameContext) (m : AVCodecContextManager) : Prop :=
  m.OpenAt ctx.width ctx.height

namespace Server

/-- The sizes fixed for frames of an eye that have not been offered to the encoder of the given
picture. -/
def waiting (s : Server) (e : Bool) (pic : Picture) : List FrameContext :=
  s.clients.flatMap (fun c => c.contexts e pic) ++
    ((s.pipe.get e).waiting pic).map fun f => (f.convertedAvframe pic).context

/-- A left encoder is reinitialized only when every left frame that waits for it has the new
size. -/
def Drained (s : Server) : Action → Prop
  | .control (.changeScene _) =>
    match s.control with
    | .changingScene true camera =>
      ∀ ctx ∈ s.waiting true .scene, ctx.width = camera.width ∧ ctx.height = camera.height
    | _ => True
  | .control (.changeDepth _) =>
    match s.control with
    | .changingDepth true camera =>
      ∀ ctx ∈ s.waiting true .depth, ctx.width = camera.width ∧ ctx.height = camera.height
    | _ => True
  | _ => True

instance (s : Server) (a : Action) : Decidable (s.Drained a) := by
  unfold Drained
  split
  · split <;> infer_instance
  · split <;> infer_instance
  · infer_instance

variable {s s' : Server} {a : Action}

/-! ### The sizes that wait -/

/-- A client thread holds only sizes it held before the step and the one it reads off the codec of
the left eye. -/
private theorem ClientTrans.mem_contexts {c c' : Client} {b : ClientAction} {pic : Picture}
    {e : Bool} {ctx : FrameContext} (ht : ClientTrans s c b s' c') (h : ctx ∈ c'.contexts e pic) :
    ctx ∈ c.contexts e pic ∨
      ctx = FrameContext.ofCodecInfo (s.cameramgr.codec pic).left.info := by
  cases ht with
  | constructScene hat =>
    cases pic with
    | scene =>
      right
      simp only [Client.contexts] at h
      split at h
      · exact List.mem_singleton.mp h
      · cases h
    | depth => simp [Client.contexts] at h
  | @constructDepth receipt frame infoScene hat =>
    cases pic with
    | scene =>
      -- the size of the scene picture has been read by the step before
      left
      have heq : c.contexts e .scene =
          if frame.isLeft = e then [FrameContext.ofCodecInfo infoScene] else [] := by
        simp only [Client.contexts, hat]
      rw [heq]
      exact h
    | depth =>
      right
      simp only [Client.contexts] at h
      split at h
      · exact List.mem_singleton.mp h
      · cases h
  | _ hat => simp [Client.contexts] at h

/-- A size that waits in a pipeline after a step of a pipeline waited there before, or is that of
the frame pushed. -/
private theorem mem_pipe_waiting {p : Pipe} {b : PipeAction} {e e' : Bool} {pic : Picture}
    {ctx : FrameContext} (ht : Pipe.Trans (s.pipe.get e') b p)
    (hpush : ∀ f ∈ b.pushed, (f.convertedAvframe pic).context ∈ s.waiting e' pic)
    (hctx : ctx ∈ (((s.pipe.set e' p).get e).waiting pic).map fun f =>
      (f.convertedAvframe pic).context) : ctx ∈ s.waiting e pic := by
  rcases eq_or_ne e e' with rfl | hne
  · rw [Sided.get_set_self] at hctx
    obtain ⟨f, hf, rfl⟩ := List.mem_map.mp hctx
    refine Pipe.forall_mem_waiting
      (Q := fun f => (f.convertedAvframe pic).context ∈ s.waiting e pic) ?_ ht ?_ hpush f hf
    · intro f
      cases pic <;> exact Iff.rfl
    · exact fun g hg => List.mem_append_right _ (List.mem_map.mpr ⟨g, hg, rfl⟩)
  · rw [Sided.get_set_of_ne _ _ hne] at hctx
    exact List.mem_append_right _ hctx

/-- A size that waits after a step waited before it or is read off the codec of the left eye by the
step. -/
theorem mem_waiting_step (h : Trans s a s') {e : Bool} {pic : Picture} {ctx : FrameContext}
    (hctx : ctx ∈ s'.waiting e pic) :
    ctx ∈ s.waiting e pic ∨
      ctx = FrameContext.ofCodecInfo (s.cameramgr.codec pic).left.info := by
  cases h with
  | connect =>
    left
    simpa [waiting, Client.start, Client.contexts] using hctx
  | @client i c c' b s₁ hc ht =>
    rcases List.mem_append.mp hctx with hclient | hpipe
    · obtain ⟨d, hd, hmem⟩ := List.mem_flatMap.mp hclient
      have hold : ∀ d ∈ s.clients, ctx ∈ d.contexts e pic → ctx ∈ s.waiting e pic :=
        fun d hd hctx => List.mem_append_left _ (List.mem_flatMap.mpr ⟨d, hd, hctx⟩)
      rcases List.mem_or_eq_of_mem_set hd with hd | rfl
      · exact Or.inl (hold d hd hmem)
      · rcases ht.mem_contexts hmem with hmem | hnew
        · exact Or.inl (hold c (List.mem_of_getElem? hc) hmem)
        · exact Or.inr hnew
    · left
      cases ht with
      | @push frame p hat ht =>
        refine mem_pipe_waiting ht (fun f hf => ?_) hpipe
        obtain rfl : f = frame := by simpa [PipeAction.pushed] using hf
        refine List.mem_append_left _ (List.mem_flatMap.mpr ⟨c, List.mem_of_getElem? hc, ?_⟩)
        simp [Client.contexts, hat]
      | _ => exact List.mem_append_right _ hpipe
  | control ht =>
    left
    cases ht <;> exact hctx
  | pipe hpush ht =>
    left
    rcases List.mem_append.mp hctx with hclient | hpipe
    · exact List.mem_append_left _ hclient
    · exact mem_pipe_waiting ht (by simp [hpush]) hpipe

/-! ### The encoders of a running server -/

/-- The encoder is open at the size of its configuration. -/
def InSync (m : AVCodecContextManager) : Prop := m.OpenAt m.info.width m.info.height

/-- As long as no reinitialization has failed, every encoder is in sync with its configuration. -/
def EncodersInSync (s : Server) : Prop :=
  s.control.isRaised = false → ∀ pic e, InSync ((s.cameramgr.codec pic).get e)

theorem encodersInSync_init (info : CodecInitInfo) : EncodersInSync (init info) := by
  intro _ pic e
  cases pic <;> cases e <;> exact ⟨rfl, rfl, _, rfl, rfl, rfl, rfl⟩

/-- An encoder that is reinitialized and opens is in sync. -/
private theorem inSync_get_set {x : Sided AVCodecContextManager} (hx : ∀ e, InSync (x.get e))
    (e e' : Bool) (w h : UInt32) :
    InSync ((x.set e ((x.get e).changeResolution w h .opens).1).get e') := by
  rw [Sided.get_set]
  split
  · exact AVCodecContextManager.openAt_changeResolution _ _ _
  · exact hx e'

/-- Every step keeps the encoders in sync. -/
theorem EncodersInSync.step (h : EncodersInSync s) (ht : Trans s a s') : EncodersInSync s' := by
  cases ht with
  | client hc ht => cases ht <;> exact h
  | control ht =>
    cases ht with
    | changeScene hat =>
      have hsync := h (by rw [hat]; rfl)
      intro _ pic e'
      cases pic with
      | scene => exact inSync_get_set (hsync .scene) _ e' _ _
      | depth => exact hsync .depth e'
    | changeDepth hat =>
      have hsync := h (by rw [hat]; rfl)
      intro _ pic e'
      cases pic with
      | scene => exact hsync .scene e'
      | depth => exact inSync_get_set (hsync .depth) _ e' _ _
    | changeSceneThrows hat => exact fun hraised => Bool.noConfusion hraised
    | changeDepthThrows hat => exact fun hraised => Bool.noConfusion hraised
    | _ hat => exact fun _ => h (by rw [hat]; rfl)
  | _ => exact h

/-- A running server has not been left by an exception of the control thread. -/
theorem isRaised_control_of_not_terminated (h : s.terminated = false) :
    s.control.isRaised = false := by
  simp only [terminated, Bool.or_eq_false_iff] at h
  exact h.1.1.1.1.2

/-! ### The frames of the left eye -/

/-- Every size that waits for a left encoder is the one in its configuration. -/
def LeftFits (s : Server) : Prop :=
  ∀ pic, ∀ ctx ∈ s.waiting true pic, ctx.SizeOf (s.cameramgr.codec pic).left.info

theorem leftFits_init (info : CodecInitInfo) : LeftFits (init info) := by
  intro pic ctx hctx
  cases pic <;> exact absurd hctx List.not_mem_nil

/-- The left configuration after a reinitialization of one of the eyes. -/
private theorem left_info_set (x : Sided AVCodecContextManager) (e : Bool) (w h : UInt32)
    (o : InitOutcome) : (x.set e ((x.get e).changeResolution w h o).1).left.info =
      if e = true then { x.left.info with width := w, height := h } else x.left.info := by
  cases e <;> simp

/-- A reinitialization of one of the encoders for a picture keeps the sizes that wait fitting, if
they are the new ones in the case of the left eye. -/
private theorem sizeOf_of_change {x : Sided AVCodecContextManager} {e : Bool} {w h : UInt32}
    (o : InitOutcome) {ctx : FrameContext} (hctx : ctx.SizeOf x.left.info)
    (hnew : e = true → ctx.width = w ∧ ctx.height = h) :
    ctx.SizeOf (x.set e ((x.get e).changeResolution w h o).1).left.info := by
  rw [left_info_set]
  split
  · exact hnew ‹_›
  · exact hctx

/-- A step of the control thread that meets the condition keeps the sizes that wait fitting. -/
private theorem LeftFits.control (h : LeftFits s) {b : ControlAction} (ht : ControlTrans s b s')
    (hdrained : s.Drained (.control b)) {pic : Picture} {ctx : FrameContext}
    (hctx : ctx ∈ s.waiting true pic) : ctx.SizeOf (s'.cameramgr.codec pic).left.info := by
  have hold := h pic ctx hctx
  have hscene : ∀ e camera, s.control = .changingScene e camera → s.Drained (.control b) →
      (∃ o, b = .changeScene o) → e = true → pic = .scene →
        ctx.width = camera.width ∧ ctx.height = camera.height := by
    rintro e camera hat hdrained ⟨o, rfl⟩ rfl rfl
    simp only [Drained, hat] at hdrained
    exact hdrained ctx hctx
  have hdepth : ∀ e camera, s.control = .changingDepth e camera → s.Drained (.control b) →
      (∃ o, b = .changeDepth o) → e = true → pic = .depth →
        ctx.width = camera.width ∧ ctx.height = camera.height := by
    rintro e camera hat hdrained ⟨o, rfl⟩ rfl rfl
    simp only [Drained, hat] at hdrained
    exact hdrained ctx hctx
  cases ht with
  | changeScene hat | changeSceneThrows hat =>
    cases pic with
    | scene => exact sizeOf_of_change _ hold fun he => hscene _ _ hat hdrained ⟨_, rfl⟩ he rfl
    | depth => exact hold
  | changeDepth hat | changeDepthThrows hat =>
    cases pic with
    | scene => exact hold
    | depth => exact sizeOf_of_change _ hold fun he => hdepth _ _ hat hdrained ⟨_, rfl⟩ he rfl
  | _ => exact hold

/-- Every step that meets the condition keeps the sizes that wait fitting. -/
theorem LeftFits.step (h : LeftFits s) (ht : Trans s a s') (hdrained : s.Drained a) :
    LeftFits s' := by
  intro pic ctx hctx
  have hmem := mem_waiting_step ht hctx
  have hbefore : ctx.SizeOf (s.cameramgr.codec pic).left.info := by
    rcases hmem with hmem | rfl
    · exact h pic ctx hmem
    · exact ⟨rfl, rfl⟩
  cases ht with
  | client hc ht => cases ht <;> exact hbefore
  | control ht =>
    refine h.control ht hdrained ?_
    cases ht <;> exact hctx
  | _ => exact hbefore

/-- In every run in which a left encoder is reinitialized only when all left frames that wait for it
have the new size: whenever the left `send_frame_thread` passes a frame to the scene or the depth
encoder, that encoder is open and configured with the size of the frame. -/
theorem sends_fit {info : CodecInitInfo} {as : List Action}
    (hrun : (step.guarded Drained).run (init info) as = some s) :
    (∀ f ret s', s.pipe.left.send = .sendingScene f →
      step s (.pipe true (.sendScene ret)) = some s' →
        f.convertedAvframeScene.context.Fits s.cameramgr.codecScene.left) ∧
    (∀ f ret s', s.pipe.left.send = .sendingDepth f →
      step s (.pipe true (.sendDepth ret)) = some s' →
        f.convertedAvframeDepth.context.Fits s.cameramgr.codecDepth.left) := by
  have hsync : EncodersInSync s := Machine.run_invariant (encodersInSync_init info)
    (fun _ _ _ h hs => h.step (trans_of_step hs).1) (Machine.run_of_run_guarded hrun)
  have hfits : LeftFits s := by
    apply Machine.run_guarded_invariant (leftFits_init info) _ hrun
    intro s a s' h hdrained hs
    exact h.step (trans_of_step hs).1 hdrained
  -- a frame that is passed to an encoder has been waiting for it
  have hfit : ∀ pic f s' b, f ∈ s.pipe.left.send.todo pic → step s (.pipe true b) = some s' →
      (f.convertedAvframe pic).context.Fits (s.cameramgr.codec pic).left := by
    intro pic f s' b hf hstep
    have hwait : (f.convertedAvframe pic).context ∈ s.waiting true pic :=
      List.mem_append_right _ (List.mem_map.mpr ⟨f, List.mem_append_right _ hf, rfl⟩)
    obtain ⟨hw, hh⟩ := hfits pic _ hwait
    have hopen := hsync (isRaised_control_of_not_terminated (trans_of_step hstep).2) pic true
    unfold FrameContext.Fits
    rw [hw, hh]
    exact hopen
  refine ⟨fun f ret s' hat hstep => ?_, fun f ret s' hat hstep => ?_⟩
  · exact hfit .scene f s' _ (by simp [hat, SendPoint.todo, SendPoint.sceneTodo]) hstep
  · exact hfit .depth f s' _ (by simp [hat, SendPoint.todo, SendPoint.depthTodo]) hstep

/-- A left frame from the renderer to the point where it is passed to the scene encoder. -/
def leftFrameTaken : List Action :=
  .connect :: iteration 0 {} ++ iteration 0 { isLeft := true } ++ processing true ++
    [.pipe true .getDelete]

/-- The camera of a new resolution. -/
def smallCamera : Camera := { isLeft := true, width := 640, height := 480 }

/-- After a change of the resolution with no frame waiting, the next frame fits. -/
theorem sends_fit_changedBefore :
    ∃ s f, (step.guarded Drained).run (init defaultInitInfo)
        (resizing true smallCamera ++ leftFrameTaken) = some s ∧
      s.pipe.left.send = .sendingScene f ∧
      f.convertedAvframeScene.context.Fits s.cameramgr.codecScene.left :=
  ⟨_, _, rfl, rfl, (@sends_fit _ defaultInitInfo (resizing true smallCamera ++ leftFrameTaken)
    rfl).1 _ 0 _ rfl rfl⟩

/-- When the resolution changes while a frame is on its way, the frame is passed to the scene
encoder with the size from before the change. -/
theorem frame_outlives_resolution :
    ∃ s f s', step.run (init defaultInitInfo)
        (leftFrameTaken ++ resizing true smallCamera) = some s ∧
      s.pipe.left.send = .sendingScene f ∧ step s (.pipe true (.sendScene 0)) = some s' ∧
      ¬f.convertedAvframeScene.context.Fits s.cameramgr.codecScene.left := by
  refine ⟨_, _, _, rfl, rfl, rfl, fun hfits => ?_⟩
  exact absurd hfits.info_width (by decide)

end Server

end Ngp
